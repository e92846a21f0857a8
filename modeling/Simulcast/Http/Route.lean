import Simulcast.Http.Message
import Simulcast.Http.Target
import Simulcast.Text.Percent
import Simulcast.Text.Utf8
/-!
# Routes

Which endpoint a path names.  A path is matched as it was sent; only a parameter is
percent-decoded, once, and an escape that is none stays as it is.  A parameter is
exactly one segment that is not empty.
-/

namespace Simulcast

namespace Http

/-- An endpoint, with its parameter as it was sent. -/
inductive Route where
  /-- Broadcasters. -/
  | whip
  /-- Viewers. -/
  | whep
  /-- The layers of a viewer's stream. -/
  | layers (session : String)
  /-- The layer of a viewer. -/
  | layer (session : String)
  /-- The live streams. -/
  | status
  /-- One stream. -/
  | streamStatus (key : String)
  deriving DecidableEq, Repr

/-- The segments of a target's path behind its first slash. -/
def segments (target : String) : Option (List String) :=
  match targetPath? target with
  | some ('/' :: path) => some ((path.splitOn '/').map String.ofList)
  | _ => none

namespace Route

/-- The endpoint that a target names. -/
def ofTarget? (target : String) : Option Route :=
  match segments target with
  | some ["whip"] => some whip
  | some ["whep"] => some whep
  | some ["status"] => some status
  | some ["whep", "sse", id] => if id = "" then none else some (layers id)
  | some ["whep", "layer", id] => if id = "" then none else some (layer id)
  | some ["status", key] => if key = "" then none else some (streamStatus key)
  | _ => none

/-- The methods of an endpoint. -/
def methods : Route → List Method
  | whip => [.post, .delete]
  | whep | layer _ => [.post]
  | layers _ | status | streamStatus _ => [.get, .head]

/-- The methods of an endpoint, as they are announced. -/
def allow : Route → String
  | whip => "POST,DELETE"
  | whep | layer _ => "POST"
  | layers _ | status | streamStatus _ => "GET,HEAD"

end Route

/-- A parameter of a path, decoded; the name is for the fault. -/
def pathParameter (name raw : String) : Except Response String :=
  match Utf8.decodeString (Percent.decode (Utf8.encode raw)) with
  | .ok text => .ok text
  | .error _ => .error (.text 400 ("Invalid URL: Invalid UTF-8 in `" ++ name ++ "`"))

end Http

end Simulcast
