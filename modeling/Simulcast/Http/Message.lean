import Simulcast.Address
import Simulcast.Http.Target
import Simulcast.RelayError
/-!
# HTTP messages

Requests and responses, as far as the relay looks at them.
-/

namespace Simulcast

namespace Http

/-- A request method. -/
inductive Method where
  | get
  | head
  | post
  | delete
  | options
  | other (name : String)
  deriving DecidableEq, Repr

/-- The method with a name. -/
def Method.ofName (name : String) : Method :=
  if name = "GET" then get
  else if name = "HEAD" then head
  else if name = "POST" then post
  else if name = "DELETE" then delete
  else if name = "OPTIONS" then options
  else other name

/-- The name of a method. -/
def Method.name : Method → String
  | get => "GET"
  | head => "HEAD"
  | post => "POST"
  | delete => "DELETE"
  | options => "OPTIONS"
  | other name => name

/-- A request. -/
structure Request where
  method : Method
  /-- What the request names, as it was sent. -/
  target : String
  headers : List (String × List UInt8) := []
  body : List UInt8 := []
  /-- Where the request came from. -/
  peer : Option SocketAddress := none
  deriving DecidableEq, Repr

/-- Whether a byte may stand in the value of a header. -/
def isHeaderByte (b : UInt8) : Bool := b = 9 || (32 ≤ b && b ≠ 127)

/-- Whether a request is one at all. -/
def Request.isWellFormed (req : Request) : Bool :=
  isToken req.method.name && (targetPath? req.target).isSome &&
    req.headers.all fun h => isToken h.1 && h.2.all isHeaderByte

/-- A response. -/
structure Response where
  status : Nat
  headers : List (String × String) := []
  body : String := ""
  deriving DecidableEq, Repr, Inhabited

namespace Response

/-- A response with a plain text. -/
def text (status : Nat) (body : String) : Response :=
  { status, headers := [("content-type", "text/plain; charset=utf-8")], body }

/-- A response with a JSON text. -/
def json (body : String) : Response :=
  { status := 200, headers := [("content-type", "application/json")], body }

/-- The response without its body. -/
def withoutBody (r : Response) : Response := { r with body := "" }

/-- The response with more headers. -/
def withHeaders (r : Response) (headers : List (String × String)) : Response :=
  { r with headers := r.headers ++ headers }

/-- The status that tells of an error. -/
def errorStatus (e : RelayError) : Nat :=
  if e.isNotFound then 404
  else
    match e with
    | .network _ => 500
    | _ => 400

/-- The response that tells of an error. -/
def ofError (e : RelayError) : Response := text (errorStatus e) e.message

end Response

end Http

end Simulcast
