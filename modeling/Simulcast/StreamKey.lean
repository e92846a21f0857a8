import Simulcast.Text.Utf8
/-!
# Stream keys

A broadcaster is admitted by its stream key.  The candidate is compared with every
configured key, byte by byte and to the end, so that the time taken does not tell
how much of a key was guessed.  If a temporary key is set it alone is accepted.
The key that was last accepted is remembered until it is cleared by name.
-/

namespace Simulcast

/-- Whether two byte strings are equal: the lengths agree and no pair of bytes
differs.  The differences of all pairs are gathered before the verdict. -/
def sameBytes (a b : List UInt8) : Bool :=
  a.length == b.length && (a.zip b).foldl (fun diff p => diff ||| (p.1 ^^^ p.2)) 0 == 0

/-- Decides which stream keys are accepted. -/
structure KeyValidator where
  /-- The configured keys. -/
  keys : List String := []
  /-- The temporary key; if there is one, it is the only one accepted. -/
  temporaryKey : Option String := none
  /-- The key that was accepted last. -/
  lastMatched : Option String := none
  deriving DecidableEq, Repr, Inhabited

namespace KeyValidator

/-- A validator for a list of keys. -/
def ofKeys (keys : List String) : KeyValidator := { keys }

/-- A validator for a list of keys and a temporary key; an empty temporary key
counts as none. -/
def withTemporaryKey (keys : List String) (temporaryKey : Option String) : KeyValidator :=
  { keys, temporaryKey := temporaryKey.filter (· ≠ "") }

/-- Whether a candidate is accepted. -/
def accepts (v : KeyValidator) (candidate : String) : Bool :=
  let same (key : String) := sameBytes (Utf8.encode candidate) (Utf8.encode key)
  match v.temporaryKey with
  | some key => same key
  | none => v.keys.foldl (fun found key => found || same key) false

/-- Checks a candidate and remembers it if it is accepted. -/
def validate (v : KeyValidator) (candidate : String) : Bool × KeyValidator :=
  if v.accepts candidate then (true, { v with lastMatched := some candidate }) else (false, v)

/-- Replaces the configured keys. -/
def setKeys (v : KeyValidator) (keys : List String) : KeyValidator := { v with keys }

/-- Forgets the remembered key if it is the given one. -/
def clearLastMatched (v : KeyValidator) (key : String) : KeyValidator :=
  if v.lastMatched = some key then { v with lastMatched := none } else v

end KeyValidator

end Simulcast
