import Simulcast.Json.StringLiteral
/-!
# Writing JSON documents

Documents are written without blanks: members and items are separated by a comma,
a key from its value by a colon.
-/

namespace Simulcast

namespace Json

/-- An object of keys and written values. -/
def object (members : List (String × String)) : String :=
  "\x7b" ++ ",".intercalate (members.map fun m => quote m.1 ++ ":" ++ m.2) ++ "\x7d"

/-- A list of written items. -/
def list (items : List String) : String := "[" ++ ",".intercalate items ++ "]"

/-- A truth value. -/
def bool (b : Bool) : String := if b then "true" else "false"

/-- An integer. -/
def unsigned (n : UInt64) : String := n.toNat.repr

end Json

end Simulcast
