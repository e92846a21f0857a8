import Simulcast.Http.Message
/-!
# Authorization

How the stream key is read from a request's `authorization` header.  A broadcaster
writes `Bearer KEY`; a viewer may leave the word away.  Blanks around the key do not
count, and an empty key counts as none.
-/

namespace Simulcast

namespace Http

/-- Whether a byte of a header value is visible, a blank or a tab. -/
def isVisible (b : UInt8) : Bool := (32 ≤ b && b < 127) || b = 9

/-- The text of a header value; none if a byte of it is not visible. -/
def headerText (value : List UInt8) : Option (List Char) :=
  if value.all isVisible then some (value.map fun b => Char.ofNat b.toNat) else none

/-- The value of the first `authorization` header; empty if there is none. -/
def authorization (headers : List (String × List UInt8)) : List Char :=
  let isIt (name : String) : Bool := name.toList.map Char.toLower = "authorization".toList
  let value := (headers.find? fun h => isIt h.1).map (·.2)
  (value.bind headerText).getD []

/-- A blank or a tab. -/
def isBlankChar (c : Char) : Bool := c = ' ' || c = '\t'

/-- The text without blanks at its ends. -/
def trim (cs : List Char) : List Char :=
  ((cs.dropWhile isBlankChar).reverse.dropWhile isBlankChar).reverse

/-- The word before a broadcaster's key. -/
def bearer : List Char := "Bearer ".toList

/-- What follows the word before the key, if the word is there. -/
def afterBearer (cs : List Char) : Option (List Char) :=
  if bearer.isPrefixOf cs then some (cs.drop bearer.length) else none

/-- A key that is not empty. -/
def nonemptyKey (cs : List Char) : Except RelayError String :=
  if cs.isEmpty then .error .missingAuthorization else .ok (String.ofList cs)

/-- The key of a broadcaster. -/
def bearerKey (headers : List (String × List UInt8)) : Except RelayError String :=
  nonemptyKey (trim ((afterBearer (authorization headers)).getD []))

/-- The key of a viewer. -/
def viewerKey (headers : List (String × List UInt8)) : Except RelayError String :=
  let value := authorization headers
  nonemptyKey (trim ((afterBearer value).getD value))

end Http

end Simulcast
