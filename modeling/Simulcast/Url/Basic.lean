import Simulcast.Url.Host
/-!
# URLs

The parts of a URL: `scheme://user@host:port/path?query#fragment`.  Of these the scheme,
the host and the query are kept; the others are only checked.

Blanks and controls around a URL do not count, nor do tabs and line breaks inside it.
In the schemes of the web and of files a backslash is as good as a slash.
-/

namespace Simulcast

/-- A URL. -/
structure Url where
  /-- The scheme, in lower case. -/
  scheme : String
  /-- The host as it is written, if there is one. -/
  host : Option String := none
  /-- What stands between the question mark and the fragment. -/
  query : Option String := none
  deriving DecidableEq, Repr

namespace Url

/-! ### The scheme -/

/-- The characters of a URL that count. -/
def clean (text : String) : List Char :=
  let isOuter (c : Char) : Bool := c.toNat ≤ 0x20
  let inner := ((text.toList.dropWhile isOuter).reverse.dropWhile isOuter).reverse
  inner.filter fun c => c ≠ '\t' ∧ c ≠ '\n' ∧ c ≠ '\r'

/-- Whether a character may stand in a scheme. -/
def isSchemeChar (c : Char) : Bool := c.isAlphanum || c = '+' || c = '-' || c = '.'

/-- The scheme at the start of a URL, and what follows its colon. -/
def readScheme (s : List Char) : Option (String × List Char) :=
  match s.takeWhile isSchemeChar, s.dropWhile isSchemeChar with
  | c :: name, ':' :: rest =>
    if c.isAlpha then some (String.ofList ((c :: name).map Char.toLower), rest) else none
  | _, _ => none

/-! ### The authority -/

/-- Whether a character separates the segments of a path. -/
def isSlash (family : Family) (c : Char) : Bool := c = '/' || (c = '\\' && family ≠ .general)

/-- Whether a character ends the authority. -/
def endsAuthority (family : Family) (c : Char) : Bool := isSlash family c || c = '?' || c = '#'

/-- The authority at the start of a text, and what follows it. -/
def takeAuthority (family : Family) (s : List Char) : List Char × List Char :=
  (s.takeWhile (!endsAuthority family ·), s.dropWhile (!endsAuthority family ·))

/-- The authority, if there is one, and what follows it.  In the schemes of the web any
number of slashes stands before it, elsewhere exactly two. -/
def splitAuthority (family : Family) (s : List Char) : Option (List Char) × List Char :=
  match family with
  | .web => (takeAuthority family (s.dropWhile (isSlash family))).map some id
  | _ =>
    match s with
    | a :: b :: rest =>
      if isSlash family a && isSlash family b then (takeAuthority family rest).map some id
      else (none, s)
    | _ => (none, s)

/-- The part of an authority before its last at sign, and the part behind it. -/
def splitUser (authority : List Char) : Option (List Char) × List Char :=
  match authority.reverse.dropWhile (· ≠ '@') with
  | _ :: user => (some user.reverse, (authority.reverse.takeWhile (· ≠ '@')).reverse)
  | [] => (none, authority)

/-- The host before the first colon outside brackets, and the port behind it. -/
def splitPort : (bracketed : Bool) → List Char → List Char × Option (List Char)
  | _, [] => ([], none)
  | bracketed, c :: rest =>
    if c = ':' && !bracketed then ([], some rest)
    else
      let bracketed := if c = '[' then true else if c = ']' then false else bracketed
      let (host, port) := splitPort bracketed rest
      (c :: host, port)

/-- Whether a port may be written so: decimal digits up to 65535, or nothing.  A
backslash ends it in any scheme. -/
def isPort (s : List Char) : Bool :=
  match Address.digits 10 (s.takeWhile (· ≠ '\\')) with
  | (ds, []) => ds.foldl (fun n d => n * 10 + d) 0 < 65536
  | _ => false

/-- Whether the part before the at sign names a user or a password. -/
def namesUser (user : Option (List Char)) : Bool :=
  match user with
  | some [] | some [':'] | none => false
  | some _ => true

/-- The host of an authority, if it has one.  `more` tells whether anything follows the
authority. -/
def hostOf (family : Family) (authority : List Char) (more : Bool) :
    Except Fault (Option (List Char)) :=
  let (user, place) := splitUser authority
  let (host, port) := splitPort false place
  if host.isEmpty then
    if family = .web || port.isSome || namesUser user || (user = some [] && more) then
      .error .emptyHost
    else .ok none
  else
    match hostFault family host with
    | some fault => .error fault
    | none => if port.all isPort then .ok (some host) else .error .port

/-! ### Files -/

/-- Whether a text names a drive. -/
def isDrive (s : List Char) : Bool :=
  match s with
  | [letter, mark] => letter.isAlpha && (mark = ':' || mark = '|')
  | _ => false

/-- The first segment of a path. -/
def firstSegment (path : List Char) : List Char :=
  match path with
  | slash :: rest => if isSlash .file slash then rest.takeWhile (!endsAuthority .file ·) else []
  | [] => []

/-- The host of a file, if it is not this one.  A path that starts with a drive has no
host. -/
def fileHostOf (authority path : List Char) : Except Fault (Option (List Char)) :=
  if authority.isEmpty || isDrive authority then .ok none
  else
    match hostFault .file authority with
    | some fault => .error fault
    | none =>
      if isDrive (firstSegment path) || (domain authority).toOption = some "localhost".toList then
        .ok none
      else .ok (some authority)

/-! ### The whole -/

/-- The query in what follows an authority. -/
def queryOf (tail : List Char) : Option (List Char) :=
  match (tail.takeWhile (· ≠ '#')).dropWhile (· ≠ '?') with
  | _ :: query => some query
  | [] => none

/-- The host at the start of what follows a scheme, and what follows the host. -/
def readHost (family : Family) (s : List Char) : Except Fault (Option (List Char) × List Char) :=
  match splitAuthority family s with
  | (none, tail) => .ok (none, tail)
  | (some authority, tail) =>
    let host := match family with
      | .file => fileHostOf authority tail
      | _ => hostOf family authority (!tail.isEmpty)
    host.map (·, tail)

/-- Reads a URL. -/
def ofText (text : String) : Except Fault Url :=
  match readScheme (clean text) with
  | none => .error .relative
  | some (scheme, rest) =>
    match readHost (Family.ofScheme scheme) rest with
    | .error fault => .error fault
    | .ok (host, tail) =>
      .ok { scheme, host := host.map String.ofList, query := (queryOf tail).map String.ofList }

/-! ### Queries -/

/-- A part of a query: a plus stands for a blank, and escapes are decoded.  What comes
out need not be text. -/
def decodeQuery (s : List Char) : List UInt8 :=
  Percent.decode ((Utf8.encode (String.ofList s)).map fun b => if b = 43 then 32 else b)

/-- One name and value of a query. -/
def queryPair (s : List Char) : List UInt8 × List UInt8 :=
  (decodeQuery (s.takeWhile (· ≠ '=')), decodeQuery ((s.dropWhile (· ≠ '=')).drop 1))

/-- The names and values of the query. -/
def queryPairs (u : Url) : List (List UInt8 × List UInt8) :=
  (((u.query.getD "").toList.splitOn '&').filter (!·.isEmpty)).map queryPair

end Url

end Simulcast
