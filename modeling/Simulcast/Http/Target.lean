/-!
# Request targets

What a request names.  Mostly it is a path with a query.  A request to a proxy names a
whole URL, of which only the path counts here; a target may also be an asterisk, or an
authority alone, which has no path.

`targetPath?` gives the path, and nothing for a malformed target.  The path is kept as
it was sent: escapes are not decoded.
-/

namespace Simulcast

namespace Http

/-! ### Characters -/

/-- Whether a character may stand in a path. -/
def isPathChar (c : Char) : Bool := 0x20 < c.toNat && !"#<>?`".toList.contains c

/-- Whether a character may stand in a query. -/
def isQueryChar (c : Char) : Bool := 0x20 < c.toNat && !"\"#<>".toList.contains c

/-- Whether a character may stand in the scheme of a target. -/
def isTargetSchemeChar (c : Char) : Bool := c.isAlphanum || "+-.".toList.contains c

/-- Whether a character, other than a percent sign, may stand in an authority. -/
def isAuthorityChar (c : Char) : Bool := c.isAlphanum || "-._~!$&'()*+,;=:@[]".toList.contains c

/-- Whether a character may stand in the name of a method or header. -/
def isTokenChar (c : Char) : Bool := c.isAlphanum || "!#$%&'*+-.^_`|~".toList.contains c

/-- Whether a text is the name of a method or header. -/
def isToken (name : String) : Bool := !name.isEmpty && name.toList.all isTokenChar

/-! ### Authorities -/

/-- What is known of an authority up to a place. -/
structure AuthorityScan where
  wellFormed : Bool := true
  /-- The colons since the last at sign or closing bracket. -/
  colons : Nat := 0
  opened : Bool := false
  closed : Bool := false
  /-- A percent sign came since then; only users and zones may have one. -/
  percent : Bool := false
  deriving DecidableEq, Repr

/-- Takes one character.  An address in brackets has at most eight colons. -/
def AuthorityScan.step (s : AuthorityScan) (c : Char) : AuthorityScan :=
  if c = ':' then { s with colons := s.colons + 1, wellFormed := s.wellFormed && s.colons < 8 }
  else if c = '[' then
    { s with opened := true, wellFormed := s.wellFormed && !s.percent && !s.opened }
  else if c = ']' then
    { wellFormed := s.wellFormed && s.opened && !s.closed, opened := s.opened, closed := true }
  else if c = '@' then { s with colons := 0, percent := false }
  else if c = '%' then { s with percent := true }
  else { s with wellFormed := s.wellFormed && isAuthorityChar c }

/-- Whether a text is an authority. -/
def isAuthority (text : List Char) : Bool :=
  let s := text.foldl AuthorityScan.step {}
  s.wellFormed && s.opened == s.closed && s.colons ≤ 1 && !s.percent && text.getLast? != some '@'

/-! ### Targets -/

/-- The path of a path with query and fragment, if both are well formed. -/
def pathOf? (text : List Char) : Option (List Char) :=
  let path := text.takeWhile fun c => c ≠ '?' ∧ c ≠ '#'
  let query :=
    match text.dropWhile fun c => c ≠ '?' ∧ c ≠ '#' with
    | '?' :: query => query.takeWhile (· ≠ '#')
    | _ => []
  if path.all isPathChar && query.all isQueryChar then some path else none

/-- What follows the scheme and slashes of a whole URL. -/
def behindScheme (text : List Char) : Option (List Char) :=
  match text.dropWhile isTargetSchemeChar with
  | ':' :: '/' :: '/' :: rest => some rest
  | _ => none

/-- Whether a character ends an authority. -/
def endsTargetAuthority (c : Char) : Bool := c = '/' || c = '?' || c = '#'

/-- The path that a target names. -/
def targetPath? (target : String) : Option (List Char) :=
  match target.toList with
  | [] => none
  | ['*'] => some ['*']
  | '/' :: rest => pathOf? ('/' :: rest)
  | text =>
    match behindScheme text with
    | some rest =>
      let authority := rest.takeWhile (!endsTargetAuthority ·)
      if !authority.isEmpty && isAuthority authority then
        pathOf? (rest.dropWhile (!endsTargetAuthority ·))
      else none
    | none => if text.any endsTargetAuthority || !isAuthority text then none else some []

end Http

end Simulcast
