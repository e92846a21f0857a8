import Simulcast.Address
import Simulcast.Text.Percent
import Simulcast.Text.Utf8
import Simulcast.Url.Punycode
/-!
# Hosts of URLs

Which texts may stand in a URL as its host.  In brackets stands a version 6 address.
Any other host is read as its scheme wants it: the schemes of the web and of files name
a domain, all other schemes take any text without delimiters.

A domain is percent-decoded and put into its plain form: in lower case, without wide
forms of ASCII and without breaks that cannot be seen.  If its last label is a number,
the whole must be a version 4 address in one of its written forms: up to four parts, each
decimal, octal or hexadecimal, of which the last one fills the octets that are left.
-/

namespace Simulcast

namespace Url

/-- Why a text is no URL. -/
inductive Fault where
  /-- There is no scheme, so the text would have to be read relative to another URL. -/
  | relative
  | emptyHost
  | domainName
  | domainCharacter
  | ipv4Address
  | ipv6Address
  | port
  deriving DecidableEq, Repr

/-- The text of a fault. -/
def Fault.message : Fault → String
  | relative => "relative URL without a base"
  | emptyHost => "empty host"
  | domainName => "invalid international domain name"
  | domainCharacter => "invalid domain character"
  | ipv4Address => "invalid IPv4 address"
  | ipv6Address => "invalid IPv6 address"
  | port => "invalid port number"

/-- The schemes that are read alike. -/
inductive Family where
  /-- The schemes of the web: a host is never missing. -/
  | web
  /-- Files, whose host is mostly this one. -/
  | file
  /-- All other schemes. -/
  | general
  deriving DecidableEq, Repr

/-- The family of a scheme. -/
def Family.ofScheme (scheme : String) : Family :=
  if scheme ∈ ["http", "https", "ws", "wss", "ftp"] then web
  else if scheme = "file" then file
  else general

/-! ### Version 6 addresses -/

/-- Whether a text behind an opening bracket is a version 6 address and a closing
bracket. -/
def isBracketed (s : List Char) : Bool :=
  s.getLast? = some ']' &&
    match Host.ofString? (String.ofList s.dropLast) with
    | some (.v6 _) => true
    | _ => false

/-! ### Version 4 addresses -/

/-- The number that digits of a base stand for; no digits stand for zero. -/
def numberIn? (base : Nat) (s : List Char) : Option Nat :=
  match Address.digits base s with
  | (ds, []) => some (ds.foldl (fun n d => n * base + d) 0)
  | _ => none

/-- The number that a part of a version 4 address stands for. -/
def partNumber? : List Char → Option Nat
  | [] => none
  | '0' :: 'x' :: digits | '0' :: 'X' :: digits => numberIn? 16 digits
  | '0' :: c :: digits => numberIn? 8 (c :: digits)
  | digits => numberIn? 10 digits

/-- The labels of a domain; an empty one at its end does not count. -/
def labels (domain : List Char) : List (List Char) :=
  let all := domain.splitOn '.'
  if all.getLast? = some [] then all.dropLast else all

/-- Whether a label is a number, so that its domain must be a version 4 address. -/
def isNumber (label : List Char) : Bool :=
  (!label.isEmpty && label.all Char.isDigit) || (partNumber? label).isSome

/-- Whether labels are the parts of a version 4 address. -/
def isV4Address (parts : List (List Char)) : Bool :=
  match parts.mapM partNumber? with
  | some numbers =>
    numbers.length ≤ 4 && numbers.dropLast.all (· < 256) &&
      numbers.getLast?.getD 0 < Nat.pow 256 (5 - numbers.length)
  | none => false

/-! ### Domains -/

/-- Whether a number lies in one of some ranges. -/
def inRanges (ranges : List (Nat × Nat)) (n : Nat) : Bool :=
  ranges.any fun r => r.1 ≤ n && n ≤ r.2

/-- Breaks and selectors that a domain drops. -/
def dropped : List (Nat × Nat) := [
  (0xad, 0xad), (0x34f, 0x34f), (0x180b, 0x180d), (0x180f, 0x180f), (0x200b, 0x200b),
  (0x2060, 0x2060), (0x2064, 0x2064), (0xfe00, 0xfe0f), (0xfeff, 0xfeff), (0xe0100, 0xe01ef)]

/-- Controls, blanks, joiners and characters without a meaning of their own, beyond
ASCII. -/
def refused : List (Nat × Nat) := [
  (0x80, 0xa0), (0x1680, 0x1680), (0x2000, 0x200a), (0x200c, 0x200f), (0x2028, 0x202f),
  (0x205f, 0x205f), (0x3000, 0x3000), (0xe000, 0xf8ff), (0xfff9, 0xffff), (0xf0000, 0x10ffff)]

/-- The plain form of a character: wide forms become narrow, and there is one full
stop. -/
def plain (c : Char) : List Char :=
  let n := c.toNat
  if inRanges dropped n then []
  else if 0xff01 ≤ n ∧ n ≤ 0xff5e then [(Char.ofNat (n - 0xfee0)).toLower]
  else if n = 0x3002 ∨ n = 0xff61 then ['.']
  else [c.toLower]

/-- Whether a character in plain form may stand in a domain. -/
def isDomainChar (c : Char) : Bool :=
  if c.toNat < 0x80 then
    0x20 < c.toNat && c.toNat < 0x7f && !"%#/:<>?@[\\]^|".toList.contains c
  else !inRanges refused c.toNat

/-- Whether a label that says it is coded stands for characters beyond ASCII, all of them
in plain form. -/
def isCodedLabel (label : List Char) : Bool :=
  match label with
  | 'x' :: 'n' :: '-' :: '-' :: coded =>
    match Punycode.decode? coded with
    | some codes =>
      codes.any (0x80 ≤ ·) &&
        (codes.map Char.ofNat).all fun c => plain c == [c] && isDomainChar c
    | none => false
  | _ => true

/-- The domain that a host names, or what is wrong with it. -/
def domain (host : List Char) : Except Fault (List Char) :=
  match Utf8.decode (Percent.decode (Utf8.encode (String.ofList host))) with
  | .error _ => .error .domainName
  | .ok chars =>
    let name := chars.flatMap plain
    if !name.all isDomainChar || !(name.splitOn '.').all isCodedLabel then .error .domainName
    else if name.isEmpty then .error .emptyHost
    else if isNumber ((labels name).getLast?.getD []) && !isV4Address (labels name) then
      .error .ipv4Address
    else .ok name

/-! ### Hosts -/

/-- Whether a character may stand in a host that is no domain. -/
def isHostChar (c : Char) : Bool := !"\x00\t\n\r #/:<>?@[\\]^|".toList.contains c

/-- What is wrong with a host that is not empty, if anything. -/
def hostFault (family : Family) (host : List Char) : Option Fault :=
  match host with
  | '[' :: address => if isBracketed address then none else some .ipv6Address
  | _ =>
    if family = .general then if host.all isHostChar then none else some .domainCharacter
    else
      match domain host with
      | .ok _ => none
      | .error fault => some fault

end Url

end Simulcast
