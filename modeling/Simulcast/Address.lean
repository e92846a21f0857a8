/-!
# Network addresses

Addresses of the internet protocol with a port, as they are written:
`203.0.113.9:4000`, `[2001:db8::5]:4000`, `[fe80::1%2]:443`.

A version 4 host is four decimal numbers without leading zeros.  A version 6 host
is eight groups of up to four hexadecimal digits; `::` stands for one run of zero
groups, and the last two groups may be written as a version 4 host.  The written
form of a version 6 host contracts its longest run of at least two zero groups, the
first one if several are longest, and shows the version 4 part of a mapped host.
-/

namespace Simulcast

/-- A host address. -/
inductive Host where
  /-- Version 4: four octets. -/
  | v4 (a b c d : UInt8)
  /-- Version 6: eight groups. -/
  | v6 (groups : Vector UInt16 8)
  deriving DecidableEq, Repr

/-- A host and a port. -/
structure SocketAddress where
  host : Host
  /-- The zone of a version 6 host; zero means none. -/
  scope : UInt32 := 0
  port : UInt16
  deriving DecidableEq, Repr

namespace Address

/-! ### Reading -/

/-- The value of a digit. -/
def digitValue (c : Char) : Option Nat :=
  if '0' ≤ c ∧ c ≤ '9' then some (c.toNat - 48)
  else if 'a' ≤ c ∧ c ≤ 'f' then some (c.toNat - 87)
  else if 'A' ≤ c ∧ c ≤ 'F' then some (c.toNat - 55)
  else none

/-- The digits of a base at the start of a text, and what follows them. -/
def digits (base : Nat) : List Char → List Nat × List Char
  | [] => ([], [])
  | c :: rest =>
    match digitValue c with
    | some d =>
      if d < base then let (ds, tail) := digits base rest; (d :: ds, tail) else ([], c :: rest)
    | none => ([], c :: rest)

/-- A number of a base below a bound at the start of a text, and what follows it.
At most `width` digits are allowed if a width is given, and a leading zero only
if `zeros` permits it. -/
def number (base bound : Nat) (width : Option Nat) (zeros : Bool) (s : List Char) :
    Option (Nat × List Char) :=
  let (ds, rest) := digits base s
  let value := ds.foldl (fun n d => n * base + d) 0
  let tooWide := match width with
    | some w => w < ds.length
    | none => false
  let badZero := !zeros && ds.head? == some 0 && 1 < ds.length
  if ds.isEmpty || tooWide || badZero || bound ≤ value then none else some (value, rest)

/-- Drops one expected character. -/
def expect (c : Char) : List Char → Option (List Char)
  | d :: rest => if d = c then some rest else none
  | [] => none

/-- One octet of a version 4 host. -/
def octet (s : List Char) : Option (UInt8 × List Char) :=
  (number 10 256 (some 3) false s).map fun (n, rest) => (n.toUInt8, rest)

/-- A version 4 host at the start of a text. -/
def readV4 (s : List Char) : Option ((UInt8 × UInt8 × UInt8 × UInt8) × List Char) := do
  let (a, s) ← octet s
  let (b, s) ← octet (← expect '.' s)
  let (c, s) ← octet (← expect '.' s)
  let (d, s) ← octet (← expect '.' s)
  return ((a, b, c, d), s)

/-- Two octets as one group. -/
def group (hi lo : UInt8) : UInt16 := hi.toUInt16 * 256 + lo.toUInt16

/-- Up to `room` groups at the start of a text; the last two may be a version 4
host.  `first` tells whether a separator is still to be skipped.  Gives the groups,
whether they end in a version 4 host, and the rest. -/
def readGroups : (room : Nat) → (first : Bool) → List Char → List UInt16 × Bool × List Char
  | 0, _, s => ([], false, s)
  | room + 1, first, s =>
    let body := if first then some s else expect ':' s
    match (if 1 ≤ room then body.bind readV4 else none) with
    | some ((a, b, c, d), rest) => ([group a b, group c d], true, rest)
    | none =>
      match body.bind (number 16 65536 (some 4) true) with
      | some (g, rest) =>
        let (gs, mapped, tail) := readGroups room false rest
        (g.toUInt16 :: gs, mapped, tail)
      | none => ([], false, s)

/-- A version 6 host at the start of a text. -/
def readV6 (s : List Char) : Option (List UInt16 × List Char) :=
  match readGroups 8 true s with
  | (head, mapped, rest) =>
    if head.length = 8 then some (head, rest)
    else if mapped then none
    else do
      let rest ← expect ':' (← expect ':' rest)
      let (tail, _, rest) := readGroups (7 - head.length) true rest
      return (head ++ List.replicate (8 - head.length - tail.length) 0 ++ tail, rest)

/-- Eight groups as a host. -/
def v6? (groups : List UInt16) : Option Host :=
  if h : groups.toArray.size = 8 then some (.v6 ⟨groups.toArray, h⟩) else none

/-- The port of an address, after its colon. -/
def readPort (s : List Char) : Option (UInt16 × List Char) := do
  let (n, rest) ← number 10 65536 none true (← expect ':' s)
  return (n.toUInt16, rest)

end Address

open Address

/-- Reads a host; nothing may follow it. -/
def Host.ofString? (text : String) : Option Host :=
  let s := text.toList
  match readV4 s with
  | some ((a, b, c, d), []) => some (.v4 a b c d)
  | _ =>
    match readV6 s with
    | some (groups, []) => v6? groups
    | _ => none

namespace SocketAddress

/-- A version 4 address with its port. -/
def ofV4? (s : List Char) : Option SocketAddress :=
  match readV4 s with
  | some ((a, b, c, d), rest) =>
    match readPort rest with
    | some (port, []) => some { host := .v4 a b c d, port }
    | _ => none
  | none => none

/-- A bracketed version 6 address with its port. -/
def ofV6? (s : List Char) : Option SocketAddress := do
  let (groups, rest) ← readV6 (← expect '[' s)
  let (scope, rest) :=
    match (expect '%' rest).bind (number 10 4294967296 none true) with
    | some (n, rest) => (n.toUInt32, rest)
    | none => (0, rest)
  let host ← v6? groups
  match readPort (← expect ']' rest) with
  | some (port, []) => return { host, scope, port }
  | _ => none

/-- Reads an address; nothing may follow it. -/
def ofString? (text : String) : Option SocketAddress :=
  (ofV4? text.toList).orElse fun _ => ofV6? text.toList

end SocketAddress

/-! ### Writing -/

namespace Address

/-- A run of zero groups: where it starts and how long it is. -/
structure ZeroRun where
  start : Nat := 0
  length : Nat := 0

/-- The first of the longest runs of zero groups.  `i` is the place of the next
group and `current` the run that ends before it. -/
def longestZeroRun (i : Nat) (current longest : ZeroRun) : List UInt16 → ZeroRun
  | [] => longest
  | g :: rest =>
    if g = 0 then
      let current : ZeroRun :=
        { start := if current.length = 0 then i else current.start, length := current.length + 1 }
      let longest := if longest.length < current.length then current else longest
      longestZeroRun (i + 1) current longest rest
    else longestZeroRun (i + 1) {} longest rest

/-- A group in hexadecimal digits, without leading zeros. -/
def groupText (g : UInt16) : String := String.ofList (Nat.toDigits 16 g.toNat)

/-- Groups with colons between them. -/
def groupsText (gs : List UInt16) : String := ":".intercalate (gs.map groupText)

/-- Four octets with points between them. -/
def octetsText (a b c d : Nat) : String :=
  ".".intercalate ([a, b, c, d].map Nat.repr)

/-- A version 6 host in its written form. -/
def v6Text (gs : List UInt16) : String :=
  match gs with
  | [0, 0, 0, 0, 0, 0xffff, hi, lo] =>
    "::ffff:" ++ octetsText (hi.toNat / 256) (hi.toNat % 256) (lo.toNat / 256) (lo.toNat % 256)
  | _ =>
    let run := longestZeroRun 0 {} {} gs
    if 1 < run.length then
      groupsText (gs.take run.start) ++ "::" ++ groupsText (gs.drop (run.start + run.length))
    else groupsText gs

end Address

/-- The written form of a host. -/
def Host.text : Host → String
  | .v4 a b c d => octetsText a.toNat b.toNat c.toNat d.toNat
  | .v6 groups => v6Text groups.toList

/-- The written form of an address. -/
def SocketAddress.text (a : SocketAddress) : String :=
  match a.host with
  | .v4 .. => a.host.text ++ ":" ++ a.port.toNat.repr
  | .v6 .. =>
    let zone := if a.scope = 0 then "" else "%" ++ a.scope.toNat.repr
    "[" ++ a.host.text ++ zone ++ "]:" ++ a.port.toNat.repr

end Simulcast
