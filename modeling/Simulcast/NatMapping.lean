import Simulcast.Address
/-!
# Public addresses

Addresses that stand for the local ones behind a translating router.  An entry names a
public address, alone or with the local address that it stands for: `PUBLIC` or
`PUBLIC/LOCAL`.

The two versions of addresses are kept apart.  In each, a public address that stands
alone is for all local ones, so it must be the only entry; otherwise every local address
is named at most once.
-/

namespace Simulcast

/-- The public addresses of one version: one for all local ones, or the local ones
that are paired. -/
structure NatSide where
  sole : Bool := false
  locals : List Host := []
  deriving DecidableEq, Repr

namespace NatSide

/-- One address for all local ones; it must be the only entry. -/
def addSole (s : NatSide) : Option NatSide :=
  if s.sole || !s.locals.isEmpty then none else some { s with sole := true }

/-- One more pair; a local address is paired once. -/
def addPair (s : NatSide) (inside : Host) : Option NatSide :=
  if s.sole || s.locals.contains inside then none
  else some { s with locals := inside :: s.locals }

end NatSide

/-- The public addresses of both versions. -/
structure NatMapping where
  v4 : NatSide := {}
  v6 : NatSide := {}
  deriving DecidableEq, Repr

namespace NatMapping

/-- Whether a host is of version 4. -/
def isV4 : Host → Bool
  | .v4 .. => true
  | .v6 .. => false

/-- Changes the side of a host's version. -/
def onSide (m : NatMapping) (host : Host) (change : NatSide → Option NatSide) : Option NatMapping :=
  if isV4 host then (change m.v4).map fun side => { m with v4 := side }
  else (change m.v6).map fun side => { m with v6 := side }

/-- Adds an entry. -/
def add (m : NatMapping) (entry : String) : Option NatMapping :=
  match (entry.splitOn "/").map Host.ofString? with
  | [some outside] => m.onSide outside NatSide.addSole
  | [some outside, some inside] =>
    if isV4 outside = isV4 inside then m.onSide outside (·.addPair inside) else none
  | _ => none

/-- The mapping that entries describe together. -/
def ofEntries? (entries : List String) : Option NatMapping := entries.foldlM add {}

end NatMapping

end Simulcast
