/-!
# Peer connections

A peer connection is known by its name.  The pool counts the connections that were
opened and notes those that were closed.
-/

namespace Simulcast

/-- The name of a peer connection. -/
abbrev ConnectionId := Nat

/-- All peer connections ever opened. -/
structure ConnectionPool where
  /-- How many were opened; their names are the numbers below. -/
  opened : Nat := 0
  /-- The ones that were closed. -/
  closed : List ConnectionId := []
  deriving DecidableEq, Repr, Inhabited

namespace ConnectionPool

/-- Opens a connection. -/
def openNext (p : ConnectionPool) : ConnectionId × ConnectionPool :=
  (p.opened, { p with opened := p.opened + 1 })

/-- Closes a connection. -/
def close (p : ConnectionPool) (c : ConnectionId) : ConnectionPool :=
  if c ∈ p.closed then p else { p with closed := c :: p.closed }

/-- Whether a connection was opened and not closed. -/
def isOpen (p : ConnectionPool) (c : ConnectionId) : Bool := c < p.opened && !p.closed.contains c

end ConnectionPool

end Simulcast
