/-!
# Phases

The life of the broadcaster's connection and the life of a viewer, each as a small
state machine.  A stream is held while its broadcaster negotiates or is connected.
A viewer's closed phase is terminal: `ViewerPhase.activate_close` says that
activation does not lead out of it.
-/

namespace Simulcast

/-! ### The broadcaster's connection -/

/-- Where the broadcaster's connection stands. -/
inductive IngestPhase where
  /-- The offer has arrived and the stream key is being checked. -/
  | authenticating
  /-- The stream is claimed and descriptions are being exchanged. -/
  | negotiating
  /-- The answer is out and media flows. -/
  | connected
  /-- Nobody broadcasts. -/
  | disconnected
  deriving DecidableEq, Repr

namespace IngestPhase

instance : Inhabited IngestPhase := ⟨disconnected⟩

/-- The phase's name. -/
def name : IngestPhase → String
  | authenticating => "Authenticating"
  | negotiating => "Negotiating"
  | connected => "Connected"
  | disconnected => "Disconnected"

/-- The phase with a name; any other name stands for the initial phase. -/
def ofName (name : String) : IngestPhase :=
  ([authenticating, negotiating, connected, disconnected].find? (·.name = name)).getD default

/-- Whether a broadcaster holds the stream. -/
def holdsStream : IngestPhase → Bool
  | negotiating | connected => true
  | authenticating | disconnected => false

end IngestPhase

/-! ### Viewers -/

/-- Where a viewer stands. -/
inductive ViewerPhase where
  /-- Descriptions are being exchanged. -/
  | negotiating
  /-- The answer is out and packets are forwarded. -/
  | active
  /-- The viewer is gone. -/
  | closed
  deriving DecidableEq, Repr

namespace ViewerPhase

instance : Inhabited ViewerPhase := ⟨negotiating⟩

/-- The phase's name. -/
def name : ViewerPhase → String
  | negotiating => "Negotiating"
  | active => "Active"
  | closed => "Closed"

/-- The phase with a name; any other name stands for the initial phase. -/
def ofName (name : String) : ViewerPhase :=
  ([negotiating, active, closed].find? (·.name = name)).getD default

/-- Negotiation succeeded. -/
def activate : ViewerPhase → ViewerPhase
  | negotiating => active
  | phase => phase

/-- The viewer leaves. -/
def close (_ : ViewerPhase) : ViewerPhase := closed

/-- A closed viewer never comes back. -/
@[simp]
theorem activate_close (phase : ViewerPhase) : phase.close.activate = .closed := rfl

end ViewerPhase

end Simulcast
