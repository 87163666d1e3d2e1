/-!
Lifecycle of a session: created, configured, running, then stopped or faulted, and closed at
last. A stopped session may run again; a faulted one stays open for inspection.
-/

namespace GuestMachine

inductive Lifecycle where
  | created
  | configured
  | running
  | stopped
  | faulted
  | closed
  deriving DecidableEq, Repr

namespace Lifecycle

/-- A session starts with nothing configured. -/
instance : Inhabited Lifecycle := ⟨created⟩

/-- Whether memory, registers and hooks may still be touched. -/
def isOpen : Lifecycle → Bool
  | closed => false
  | _ => true

/-- Whether a run may start from this state. -/
def canRun : Lifecycle → Bool
  | configured | stopped => true
  | _ => false

def name : Lifecycle → String
  | created => "created"
  | configured => "configured"
  | running => "running"
  | stopped => "stopped"
  | faulted => "faulted"
  | closed => "closed"

def all : List Lifecycle :=
  [created, configured, running, stopped, faulted, closed]

def ofName? (text : String) : Option Lifecycle :=
  all.find? fun state => state.name == text

end Lifecycle

end GuestMachine
