import GuestMachine.Error

/-!
What a run is asked to do and why it returned.
-/

namespace GuestMachine

/-- Where a run starts and what bounds it. A timeout, in milliseconds, or a count of zero sets
no bound. -/
structure RunRequest where
  start : UInt64
  stopAt : Option UInt64
  timeout : Nat
  count : Nat
  deriving DecidableEq, Repr

def RunRequest.unbounded (start : UInt64) : RunRequest :=
  ⟨start, none, 0, 0⟩

/-- Why a run returned. -/
inductive StopReason where
  /-- The program counter reached the end address, or the guest halted. -/
  | completed
  /-- The time limit passed. -/
  | timeout
  /-- As many instructions as asked for have retired. -/
  | instructionLimit
  /-- A stop was requested. -/
  | explicitStop
  /-- The run failed. -/
  | fault (kind : FaultKind)
  deriving DecidableEq, Repr

def StopReason.text : StopReason → String
  | completed => "completed"
  | timeout => "timeout"
  | instructionLimit => "instruction limit"
  | explicitStop => "explicit stop"
  | fault kind => "fault (" ++ kind.text ++ ")"

end GuestMachine
