import GuestMachine.Cpu.Operation
import GuestMachine.Proofs.Machine.Evolution

/-!
The latched fault. While no fault is latched, an event goes to the machine and the first failure
is latched; from then on every operation that would raise an event fails with that fault, and
no callback runs.
-/

namespace GuestMachine.Cpu

variable {W α : Type} {host : Host W} {cpu : Cpu W} {fault : Error}

/-! Evaluation, before and after a fault is latched. -/

/-- A failure latches its cause unless a fault is latched, and fails with what is latched then. -/
theorem latchAndFail_apply (cause : Error) (cpu : Cpu W) :
    (latchAndFail cause : Attempt (Cpu W) α) cpu =
      .error (.error (cpu.fault.getD cause)) { cpu with fault := some (cpu.fault.getD cause) } := by
  obtain ⟨machine, _ | first⟩ := cpu <;> rfl

theorem notify_of_calm (calm : cpu.fault = none) (host : Host W) (event : Event) :
    notify host event cpu =
      match Machine.dispatch host host.nesting event cpu.machine with
      | .ok result machine => .ok result ⟨machine, none⟩
      | .error (.error cause) machine => .error (.error cause) ⟨machine, some cause⟩
      | .error (.abort cause) machine => .error (.abort cause) ⟨machine, none⟩ := by
  simp only [notify, bind_apply, get_apply, calm, lift_apply, outcome_apply, onMachine,
    within_apply]
  cases Machine.dispatch host host.nesting event cpu.machine with
  | ok result machine => rfl
  | error failure machine =>
    cases failure with
    | error cause => exact latchAndFail_apply cause ⟨machine, none⟩
    | abort cause => rfl

theorem notify_of_latched (latched : cpu.fault = some fault) (host : Host W) (event : Event) :
    notify host event cpu = .error (.error fault) cpu := by
  simp [notify, latched]

theorem accessResult_apply (kind : AccessKind) (address : UInt64) (size : Nat)
    (result : Except Error α) (cpu : Cpu W) :
    accessResult kind address size result cpu =
      match result with
      | .ok a => .ok a cpu
      | .error cause =>
        .error (.error (cpu.fault.getD (accessFault kind address size cause)))
          { cpu with fault := some (cpu.fault.getD (accessFault kind address size cause)) } := by
  cases result with
  | ok a => rfl
  | error cause => exact latchAndFail_apply _ cpu

theorem accessResult_of_latched (latched : cpu.fault = some fault) (kind : AccessKind)
    (address : UInt64) (size : Nat) (result : Except Error α) :
    accessResult kind address size result cpu =
      match result with
      | .ok a => .ok a cpu
      | .error _ => .error (.error fault) cpu := by
  rw [accessResult_apply, latched]
  cases result with
  | ok a => rfl
  | error cause =>
    obtain ⟨machine, _⟩ := cpu
    obtain rfl := latched
    rfl

/-- A check that meets unmapped memory raises the event and is made once more. -/
theorem require_apply (host : Host W) (kind : AccessKind) (address : UInt64) (size : Nat)
    (value : UInt64) (cpu : Cpu W) :
    require host kind address size value cpu =
      match cpu.machine.memory.check address size kind.required with
      | .error (.unmappedMemory _) =>
        (match notify host (.memoryUnmapped kind address size value) cpu with
        | .ok _ after =>
          accessResult kind address size
            (after.machine.memory.check address size kind.required) after
        | .error failure after => .error failure after)
      | result => accessResult kind address size result cpu := by
  cases checked : cpu.machine.memory.check address size kind.required with
  | ok => simp [require, checked, accessResult_apply]
  | error cause =>
    cases cause with
    | unmappedMemory refused =>
      simp only [require, bind_apply, get_apply, checked, discard_apply]
      cases notify host (.memoryUnmapped kind address size value) cpu <;> rfl
    | _ => simp [require, checked]

/-- Under a latched fault a check goes through or fails with that fault, and raises no event. -/
theorem require_of_latched (latched : cpu.fault = some fault) (host : Host W) (kind : AccessKind)
    (address : UInt64) (size : Nat) (value : UInt64) :
    require host kind address size value cpu =
      match cpu.machine.memory.check address size kind.required with
      | .ok () => .ok () cpu
      | .error _ => .error (.error fault) cpu := by
  rw [require_apply]
  cases cpu.machine.memory.check address size kind.required with
  | ok => rfl
  | error cause =>
    cases cause <;> simp [notify_of_latched latched, accessResult_of_latched latched]

end GuestMachine.Cpu
