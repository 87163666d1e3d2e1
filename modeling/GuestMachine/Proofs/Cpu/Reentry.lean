import GuestMachine.Proofs.Cpu.Running
import GuestMachine.Proofs.Machine.Nest

/-!
Where an engine's work is broken off for a callback that is called again: within a dispatch, and
one that starts while no other callbacks run than before. A processor never calls a callback but
by dispatching an event, and between its dispatches the callbacks that run stay the same.
-/

namespace GuestMachine

/-- A computation that is broken off for a callback called again is so within a dispatch, which
starts while those callbacks run that did at first. -/
def BreaksInDispatch {S W ε α : Type} (host : Host W) (reentry : ε) (part : S → Machine W)
    (x : EStateM ε S α) : Prop :=
  ∀ s t, x s = .error reentry t → ∃ event machine, machine.running = (part s).running ∧
    Machine.dispatch host host.nesting event machine = .error (.abort .reentry) (part t)

namespace BreaksInDispatch

variable {S T W ε α β : Type} {host : Host W} {reentry : ε} {breaks : ε → Prop}
  {part : S → Machine W}

theorem of_unbroken {x : Attempt S α} (unbroken : Unbroken x) :
    BreaksInDispatch host (.abort .reentry) part x :=
  fun s t broken => absurd broken (unbroken s .reentry t)

/-- What the first part leaves running when it succeeds runs when the second one starts. -/
theorem bind {x : EStateM ε S α} {f : α → EStateM ε S β}
    (first : BreaksInDispatch host reentry part x) (settles : Settles breaks part x)
    (next : ∀ a, BreaksInDispatch host reentry part (f a)) :
    BreaksInDispatch host reentry part (x >>= f) := by
  intro s t broken
  rw [bind_apply] at broken
  have ends := settles s
  cases ran : x s with
  | error e left =>
    rw [ran] at broken
    obtain ⟨rfl, rfl⟩ := EStateM.Result.error.inj broken
    exact first s left ran
  | ok a left =>
    rw [ran] at broken ends
    have same : (part left).running = (part s).running := ends.resolve_right (by simp)
    obtain ⟨event, machine, running, dispatched⟩ := next a left t broken
    exact ⟨event, machine, running.trans same, dispatched⟩

/-- A computation that goes on from the state it starts in. -/
theorem get_bind {f : S → EStateM ε S β} (next : ∀ s, BreaksInDispatch host reentry part (f s)) :
    BreaksInDispatch host reentry part (get >>= f) :=
  fun s => next s s

theorem outcome {x : Attempt S α} (inside : BreaksInDispatch host (.abort .reentry) part x) :
    BreaksInDispatch host .reentry part (Attempt.outcome x) :=
  fun s t broken => inside s t (Machine.outcome_eq_error_iff.mp broken)

theorem lift {x : Effect S α} (inside : BreaksInDispatch host .reentry part x) :
    BreaksInDispatch host (.abort .reentry) part (liftM x : Attempt S α) := by
  intro s t broken
  rw [lift_apply] at broken
  cases ran : x s with
  | ok a left => simp [ran] at broken
  | error cause left =>
    rw [ran] at broken
    obtain ⟨same, rfl⟩ := EStateM.Result.error.inj broken
    obtain rfl := Failure.abort.inj same
    exact inside s left ran

theorem discard {x : EStateM ε S α} (inside : BreaksInDispatch host reentry part x) :
    BreaksInDispatch host reentry part (Functor.discard x) := by
  intro s t broken
  rw [discard_apply] at broken
  cases ran : x s with
  | ok a left => simp [ran] at broken
  | error e left =>
    rw [ran] at broken
    obtain ⟨rfl, rfl⟩ := EStateM.Result.error.inj broken
    exact inside s left ran

theorem within {inner : S → T} {withInner : S → T → S} {part : T → Machine W}
    (there : ∀ s t, inner (withInner s t) = t) {x : EStateM ε T α}
    (inside : BreaksInDispatch host reentry part x) :
    BreaksInDispatch host reentry (fun s => part (inner s))
      (GuestMachine.within inner withInner x) := by
  intro s t broken
  rw [within_apply] at broken
  cases ran : x (inner s) with
  | ok a left => simp [ran] at broken
  | error e left =>
    rw [ran] at broken
    obtain ⟨rfl, rfl⟩ := EStateM.Result.error.inj broken
    simpa only [there] using inside (inner s) left ran

theorem run {Op : Type} {Answer : Op → Type} {perform : (op : Op) → EStateM ε S (Answer op)}
    (step : ∀ op, BreaksInDispatch host reentry part (perform op))
    (settles : ∀ op, Settles breaks part (perform op)) (program : Program Op Answer α) :
    BreaksInDispatch host reentry part (program.run perform) := by
  induction program with
  | done a => exact fun s t broken => by simp [Program.run] at broken
  | ask op next ih => exact (step op).bind (settles op) ih

end BreaksInDispatch

/-- An operation of a machine breaks off in the dispatch that it is, if in any. -/
theorem Machine.perform_breaks {W : Type} (host : Host W) (op : MachineOp W) :
    BreaksInDispatch host .reentry id (perform host (dispatch host host.nesting) op) := by
  intro machine left broken
  obtain ⟨event, -, dispatched⟩ := exists_dispatch_of_perform_eq_error broken
  exact ⟨event, machine, rfl, dispatched⟩

namespace Cpu

variable {W α ε : Type} {reentry : ε}

abbrev BreaksInDispatch (host : Host W) (reentry : ε) (x : EStateM ε (Cpu W) α) : Prop :=
  GuestMachine.BreaksInDispatch host reentry Cpu.machine x

theorem onMachine_breaks {host : Host W} {x : EStateM ε (Machine W) α}
    (inside : GuestMachine.BreaksInDispatch host reentry id x) :
    BreaksInDispatch host reentry (onMachine x) :=
  inside.within fun _ _ => rfl

theorem unbroken_accessResult (kind : AccessKind) (address : UInt64) (size : Nat)
    (result : Except Error α) :
    Unbroken (accessResult kind address size result : Attempt (Cpu W) α) := by
  intro cpu cause left
  rw [accessResult_apply]
  cases result <;> simp

/-- Notifying hooks breaks off in the dispatch of the event, if it raises one. -/
theorem notify_breaks (host : Host W) (event : Event) :
    BreaksInDispatch host (.abort .reentry) (notify host event) := by
  intro cpu left broken
  cases latched : cpu.fault with
  | some fault => simp [notify_of_latched latched] at broken
  | none =>
    rw [notify_of_calm latched] at broken
    rcases ran : Machine.dispatch host host.nesting event cpu.machine with
      ⟨result, after⟩ | ⟨_ | cause, after⟩ <;> rw [ran] at broken
    · simp at broken
    · simp at broken
    · obtain ⟨same, rfl⟩ := EStateM.Result.error.inj broken
      obtain rfl := Failure.abort.inj same
      exact ⟨event, cpu.machine, rfl, ran⟩

/-- What follows the hooks of an event breaks off where they do or where it does by itself. -/
theorem notify_bind_breaks (host : Host W) (event : Event) {f : PUnit → Attempt (Cpu W) α}
    (next : ∀ u, BreaksInDispatch host (.abort .reentry) (f u)) :
    BreaksInDispatch host (.abort .reentry) (discard (notify host event) >>= f) :=
  (notify_breaks host event).discard.bind (notify_settles host event).discard next

theorem require_breaks (host : Host W) (kind : AccessKind) (address : UInt64) (size : Nat)
    (value : UInt64) :
    BreaksInDispatch host (.abort .reentry) (require host kind address size value) := by
  refine .get_bind fun cpu => ?_
  split
  · exact .of_unbroken (.pure ())
  · exact notify_bind_breaks host _ fun _ =>
      .get_bind fun _ => .of_unbroken (unbroken_accessResult kind address size _)
  · exact .of_unbroken (unbroken_accessResult kind address size _)

theorem require_bind_breaks (host : Host W) (kind : AccessKind) (address : UInt64) (size : Nat)
    (value : UInt64) {f : Unit → Attempt (Cpu W) α}
    (next : ∀ u, BreaksInDispatch host (.abort .reentry) (f u)) :
    BreaksInDispatch host (.abort .reentry) (require host kind address size value >>= f) :=
  (require_breaks host kind address size value).bind
    (require_settles host kind address size value) next

theorem fetch_breaks (host : Host W) (address : UInt64) (size : Nat) :
    BreaksInDispatch host (.abort .reentry) (fetch host address size) :=
  require_bind_breaks host .fetch address size 0 fun _ =>
    .get_bind fun _ => .of_unbroken (unbroken_accessResult .fetch address size _)

theorem readMemory_breaks (host : Host W) (address : UInt64) (size : Nat) :
    BreaksInDispatch host (.abort .reentry) (readMemory host address size) :=
  require_bind_breaks host .read address size 0 fun _ => notify_bind_breaks host _ fun _ =>
    .get_bind fun _ => .of_unbroken (unbroken_accessResult .read address size _)

theorem writeMemory_breaks (host : Host W) (address : UInt64) (bytes : ByteArray) :
    BreaksInDispatch host (.abort .reentry) (writeMemory host address bytes) :=
  .get_bind fun _ => require_bind_breaks host .write address bytes.size _ fun _ =>
    notify_bind_breaks host _ fun _ => .get_bind fun _ => .of_unbroken <|
      (unbroken_accessResult .write address bytes.size _).bind fun _ => .modify _

theorem readUInt_breaks (host : Host W) (address : UInt64) (size : Nat) :
    BreaksInDispatch host (.abort .reentry) (readUInt host address size) :=
  (readMemory_breaks host address size).bind (readMemory_settles host address size) fun _ =>
    .get_bind fun _ => .of_unbroken (.pure _)

theorem pc_breaks (host : Host W) :
    BreaksInDispatch host (.abort .reentry) (onMachine Machine.pc : Attempt (Cpu W) UInt64) :=
  onMachine_breaks <| .of_unbroken <|
    Unbroken.get.bind fun machine => Machine.unbroken_readRegister machine.registers.pc

/-- What is done for the instruction at the program counter breaks off where it does for an
address. -/
theorem atPc_breaks {host : Host W} {x : UInt64 → Attempt (Cpu W) α}
    (inside : ∀ address, BreaksInDispatch host (.abort .reentry) (x address)) :
    BreaksInDispatch host (.abort .reentry) (onMachine Machine.pc >>= x) := by
  have settles : Settles Failure.Breaks (onMachine Machine.pc : Attempt (Cpu W) UInt64) :=
    onMachine_settles (.of_calm Machine.pc.account fun _ => rfl)
  exact (pc_breaks host).bind settles inside

theorem portIn_breaks (host : Host W) (port size : Nat) :
    BreaksInDispatch host (.abort .reentry) (portIn host port size) :=
  atPc_breaks fun _ => (notify_breaks host _).bind (notify_settles host _) fun result => by
    cases result <;> exact .of_unbroken (.pure _)

/-- Every operation of the processor that breaks off for a callback called again does so in a
dispatch. -/
theorem perform_breaks (host : Host W) (op : CpuOp W) :
    BreaksInDispatch host .reentry (perform host op) := by
  cases op with
  | fetch address size => exact (fetch_breaks host address size).outcome
  | readMemory address size => exact (readMemory_breaks host address size).outcome
  | writeMemory address bytes => exact (writeMemory_breaks host address bytes).outcome
  | readUInt address size => exact (readUInt_breaks host address size).outcome
  | writeUInt address value size =>
    exact BreaksInDispatch.outcome (.get_bind fun cpu => writeMemory_breaks host address _)
  | enterBlock | enterInstruction => exact (notify_breaks host _).discard.outcome
  | portIn port size => exact (portIn_breaks host port size).outcome
  | portOut | interrupt => exact (atPc_breaks fun _ => (notify_breaks host _).discard).outcome
  | notify event => exact (notify_breaks host event).outcome
  | machine op => exact onMachine_breaks (Machine.perform_breaks host op)
  | pc => exact (pc_breaks host).outcome
  | setPc value =>
    exact (onMachine_breaks (.of_unbroken
      (Unbroken.get.bind fun _ => Machine.unbroken_writeRegister _ value))).outcome
  | readRegister id =>
    exact (onMachine_breaks (.of_unbroken (Machine.unbroken_readRegister id))).outcome
  | writeRegister id value =>
    exact (onMachine_breaks (.of_unbroken (Machine.unbroken_writeRegister id value))).outcome
  | arch | mode | haltRequested | fault | takeFault => exact fun cpu left broken => by cases broken

end Cpu

end GuestMachine
