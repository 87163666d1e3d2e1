import GuestMachine.Proofs.Register.Snapshot
import GuestMachine.Proofs.Session.History
import GuestMachine.Proofs.Session.Passage

/-!
Saved contexts. Nothing that is done to a machine changes its family, its mode or the layout of
its registers, and only closing ends the life of a session. So a context fits the session it was
saved in as long as that session is open, and restoring it brings back every register and changes
nothing else.
-/

namespace GuestMachine

/-- The layout of the registers stays, whatever is done to the machine. -/
theorem Machine.layout_replay {W : Type} (machine : Machine W) (deeds : List (Deed W)) :
    (machine.replay deeds).registers.layout = machine.registers.layout := by
  rw [registers_replay]
  exact RegisterBank.layout_replay machine.registers _

namespace Session

variable {W E : Type} {host : Host W} {engine : Engine W E} {session : Session W E}

/-! The life of a session. -/

/-- Every call but closing keeps an open session open. -/
theorem Passes.isOpen {call : HostCall W}
    {result : EStateM.Result Failure (Session W E) call.Answer}
    (passes : Passes session call result) (still : call.role ≠ .runs) (other : call ≠ .close)
    (isOpen : session.state.isOpen = true) : (finalState result).state.isOpen = true := by
  cases passes with
  | refused | inspected | signalled => exact isOpen
  | configured => rfl
  | changed =>
    simp only [finalState_ok, touched]
    split
    · rfl
    · exact isOpen
  | closed => exact absurd rfl other
  | stopped | faulted | brokenOff => exact absurd rfl still

theorem isOpen_run (formed : session.machine.registers.WellFormed)
    (isOpen : session.state.isOpen = true) (request : RunRequest) :
    (finalState (run host engine request session)).state.isOpen = true := by
  cases accepted : session.checkRun request with
  | error cause => rwa [run_of_refused host engine accepted]
  | ok =>
    rw [run_eq_landing host engine accepted formed]
    rcases Flight.drive host engine request session.machine.world (request.fuel host.patience)
      (session.takeoff request) with _ | ⟨_ | _, _⟩ <;> rfl

theorem isOpen_perform (formed : session.machine.registers.WellFormed)
    (isOpen : session.state.isOpen = true) {call : HostCall W} (other : call ≠ .close) :
    (finalState (perform host engine call session)).state.isOpen = true := by
  by_cases runs : call.role = .runs
  · cases call with
    | run request => exact isOpen_run formed isOpen request
    | _ => contradiction
  · exact (passes_perform formed call).isOpen runs other isOpen

/-- A history without a close leaves an open session open. -/
theorem isOpen_after (reached : Reachable host engine session)
    (isOpen : session.state.isOpen = true) {calls : List (HostCall W)}
    (kept : HostCall.close ∉ calls) : (session.after host engine calls).state.isOpen = true := by
  induction calls using List.reverseRecOn with
  | nil => exact isOpen
  | append_singleton earlier call ih =>
    have formed := (reachable_after reached earlier).wellFormed.registers
    rw [after_concat]
    refine isOpen_perform formed (ih fun listed => kept (List.mem_append_left _ listed)) ?_
    rintro rfl
    exact kept (by simp)

/-! The registers of a session. -/

theorem arch_after (host : Host W) (engine : Engine W E) (session : Session W E)
    (calls : List (HostCall W)) :
    (session.after host engine calls).machine.arch = session.machine.arch := by
  rw [machine_after, Machine.arch_replay]

theorem mode_after (host : Host W) (engine : Engine W E) (session : Session W E)
    (calls : List (HostCall W)) :
    (session.after host engine calls).machine.mode = session.machine.mode := by
  rw [machine_after, Machine.mode_replay]

theorem layout_after (host : Host W) (engine : Engine W E) (session : Session W E)
    (calls : List (HostCall W)) :
    (session.after host engine calls).machine.registers.layout =
      session.machine.registers.layout := by
  rw [machine_after, Machine.layout_replay]

def registerLayout (engine : Engine W E) (session : Session W E) : RegisterLayout :=
  engine.layout session.machine.arch session.machine.mode

/-- The bank of a session is one of the layout that its engine has for the guest. -/
theorem Reachable.exists_ofLayout (reached : Reachable host engine session) :
    ∃ fresh, RegisterBank.ofLayout (session.registerLayout engine) = .ok fresh ∧
      session.machine.registers.layout = fresh.layout := by
  induction reached with
  | created opened =>
    obtain ⟨registers, declared, rfl⟩ := create_eq_ok opened
    exact ⟨registers, declared, rfl⟩
  | @asked session reached call ih =>
    obtain ⟨fresh, declared, same⟩ := ih
    refine ⟨fresh, ?_, (layout_after host engine session [call]).trans same⟩
    have arch := arch_after host engine session [call]
    have mode := mode_after host engine session [call]
    rw [← declared, registerLayout, registerLayout, ← arch, ← mode]
    rfl

theorem Reachable.has_iff_declares (reached : Reachable host engine session) (id : RegId) :
    session.machine.registers.has id = true ↔ (session.registerLayout engine).Declares id := by
  obtain ⟨fresh, declared, same⟩ := reached.exists_ofLayout
  rw [RegisterBank.has_eq_of_layout_eq same, RegisterBank.has_ofLayout declared]

/-! Contexts. -/

theorem saveContext_apply (session : Session W E) :
    saveContext session =
      if session.state.isOpen then
        .ok ⟨session.machine.arch, session.machine.mode, session.machine.registers.snapshot⟩ session
      else .error (.error (.invalidState session.state "save a context")) session := by
  by_cases isOpen : session.state.isOpen = true <;>
    simp [saveContext, requireOpen_apply, isOpen]

/-- Restoring the registers of a machine of one kind and layout. -/
theorem restoreContext_snapshot {session saved : Session W E}
    (isOpen : session.state.isOpen = true) (arch : session.machine.arch = saved.machine.arch)
    (mode : session.machine.mode = saved.machine.mode)
    (restored : session.machine.registers.restore saved.machine.registers.snapshot =
      .ok saved.machine.registers) :
    restoreContext ⟨saved.machine.arch, saved.machine.mode, saved.machine.registers.snapshot⟩
        session =
      .ok () { session with
        machine := { session.machine with registers := saved.machine.registers } } := by
  simp [restoreContext, requireOpen_apply, isOpen, arch, mode, restored]

theorem readRegister_apply_of_open (isOpen : session.state.isOpen = true) {id : RegId}
    {value : UInt64} (found : session.machine.registers.read id = .ok value) :
    readRegister id session = .ok value session := by
  simp [readRegister, inspect, requireOpen_apply, isOpen, onMachine, within_apply,
    Machine.readRegister, found]

/-- A context can be restored as long as the session is not closed, whatever has been done to it
since, by anyone. This brings back every register, and nothing else changes; the session then has
the same context again. The context lists the registers of the guest as they read when it was
saved, and no others. -/
theorem saved_context_law {before left : Session W E} {context : Context}
    {later : List (HostCall W)} (reached : Reachable host engine before)
    (saved : saveContext before = .ok context left) (kept : HostCall.close ∉ later) :
    let layout := before.registerLayout engine
    let now := left.after host engine later
    let restored := { now with
      machine := { now.machine with registers := before.machine.registers } }
    restoreContext context now = .ok () restored ∧
    saveContext restored = .ok context restored ∧
    layout.Declares restored.machine.registers.pc ∧
    (∀ id, layout.Declares id → ∃ value, readRegister id before = .ok value before ∧
      readRegister id restored = .ok value restored ∧ context.value? id = some value) ∧
    ∀ id, ¬layout.Declares id → context.value? id = none := by
  intro layout now restored
  rw [saveContext_apply] at saved
  split at saved
  next isOpen =>
    obtain ⟨rfl, rfl⟩ := EStateM.Result.ok.inj saved
    have openNow : now.state.isOpen = true := isOpen_after reached isOpen kept
    have openRestored : restored.state.isOpen = true := openNow
    have arch : now.machine.arch = before.machine.arch := arch_after host engine before later
    have mode : now.machine.mode = before.machine.mode := mode_after host engine before later
    have formed := reached.wellFormed.registers
    have nowFormed := (reachable_after reached later).wellFormed.registers
    have back := RegisterBank.restore_snapshot (layout_after host engine before later) nowFormed
      formed
    refine ⟨restoreContext_snapshot openNow arch mode back, ?_,
      (reached.has_iff_declares _).mp formed.hasPc, fun id declared => ?_, fun id other => ?_⟩
    · rw [saveContext_apply, if_pos openNow]
      simp only [restored, arch, mode]
    · obtain ⟨slot, found⟩ :=
        Option.isSome_iff_exists.mp ((reached.has_iff_declares id).mpr declared)
      have value : before.machine.registers.read id = .ok slot.value := by
        rw [RegisterBank.read, found]
      refine ⟨slot.value, readRegister_apply_of_open isOpen value,
        readRegister_apply_of_open openRestored value, ?_⟩
      rw [RegisterBank.value?_snapshot, value]
      rfl
    · have missing : ¬before.machine.registers.has id = true :=
        mt (reached.has_iff_declares id).mp other
      have none : RegisterBank.slotOf? before.machine.registers.slots id = none := by
        simpa [RegisterBank.has] using missing
      rw [RegisterBank.value?_snapshot, RegisterBank.read, none]
      rfl
  · contradiction

/-- What a run has counted is undone. -/
theorem saved_context_law_of_counted_run :
    ∃ before : Session Unit Tiny.State, Reachable Host.obliging Tiny.engine before ∧
      ∃ context, saveContext before = .ok context before ∧
        let later : List (HostCall Unit) := [.mapMemory 0x1000 2 .all,
          .loadMemory 0x1000 ⟨#[0x41, 0xF4]⟩, .run (.unbounded 0x1000), .writeRegister Tiny.eax 9]
        ∃ restored,
          restoreContext context (before.after Host.obliging Tiny.engine later) = .ok () restored ∧
            readRegister Tiny.eax restored = .ok 7 restored := by
  have opened : create Tiny.engine .initial () .x86 .bits32 =
    .ok (_ : Session Unit Tiny.State) := rfl
  have reached : Reachable Host.obliging Tiny.engine _ :=
    (Reachable.created opened).asked (.writeRegister Tiny.eax 7)
  refine ⟨_, reached, _, rfl, ?_⟩
  intro later
  have kept : HostCall.close ∉ later := by simp [later]
  obtain ⟨succeeds, -, -, reads, -⟩ := saved_context_law reached rfl kept
  obtain ⟨value, found, same, -⟩ := reads Tiny.eax (by decide)
  obtain rfl : 7 = value := (EStateM.Result.ok.inj found).1
  exact ⟨_, succeeds, same⟩

end Session

end GuestMachine
