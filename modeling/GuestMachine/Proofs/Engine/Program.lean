import GuestMachine.Proofs.Cpu.Guest
import GuestMachine.Proofs.Register.History
import GuestMachine.Proofs.Session.Boundary

/-!
Programs of engines, run to their end. What a program that returns has done follows from its parts,
and so does what it can return. To the machine it has done what callbacks could do too, so the
registers hold what was written last.
-/

namespace GuestMachine

/-! Registers behind deeds. -/

namespace Deed

variable {W : Type}

/-- The register that the deed writes and the value, if it is such a deed. -/
def written? : Deed W → Option (RegId × UInt64)
  | writeRegister id value => some (id, value)
  | _ => none

def written (deeds : List (Deed W)) : List (RegId × UInt64) :=
  deeds.filterMap written?

end Deed

/-- What callbacks do to registers is to write them one by one. -/
theorem Machine.registers_replay_of_guest {W : Type} (machine : Machine W) {deeds : List (Deed W)}
    (guest : ∀ deed ∈ deeds, deed.IsGuest) :
    (machine.replay deeds).registers = machine.registers.storeEach (Deed.written deeds) := by
  induction deeds generalizing machine with
  | nil => rfl
  | cons deed rest ih =>
    obtain ⟨here, later⟩ := List.forall_mem_cons.mp guest
    refine (ih (machine.after deed) later).trans ?_
    cases deed with
    | writeRegister id value =>
      show RegisterBank.storeEach ((machine.registers.write id value).toOption.getD _) _ = _
      rw [RegisterBank.getD_write]
      rfl
    | restoreRegisters values => exact absurd here id
    | _ => rfl

namespace Flight

variable {W E α β : Type} {host : Host W} {flight after : Flight W E}

/-- What a program comes to if it returns without an error. -/
def returned? (host : Host W) (program : EngineProgram W E α) (flight : Flight W E) :
    Option (α × Flight W E) :=
  match (program.run.run flight.engine).run (Cpu.perform host) flight.cpu with
  | .ok (.ok a, engine) cpu => some (a, ⟨cpu, engine⟩)
  | _ => none

theorem returns_of_returned? {program : EngineProgram W E α} {a : α}
    (found : returned? host program flight = some (a, after)) :
    Returns host program flight (.ok a) after := by
  unfold returned? at found
  split at found
  next ran =>
    obtain ⟨rfl, rfl⟩ := Prod.mk.inj (Option.some.inj found)
    exact ran
  · contradiction

/-! What a program has done. -/

theorem Returns.of_bind {x : EngineProgram W E α} {f : α → EngineProgram W E β} {b : β}
    (returns : Returns host (x >>= f) flight (.ok b) after) :
    ∃ a middle, Returns host x flight (.ok a) middle ∧ Returns host (f a) middle (.ok b) after := by
  simp only [Returns, ExceptT.run_bind, StateT.run_bind, Program.run_bind, bind_apply] at returns
  split at returns
  next result cpu ran =>
    obtain ⟨answer, engine⟩ := result
    cases answer with
    | ok a => exact ⟨a, ⟨cpu, engine⟩, ran, returns⟩
    | error cause =>
      have failed : EStateM.Result.ok (Except.error cause, engine) cpu =
        EStateM.Result.ok (Except.ok b, after.engine) after.cpu := returns
      simp at failed
  · contradiction

theorem returns_pure {a : α} {answer : Except Error α} :
    Returns host (pure a) flight answer after ↔ answer = .ok a ∧ after = flight := by
  obtain ⟨cpu, engine⟩ := flight
  obtain ⟨cpuAfter, engineAfter⟩ := after
  show EStateM.Result.ok (Except.ok a, engine) cpu = .ok (answer, engineAfter) cpuAfter ↔ _
  simp only [EStateM.Result.ok.injEq, Prod.mk.injEq, mk.injEq]
  grind

theorem Returns.of_modify {f : E → E} {answer : Except Error PUnit}
    (returns : Returns host (modify f) flight answer after) : after.cpu = flight.cpu := by
  have ran : EStateM.Result.ok (Except.ok PUnit.unit, f flight.engine) flight.cpu =
    .ok (answer, after.engine) after.cpu := returns
  exact (EStateM.Result.ok.inj ran).2.symm

theorem returns_demand {program : CpuProgram W (Except Error α)} {answer : Except Error α} :
    Returns host (EngineProgram.demand program) flight answer after ↔
      program.run (Cpu.perform host) flight.cpu = .ok answer after.cpu ∧
        after.engine = flight.engine := by
  show (program >>= fun a => pure (a, flight.engine)).run (Cpu.perform host) flight.cpu = _ ↔ _
  rw [Program.run_bind, bind_apply]
  cases program.run (Cpu.perform host) flight.cpu with
  | error cause cpu => simp
  | ok result cpu =>
    show EStateM.Result.ok (result, flight.engine) cpu = .ok (answer, after.engine) after.cpu ↔ _
    simp only [EStateM.Result.ok.injEq, Prod.mk.injEq]
    grind

theorem Returns.of_pc {pc : UInt64}
    (returns : Returns host EngineProgram.pc flight (.ok pc) after) :
    flight = after ∧
      flight.cpu.machine.registers.read flight.cpu.machine.registers.pc = .ok pc := by
  obtain ⟨ran, engine⟩ := returns_demand.mp returns
  obtain ⟨cpuAfter, engineAfter⟩ := after
  obtain rfl := engine
  simp only [Program.call, Program.run, Cpu.perform, bind_apply, outcome_apply, Cpu.onMachine,
    within_apply, Machine.pc, get_apply, Machine.readRegister] at ran
  cases found : flight.cpu.machine.registers.read flight.cpu.machine.registers.pc with
  | error cause => simp [found] at ran
  | ok value =>
    simp only [found, ofExcept_ok, pure_apply, EStateM.Result.ok.injEq, Except.ok.injEq] at ran
    obtain ⟨rfl, rfl⟩ := ran
    exact ⟨rfl, rfl⟩

theorem Returns.of_setPc {value : UInt64}
    (returns : Returns host (EngineProgram.setPc value) flight (.ok ()) after) :
    after.cpu.machine.registers =
      flight.cpu.machine.registers.store flight.cpu.machine.registers.pc value := by
  obtain ⟨ran, -⟩ := returns_demand.mp returns
  simp only [Program.call, Program.run, Cpu.perform, bind_apply, outcome_apply, Cpu.onMachine,
    within_apply, Machine.setPc, get_apply, Machine.writeRegister] at ran
  have stored := RegisterBank.getD_write flight.cpu.machine.registers
    flight.cpu.machine.registers.pc value
  cases written : flight.cpu.machine.registers.write flight.cpu.machine.registers.pc value with
  | error cause => simp [written] at ran
  | ok registers =>
    simp only [written, ofExcept_ok, pure_apply, set_apply, EStateM.Result.ok.injEq] at ran
    rw [← ran.2, ← stored, written]
    rfl

/-- What is done to the machine while the engine runs a program. -/
def deedsOf (host : Host W) (program : EngineProgram W E α) (flight : Flight W E) : List (Deed W) :=
  (Account.run (Cpu.perform.account host) (program.run.run flight.engine)).deeds flight.cpu

theorem deedsOf_guest (host : Host W) (program : EngineProgram W E α) (flight : Flight W E) :
    ∀ deed ∈ deedsOf host program flight, deed.IsGuest :=
  Account.Only.run (Cpu.perform_guest host) _ flight.cpu

theorem Returns.machine_eq {program : EngineProgram W E α} {answer : Except Error α}
    (returns : Returns host program flight answer after) :
    after.cpu.machine = flight.cpu.machine.replay (deedsOf host program flight) := by
  have replays :=
    (Account.run (Cpu.perform.account host) (program.run.run flight.engine)).replays flight.cpu
  rwa [returns] at replays

theorem Returns.registers_eq {program : EngineProgram W E α} {answer : Except Error α}
    (returns : Returns host program flight answer after) :
    after.cpu.machine.registers =
      flight.cpu.machine.registers.storeEach (Deed.written (deedsOf host program flight)) := by
  rw [returns.machine_eq, Machine.registers_replay_of_guest _ (deedsOf_guest host program flight)]

/-! What a program can return. -/

/-- Whatever the program returns, in whatever state, meets a condition. -/
def Yields (program : EngineProgram W E α) (P : α → Prop) : Prop :=
  ∀ (host : Host W) (flight after : Flight W E) (a : α),
    Returns host program flight (.ok a) after → P a

theorem Yields.pure {a : α} {P : α → Prop} (holds : P a) :
    Yields (Pure.pure a : EngineProgram W E α) P := by
  intro host flight after b returns
  obtain ⟨same, -⟩ := returns_pure.mp returns
  rwa [Except.ok.inj same]

theorem Yields.bind {x : EngineProgram W E α} {f : α → EngineProgram W E β} {P : β → Prop}
    (yields : ∀ a, Yields (f a) P) : Yields (x >>= f) P := by
  intro host flight after b returns
  obtain ⟨a, middle, -, later⟩ := returns.of_bind
  exact yields a host middle after b later

end Flight

end GuestMachine
