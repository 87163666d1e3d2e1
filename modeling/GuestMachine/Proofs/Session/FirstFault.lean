import GuestMachine.Proofs.Cpu.Silence
import GuestMachine.Proofs.Session.Run

/-!
The first fault wins. Once a fault is latched while an engine works that reaches the guest only
through the processor, the engine meets silence until it returns. Whatever it returns, it is not
called again, and the run fails with that fault.
-/

namespace GuestMachine

/-- Whether an engine reaches the guest through operations that respect a latched fault only. -/
structure Engine.Confined {W E : Type} (engine : Engine W E) : Prop where
  begin : ∀ state, (engine.begin.run.run state).Only CpuOp.Confined
  step : ∀ state, (engine.step.run.run state).Only CpuOp.Confined

/-- An engine that goes on after an access that failed. -/
def Engine.heedless : Engine Unit Unit where
  supports := Engine.idle.supports
  layout := Engine.idle.layout
  begin := do
    let _ ← EngineProgram.ask (.notify (.memoryUnmapped .read 0x5000 4 0))
    let _ ← EngineProgram.ask (.enterBlock 0x1000 1)
    return
  step := pure .halted

theorem Engine.confined_heedless : Engine.heedless.Confined where
  begin _ := ⟨trivial, fun _ => ⟨trivial, fun _ => trivial⟩⟩
  step _ := trivial

namespace Flight

variable {W E α : Type} {host : Host W} {engine : Engine W E} {request : RunRequest} {began : W}
  {start flight : Flight W E}

theorem Leg.only {n : Nat} {program : EngineProgram W E α} (confined : engine.Confined)
    (leg : Leg host engine request began start n α program flight) :
    (program.run.run flight.engine).Only CpuOp.Confined := by
  cases leg with
  | begin => exact confined.begin _
  | step arrives looked goesOn => exact confined.step _

theorem Leg.wellFormed {n : Nat} {program : EngineProgram W E α}
    (leg : Leg host engine request began start n α program flight)
    (formed : start.cpu.machine.WellFormed) : flight.cpu.machine.WellFormed := by
  cases leg with
  | begin => exact formed
  | step arrives looked goesOn => exact arrives.1.evolves.wellFormed formed

/-- A call of the engine that leaves a fault latched is the last one. -/
theorem Leg.le_of_latched {n m : Nat} {β : Type} {program : EngineProgram W E α}
    {other : EngineProgram W E β} {answer : Except Error α} {left elsewhere : Flight W E}
    {fault : Error} (leg : Leg host engine request began start n α program flight)
    (returns : Returns host program flight answer left) (latched : left.cpu.fault = some fault)
    (later : Leg host engine request began start m β other elsewhere) : m ≤ n := by
  cases later with
  | begin => exact Nat.zero_le n
  | @step k _ arrives looked goesOn =>
    by_contra beyond
    obtain ⟨next, reached⟩ := arrives.1.exists_of_le (show n ≤ k by omega)
    obtain ⟨⟨other, returnsToo⟩, calm⟩ := leg.returns_of_boundary reached
    rw [(returns.unique returnsToo).2, calm] at latched
    contradiction

end Flight

namespace Session

variable {W E : Type} {host : Host W} {engine : Engine W E} {request : RunRequest}
  {session : Session W E}

/-- Once a fault is latched in a call of a confined engine, every later operation of that call is
silenced, no further call is made, and the run fails with that fault. -/
theorem run_fails_with_first_fault (accepted : session.checkRun request = .ok ())
    (formed : session.machine.WellFormed) (confined : engine.Confined) {n : Nat} {α : Type}
    {program : EngineProgram W E α} {flight : Flight W E}
    (leg : Flight.Leg host engine request session.machine.world (session.takeoff request) n α
      program flight) {earlier later : List (Moment (CpuOp W) CpuOp.Answer (Cpu W))}
    {moment : Moment (CpuOp W) CpuOp.Answer (Cpu W)} {fault : Error}
    (split : Flight.moments host program flight = earlier ++ moment :: later)
    (latched : moment.after.fault = some fault) :
    (∀ m ∈ later, Cpu.Silenced host fault m) ∧
    (∀ m β other elsewhere, Flight.Leg host engine request session.machine.world
      (session.takeoff request) m β other elsewhere → m ≤ n) ∧
    ∃ answer left, Flight.Returns host program flight answer left ∧
      left.cpu.fault = some fault ∧
      run host engine request session = .error (.error fault)
        { machine := left.cpu.machine, engine := left.engine, state := .faulted
          lastStop := some (.fault fault.faultKind), lastError := some fault } := by
  have ready := wellFormed_takeoff formed request
  obtain ⟨silence, ⟨answer, state⟩, final, ran, held⟩ :=
    Cpu.silenced_of_latched (leg.only confined) (leg.wellFormed ready) split latched
  have returns : Flight.Returns host program flight answer ⟨final, state⟩ := ran
  refine ⟨silence, fun m β other elsewhere => leg.le_of_latched returns held, answer,
    ⟨final, state⟩, returns, held, ?_⟩
  exact (run_eq_iff host engine accepted formed.registers _).mpr
    ⟨_, .faulted leg returns held, rfl⟩

/-- An engine that takes no notice of a missed read gets nowhere with it. -/
theorem run_fails_with_missed_read :
    let request : RunRequest := .unbounded 0x1000
    let fault : Error := .unmappedAccess .read 0x5000 4
    ready.checkRun request = .ok () ∧ ready.machine.WellFormed ∧ Engine.heedless.Confined ∧
      ∃ left : Flight Unit Unit, run Host.obliging .heedless request ready = .error (.error fault)
        { machine := left.cpu.machine, engine := left.engine, state := .faulted
          lastStop := some (.fault fault.faultKind), lastError := some fault } := by
  intro request fault
  have accepted : ready.checkRun request = .ok () := checkRun_ready
  have split : Flight.moments Host.obliging Engine.heedless.begin (ready.takeoff request) =
    [] ++ _ :: _ := rfl
  obtain ⟨-, -, answer, left, -, -, failed⟩ :=
    run_fails_with_first_fault accepted wellFormed_ready Engine.confined_heedless .begin split rfl
  exact ⟨accepted, wellFormed_ready, Engine.confined_heedless, left, failed⟩

end Session

end GuestMachine
