import GuestMachine.Proofs.Cpu.Evolution
import GuestMachine.Session.Run
import Mathlib.Tactic.SplitIfs

/-!
Boundaries of a run. The run comes to its first boundary when the engine has begun and to one more
with each instruction that retires, as long as no fault is latched. At every boundary the first
reason that holds, in a fixed order, stops it; where none does, the engine is called for a step.
-/

namespace GuestMachine

namespace StopReason

variable {W : Type}

/-- The reasons that can stop a run at a boundary, foremost first. -/
def atBoundaries : List StopReason :=
  [explicitStop, completed, instructionLimit, timeout]

/-- Whether a reason to stop holds when `retired` instructions have retired in a run that began in
world `began`. -/
def Holds (host : Host W) (request : RunRequest) (began : W) (retired : Nat) (cpu : Cpu W) :
    StopReason → Prop
  | explicitStop => cpu.machine.stopRequested = true
  | completed => ∃ pc, cpu.machine.registers.read cpu.machine.registers.pc = .ok pc ∧
    request.stopAt = some pc
  | instructionLimit => request.count ≠ 0 ∧ request.count ≤ retired
  | timeout => request.timeout ≠ 0 ∧
    request.timeout ≤ host.elapsed began cpu.machine.world retired
  | fault _ => False

/-- Whether a reason is the first of a list for which something is the case. -/
def FirstOf (P : StopReason → Prop) : List StopReason → StopReason → Prop
  | [], _ => False
  | first :: rest, reason => P first ∧ first = reason ∨ ¬P first ∧ FirstOf P rest reason

variable {P : StopReason → Prop} {first reason : StopReason} {rest : List StopReason}

theorem firstOf_of_holds (holds : P first) : FirstOf P (first :: rest) reason ↔ first = reason := by
  simp [FirstOf, holds]

theorem firstOf_of_not (fails : ¬P first) :
    FirstOf P (first :: rest) reason ↔ FirstOf P rest reason := by
  simp [FirstOf, fails]

theorem FirstOf.holds {reasons : List StopReason} (first : FirstOf P reasons reason) :
    P reason := by
  induction reasons with
  | nil => exact absurd first id
  | cons head rest ih =>
    rcases first with ⟨holds, rfl⟩ | ⟨-, later⟩
    · exact holds
    · exact ih later

end StopReason

namespace Flight

variable {W E α : Type} {host : Host W} {engine : Engine W E} {request : RunRequest} {began : W}
  {start flight : Flight W E}

/-! The engine at work. -/

/-- The engine runs a program to its end, which comes to `answer` and leaves the flight `after`
with whatever fault is latched by then. -/
def Returns (host : Host W) (program : EngineProgram W E α) (flight : Flight W E)
    (answer : Except Error α) (after : Flight W E) : Prop :=
  (program.run.run flight.engine).run (Cpu.perform host) flight.cpu =
    .ok (answer, after.engine) after.cpu

/-- A program of the engine is broken off; what the engine knew before is kept. -/
def BreaksOff (host : Host W) (program : EngineProgram W E α) (flight : Flight W E)
    (cause : Abort) (after : Flight W E) : Prop :=
  (program.run.run flight.engine).run (Cpu.perform host) flight.cpu = .error cause after.cpu ∧
    after.engine = flight.engine

def cleared (flight : Flight W E) : Flight W E :=
  { flight with cpu := { flight.cpu with fault := none } }

theorem Returns.unique {program : EngineProgram W E α} {answer other : Except Error α}
    {after left : Flight W E} (first : Returns host program flight answer after)
    (second : Returns host program flight other left) : answer = other ∧ after = left := by
  have same := first.symm.trans second
  obtain ⟨cpu, engine⟩ := after
  obtain ⟨otherCpu, otherEngine⟩ := left
  simp only [EStateM.Result.ok.injEq, Prod.mk.injEq] at same
  obtain ⟨⟨rfl, rfl⟩, rfl⟩ := same
  exact ⟨rfl, rfl⟩

theorem Returns.runEngine_of_latched {program : EngineProgram W E α} {answer : Except Error α}
    {after : Flight W E} {fault : Error} (returns : Returns host program flight answer after)
    (latched : after.cpu.fault = some fault) :
    runEngine host program flight = .error (.error fault) after.cleared := by
  simp only [Returns] at returns
  simp [runEngine, within_apply, returns, Cpu.takeFault, latched, cleared]

theorem Returns.runEngine_of_calm {program : EngineProgram W E α} {answer : Except Error α}
    {after : Flight W E} (returns : Returns host program flight answer after)
    (calm : after.cpu.fault = none) :
    runEngine host program flight =
      match answer with
      | .ok a => .ok a after
      | .error cause => .error (.error cause) after := by
  obtain ⟨⟨machine, _⟩, engine⟩ := after
  obtain rfl := calm
  simp only [Returns] at returns
  cases answer <;> simp [runEngine, within_apply, returns, Cpu.takeFault]

theorem BreaksOff.runEngine {program : EngineProgram W E α} {cause : Abort} {after : Flight W E}
    (breaks : BreaksOff host program flight cause after) :
    runEngine host program flight = .error (.abort cause) after := by
  obtain ⟨cpu, engine⟩ := after
  obtain ⟨ran, rfl⟩ := breaks
  simp [Flight.runEngine, within_apply, ran]

/-- What a call of the engine comes to: a latched fault outweighs what it answers. -/
inductive CallEnds (host : Host W) (program : EngineProgram W E α) (flight : Flight W E) :
    EStateM.Result Failure (Flight W E) α → Prop
  | succeeded {a : α} {left : Flight W E} (returns : Returns host program flight (.ok a) left)
      (calm : left.cpu.fault = none) : CallEnds host program flight (.ok a left)
  | failed {cause : Error} {left : Flight W E}
      (returns : Returns host program flight (.error cause) left)
      (calm : left.cpu.fault = none) : CallEnds host program flight (.error (.error cause) left)
  | faulted {answer : Except Error α} {fault : Error} {left : Flight W E}
      (returns : Returns host program flight answer left)
      (latched : left.cpu.fault = some fault) :
      CallEnds host program flight (.error (.error fault) left.cleared)
  | brokenOff {cause : Abort} {left : Flight W E}
      (breaks : BreaksOff host program flight cause left) :
      CallEnds host program flight (.error (.abort cause) left)

theorem callEnds_runEngine (host : Host W) (program : EngineProgram W E α) (flight : Flight W E) :
    CallEnds host program flight (runEngine host program flight) := by
  cases ran : (program.run.run flight.engine).run (Cpu.perform host) flight.cpu with
  | error cause cpu =>
    have breaks : BreaksOff host program flight cause ⟨cpu, flight.engine⟩ := ⟨ran, rfl⟩
    rw [breaks.runEngine]
    exact .brokenOff breaks
  | ok result cpu =>
    obtain ⟨answer, engine⟩ := result
    have returns : Returns host program flight answer ⟨cpu, engine⟩ := ran
    cases held : cpu.fault with
    | some fault =>
      rw [returns.runEngine_of_latched held]
      exact .faulted returns held
    | none =>
      rw [returns.runEngine_of_calm held]
      cases answer with
      | ok a => exact .succeeded returns held
      | error cause => exact .failed returns held

/-! Boundaries. -/

/-- The flight with which a run comes to a boundary. -/
inductive Boundary (host : Host W) (engine : Engine W E) (start : Flight W E) :
    Nat → Flight W E → Prop
  | begun {flight : Flight W E} (returns : Returns host engine.begin start (.ok ()) flight)
      (calm : flight.cpu.fault = none) : Boundary host engine start 0 flight
  | retired {k : Nat} {flight next : Flight W E} (reached : Boundary host engine start k flight)
      (returns : Returns host engine.step flight (.ok .retired) next)
      (calm : next.cpu.fault = none) : Boundary host engine start (k + 1) next

theorem Boundary.unique {k : Nat} {other : Flight W E} (first : Boundary host engine start k flight)
    (second : Boundary host engine start k other) : flight = other := by
  induction first generalizing other with
  | begun returns calm =>
    cases second with
    | begun returnsToo calmToo => exact (returns.unique returnsToo).2
  | retired reached returns calm ih =>
    cases second with
    | retired reachedToo returnsToo calmToo =>
      rw [← ih reachedToo] at returnsToo
      exact (returns.unique returnsToo).2

theorem Boundary.exists_of_le {k : Nat} (reached : Boundary host engine start k flight) {j : Nat}
    (early : j ≤ k) : ∃ earlier, Boundary host engine start j earlier := by
  induction reached with
  | begun returns calm =>
    obtain rfl := Nat.le_zero.mp early
    exact ⟨_, .begun returns calm⟩
  | @retired k flight next reached returns calm ih =>
    rcases Nat.lt_or_eq_of_le early with less | rfl
    · exact ih (Nat.le_of_lt_succ less)
    · exact ⟨_, .retired reached returns calm⟩

/-- The reason for which a run stops at a boundary: the first that holds. -/
def StopsFor (host : Host W) (request : RunRequest) (began : W) (k : Nat) (flight : Flight W E)
    (reason : StopReason) : Prop :=
  StopReason.FirstOf (StopReason.Holds host request began k flight.cpu) StopReason.atBoundaries
    reason

/-- No reason to stop holds at a boundary. -/
def GoesOn (host : Host W) (request : RunRequest) (began : W) (k : Nat) (flight : Flight W E) :
    Prop :=
  ∀ reason ∈ StopReason.atBoundaries, ¬reason.Holds host request began k flight.cpu

/-- What is looked up at a boundary is the first reason that holds. -/
theorem boundaryStop_eq_some_iff (formed : flight.cpu.machine.registers.WellFormed) {k : Nat}
    {reason : StopReason} :
    boundaryStop host request began k flight.cpu = .ok (some reason) ↔
      StopsFor host request began k flight reason := by
  obtain ⟨pc, found⟩ := formed.exists_read_pc
  have ends : StopReason.completed.Holds host request began k flight.cpu ↔
      request.stopAt = some pc := by
    simp [StopReason.Holds, found]
  rw [boundaryStop, found, StopsFor, StopReason.atBoundaries]
  by_cases stopped : flight.cpu.machine.stopRequested = true
  · rw [if_pos stopped, StopReason.firstOf_of_holds stopped]
    simp
  rw [if_neg stopped, StopReason.firstOf_of_not stopped]
  by_cases ended : request.stopAt = some pc
  · rw [StopReason.firstOf_of_holds (ends.mpr ended)]
    simp [ended]
  rw [StopReason.firstOf_of_not (mt ends.mp ended)]
  by_cases spent : request.count ≠ 0 ∧ request.count ≤ k
  · rw [StopReason.firstOf_of_holds spent]
    simp [ended, spent]
  rw [StopReason.firstOf_of_not spent]
  by_cases late : request.timeout ≠ 0 ∧
      request.timeout ≤ host.elapsed began flight.cpu.machine.world k
  · rw [StopReason.firstOf_of_holds late]
    simp only [if_neg ended, if_neg spent, if_pos late, Except.ok.injEq, Option.some.injEq]
  · rw [StopReason.firstOf_of_not late]
    simp only [if_neg ended, if_neg spent, if_neg late, StopReason.FirstOf, Except.ok.injEq,
      reduceCtorEq]

theorem boundaryStop_eq_none_iff (formed : flight.cpu.machine.registers.WellFormed) {k : Nat} :
    boundaryStop host request began k flight.cpu = .ok none ↔
      GoesOn host request began k flight := by
  obtain ⟨pc, found⟩ := formed.exists_read_pc
  simp only [boundaryStop, found, GoesOn, StopReason.atBoundaries, StopReason.Holds,
    Except.ok.injEq, exists_eq_left', List.forall_mem_cons, List.not_mem_nil]
  split_ifs <;> simp_all

theorem exists_boundaryStop_eq_ok (host : Host W) (request : RunRequest) (began : W) (k : Nat)
    (formed : flight.cpu.machine.registers.WellFormed) :
    ∃ found, boundaryStop host request began k flight.cpu = .ok found := by
  obtain ⟨pc, found⟩ := formed.exists_read_pc
  simp only [boundaryStop, found]
  split_ifs <;> exact ⟨_, rfl⟩

end Flight

end GuestMachine
