import GuestMachine.Proofs.Machine.Depth
import GuestMachine.Proofs.Session.Boundary
import GuestMachine.Proofs.Trail

/-!
How runs end. A run calls the engine to begin and then for a step at each boundary where no reason
to stop holds. It ends at the first boundary where one does, or with the first call that halts the
guest, fails, leaves a fault latched or is broken off, and in no other way. The bound on the
boundaries that it may look at does not show unless it is used up.
-/

namespace GuestMachine

namespace Flight

variable {W E : Type} {host : Host W} {engine : Engine W E} {request : RunRequest} {began : W}
  {start flight : Flight W E}

/-- The run comes to a boundary, having stopped at none before. -/
def Arrives (host : Host W) (engine : Engine W E) (request : RunRequest) (began : W)
    (start : Flight W E) (k : Nat) (flight : Flight W E) : Prop :=
  Boundary host engine start k flight ∧
    ∀ j earlier, j < k → Boundary host engine start j earlier →
      GoesOn host request began j earlier

/-- The calls of the engine that a run makes, by number, each with the flight it is made in. Only
a run without a count can use up the boundaries it may look at. -/
inductive Leg (host : Host W) (engine : Engine W E) (request : RunRequest) (began : W)
    (start : Flight W E) : Nat → (α : Type) → EngineProgram W E α → Flight W E → Prop
  | begin : Leg host engine request began start 0 Unit engine.begin start
  | step {k : Nat} {flight : Flight W E}
      (arrives : Arrives host engine request began start k flight)
      (looked : k < request.fuel host.patience) (goesOn : GoesOn host request began k flight) :
      Leg host engine request began start (k + 1) StepOutcome engine.step flight

theorem Arrives.first (returns : Returns host engine.begin start (.ok ()) flight)
    (calm : flight.cpu.fault = none) : Arrives host engine request began start 0 flight :=
  ⟨.begun returns calm, fun j _ less => absurd less (Nat.not_lt_zero j)⟩

/-- A run with a count comes to no boundary behind that count. -/
theorem Arrives.le_count {k : Nat} (arrives : Arrives host engine request began start k flight)
    (counted : request.count ≠ 0) : k ≤ request.count := by
  by_contra beyond
  obtain ⟨earlier, reached⟩ := arrives.1.exists_of_le (Nat.le_of_lt (Nat.lt_of_not_le beyond))
  have goesOn := arrives.2 request.count earlier (Nat.lt_of_not_le beyond) reached
  exact goesOn .instructionLimit (by simp [StopReason.atBoundaries]) ⟨counted, Nat.le_refl _⟩

/-- A run with a count may look at every boundary it comes to. -/
theorem Arrives.lt_fuel {k : Nat} (arrives : Arrives host engine request began start k flight)
    (counted : request.count ≠ 0) : k < request.fuel host.patience := by
  have within := arrives.le_count counted
  rw [RunRequest.fuel, if_neg counted]
  omega

/-- A run with a count calls the engine for no more steps than that. -/
theorem Leg.le_count {n : Nat} {α : Type} {program : EngineProgram W E α}
    (leg : Leg host engine request began start n α program flight) (counted : request.count ≠ 0) :
    n ≤ request.count := by
  cases leg with
  | begin => exact Nat.zero_le _
  | @step k _ arrives looked goesOn =>
    by_contra beyond
    exact goesOn .instructionLimit (by simp [StopReason.atBoundaries]) ⟨counted, by omega⟩

/-- How a run ends: at the first boundary with a reason to stop, with a step that halts the guest,
with a call that fails, leaves a fault latched whatever it answers or is broken off, or once the
boundaries that it may look at are used up. -/
inductive Ends (host : Host W) (engine : Engine W E) (request : RunRequest) (began : W)
    (start : Flight W E) : EStateM.Result Failure (Flight W E) StopReason → Prop
  | stopped {k : Nat} {flight : Flight W E} {reason : StopReason}
      (arrives : Arrives host engine request began start k flight)
      (looked : k < request.fuel host.patience)
      (stops : StopsFor host request began k flight reason) :
      Ends host engine request began start (.ok reason flight)
  | halted {k : Nat} {flight left : Flight W E}
      (arrives : Arrives host engine request began start k flight)
      (looked : k < request.fuel host.patience) (goesOn : GoesOn host request began k flight)
      (returns : Returns host engine.step flight (.ok .halted) left)
      (calm : left.cpu.fault = none) :
      Ends host engine request began start (.ok .completed left)
  | failed {n : Nat} {α : Type} {program : EngineProgram W E α} {flight left : Flight W E}
      {cause : Error} (leg : Leg host engine request began start n α program flight)
      (returns : Returns host program flight (.error cause) left)
      (calm : left.cpu.fault = none) :
      Ends host engine request began start (.error (.error cause) left)
  | faulted {n : Nat} {α : Type} {program : EngineProgram W E α} {flight left : Flight W E}
      {answer : Except Error α} {fault : Error}
      (leg : Leg host engine request began start n α program flight)
      (returns : Returns host program flight answer left)
      (latched : left.cpu.fault = some fault) :
      Ends host engine request began start (.error (.error fault) left.cleared)
  | brokenOff {n : Nat} {α : Type} {program : EngineProgram W E α} {flight left : Flight W E}
      {cause : Abort} (leg : Leg host engine request began start n α program flight)
      (breaks : BreaksOff host program flight cause left) :
      Ends host engine request began start (.error (.abort cause) left)
  | outlasted {flight : Flight W E}
      (arrives : Arrives host engine request began start (request.fuel host.patience) flight) :
      Ends host engine request began start (.error (.abort .exhausted) flight)

theorem Returns.evolves {α : Type} {program : EngineProgram W E α} {answer : Except Error α}
    {after : Flight W E} (returns : Returns host program flight answer after) :
    Machine.Evolves host flight.cpu.machine after.cpu.machine :=
  (Keeps.run (Cpu.keeps_perform host) (program.run.run flight.engine)).of_ok returns

/-- The operations that the engine asks in a program and gets answered, in turn. -/
def moments {α : Type} (host : Host W) (program : EngineProgram W E α) (flight : Flight W E) :
    List (Moment (CpuOp W) CpuOp.Answer (Cpu W)) :=
  (program.run.run flight.engine).trail (Cpu.perform host) flight.cpu

theorem Returns.evolves_of_moment {α : Type} {program : EngineProgram W E α}
    {answer : Except Error α} {after : Flight W E}
    (returns : Returns host program flight answer after)
    {moment : Moment (CpuOp W) CpuOp.Answer (Cpu W)}
    (listed : moment ∈ moments host program flight) :
    Machine.Evolves host moment.after.machine after.cpu.machine := by
  obtain ⟨earlier, later, split⟩ := List.append_of_mem listed
  obtain ⟨rest, -, -, same⟩ := Program.exists_rest_of_trail_eq (Program.only_true _) split
  exact (Keeps.run (Cpu.keeps_perform host) rest).of_ok (same.trans returns)

theorem Boundary.evolves {k : Nat} (reached : Boundary host engine start k flight) :
    Machine.Evolves host start.cpu.machine flight.cpu.machine := by
  induction reached with
  | begun returns calm => exact returns.evolves
  | retired reached returns calm ih => exact ih.trans returns.evolves

theorem Boundary.registers {k : Nat} (reached : Boundary host engine start k flight)
    (formed : start.cpu.machine.registers.WellFormed) : flight.cpu.machine.registers.WellFormed :=
  reached.evolves.keeps (fun _ _ => Machine.Change.registers) formed

/-- A call of the engine has led to the boundary of its number. -/
theorem Leg.returns_of_boundary {n : Nat} {α : Type} {program : EngineProgram W E α}
    {next : Flight W E} (leg : Leg host engine request began start n α program flight)
    (reached : Boundary host engine start n next) :
    (∃ answer, Returns host program flight answer next) ∧ next.cpu.fault = none := by
  cases leg with
  | begin =>
    cases reached with
    | begun returns calm => exact ⟨⟨_, returns⟩, calm⟩
  | step arrives looked goesOn =>
    cases reached with
    | retired before returns calm =>
      rw [← arrives.1.unique before] at returns
      exact ⟨⟨_, returns⟩, calm⟩

/-- A stop that is requested in a call of the engine is seen at the boundary behind it. -/
theorem Leg.stopRequested_of_boundary {n : Nat} {α : Type} {program : EngineProgram W E α}
    {next : Flight W E} (leg : Leg host engine request began start n α program flight)
    (reached : Boundary host engine start n next)
    {moment : Moment (CpuOp W) CpuOp.Answer (Cpu W)} (listed : moment ∈ moments host program flight)
    (requested : moment.after.machine.stopRequested = true) :
    next.cpu.machine.stopRequested = true := by
  obtain ⟨⟨answer, returns⟩, -⟩ := leg.returns_of_boundary reached
  have evolves := returns.evolves_of_moment listed
  exact evolves.keeps (fun _ _ => Machine.Change.stopRequested) requested

/-- At a boundary a run stops, or it calls the engine for a step. -/
theorem takeSteps_succ (fuel k : Nat) (flight : Flight W E) :
    takeSteps host engine request began (fuel + 1) k flight =
      match boundaryStop host request began k flight.cpu with
      | .ok (some reason) => .ok reason flight
      | .ok none =>
        (match runEngine host engine.step flight with
        | .ok .halted next => .ok .completed next
        | .ok .retired next => takeSteps host engine request began fuel (k + 1) next
        | .error failure next => .error failure next)
      | .error cause => .error (.error cause) flight := by
  simp only [takeSteps, bind_apply, get_apply]
  cases boundaryStop host request began k flight.cpu with
  | error cause => rfl
  | ok found =>
    cases found with
    | some reason => rfl
    | none =>
      simp only [ofExcept_ok, pure_apply, bind_apply]
      cases runEngine host engine.step flight with
      | ok outcome next => cases outcome <;> rfl
      | error failure next => rfl

theorem Arrives.drive_eq {k : Nat} (arrives : Arrives host engine request began start k flight)
    (formed : start.cpu.machine.registers.WellFormed) {fuel : Nat} (enough : k ≤ fuel) :
    drive host engine request began fuel start =
      takeSteps host engine request began (fuel - k) k flight := by
  obtain ⟨reached, before⟩ := arrives
  induction reached with
  | begun returns calm => simp [drive, returns.runEngine_of_calm calm]
  | @retired k flight next reached returns calm ih =>
    have goesOn := before k flight (Nat.lt_succ_self k) reached
    have none := (boundaryStop_eq_none_iff (reached.registers formed)).mpr goesOn
    rw [ih (by omega) fun j earlier less => before j earlier (by omega),
      show fuel - k = fuel - (k + 1) + 1 by omega, takeSteps_succ, none,
      returns.runEngine_of_calm calm]

theorem returns_of_runEngine_eq_ok {α : Type} {program : EngineProgram W E α} {a : α}
    {after : Flight W E} (ran : runEngine host program flight = .ok a after) :
    Returns host program flight (.ok a) after ∧ after.cpu.fault = none := by
  have ends := callEnds_runEngine host program flight
  rw [ran] at ends
  cases ends with
  | succeeded returns calm => exact ⟨returns, calm⟩

theorem Leg.ends_of_error {n : Nat} {α : Type} {program : EngineProgram W E α} {failure : Failure}
    {left : Flight W E} (leg : Leg host engine request began start n α program flight)
    (ran : runEngine host program flight = .error failure left) :
    Ends host engine request began start (.error failure left) := by
  have ends := callEnds_runEngine host program flight
  rw [ran] at ends
  cases ends with
  | failed returns calm => exact .failed leg returns calm
  | faulted returns latched => exact .faulted leg returns latched
  | brokenOff breaks => exact .brokenOff leg breaks

theorem Arrives.next {k : Nat} {next : Flight W E}
    (arrives : Arrives host engine request began start k flight)
    (goesOn : GoesOn host request began k flight)
    (returns : Returns host engine.step flight (.ok .retired) next)
    (calm : next.cpu.fault = none) :
    Arrives host engine request began start (k + 1) next := by
  refine ⟨.retired arrives.1 returns calm, fun j earlier less reached => ?_⟩
  rcases Nat.lt_or_eq_of_le (Nat.le_of_lt_succ less) with before | rfl
  · exact arrives.2 j earlier before reached
  · rw [← arrives.1.unique reached]
    exact goesOn

/-- From each boundary it comes to, a run ends. -/
theorem Arrives.ends_takeSteps {fuel k : Nat}
    (arrives : Arrives host engine request began start k flight)
    (formed : start.cpu.machine.registers.WellFormed)
    (enough : k + fuel = request.fuel host.patience) :
    Ends host engine request began start
      (takeSteps host engine request began fuel k flight) := by
  induction fuel generalizing k flight with
  | zero =>
    obtain rfl := Nat.add_zero k ▸ enough
    exact .outlasted arrives
  | succ fuel ih =>
    have registers := arrives.1.registers formed
    have looked : k < request.fuel host.patience := by omega
    obtain ⟨found, lookup⟩ := exists_boundaryStop_eq_ok host request began k registers
    rw [takeSteps_succ, lookup]
    cases found with
    | some reason => exact .stopped arrives looked ((boundaryStop_eq_some_iff registers).mp lookup)
    | none =>
      have goesOn := (boundaryStop_eq_none_iff registers).mp lookup
      have leg := Leg.step arrives looked goesOn
      dsimp only
      cases ran : runEngine host engine.step flight with
      | error failure left => exact leg.ends_of_error ran
      | ok outcome next =>
        obtain ⟨returns, calm⟩ := returns_of_runEngine_eq_ok ran
        cases outcome with
        | halted => exact .halted arrives looked goesOn returns calm
        | retired => exact ih (arrives.next goesOn returns calm) (by omega)

theorem Arrives.drive_eq_of_lt {k : Nat}
    (arrives : Arrives host engine request began start k flight)
    (formed : start.cpu.machine.registers.WellFormed) (looked : k < request.fuel host.patience) :
    drive host engine request began (request.fuel host.patience) start =
      match boundaryStop host request began k flight.cpu with
      | .ok (some reason) => .ok reason flight
      | .ok none =>
        (match runEngine host engine.step flight with
        | .ok .halted next => .ok .completed next
        | .ok .retired next =>
          takeSteps host engine request began (request.fuel host.patience - (k + 1)) (k + 1) next
        | .error failure next => .error failure next)
      | .error cause => .error (.error cause) flight := by
  rw [arrives.drive_eq formed (Nat.le_of_lt looked), show request.fuel host.patience - k =
    request.fuel host.patience - (k + 1) + 1 by omega, takeSteps_succ]

/-- Whether another engine does what one does in every call that a run makes of that one. What it
would do elsewhere, at a boundary where the run stops say, is left open. -/
structure SameCalls (host : Host W) (engine other : Engine W E) (request : RunRequest) (began : W)
    (start : Flight W E) : Prop where
  begin : runEngine host other.begin start = runEngine host engine.begin start
  step : ∀ k flight, Arrives host engine request began start k flight →
    k < request.fuel host.patience → GoesOn host request began k flight →
      runEngine host other.step flight = runEngine host engine.step flight

theorem SameCalls.takeSteps_eq {other : Engine W E} {fuel k : Nat}
    (same : SameCalls host engine other request began start)
    (arrives : Arrives host engine request began start k flight)
    (formed : start.cpu.machine.registers.WellFormed)
    (enough : k + fuel = request.fuel host.patience) :
    takeSteps host other request began fuel k flight =
      takeSteps host engine request began fuel k flight := by
  induction fuel generalizing k flight with
  | zero => rfl
  | succ fuel ih =>
    have registers := arrives.1.registers formed
    obtain ⟨found, lookup⟩ := exists_boundaryStop_eq_ok host request began k registers
    rw [takeSteps_succ, takeSteps_succ, lookup]
    cases found with
    | some reason => rfl
    | none =>
      have goesOn := (boundaryStop_eq_none_iff registers).mp lookup
      rw [same.step k flight arrives (by omega) goesOn]
      cases ran : runEngine host engine.step flight with
      | error failure left => rfl
      | ok outcome next =>
        obtain ⟨returns, calm⟩ := returns_of_runEngine_eq_ok ran
        cases outcome with
        | halted => rfl
        | retired => exact ih (arrives.next goesOn returns calm) (by omega)

/-- A run comes to what it comes to by the calls of the engine that it makes, and no others. -/
theorem SameCalls.drive_eq {other : Engine W E}
    (same : SameCalls host engine other request began start)
    (formed : start.cpu.machine.registers.WellFormed) :
    drive host other request began (request.fuel host.patience) start =
      drive host engine request began (request.fuel host.patience) start := by
  simp only [drive, bind_apply, same.begin]
  cases ran : runEngine host engine.begin start with
  | error failure left => rfl
  | ok _ flight =>
    obtain ⟨returns, calm⟩ := returns_of_runEngine_eq_ok ran
    exact same.takeSteps_eq (.first returns calm) formed (Nat.zero_add _)

/-- A run ends as a call of the engine does that fails. -/
theorem Leg.drive_of_error {n : Nat} {α : Type} {program : EngineProgram W E α}
    {failure : Failure} {left : Flight W E}
    (leg : Leg host engine request began start n α program flight)
    (formed : start.cpu.machine.registers.WellFormed)
    (ran : runEngine host program flight = .error failure left) :
    drive host engine request began (request.fuel host.patience) start = .error failure left := by
  cases leg with
  | begin => simp [drive, ran]
  | @step k _ arrives looked goesOn =>
    have none := (boundaryStop_eq_none_iff (arrives.1.registers formed)).mpr goesOn
    rw [arrives.drive_eq_of_lt formed looked, none, ran]

/-- A run ends in one of the ways there are, and in no other. -/
theorem drive_eq_iff_ends (formed : start.cpu.machine.registers.WellFormed)
    (result : EStateM.Result Failure (Flight W E) StopReason) :
    drive host engine request began (request.fuel host.patience) start = result ↔
      Ends host engine request began start result := by
  constructor
  · rintro rfl
    cases ran : runEngine host engine.begin start with
    | error failure left =>
      rw [Leg.drive_of_error .begin formed ran]
      exact Leg.ends_of_error .begin ran
    | ok _ flight =>
      obtain ⟨returns, calm⟩ := returns_of_runEngine_eq_ok ran
      have arrives : Arrives host engine request began start 0 flight := .first returns calm
      rw [arrives.drive_eq formed (Nat.zero_le _)]
      exact arrives.ends_takeSteps formed (Nat.zero_add _)
  · intro ends
    cases ends with
    | @stopped k flight reason arrives looked stops =>
      have lookup := (boundaryStop_eq_some_iff (arrives.1.registers formed)).mpr stops
      rw [arrives.drive_eq_of_lt formed looked, lookup]
    | halted arrives looked goesOn returns calm =>
      have none := (boundaryStop_eq_none_iff (arrives.1.registers formed)).mpr goesOn
      rw [arrives.drive_eq_of_lt formed looked, none, returns.runEngine_of_calm calm]
    | failed leg returns calm =>
      exact leg.drive_of_error formed (returns.runEngine_of_calm calm)
    | faulted leg returns latched =>
      exact leg.drive_of_error formed (returns.runEngine_of_latched latched)
    | brokenOff leg breaks => exact leg.drive_of_error formed breaks.runEngine
    | outlasted arrives =>
      rw [arrives.drive_eq formed (Nat.le_refl _), Nat.sub_self]
      rfl

/-! The bound on boundaries. -/

theorem takeSteps_agrees_succ (host : Host W) (engine : Engine W E) (request : RunRequest)
    (began : W) (fuel k : Nat) :
    AgreesUnless (.abort .exhausted) (takeSteps host engine request began fuel k)
      (takeSteps host engine request began (fuel + 1) k) := by
  induction fuel generalizing k with
  | zero => exact fun flight => .inl ⟨flight, rfl⟩
  | succ fuel ih =>
    refine (AgreesUnless.refl _ _).bind fun flight => (AgreesUnless.refl _ _).bind fun found => ?_
    cases found with
    | some reason => exact AgreesUnless.refl _ _
    | none =>
      refine (AgreesUnless.refl _ _).bind fun outcome => ?_
      cases outcome with
      | halted => exact AgreesUnless.refl _ _
      | retired => exact ih (k + 1)

/-- A run that is not broken off as exhausted comes to the same with more boundaries to look at. -/
theorem drive_eq_of_le {fuel more : Nat} (le : fuel ≤ more)
    (enough : ∀ left, drive host engine request began fuel start ≠
      .error (.abort .exhausted) left) :
    drive host engine request began more start = drive host engine request began fuel start := by
  have step (fuel : Nat) : AgreesUnless (.abort .exhausted)
      (drive host engine request began fuel) (drive host engine request began (fuel + 1)) :=
    (AgreesUnless.refl _ _).bind fun _ => takeSteps_agrees_succ host engine request began fuel 0
  exact AgreesUnless.eq_of_le step le enough

end Flight

end GuestMachine
