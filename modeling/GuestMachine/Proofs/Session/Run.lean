import GuestMachine.Proofs.Session.Ending

/-!
Accepted runs. A run takes off with the program counter at the start address and no stop
requested, and what it comes to is what became of that flight, entered in the session. So the law
of how runs end holds of the runs of a session.
-/

namespace GuestMachine

/-- A value without a bit outside a mask is not changed by it. -/
theorem and_eq_self_of_and_not_eq_zero {value mask : UInt64} (inside : value &&& ~~~mask = 0) :
    value &&& mask = value := by
  apply UInt64.toBitVec_inj.mp
  have outside : value.toBitVec &&& ~~~mask.toBitVec = 0 := by
    simpa using congrArg UInt64.toBitVec inside
  calc value.toBitVec &&& mask.toBitVec
      = (value.toBitVec &&& mask.toBitVec) ||| (value.toBitVec &&& ~~~mask.toBitVec) := by
        simp [outside]
    _ = value.toBitVec := by
        rw [← BitVec.and_or_distrib_left, BitVec.or_not_self, BitVec.and_allOnes]

def Engine.idle : Engine Unit Unit where
  supports _ _ := true
  layout _ _ := ⟨⟨0⟩, [⟨⟨0⟩, "pc", 64⟩]⟩
  begin := pure ()
  step := pure .retired

/-- An engine that goes on by a byte in every step, and requests a stop in the one at 0x1002. -/
def Engine.marching : Engine Unit Unit where
  supports _ _ := true
  layout _ _ := ⟨⟨0⟩, [⟨⟨0⟩, "pc", 64⟩]⟩
  begin := pure ()
  step := do
    let pc ← EngineProgram.pc
    if pc = 0x1002 then EngineProgram.ofCallback (CallbackProgram.ask .stop)
    EngineProgram.setPc (pc + 1)
    return .retired

namespace Machine

variable {W : Type}

theorem stopRequested_clearStop (machine : Machine W) :
    machine.clearStop.stopRequested = false := by
  by_cases flagged : machine.stopHandle.flag < machine.stops.flags.length <;>
    simp [stopRequested, clearStop, StopBoard.isRequested, StopBoard.clear, flagged]

end Machine

namespace Session

variable {W E : Type} {host : Host W} {engine : Engine W E} {request : RunRequest}
  {session : Session W E}

/-- A run is accepted in a state that lets it start, with bounds that fit the program counter and
a start address that is mapped executable. -/
theorem checkRun_eq_ok_iff (formed : session.machine.memory.WellFormed) :
    session.checkRun request = .ok () ↔
      session.state.canRun = true ∧ session.boundsFit request = true ∧
        session.machine.memory.Grants (some .exec) request.start.toNat := by
  have decided := formed.check_decides request.start 1 .exec
  rw [← MemoryMap.covers_one, ← decided.ok_iff_covers]
  cases canRun : session.state.canRun <;> cases fits : session.boundsFit request <;>
    cases checked : session.machine.memory.check request.start 1 .exec <;>
    simp [checkRun, canRun, fits, checked]

/-- The flight with which an accepted run begins. -/
def takeoff (session : Session W E) (request : RunRequest) : Flight W E :=
  let machine := session.machine.clearStop
  ⟨Cpu.ofMachine { machine with
    registers := machine.registers.store machine.registers.pc request.start }, session.engine⟩

theorem wellFormed_takeoff (formed : session.machine.WellFormed) (request : RunRequest) :
    (session.takeoff request).cpu.machine.WellFormed where
  memory := formed.memory
  registers := formed.registers.store _ request.start
  hooks := formed.hooks
  flagged := by
    simpa [takeoff, Cpu.ofMachine, Machine.clearStop, StopBoard.clear] using formed.flagged

/-- What the session makes of the end of a flight. -/
def landing : EStateM.Result Failure (Flight W E) StopReason →
    EStateM.Result Failure (Session W E) StopReason
  | .ok reason flight => .ok reason
    { machine := flight.cpu.machine, engine := flight.engine, state := .stopped
      lastStop := some reason, lastError := none }
  | .error (.error cause) flight => .error (.error cause)
    { machine := flight.cpu.machine, engine := flight.engine, state := .faulted
      lastStop := some (.fault cause.faultKind), lastError := some cause }
  | .error (.abort cause) flight => .error (.abort cause)
    { machine := flight.cpu.machine, engine := flight.engine, state := .running
      lastStop := none, lastError := none }

/-- An accepted run is a flight with its landing. -/
theorem run_eq_landing (host : Host W) (engine : Engine W E)
    (accepted : session.checkRun request = .ok ())
    (formed : session.machine.registers.WellFormed) :
    run host engine request session =
      landing (Flight.drive host engine request session.machine.world
        (request.fuel host.patience) (session.takeoff request)) := by
  have writes : session.machine.clearStop.registers.write session.machine.clearStop.registers.pc
      request.start = .ok _ := formed.write_pc request.start
  simp only [run, bind_apply, get_apply, accepted, ofExcept_ok, pure_apply, modify_apply, onMachine,
    within_apply, Machine.setPc, Machine.writeRegister, writes, set_apply]
  generalize flown : Flight.drive host engine request session.machine.clearStop.world
    (request.fuel host.patience) _ = result
  have same : Flight.drive host engine request session.machine.world
    (request.fuel host.patience) (session.takeoff request) = result := flown
  rw [same]
  cases result with
  | ok reason flight => rfl
  | error failure flight => cases failure <;> rfl

/-- A run that is refused changes nothing. -/
theorem run_of_refused (host : Host W) (engine : Engine W E) {cause : Error}
    (refused : session.checkRun request = .error cause) :
    run host engine request session = .error (.error cause) session := by
  simp [run, refused]

/-- An accepted run takes off at its start address with no stop requested. -/
theorem takeoff_ready (accepted : session.checkRun request = .ok ())
    (formed : session.machine.registers.WellFormed) :
    let machine := (session.takeoff request).cpu.machine
    machine.stopRequested = false ∧
      machine.registers.read machine.registers.pc = .ok request.start := by
  refine ⟨Machine.stopRequested_clearStop session.machine, ?_⟩
  obtain ⟨slot, found⟩ := Option.isSome_iff_exists.mp formed.hasPc
  have fits : request.start &&& slot.spec.mask = request.start := by
    unfold checkRun at accepted
    split_ifs at accepted with refused wide
    have narrow : session.boundsFit request = true := by simpa using wide
    simp only [boundsFit, RegisterBank.pcMask, RegisterBank.spec?, found, Option.map_some,
      Bool.and_eq_true, beq_iff_eq] at narrow
    exact and_eq_self_of_and_not_eq_zero narrow.1
  have named : slot.spec.id = session.machine.registers.pc := by
    simpa using List.find?_some found
  change (session.machine.registers.store session.machine.registers.pc request.start).read
    session.machine.registers.pc = .ok request.start
  rw [RegisterBank.read, RegisterBank.slotOf?_store, found]
  simp [named, fits]

/-- What an accepted run comes to is the landing of one of the ways that runs end. -/
theorem run_eq_iff (host : Host W) (engine : Engine W E)
    (accepted : session.checkRun request = .ok ())
    (formed : session.machine.registers.WellFormed)
    (result : EStateM.Result Failure (Session W E) StopReason) :
    run host engine request session = result ↔
      ∃ ending, Flight.Ends host engine request session.machine.world (session.takeoff request)
        ending ∧ landing ending = result := by
  have registers : (session.takeoff request).cpu.machine.registers.WellFormed :=
    formed.store _ request.start
  rw [run_eq_landing host engine accepted formed]
  constructor
  · rintro rfl
    exact ⟨_, (Flight.drive_eq_iff_ends registers _).mp rfl, rfl⟩
  · rintro ⟨ending, ends, rfl⟩
    rw [(Flight.drive_eq_iff_ends registers ending).mpr ends]

/-- A run that stops for its count has come to the boundary of that number. -/
theorem boundary_count_of_run (accepted : session.checkRun request = .ok ())
    (formed : session.machine.registers.WellFormed) {final : Session W E}
    (ran : run host engine request session = .ok .instructionLimit final) :
    ∃ flight, Flight.Boundary host engine (session.takeoff request) request.count flight ∧
      landing (.ok .instructionLimit flight) = .ok .instructionLimit final := by
  obtain ⟨ending, ends, lands⟩ := (run_eq_iff host engine accepted formed _).mp ran
  cases ends with
  | @stopped k flight reason arrives looked stops =>
    obtain ⟨rfl, same⟩ := EStateM.Result.ok.inj lands
    have spent := stops.holds
    obtain rfl := Nat.le_antisymm (arrives.le_count spent.1) spent.2
    exact ⟨flight, arrives.1, lands⟩
  | halted =>
    obtain ⟨other, -⟩ := EStateM.Result.ok.inj lands
    contradiction
  | _ => contradiction

/-- A run whose calls another engine would answer alike does not tell the two apart. -/
theorem run_eq_of_sameCalls {other : Engine W E} (accepted : session.checkRun request = .ok ())
    (formed : session.machine.registers.WellFormed)
    (same : Flight.SameCalls host engine other request session.machine.world
      (session.takeoff request)) :
    run host other request session = run host engine request session := by
  rw [run_eq_landing host other accepted formed, run_eq_landing host engine accepted formed,
    same.drive_eq (formed.store _ request.start)]

/-- A run that begins at its end stops there, unless beginning fails, requests a stop or moves the
program counter. -/
theorem run_of_stopAt_start (accepted : session.checkRun request = .ok ())
    (formed : session.machine.registers.WellFormed) (ends : request.stopAt = some request.start)
    (looked : 0 < request.fuel host.patience) {flight : Flight W E}
    (reached : Flight.Boundary host engine (session.takeoff request) 0 flight)
    (quiet : flight.cpu.machine.stopRequested = false)
    (unmoved : flight.cpu.machine.registers.read flight.cpu.machine.registers.pc =
      .ok request.start) :
    run host engine request session = landing (.ok .completed flight) := by
  have arrives : Flight.Arrives host engine request session.machine.world
      (session.takeoff request) 0 flight := by
    cases reached with
    | begun returns calm => exact .first returns calm
  have stops : Flight.StopsFor host request session.machine.world 0 flight .completed := by
    refine (StopReason.firstOf_of_not ?_).mpr ((StopReason.firstOf_of_holds ?_).mpr rfl)
    · simp [StopReason.Holds, quiet]
    · exact ⟨request.start, unmoved, ends⟩
  exact (run_eq_iff host engine accepted formed _).mpr ⟨_, .stopped arrives looked stops, rfl⟩

/-! A session to begin with. -/

/-- A session with one byte of code and no hooks. -/
def ready : Session Unit Unit where
  machine := Machine.fresh () ⟨[⟨0x1000, ⟨0⟩, .all, ⟨#[0]⟩⟩], 1⟩ .empty
  engine := ()
  state := .configured
  lastStop := none
  lastError := none

theorem wellFormed_ready : ready.machine.WellFormed := by
  refine Machine.wellFormed_fresh () ⟨?_, ?_, List.pairwise_singleton _ _⟩
    HookTable.wellFormed_empty
  · decide
  · decide

theorem checkRun_ready {stopAt : Option UInt64} {timeout count : Nat} :
    ready.checkRun ⟨0x1000, stopAt, timeout, count⟩ = .ok () := by
  have narrow : ~~~ready.machine.registers.pcMask = 0 := by decide
  refine (checkRun_eq_ok_iff wellFormed_ready.memory).mpr ⟨rfl, ?_, ?_⟩
  · cases stopAt <;> simp [boundsFit, narrow]
  · exact ⟨_, List.mem_singleton_self _, ⟨Nat.le_refl _, Nat.lt_succ_self _⟩, by decide⟩

/-! The law. -/

/-- A run stops for the first reason that holds at the first boundary with one. In full: it takes
off at its start address with no stop requested; it ends in one of the ways there are and in no
other, by calls of the engine that it makes only where no reason to stop holds; a count bounds
these calls and lets every boundary be looked at, and a run that stops for its count has made
exactly so many steps; a run that starts at its end stops there unless beginning moved it; and a
stop requested in a call of the engine stops the run at the boundary behind that call, if it comes
to it. -/
theorem run_stop_law (host : Host W) (engine : Engine W E)
    (accepted : session.checkRun request = .ok ())
    (formed : session.machine.registers.WellFormed) :
    let start := session.takeoff request
    let began := session.machine.world
    (start.cpu.machine.stopRequested = false ∧
      start.cpu.machine.registers.read start.cpu.machine.registers.pc = .ok request.start) ∧
    (∀ result, run host engine request session = result ↔
      ∃ ending, Flight.Ends host engine request began start ending ∧ landing ending = result) ∧
    (∀ other, Flight.SameCalls host engine other request began start →
      run host other request session = run host engine request session) ∧
    (request.count ≠ 0 →
      (∀ n α program flight, Flight.Leg host engine request began start n α program flight →
        n ≤ request.count) ∧
      ∀ k flight, Flight.Arrives host engine request began start k flight →
        k < request.fuel host.patience) ∧
    (∀ final, run host engine request session = .ok .instructionLimit final →
      ∃ flight, Flight.Boundary host engine start request.count flight ∧
        landing (.ok .instructionLimit flight) = .ok .instructionLimit final) ∧
    (request.stopAt = some request.start → 0 < request.fuel host.patience →
      ∀ flight, Flight.Boundary host engine start 0 flight →
        flight.cpu.machine.stopRequested = false →
        flight.cpu.machine.registers.read flight.cpu.machine.registers.pc = .ok request.start →
        run host engine request session = landing (.ok .completed flight)) ∧
    (∀ n α program flight, Flight.Leg host engine request began start n α program flight →
      (∃ moment ∈ Flight.moments host program flight,
        moment.after.machine.stopRequested = true) →
      ∀ next, Flight.Arrives host engine request began start n next →
        n < request.fuel host.patience →
        run host engine request session = landing (.ok .explicitStop next)) := by
  intro start began
  refine ⟨takeoff_ready accepted formed, run_eq_iff host engine accepted formed,
    fun other same => run_eq_of_sameCalls accepted formed same, ?_,
    fun final ran => boundary_count_of_run accepted formed ran, ?_, ?_⟩
  · intro counted
    exact ⟨fun n α program flight leg => leg.le_count counted,
      fun k flight arrives => arrives.lt_fuel counted⟩
  · intro ends looked flight reached quiet unmoved
    exact run_of_stopAt_start accepted formed ends looked reached quiet unmoved
  · rintro n α program flight leg ⟨moment, listed, requested⟩ next arrives looked
    have seen := leg.stopRequested_of_boundary arrives.1 listed requested
    have stops : Flight.StopsFor host request began n next .explicitStop :=
      (StopReason.firstOf_of_holds seen).mpr rfl
    exact (run_eq_iff host engine accepted formed _).mpr ⟨_, .stopped arrives looked stops, rfl⟩

/-- Of two runs from the same start, one ends by its count at the boundary behind two steps, the
other by the stop that is requested in the third. -/
theorem run_stop_law_of_march :
    let counted : RunRequest := ⟨0x1000, none, 0, 2⟩
    let free : RunRequest := .unbounded 0x1000
    ready.checkRun counted = .ok () ∧ ready.checkRun free = .ok () ∧
      ready.machine.registers.WellFormed ∧
      (∃ left flight, run Host.obliging .marching counted ready = .ok .instructionLimit left ∧
        left.machine.registers.read ⟨0⟩ = .ok 0x1002 ∧
        Flight.Boundary Host.obliging .marching (ready.takeoff counted) 2 flight ∧
        landing (.ok .instructionLimit flight) = .ok .instructionLimit left) ∧
      ∃ left ending, run Host.obliging .marching free ready = .ok .explicitStop left ∧
        left.machine.registers.read ⟨0⟩ = .ok 0x1003 ∧
        Flight.Ends Host.obliging .marching free () (ready.takeoff free) ending ∧
        landing ending = .ok .explicitStop left := by
  intro counted free
  have accepted : ready.checkRun counted = .ok () := checkRun_ready
  have acceptedToo : ready.checkRun free = .ok () := checkRun_ready
  have formed := wellFormed_ready.registers
  have limited : answerOf (run Host.obliging .marching counted ready) = .ok .instructionLimit := by
    decide +kernel
  have stopped : answerOf (run Host.obliging .marching free ready) = .ok .explicitStop := by
    decide +kernel
  obtain ⟨-, -, -, -, counts, -⟩ := run_stop_law Host.obliging .marching accepted formed
  obtain ⟨-, comes, -⟩ := run_stop_law Host.obliging .marching acceptedToo formed
  obtain ⟨flight, reached, lands⟩ := counts _ (eq_ok_of_answerOf limited)
  obtain ⟨ending, ends, landsToo⟩ := (comes _).mp (eq_ok_of_answerOf stopped)
  refine ⟨accepted, acceptedToo, formed, ⟨_, flight, eq_ok_of_answerOf limited, ?_, reached, lands⟩,
    _, ending, eq_ok_of_answerOf stopped, ?_, ends, landsToo⟩
  · decide +kernel
  · decide +kernel

end Session

end GuestMachine
