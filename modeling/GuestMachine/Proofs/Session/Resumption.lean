import GuestMachine.Proofs.Session.Transcript

/-!
Runs that are gone on with. A run without a timeout that stops for its count has come just as far
as one with a larger count has at that boundary, and nothing but the count tells the two apart. So
going on from there with the count that is left ends as the one run does, and does the same on the
way.
-/

namespace GuestMachine

/-- Where no stop is requested there is none to forget. -/
theorem Machine.clearStop_of_quiet {W : Type} {machine : Machine W}
    (quiet : machine.stopRequested = false) : machine.clearStop = machine := by
  have same : machine.stops.clear machine.stopHandle = machine.stops := by
    simp only [stopRequested, StopBoard.isRequested] at quiet
    refine congrArg StopBoard.mk (List.ext_getElem? fun i => ?_)
    by_cases here : machine.stopHandle.flag = i
    · subst here
      cases flag : machine.stops.flags[machine.stopHandle.flag]? with
      | none => simp [List.getElem?_eq_none_iff.mp flag]
      | some requested =>
        obtain ⟨listed, -⟩ := List.getElem?_eq_some_iff.mp flag
        simp_all
    · rw [List.getElem?_set_ne here]
  rw [clearStop, same]

/-- Whether a run has retired as many instructions as its count asks for. -/
def RunRequest.Spent (request : RunRequest) (retired : Nat) : Prop :=
  request.count ≠ 0 ∧ request.count ≤ retired

/-- Requests without a timeout for runs that end at the same address. -/
structure RunRequest.SameBounds (request other : RunRequest) : Prop where
  untimed : request.timeout = 0
  untimedToo : other.timeout = 0
  stopAt : other.stopAt = request.stopAt

namespace Flight

variable {W E : Type} {host : Host W} {engine : Engine W E} {request other : RunRequest}
  {began later : W} {k j : Nat} {flight : Flight W E}

/-- What the steps from a boundary on come to, with what can be seen of them. -/
def watch (host : Host W) (engine : Engine W E) (request : RunRequest) (began : W)
    (fuel k : Nat) (flight : Flight W E) :
    EStateM.Result Failure (Flight W E) StopReason × List Note :=
  (takeSteps host engine request began fuel k flight,
    (takeSteps.transcript host engine request began fuel k).notes flight)

theorem watch_succ (fuel k : Nat) (flight : Flight W E) :
    watch host engine request began (fuel + 1) k flight =
      match boundaryStop host request began k flight.cpu with
      | .ok (some reason) => (.ok reason flight, [])
      | .ok none =>
        let seen := .stepped flight.cpu.machine.registers ::
          (runEngine.transcript host engine.step).notes flight
        (match runEngine host engine.step flight with
        | .ok .halted next => (.ok .completed next, seen)
        | .ok .retired next =>
          let rest := watch host engine request began fuel (k + 1) next
          (rest.1, seen ++ rest.2)
        | .error failure next => (.error failure next, seen))
      | .error cause => (.error (.error cause) flight, []) := by
  rw [watch, takeSteps_succ, notes_takeSteps_succ]
  cases boundaryStop host request began k flight.cpu with
  | error cause => rfl
  | ok found =>
    cases found with
    | some reason => rfl
    | none =>
      dsimp only
      cases runEngine host engine.step flight with
      | error failure next => simp
      | ok outcome next => cases outcome <;> simp [watch]

/-- A run stops for its count only where it is spent and no stop has been requested. -/
theorem spent_of_boundaryStop {cpu : Cpu W}
    (stops : boundaryStop host request began k cpu = .ok (some .instructionLimit)) :
    request.Spent k ∧ cpu.machine.stopRequested = false := by
  unfold boundaryStop at stops
  split at stops
  · simp at stops
  next quiet =>
    split at stops
    · contradiction
    · split_ifs at stops with ended spent late
      · simp at stops
      · exact ⟨spent, by simpa using quiet⟩
      · simp at stops
      · simp at stops

/-- Without a timeout, what is looked up at a boundary hangs on the end of the run and on whether
its count is spent. -/
theorem boundaryStop_congr (bounds : request.SameBounds other)
    (spent : request.Spent k ↔ other.Spent j) (cpu : Cpu W) :
    boundaryStop host other later j cpu = boundaryStop host request began k cpu := by
  obtain ⟨untimed, untimedToo, sameEnd⟩ := bounds
  unfold RunRequest.Spent at spent
  simp only [boundaryStop, untimed, untimedToo, sameEnd, spent, ne_eq, not_true_eq_false,
    false_and, if_false]

/-- Where one count is spent and another is not, the first run stops for its count, or both stop
for the same reason. -/
theorem boundaryStop_of_spent (bounds : request.SameBounds other) (spent : request.Spent k)
    (unspent : ¬other.Spent k) (cpu : Cpu W) :
    boundaryStop host request began k cpu = .ok (some .instructionLimit) ∨
      boundaryStop host other began k cpu = boundaryStop host request began k cpu ∧
        boundaryStop host request began k cpu ≠ .ok none := by
  obtain ⟨untimed, untimedToo, sameEnd⟩ := bounds
  unfold RunRequest.Spent at spent unspent
  simp only [boundaryStop, untimed, untimedToo, sameEnd, if_pos spent, if_neg unspent]
  cases cpu.machine.stopRequested with
  | true => simp
  | false =>
    cases cpu.machine.registers.read cpu.machine.registers.pc with
    | error cause => simp
    | ok pc => by_cases ended : request.stopAt = some pc <;> simp [ended]

/-- Runs whose counts are spent at the same boundaries take the same steps from there on. -/
theorem watch_congr (bounds : request.SameBounds other)
    (spent : ∀ i, request.Spent (k + i) ↔ other.Spent (j + i)) (fuel : Nat)
    (flight : Flight W E) :
    watch host engine other later fuel j flight =
      watch host engine request began fuel k flight := by
  induction fuel generalizing k j flight with
  | zero => rfl
  | succ fuel ih =>
    have next : ∀ i, request.Spent (k + 1 + i) ↔ other.Spent (j + 1 + i) := by
      intro i
      rw [Nat.add_assoc, Nat.add_assoc]
      exact spent (1 + i)
    have same : boundaryStop host other later j flight.cpu =
        boundaryStop host request began k flight.cpu :=
      boundaryStop_congr bounds (spent 0) flight.cpu
    rw [watch_succ, watch_succ, same]
    simp only [ih next]

/-- A flight that has paused at a boundary, ready to be gone on with. -/
structure Pauses (host : Host W) (flight paused : Flight W E) : Prop where
  calm : paused.cpu.fault = none
  quiet : paused.cpu.machine.stopRequested = false
  evolves : Machine.Evolves host flight.cpu.machine paused.cpu.machine

/-- How a longer run continues a shorter one: it ends with it, or goes on where that one has paused
for its count. -/
inductive Continues (host : Host W) (flight : Flight W E)
    (rest : Flight W E → EStateM.Result Failure (Flight W E) StopReason × List Note) :
    (short long : EStateM.Result Failure (Flight W E) StopReason × List Note) → Prop
  | ended {result : EStateM.Result Failure (Flight W E) StopReason} {seen : List Note}
      (other : ∀ paused, result ≠ .ok .instructionLimit paused) :
      Continues host flight rest (result, seen) (result, seen)
  | paused {paused : Flight W E} {seen : List Note} (pauses : Pauses host flight paused) :
      Continues host flight rest (.ok .instructionLimit paused, seen)
        ((rest paused).1, seen ++ (rest paused).2)

variable {rest : Flight W E → EStateM.Result Failure (Flight W E) StopReason × List Note}
  {short long : EStateM.Result Failure (Flight W E) StopReason × List Note}

theorem Continues.stopped {reason : StopReason} (other : reason ≠ .instructionLimit) :
    Continues host flight rest (.ok reason flight, []) (.ok reason flight, []) :=
  .ended fun _ same => other (EStateM.Result.ok.inj same).1

theorem Continues.failed {failure : Failure} {left : Flight W E} {seen : List Note} :
    Continues host flight rest (.error failure left, seen) (.error failure left, seen) :=
  .ended (by simp)

/-- What is seen of a step is seen of both runs. -/
theorem Continues.step {next : Flight W E} (continues : Continues host next rest short long)
    (evolves : Machine.Evolves host flight.cpu.machine next.cpu.machine) (seen : List Note) :
    Continues host flight rest (short.1, seen ++ short.2) (long.1, seen ++ long.2) := by
  cases continues with
  | ended other => exact .ended other
  | paused pauses =>
    dsimp only
    rw [← List.append_assoc]
    exact .paused ⟨pauses.calm, pauses.quiet, evolves.trans pauses.evolves⟩

/-- A run with a larger count continues one with a smaller count. -/
theorem continues_watch {start : UInt64} {stopAt : Option UInt64} {n m : Nat} (counted : 0 < n)
    (more : 0 < m) {fuel : Nat} (left : k + fuel = n) (calm : flight.cpu.fault = none) :
    Continues host flight (watch host engine ⟨start, stopAt, 0, n + m⟩ began (m + 1) n)
      (watch host engine ⟨start, stopAt, 0, n⟩ began (fuel + 1) k flight)
      (watch host engine ⟨start, stopAt, 0, n + m⟩ began (m + 1 + fuel) k flight) := by
  have bounds : RunRequest.SameBounds ⟨start, stopAt, 0, n⟩ ⟨start, stopAt, 0, n + m⟩ :=
    ⟨rfl, rfl, rfl⟩
  induction fuel generalizing k flight with
  | zero =>
    obtain rfl : k = n := left
    have spent : RunRequest.Spent ⟨start, stopAt, 0, k⟩ k := ⟨Nat.ne_of_gt counted, Nat.le_refl k⟩
    have unspent : ¬RunRequest.Spent ⟨start, stopAt, 0, k + m⟩ k := fun ⟨_, spent⟩ => by
      change k + m ≤ k at spent
      omega
    have found : boundaryStop host ⟨start, stopAt, 0, k⟩ began k flight.cpu =
          .ok (some .instructionLimit) ∨ _ ∧ _ :=
      boundaryStop_of_spent bounds spent unspent flight.cpu
    rcases found with stops | ⟨same, ends⟩
    · have quiet := (spent_of_boundaryStop stops).2
      rw [watch_succ, stops]
      exact .paused ⟨calm, quiet, .refl⟩
    · rw [Nat.add_zero, watch_succ, watch_succ, ← same]
      cases found : boundaryStop host ⟨start, stopAt, 0, k + m⟩ began k flight.cpu with
      | error cause => exact .failed
      | ok reason =>
        cases reason with
        | none => exact absurd (same.symm.trans found) ends
        | some reason =>
          refine .stopped ?_
          rintro rfl
          exact unspent (spent_of_boundaryStop found).1
  | succ fuel ih =>
    have unspent : ¬RunRequest.Spent ⟨start, stopAt, 0, n⟩ k := fun ⟨_, spent⟩ => by
      change n ≤ k at spent
      omega
    have unspentToo : ¬RunRequest.Spent ⟨start, stopAt, 0, n + m⟩ k := fun ⟨_, spent⟩ => by
      change n + m ≤ k at spent
      omega
    have same : boundaryStop host ⟨start, stopAt, 0, n + m⟩ began k flight.cpu =
        boundaryStop host ⟨start, stopAt, 0, n⟩ began k flight.cpu :=
      boundaryStop_congr bounds (iff_of_false unspent unspentToo) flight.cpu
    rw [watch_succ, ← Nat.add_assoc, watch_succ, same]
    cases found : boundaryStop host ⟨start, stopAt, 0, n⟩ began k flight.cpu with
    | error cause => exact .failed
    | ok reason =>
      cases reason with
      | some reason =>
        refine .stopped ?_
        rintro rfl
        exact unspent (spent_of_boundaryStop found).1
      | none =>
        dsimp only
        cases ran : runEngine host engine.step flight with
        | error failure next => exact .failed
        | ok outcome next =>
          obtain ⟨returns, still⟩ := returns_of_runEngine_eq_ok ran
          cases outcome with
          | halted => exact .ended (by simp)
          | retired => exact (ih (k := k + 1) (by omega) still).step returns.evolves _

/-- An engine that does nothing to begin with goes to its first boundary unseen. -/
theorem drive_of_silent (silent : engine.begin = pure ()) (calm : flight.cpu.fault = none)
    (fuel : Nat) :
    (drive host engine request began fuel flight,
      (drive.transcript host engine request began fuel).notes flight) =
      watch host engine request began fuel 0 flight := by
  have returns : Returns host engine.begin flight (.ok ()) flight := by
    rw [Returns, silent]
    rfl
  have unseen : (runEngine.transcript host engine.begin).notes flight = [] := by
    rw [notes_runEngine, silent]
    rfl
  have begun := returns.runEngine_of_calm calm
  simp only [drive, bind_apply, drive.transcript, Transcript.bind, begun, unseen, List.nil_append]
  rfl

end Flight

namespace Session

variable {W E : Type} {host : Host W} {engine : Engine W E} {session : Session W E}
  {request : RunRequest}

/-- What a run comes to, with what can be seen of it. -/
def watch (host : Host W) (engine : Engine W E) (request : RunRequest) (session : Session W E) :
    EStateM.Result Failure (Session W E) StopReason × List Note :=
  (run host engine request session, (run.transcript host engine request).notes session)

theorem watch_eq_landing (silent : engine.begin = pure ())
    (accepted : session.checkRun request = .ok ())
    (formed : session.machine.registers.WellFormed) :
    watch host engine request session =
      Prod.map landing id (Flight.watch host engine request session.machine.world
        (request.fuel host.patience) 0 (session.takeoff request)) := by
  rw [watch, run_eq_landing host engine accepted formed, notes_run accepted formed,
    ← Flight.drive_of_silent silent rfl]
  rfl

/-- The session of a run that has stopped for its count. -/
def pausedAt (flight : Flight W E) : Session W E where
  machine := flight.cpu.machine
  engine := flight.engine
  state := .stopped
  lastStop := some .instructionLimit
  lastError := none

/-- Going on where a run has paused takes off as it has landed. -/
theorem takeoff_pausedAt {start paused : Flight W E} (pauses : Flight.Pauses host start paused)
    (formed : start.cpu.machine.WellFormed) {pc : UInt64}
    (found : paused.cpu.machine.registers.read paused.cpu.machine.registers.pc = .ok pc)
    (stopAt : Option UInt64) (count : Nat) :
    (pausedAt paused).takeoff ⟨pc, stopAt, 0, count⟩ = paused := by
  have stays := (pauses.evolves.wellFormed formed).registers.store_of_read found
  obtain ⟨⟨machine, fault⟩, engine⟩ := paused
  obtain rfl : fault = none := pauses.calm
  simp only [takeoff, pausedAt, Machine.clearStop_of_quiet pauses.quiet] at stays ⊢
  rw [stays]
  rfl

/-- A run that has paused may be gone on with wherever memory may be executed. -/
theorem checkRun_pausedAt {paused : Flight W E} (formed : session.machine.WellFormed)
    (accepted : session.checkRun request = .ok ())
    (pauses : Flight.Pauses host (session.takeoff request) paused) {pc : UInt64}
    (found : paused.cpu.machine.registers.read paused.cpu.machine.registers.pc = .ok pc)
    (executable : paused.cpu.machine.memory.Grants (some .exec) pc.toNat) (count : Nat) :
    (pausedAt paused).checkRun ⟨pc, request.stopAt, 0, count⟩ = .ok () := by
  have landed : paused.cpu.machine.WellFormed :=
    pauses.evolves.wellFormed (wellFormed_takeoff formed request)
  obtain ⟨-, fits, -⟩ := (checkRun_eq_ok_iff formed.memory).mp accepted
  have width : paused.cpu.machine.registers.pcMask = session.machine.registers.pcMask :=
    RegisterBank.pcMask_eq_of_layout_eq
      (pauses.evolves.layout.trans (RegisterBank.layout_store _ _ _))
  refine (checkRun_eq_ok_iff landed.memory).mpr ⟨rfl, ?_, executable⟩
  simp only [boundsFit, pausedAt, width, Bool.and_eq_true, beq_iff_eq] at fits ⊢
  refine ⟨?_, fits.2⟩
  rw [← landed.registers.and_pcMask_of_read found, width, UInt64.and_assoc]
  simp

theorem exists_flight_of_landing {result : EStateM.Result Failure (Flight W E) StopReason}
    {reason : StopReason} {left : Session W E} (lands : landing result = .ok reason left) :
    ∃ flight, result = .ok reason flight := by
  cases result with
  | ok other flight =>
    obtain ⟨rfl, -⟩ := EStateM.Result.ok.inj lands
    exact ⟨flight, rfl⟩
  | error failure flight => cases failure <;> simp [landing] at lands

section Counts

variable {start : UInt64} {stopAt : Option UInt64} {n m : Nat}

/-- The run with the larger count continues the limited one. -/
theorem exists_continues (formed : session.machine.WellFormed) (silent : engine.begin = pure ())
    (counted : 0 < n) (more : 0 < m) (accepted : session.checkRun ⟨start, stopAt, 0, n⟩ = .ok ()) :
    ∃ short long,
      Flight.Continues host (session.takeoff ⟨start, stopAt, 0, n⟩)
        (Flight.watch host engine ⟨start, stopAt, 0, n + m⟩ session.machine.world (m + 1) n)
        short long ∧
      watch host engine ⟨start, stopAt, 0, n⟩ session = Prod.map landing id short ∧
      watch host engine ⟨start, stopAt, 0, n + m⟩ session = Prod.map landing id long := by
  have fuel : RunRequest.fuel ⟨start, stopAt, 0, n⟩ host.patience = n + 1 :=
    if_neg (Nat.ne_of_gt counted)
  have fuelToo : RunRequest.fuel ⟨start, stopAt, 0, n + m⟩ host.patience = m + 1 + n := by
    rw [RunRequest.fuel, if_neg (show n + m ≠ 0 by omega)]
    change n + m + 1 = m + 1 + n
    omega
  refine ⟨_, _, Flight.continues_watch counted more (Nat.zero_add n) rfl, ?_, ?_⟩
  · rw [watch_eq_landing silent accepted formed.registers, fuel]
  · have acceptedToo : session.checkRun ⟨start, stopAt, 0, n + m⟩ = .ok () := accepted
    rw [watch_eq_landing silent acceptedToo formed.registers, fuelToo]
    rfl

/-- Going on where the limited run has paused comes to what the steps behind that boundary come
to. -/
theorem watch_pausedAt (formed : session.machine.WellFormed) (silent : engine.begin = pure ())
    (more : 0 < m) (accepted : session.checkRun ⟨start, stopAt, 0, n⟩ = .ok ())
    {paused : Flight W E}
    (pauses : Flight.Pauses host (session.takeoff ⟨start, stopAt, 0, n⟩) paused) {pc : UInt64}
    (found : paused.cpu.machine.registers.read paused.cpu.machine.registers.pc = .ok pc)
    (executable : paused.cpu.machine.memory.Grants (some .exec) pc.toNat) (began : W) :
    watch host engine ⟨pc, stopAt, 0, m⟩ (pausedAt paused) =
      Prod.map landing id
        (Flight.watch host engine ⟨start, stopAt, 0, n + m⟩ began (m + 1) n paused) := by
  have goesOn : (pausedAt paused).checkRun ⟨pc, stopAt, 0, m⟩ = .ok () :=
    checkRun_pausedAt formed accepted pauses found executable m
  have departs : session.takeoff ⟨start, stopAt, 0, n⟩ |>.cpu.machine.WellFormed :=
    wellFormed_takeoff formed _
  have landed : (pausedAt paused).machine.registers.WellFormed :=
    (pauses.evolves.wellFormed departs).registers
  have fuel : RunRequest.fuel ⟨pc, stopAt, 0, m⟩ host.patience = m + 1 :=
    if_neg (Nat.ne_of_gt more)
  have spent (i : Nat) : RunRequest.Spent ⟨start, stopAt, 0, n + m⟩ (n + i) ↔
      RunRequest.Spent ⟨pc, stopAt, 0, m⟩ (0 + i) := by
    simp only [RunRequest.Spent]
    omega
  rw [watch_eq_landing silent goesOn landed, fuel, takeoff_pausedAt pauses departs found]
  have bounds : RunRequest.SameBounds ⟨start, stopAt, 0, n + m⟩ ⟨pc, stopAt, 0, m⟩ :=
    ⟨rfl, rfl, rfl⟩
  exact congrArg _ (Flight.watch_congr bounds spent (m + 1) paused)

/-- A limited run can be gone on with. Take an engine that does nothing to begin with and a run
with a count and without a timeout. If it ends for another reason than its count, the run with a
larger count ends with it. If it stops for its count at an address that may be executed, going on
from there with the count that is left ends as the run with the larger count does, in the same
session, and the steps taken and the hooks called in the two are together those of the one. -/
theorem limited_run_can_be_resumed (formed : session.machine.WellFormed)
    (silent : engine.begin = pure ()) (counted : 0 < n) (more : 0 < m)
    (accepted : session.checkRun ⟨start, stopAt, 0, n⟩ = .ok ()) :
    let limited : RunRequest := ⟨start, stopAt, 0, n⟩
    let whole : RunRequest := ⟨start, stopAt, 0, n + m⟩
    let notes (request : RunRequest) (session : Session W E) : List Note :=
      (run.transcript host engine request).notes session
    ((∀ paused, run host engine limited session ≠ .ok .instructionLimit paused) →
      run host engine whole session = run host engine limited session ∧
        notes whole session = notes limited session) ∧
    (∀ paused pc, run host engine limited session = .ok .instructionLimit paused →
      paused.machine.registers.read paused.machine.registers.pc = .ok pc →
      paused.machine.memory.Grants (some .exec) pc.toNat →
      run host engine ⟨pc, stopAt, 0, m⟩ paused = run host engine whole session ∧
        notes limited session ++ notes ⟨pc, stopAt, 0, m⟩ paused = notes whole session) := by
  intro limited whole notes
  obtain ⟨short, long, continues, watched, watchedToo⟩ :
      ∃ short long, Flight.Continues host _ _ short long ∧ _ ∧ _ :=
    exists_continues formed silent counted more accepted
  obtain ⟨ran, noted⟩ := Prod.mk.inj watched
  obtain ⟨ranToo, notedToo⟩ := Prod.mk.inj watchedToo
  cases continues with
  | @ended result seen other =>
    refine ⟨fun _ => ⟨ranToo.trans ran.symm, notedToo.trans noted.symm⟩, ?_⟩
    intro paused pc stops
    obtain ⟨flight, same⟩ := exists_flight_of_landing (ran.symm.trans stops)
    exact absurd same (other flight)
  | @paused flight seen pauses =>
    refine ⟨fun other => absurd ran (other _), ?_⟩
    intro paused pc stops found executable
    obtain ⟨-, rfl⟩ := EStateM.Result.ok.inj (ran.symm.trans stops)
    have resumed := watch_pausedAt formed silent more accepted pauses found executable
      session.machine.world
    obtain ⟨ranOn, notedOn⟩ := Prod.mk.inj resumed
    exact ⟨ranOn.trans ranToo.symm, (congrArg₂ (· ++ ·) noted notedOn).trans notedToo.symm⟩

end Counts

/-- Two steps and then three more are five. -/
theorem limited_run_can_be_resumed_after_two_steps :
    ready.machine.WellFormed ∧ ready.checkRun ⟨0x1000, none, 0, 2⟩ = .ok () ∧
      ∃ paused, run Host.obliging .idle ⟨0x1000, none, 0, 2⟩ ready =
          .ok .instructionLimit paused ∧
        run Host.obliging .idle ⟨0x1000, none, 0, 3⟩ paused =
          run Host.obliging .idle ⟨0x1000, none, 0, 5⟩ ready := by
  have accepted : ready.checkRun ⟨0x1000, none, 0, 2⟩ = .ok () := checkRun_ready
  have stops : run Host.obliging .idle ⟨0x1000, none, 0, 2⟩ ready =
      .ok .instructionLimit (_ : Session Unit Unit) :=
    run_eq_landing Host.obliging .idle accepted wellFormed_ready.registers
  obtain ⟨-, resumes⟩ := @limited_run_can_be_resumed Unit Unit Host.obliging .idle ready 0x1000 none
    2 3 wellFormed_ready rfl (by decide) (by decide) accepted
  have executable : ready.machine.memory.Grants (some .exec) (0x1000 : UInt64).toNat :=
    ((checkRun_eq_ok_iff wellFormed_ready.memory).mp accepted).2.2
  exact ⟨wellFormed_ready, accepted, _, stops, (resumes _ _ stops rfl executable).1⟩

end Session

end GuestMachine
