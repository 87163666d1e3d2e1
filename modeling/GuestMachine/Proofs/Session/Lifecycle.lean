import GuestMachine.Engine.Tiny
import GuestMachine.Proofs.Session.History
import GuestMachine.Proofs.Session.Passage

/-!
The lifecycle of a session. Behind every call that comes back, what the session remembers of its
last run fits its state, and states follow one another in a fixed order. A new session is
configured by the first call that asks for it or changes memory or hooks, and a closed one
refuses whatever can be refused.
-/

namespace GuestMachine

namespace Lifecycle

/-- States that a call can lead to from another. -/
def successors : Lifecycle → List Lifecycle
  | created => [configured, closed]
  | configured => [stopped, faulted, closed]
  | running => []
  | stopped => [stopped, faulted, closed]
  | faulted => [closed]
  | closed => []

theorem runs_lead_on {state : Lifecycle} (canRun : state.canRun = true) :
    stopped ∈ state.successors ∧ faulted ∈ state.successors := by
  cases state <;> simp_all [Lifecycle.canRun, successors]

theorem closed_mem_successors {state : Lifecycle} (isOpen : state.isOpen = true)
    (idle : state ≠ running) : closed ∈ state.successors := by
  cases state <;> simp_all [Lifecycle.isOpen, successors]

end Lifecycle

namespace Session

variable {W E : Type} {host : Host W} {engine : Engine W E} {session : Session W E}
  {call : HostCall W} {result : EStateM.Result Failure (Session W E) call.Answer}

/-- The call answers or fails, and is not broken off. -/
def ComesBack (host : Host W) (engine : Engine W E) (session : Session W E) (call : HostCall W) :
    Prop :=
  ∀ cause left, perform host engine call session ≠ .error (.abort cause) left

theorem ComesBack.of_ok {answer : call.Answer}
    (answered : answerOf (perform host engine call session) = .ok answer) :
    ComesBack host engine session call := by
  intro cause left broken
  have other := eq_ok_of_answerOf answered
  rw [broken] at other
  contradiction

theorem ComesBack.of_error {cause : Error}
    (failed : answerOf (perform host engine call session) = .error (.error cause)) :
    ComesBack host engine session call := by
  intro other left broken
  have same := eq_error_of_answerOf failed
  rw [broken] at same
  obtain ⟨aborted, -⟩ := EStateM.Result.error.inj same
  contradiction

/-- Every call of a history comes back. -/
def AllComeBack (host : Host W) (engine : Engine W E) : Session W E → List (HostCall W) → Prop
  | _, [] => True
  | session, call :: rest =>
    ComesBack host engine session call ∧
      AllComeBack host engine (finalState (perform host engine call session)) rest

theorem allComeBack_append (earlier later : List (HostCall W)) :
    AllComeBack host engine session (earlier ++ later) ↔
      AllComeBack host engine session earlier ∧
        AllComeBack host engine (session.after host engine earlier) later := by
  induction earlier generalizing session with
  | nil => simp [AllComeBack]
  | cons call rest ih => simp only [List.cons_append, AllComeBack, ih, and_assoc, after, List.foldl]

/-- Only a run can be broken off. -/
theorem allComeBack_of_no_run (reached : Reachable host engine session) {calls : List (HostCall W)}
    (noRun : ∀ call ∈ calls, call.role ≠ .runs) : AllComeBack host engine session calls := by
  induction calls generalizing session with
  | nil => trivial
  | cons call rest ih =>
    refine ⟨fun cause left broken => ?_, ih (reached.asked call) fun later member =>
      noRun later (List.mem_cons_of_mem _ member)⟩
    have passes : Passes session call (perform host engine call session) :=
      passes_perform reached.wellFormed.registers call
    rw [broken] at passes
    cases passes
    exact noRun _ List.mem_cons_self rfl

/-- What the session holds and remembers fits the state that it is in. -/
structure Orderly (session : Session W E) : Prop where
  idle : session.state ≠ .running
  untouched : session.state = .created →
    session.machine.memory.isEmpty ∧ session.machine.hooks.isEmpty
  unrun : session.state = .created ∨ session.state = .configured →
    session.lastStop = none ∧ session.lastError = none
  stopped : session.state = .stopped →
    (∃ reason, session.lastStop = some reason ∧ ∀ kind, reason ≠ .fault kind) ∧
      session.lastError = none
  faulted : session.state = .faulted →
    ∃ cause, session.lastError = some cause ∧ session.lastStop = some (.fault cause.faultKind)
  fits : ∀ cause, session.lastError = some cause →
    session.lastStop = some (.fault cause.faultKind)
  explained : ∀ kind, session.lastStop = some (.fault kind) →
    ∃ cause, session.lastError = some cause ∧ cause.faultKind = kind
  released : session.state = .closed →
    session.machine.memory.isEmpty ∧ session.machine.hooks.isEmpty

namespace Orderly

theorem of_create {initial : E} {world : W} {arch : Arch} {mode : Mode}
    (opened : create engine initial world arch mode = .ok session) : session.Orderly := by
  obtain ⟨registers, -, rfl⟩ := create_eq_ok opened
  exact ⟨by simp, fun _ => ⟨rfl, rfl⟩, fun _ => ⟨rfl, rfl⟩, by simp, by simp, by simp, by simp,
    by simp⟩

/-- A session that has not been run may be configured, whatever its machine. -/
theorem configured (orderly : session.Orderly)
    (new : session.state = .created ∨ session.state = .configured) (machine : Machine W) :
    Orderly { session with machine := machine, state := .configured } where
  idle := by simp
  untouched := by simp
  unrun _ := orderly.unrun new
  stopped := by simp
  faulted := by simp
  fits := orderly.fits
  explained := orderly.explained
  released := by simp

/-- The machine may change where it need not be empty. -/
theorem withMachine (orderly : session.Orderly) {machine : Machine W}
    (empty : session.state = .created ∨ session.state = .closed →
      machine.memory.isEmpty ∧ machine.hooks.isEmpty) :
    Orderly { session with machine := machine } where
  idle := orderly.idle
  untouched created := empty (.inl created)
  unrun := orderly.unrun
  stopped := orderly.stopped
  faulted := orderly.faulted
  fits := orderly.fits
  explained := orderly.explained
  released closed := empty (.inr closed)

theorem withSameStores (orderly : session.Orderly) {machine : Machine W}
    (same : session.machine.SameStores machine) :
    Orderly { session with machine := machine } := by
  refine orderly.withMachine fun bare => ?_
  rw [same.memory, same.hooks]
  exact bare.elim orderly.untouched orderly.released

theorem touched (orderly : session.Orderly) (isOpen : session.state.isOpen = true)
    (machine : Machine W) : Orderly (Session.touched { session with machine := machine }) := by
  unfold Session.touched
  split
  next new => exact orderly.configured (.inl new) machine
  next old =>
    refine orderly.withMachine ?_
    rintro (new | closed)
    · exact absurd new old
    · simp [closed, Lifecycle.isOpen] at isOpen

/-- Every call that comes back leaves the session in order. -/
theorem passes (orderly : session.Orderly) (passes : Passes session call result)
    (back : ∀ cause left, result ≠ .error (.abort cause) left) :
    (finalState result).Orderly := by
  cases passes with
  | refused fallible cause => exact orderly
  | configured new => exact orderly.configured new session.machine
  | changed changes isOpen answer machine => exact orderly.touched isOpen machine
  | inspected inspects isOpen answer same => exact orderly.withSameStores same
  | signalled signals answer same => exact orderly.withSameStores same
  | stopped canRun reason noFault machine engine =>
    refine ⟨by simp, by simp, by simp, fun _ => ⟨⟨reason, rfl, noFault⟩, rfl⟩, by simp, by simp,
      ?_, by simp⟩
    intro kind same
    exact absurd (Option.some.inj same) (noFault kind)
  | faulted canRun cause machine engine =>
    refine ⟨by simp, by simp, by simp, by simp, fun _ => ⟨cause, rfl, rfl⟩, ?_, ?_, by simp⟩
    · rintro other same
      obtain rfl := Option.some.inj same
      rfl
    · rintro kind same
      exact ⟨cause, rfl, StopReason.fault.inj (Option.some.inj same)⟩
  | brokenOff canRun cause left => exact absurd rfl (back cause left)
  | closed isOpen =>
    exact ⟨by simp, by simp, by simp, by simp, by simp, orderly.fits, orderly.explained,
      fun _ => ⟨rfl, rfl⟩⟩

/-- A session in order stays so through every history whose calls come back. -/
theorem after (orderly : session.Orderly) (formed : Reachable host engine session)
    {calls : List (HostCall W)} (back : AllComeBack host engine session calls) :
    (session.after host engine calls).Orderly := by
  induction calls using List.reverseRecOn with
  | nil => exact orderly
  | append_singleton earlier call ih =>
    obtain ⟨before, last⟩ := (allComeBack_append earlier [call]).mp back
    have reached := reachable_after formed earlier
    rw [after_concat]
    exact (ih before).passes (passes_perform reached.wellFormed.registers call) last.1

end Orderly

namespace Passes

/-- A call leaves the state alone or leads to a successor. -/
theorem moves (passes : Passes session call result) (idle : session.state ≠ .running)
    (back : ∀ cause left, result ≠ .error (.abort cause) left) :
    (finalState result).state = session.state ∨
      (finalState result).state ∈ session.state.successors := by
  cases passes with
  | refused | inspected | signalled => exact .inl rfl
  | configured new => rcases new with new | new <;> simp [new, Lifecycle.successors]
  | changed changes isOpen answer machine =>
    simp only [finalState_ok, touched]
    split
    next new => simp [new, Lifecycle.successors]
    next old => exact .inl rfl
  | stopped canRun => exact .inr (Lifecycle.runs_lead_on canRun).1
  | faulted canRun => exact .inr (Lifecycle.runs_lead_on canRun).2
  | brokenOff canRun cause left => exact absurd rfl (back cause left)
  | closed isOpen => exact .inr (Lifecycle.closed_mem_successors isOpen idle)

/-- A new session is configured by nothing but a change that goes through, unless by asking for
it. -/
theorem configured_iff (passes : Passes session call result) (new : session.state = .created)
    (other : call ≠ .configure) :
    (finalState result).state = .configured ↔
      call.role = .changes ∧ ∃ answer left, result = .ok answer left := by
  cases passes with
  | refused fallible cause => simp [new]
  | configured new => exact absurd rfl other
  | changed changes isOpen answer machine => simp [touched, new, changes]
  | inspected inspects => simp [new, inspects]
  | signalled signals => simp [new, signals]
  | stopped canRun | faulted canRun | brokenOff canRun => simp [new, Lifecycle.canRun] at canRun
  | closed => simp [HostCall.role]

/-- A call leaves a closed session closed, and what it remembers alone. -/
theorem of_closed (passes : Passes session call result) (closed : session.state = .closed) :
    (finalState result).state = .closed ∧ (finalState result).lastStop = session.lastStop ∧
      (finalState result).lastError = session.lastError := by
  cases passes with
  | refused | signalled => exact ⟨closed, rfl, rfl⟩
  | configured new => simp [closed] at new
  | changed _ isOpen | inspected _ isOpen | closed isOpen =>
    simp [closed, Lifecycle.isOpen] at isOpen
  | stopped canRun | faulted canRun | brokenOff canRun =>
    simp [closed, Lifecycle.canRun] at canRun

/-- What cannot be refused works in every state, and leaves memory and hooks alone. -/
theorem of_signals (passes : Passes session call result) (signals : call.role = .signals) :
    ∃ answer machine, result = .ok answer { session with machine := machine } ∧
      session.machine.SameStores machine := by
  cases passes with
  | refused fallible => exact absurd signals fallible
  | changed changes => simp [changes] at signals
  | inspected inspects => simp [inspects] at signals
  | @signalled _ _ answer machine same => exact ⟨answer, machine, rfl, same⟩
  | _ => simp [HostCall.role] at signals

end Passes

/-- Asking a new session for it configures it. -/
theorem configure_of_created (new : session.state = .created) :
    perform host engine .configure session = .ok () { session with state := .configured } := by
  simp [perform, configure, new]

/-- A closed session refuses every call that can be refused, for being closed. -/
theorem perform_of_closed (closed : session.state = .closed) {operation : String}
    (named : call.operation? = some operation) :
    perform host engine call session =
      .error (.error (.invalidState .closed operation)) session := by
  have refuses (operation : String) {α : Type} (rest : Attempt (Session W E) α) :
      (requireOpen operation >>= fun _ => rest) session =
        .error (.error (.invalidState .closed operation)) session := by
    simp [requireOpen_apply, closed, Lifecycle.isOpen]
  cases call with
  | stop | stopThrough | setWorld => contradiction
  | configure =>
    obtain rfl := Option.some.inj named
    simp [perform, configure, closed]
  | run request =>
    obtain rfl := Option.some.inj named
    simp [perform, run, checkRun, closed, Lifecycle.canRun]
  | _ =>
    obtain rfl := Option.some.inj named
    exact refuses _ _

/-- Once closed, a session stays closed and remembers what it did then. -/
theorem after_of_closed (reached : Reachable host engine session)
    (closed : session.state = .closed) (calls : List (HostCall W)) :
    (session.after host engine calls).state = .closed ∧
      (session.after host engine calls).lastStop = session.lastStop ∧
      (session.after host engine calls).lastError = session.lastError := by
  induction calls using List.reverseRecOn with
  | nil => exact ⟨closed, rfl, rfl⟩
  | append_singleton earlier call ih =>
    have formed := (reachable_after reached earlier).wellFormed.registers
    obtain ⟨still, stop, error⟩ := (passes_perform formed call).of_closed ih.1
    rw [after_concat]
    exact ⟨still, stop.trans ih.2.1, error.trans ih.2.2⟩

/-- Closing keeps what the session remembers of its last run. -/
theorem after_of_close (reached : Reachable host engine session)
    (isOpen : session.state.isOpen = true) (later : List (HostCall W)) :
    (session.after host engine (.close :: later)).state = .closed ∧
      (session.after host engine (.close :: later)).lastStop = session.lastStop ∧
      (session.after host engine (.close :: later)).lastError = session.lastError := by
  have closes : finalState (perform host engine .close session) =
      { session with
        machine := { session.machine with
          memory := session.machine.memory.clear
          hooks := session.machine.hooks.clear }
        state := .closed } := by
    simp [perform, close, requireOpen_apply, isOpen]
  have stays := after_of_closed (reached.asked .close) (by rw [closes]) later
  rw [closes] at stays
  rw [after, List.foldl_cons, closes]
  exact stays

/-- In every history whose calls come back, what a session remembers fits its state, the states
follow one another in order, a new session is configured exactly by asking for it or by the first
change that goes through, and a closed one stays as it was closed and refuses what it can. -/
theorem lifecycle_law {initial : E} {world : W} {arch : Arch} {mode : Mode}
    (opened : create engine initial world arch mode = .ok session) {calls : List (HostCall W)}
    (back : AllComeBack host engine session calls) :
    let now := session.after host engine calls
    now.Orderly ∧
    (∀ past later, calls = past ++ .close :: later →
      let last := session.after host engine past
      last.state.isOpen = true →
        now.state = .closed ∧ now.lastStop = last.lastStop ∧ now.lastError = last.lastError) ∧
    (∀ call, ComesBack host engine now call →
      let next := finalState (perform host engine call now)
      (next.state = now.state ∨ next.state ∈ now.state.successors) ∧
      (now.state = .created → (next.state = .configured ↔
        call = .configure ∨
          call.role = .changes ∧ ∃ answer left, perform host engine call now = .ok answer left))) ∧
    (now.state = .closed → ∀ call,
      (∀ operation, call.operation? = some operation →
        perform host engine call now =
          .error (.error (.invalidState .closed operation)) now) ∧
      (call.operation? = none → ∃ answer machine,
        perform host engine call now = .ok answer { now with machine := machine } ∧
          now.machine.SameStores machine)) := by
  intro now
  have reached : Reachable host engine session := .created opened
  have orderly : now.Orderly := (Orderly.of_create opened).after reached back
  have formed : now.machine.WellFormed := (reachable_after reached calls).wellFormed
  have passes (call : HostCall W) : Passes now call (perform host engine call now) :=
    passes_perform formed.registers call
  refine ⟨orderly, ?_, fun call returns => ⟨?_, fun new => ?_⟩, fun closed call => ⟨?_, ?_⟩⟩
  · intro past later split last isOpen
    have stays := after_of_close (reachable_after reached past) isOpen later
    rw [← after_append, ← split] at stays
    exact stays
  · exact (passes call).moves orderly.idle returns
  · by_cases asked : call = .configure
    · subst asked
      simp [configure_of_created new]
    · rw [(passes call).configured_iff new asked]
      exact ⟨.inr, fun either => either.resolve_left asked⟩
  · intro operation named
    exact perform_of_closed closed named
  · intro unnamed
    exact (passes call).of_signals ((HostCall.operation?_eq_none_iff call).mp unnamed)

/-- A session whose first run halts and whose second one runs off the end of its region, so that
it is stopped, faulted and closed in turn. -/
theorem lifecycle_law_of_two_runs :
    ∃ session : Session Unit Tiny.State,
      create Tiny.engine .initial () .x86 .bits32 = .ok session ∧
      let fault : Error := .unmappedAccess .fetch 0x1003 1
      let settled : List (HostCall Unit) := [.mapMemory 0x1000 3 .all,
        .loadMemory 0x1000 ⟨#[0x90, 0xF4, 0x90]⟩, .run (.unbounded 0x1000)]
      let failed := settled ++ [.run (.unbounded 0x1002)]
      let closed := failed ++ [.close]
      let now := session.after Host.obliging Tiny.engine
      AllComeBack Host.obliging Tiny.engine session closed ∧
        (now settled).state = .stopped ∧ (now settled).lastStop = some .completed ∧
        (now settled).Orderly ∧
        (now failed).state = .faulted ∧ (now failed).lastError = some fault ∧
        (now failed).lastStop = some (.fault fault.faultKind) ∧
        (now closed).Orderly ∧ (now closed).state = .closed ∧
        (now closed).lastError = some fault ∧
        perform Host.obliging Tiny.engine (.run (.unbounded 0x1000)) (now closed) =
          .error (.error (.invalidState .closed "run")) (now closed) := by
  have opened : create Tiny.engine .initial () .x86 .bits32 =
    .ok (_ : Session Unit Tiny.State) := rfl
  refine ⟨_, opened, ?_⟩
  intro fault settled failed closed now
  have reached : Reachable Host.obliging Tiny.engine _ := .created opened
  have halts : answerOf (perform Host.obliging Tiny.engine (.run (.unbounded 0x1000))
      (now (settled.take 2))) = .ok .completed := by decide +kernel
  have fails : answerOf (perform Host.obliging Tiny.engine (.run (.unbounded 0x1002))
      (now settled)) = .error (.error fault) := by decide +kernel
  have remembers : (now failed).lastError = some fault := by decide +kernel
  have backSettled : AllComeBack Host.obliging Tiny.engine _ settled :=
    (allComeBack_append (settled.take 2) _).mpr
      ⟨allComeBack_of_no_run reached (by simp [settled, HostCall.role]), .of_ok halts, trivial⟩
  have backFailed : AllComeBack Host.obliging Tiny.engine _ failed :=
    (allComeBack_append settled _).mpr ⟨backSettled, .of_error fails, trivial⟩
  have backClosed : AllComeBack Host.obliging Tiny.engine _ closed :=
    (allComeBack_append failed _).mpr
      ⟨backFailed, allComeBack_of_no_run (reachable_after reached failed) (by simp [HostCall.role])⟩
  obtain ⟨settledOrderly, -⟩ := lifecycle_law opened backSettled
  obtain ⟨failedOrderly, -⟩ := lifecycle_law opened backFailed
  obtain ⟨closedOrderly, ends, -, refuses⟩ := lifecycle_law opened backClosed
  obtain ⟨isClosed, -, kept⟩ := ends failed [] rfl (by decide +kernel)
  refine ⟨backClosed, by decide +kernel, by decide +kernel, settledOrderly, by decide +kernel,
    remembers, failedOrderly.fits fault remembers, closedOrderly, isClosed, kept.trans remembers,
    (refuses isClosed _).1 _ rfl⟩

end Session

end GuestMachine
