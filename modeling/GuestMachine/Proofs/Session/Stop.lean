import GuestMachine.Proofs.Cpu.Guest
import GuestMachine.Proofs.Machine.Stop
import GuestMachine.Proofs.Session.History
import GuestMachine.Proofs.Session.Refusal
import GuestMachine.Proofs.Session.Transcript

/-!
The stop flag of a session. A stop can be requested by the host, through any handle, and amid a
run by callbacks and the engine. It is forgotten where a run is let in, before anything of that
run is done, and nowhere else. So a stop requested while nothing runs never shortens a run, and
one requested amid a run is known until the next one begins.
-/

namespace GuestMachine

variable {W E α : Type}

/-- Whether a deed leaves the stop flag alone. -/
def Deed.SparesStop : Deed W → Prop
  | clearStop | requestStop _ => False
  | _ => True

/-! What is done in a flight. -/

namespace Flight

theorem runEngine_guest (host : Host W) (program : EngineProgram W E α) :
    (runEngine.account host program).Only Deed.IsGuest := by
  refine .bind (.of_nil fun _ => rfl) fun flight => ?_
  have works : (onCpu.account (E := E) (Account.run (Cpu.perform.account host)
      (program.run.run flight.engine)).lift).Only Deed.IsGuest :=
    fun flight => Account.Only.run (Cpu.perform_guest host) _ flight.cpu
  refine works.bind fun (answer, engine) => .bind (.of_nil fun _ => rfl) fun _ =>
    .bind (.of_nil fun _ => rfl) fun fault => ?_
  cases fault <;> exact .of_nil fun _ => rfl

theorem takeSteps_guest (host : Host W) (engine : Engine W E) (request : RunRequest) (began : W)
    (fuel k : Nat) : (takeSteps.account host engine request began fuel k).Only Deed.IsGuest := by
  induction fuel generalizing k with
  | zero => exact .of_nil fun _ => rfl
  | succ fuel ih =>
    refine .bind (.of_nil fun _ => rfl) fun _ => .bind (.of_nil fun _ => rfl) fun found => ?_
    cases found with
    | some reason => exact .of_nil fun _ => rfl
    | none =>
      refine (runEngine_guest host engine.step).bind fun outcome => ?_
      cases outcome with
      | halted => exact .of_nil fun _ => rfl
      | retired => exact ih (k + 1)

theorem drive_guest (host : Host W) (engine : Engine W E) (request : RunRequest) (began : W)
    (fuel : Nat) : (drive.account host engine request began fuel).Only Deed.IsGuest :=
  (runEngine_guest host engine.begin).bind fun _ => takeSteps_guest host engine request began fuel 0

end Flight

namespace Session

variable {host : Host W} {engine : Engine W E} {session : Session W E} {request : RunRequest}

theorem clearStop_not_mem_guestDeeds : .clearStop ∉ session.guestDeeds host engine request :=
  fun listed => Flight.drive_guest host engine request _ _ _ _ listed

/-! Calls that are no runs. -/

theorem requireOpen_only {allowed : Deed W → Prop} (operation : String) :
    (requireOpen.account (E := E) operation).Only allowed :=
  .bind (.of_nil fun _ => rfl) fun _ => .ite (.of_nil fun _ => rfl) (.of_nil fun _ => rfl)

theorem mutate_only {allowed : Deed W → Prop} (operation : String) {x : Attempt (Machine W) α}
    {account : Account id x} (only : account.Only allowed) :
    (mutate.account (E := E) operation account).Only allowed := by
  have inside : (onMachine.account (E := E) account).Only allowed :=
    fun session => only session.machine
  exact (requireOpen_only operation).bind fun _ => inside.bind fun _ => .of_nil fun _ => rfl

theorem inspect_only {allowed : Deed W → Prop} (operation : String) {x : Attempt (Machine W) α}
    {account : Account id x} (only : account.Only allowed) :
    (inspect.account (E := E) operation account).Only allowed := by
  have inside : (onMachine.account (E := E) account).Only allowed :=
    fun session => only session.machine
  exact (requireOpen_only operation).bind fun _ => inside

/-- A call that neither signals nor runs leaves the stop flag alone. -/
theorem perform_sparesStop (call : HostCall W) (quiet : call.role ≠ .signals)
    (still : call.role ≠ .runs) : (perform.account host engine call).Only Deed.SparesStop := by
  cases call with
  | mapMemory | unmapMemory | protectMemory | writeMemory | loadMemory | addHook
  | addInstructionHook | removeHook =>
    exact mutate_only _ (.of_singleton fun _ => ⟨_, rfl, trivial⟩)
  | writeRegister => exact inspect_only _ (.of_singleton fun _ => ⟨_, rfl, trivial⟩)
  | readMemory | readRegister => exact inspect_only _ (.of_nil fun _ => rfl)
  | configure => exact .of_nil fun _ => rfl
  | regions | registerNamed | saveContext =>
    exact (requireOpen_only _).bind fun _ => .of_nil fun _ => rfl
  | restoreContext context =>
    refine (requireOpen_only _).bind fun _ session deed listed => ?_
    simp only [Account.ofGet] at listed
    split at listed
    · obtain rfl := List.mem_singleton.mp listed
      trivial
    · simp at listed
  | close =>
    refine (requireOpen_only _).bind fun _ session deed listed => ?_
    rcases List.mem_cons.mp listed with rfl | listed
    · trivial
    · obtain rfl := List.mem_singleton.mp listed
      trivial
  | stop | stopThrough | setWorld => exact absurd rfl quiet
  | run => exact absurd rfl still

/-! Requests and runs in a history. -/

/-- The handles of a session: the ones that it hands out at any time, and their clones. -/
inductive Handed (host : Host W) (engine : Engine W E) (session : Session W E) : StopHandle → Prop
  | taken (calls : List (HostCall W)) :
      Handed host engine session (session.after host engine calls).stopHandle
  | clone {handle : StopHandle} (handed : Handed host engine session handle) :
      Handed host engine session handle.clone

/-- Whether a run begins with a call that comes after earlier ones. -/
def BeginsRun (host : Host W) (engine : Engine W E) (session : Session W E)
    (earlier : List (HostCall W)) (call : HostCall W) : Prop :=
  ∃ request, call = .run request ∧ (session.after host engine earlier).Admits request

/-- Whether a stop is requested with a call that comes after earlier ones: by the host, through any
handle of the session, or amid a run by a callback or the engine. -/
inductive AsksStop (host : Host W) (engine : Engine W E) (session : Session W E)
    (earlier : List (HostCall W)) : HostCall W → Prop
  | stop : AsksStop host engine session earlier .stop
  | through {handle : StopHandle} (handed : session.Handed host engine handle) :
      AsksStop host engine session earlier (.stopThrough handle)
  | amid {request : RunRequest} (admits : (session.after host engine earlier).Admits request)
      (asked : .requestStop session.stopHandle ∈
        (session.after host engine earlier).guestDeeds host engine request) :
      AsksStop host engine session earlier (.run request)

theorem stopHandle_after (host : Host W) (engine : Engine W E) (session : Session W E)
    (calls : List (HostCall W)) :
    (session.after host engine calls).stopHandle = session.stopHandle := by
  change (session.after host engine calls).machine.stopHandle = session.machine.stopHandle
  rw [machine_after, Machine.stopHandle_replay]

/-- All handles of a session are handles of the one flag that it has. -/
theorem handed_iff {handle : StopHandle} :
    session.Handed host engine handle ↔ handle = session.stopHandle := by
  constructor
  · intro handed
    induction handed with
    | taken calls => exact stopHandle_after host engine session calls
    | clone _ ih => exact ih
  · rintro rfl
    exact .taken []

variable {earlier : List (HostCall W)} {call : HostCall W}

theorem beginsRun_run_iff :
    BeginsRun host engine session earlier (.run request) ↔
      (session.after host engine earlier).Admits request := by
  constructor
  · rintro ⟨_, same, admits⟩
    obtain rfl := HostCall.run.inj same
    exact admits
  · exact fun admits => ⟨request, rfl, admits⟩

theorem not_beginsRun (still : call.role ≠ .runs) :
    ¬BeginsRun host engine session earlier call := by
  rintro ⟨request, rfl, -⟩
  exact still rfl

/-- What is listed of a run: nothing if it is refused, and else that a stop is forgotten and that
the program counter moves, before all that callbacks and the engine do. -/
theorem deeds_perform_run (formed : (session.after host engine earlier).machine.WellFormed)
    (request : RunRequest) :
    let now := session.after host engine earlier
    let deeds := (perform.account host engine (.run request)).deeds now
    ¬now.Admits request ∧ deeds = [] ∨
      now.Admits request ∧ deeds = .clearStop ::
        .writeRegister now.machine.registers.pc request.start ::
          now.guestDeeds host engine request := by
  intro now deeds
  rw [admits_iff formed.memory]
  cases accepted : now.checkRun request with
  | ok => exact .inr ⟨rfl, deeds_run accepted formed.registers⟩
  | error cause => exact .inl ⟨by simp, deeds_run_of_refused accepted⟩

theorem clearStop_not_mem_deeds_perform (still : call.role ≠ .runs) (session : Session W E) :
    .clearStop ∉ (perform.account host engine call).deeds session := by
  cases call with
  | stop | stopThrough | setWorld =>
    intro listed
    have same := List.mem_singleton.mp listed
    contradiction
  | run => exact absurd rfl still
  | _ => exact fun listed => perform_sparesStop _ (by simp [HostCall.role]) still _ _ listed

/-- In a call the flag is cleared only if a run begins with it, and then first of all. -/
theorem clearStop_mem_deeds_perform_iff
    (formed : (session.after host engine earlier).machine.WellFormed) (call : HostCall W) :
    let deeds := (perform.account host engine call).deeds (session.after host engine earlier)
    (.clearStop ∈ deeds ↔ BeginsRun host engine session earlier call) ∧
      .clearStop ∉ deeds.tail := by
  intro deeds
  by_cases runs : call.role = .runs
  · cases call with
    | run request =>
      rw [beginsRun_run_iff]
      rcases deeds_perform_run formed request with ⟨refused, same⟩ | ⟨admits, same⟩
      · simp [deeds, same, refused]
      · simp [deeds, same, admits, clearStop_not_mem_guestDeeds]
    | _ => contradiction
  · have none : .clearStop ∉ deeds := clearStop_not_mem_deeds_perform runs _
    exact ⟨iff_of_false none (not_beginsRun runs), fun listed => none (List.mem_of_mem_tail listed)⟩

/-- In a call a stop is requested as the history says. -/
theorem requestStop_mem_deeds_perform_iff
    (formed : (session.after host engine earlier).machine.WellFormed) :
    .requestStop session.stopHandle ∈
        (perform.account host engine call).deeds (session.after host engine earlier) ↔
      AsksStop host engine session earlier call := by
  cases call with
  | run request =>
    rcases deeds_perform_run formed request with ⟨refused, same⟩ | ⟨admits, same⟩
    · rw [same]
      refine iff_of_false List.not_mem_nil ?_
      rintro ⟨⟩
      contradiction
    · rw [same]
      constructor
      · intro listed
        exact .amid admits (by simpa using listed)
      · rintro ⟨⟩
        simp [*]
  | stop =>
    refine iff_of_true (List.mem_singleton.mpr ?_) .stop
    rw [← stopHandle_after host engine session earlier]
    rfl
  | stopThrough handle =>
    refine Iff.trans List.mem_singleton ?_
    constructor
    · intro same
      exact .through (handed_iff.mpr (Deed.requestStop.inj same).symm)
    · rintro ⟨⟩
      next handed => rw [handed_iff.mp handed]
  | setWorld world =>
    refine iff_of_false (fun listed => ?_) (by rintro ⟨⟩)
    have same := List.mem_singleton.mp listed
    contradiction
  | _ =>
    refine iff_of_false (fun listed => ?_) (by rintro ⟨⟩)
    exact perform_sparesStop _ (by simp [HostCall.role]) (by simp [HostCall.role]) _ _ listed

/-- The flag is up behind a call that requests a stop, and behind every other one that lets no run
begin if it was up before. -/
theorem stopRequested_after_concat
    (formed : (session.after host engine earlier).machine.WellFormed) (call : HostCall W) :
    (session.after host engine (earlier ++ [call])).machine.stopRequested = true ↔
      AsksStop host engine session earlier call ∨
        ¬BeginsRun host engine session earlier call ∧
          (session.after host engine earlier).machine.stopRequested = true := by
  obtain ⟨clears, first⟩ := clearStop_mem_deeds_perform_iff formed call
  have replays := (perform.account host engine call).replays (session.after host engine earlier)
  have own : (session.after host engine earlier).machine.stopHandle = session.stopHandle :=
    stopHandle_after host engine session earlier
  rw [after_concat, replays, Machine.stopRequested_replay formed.flagged,
    Deed.stopPending_iff_mem first, own, requestStop_mem_deeds_perform_iff formed, clears]

/-- The flag is up exactly if a stop has been requested since the last run began. -/
theorem stopRequested_after_iff (reached : Reachable host engine session)
    (quiet : session.machine.stopRequested = false) (calls : List (HostCall W)) :
    (session.after host engine calls).machine.stopRequested = true ↔
      Since (AsksStop host engine session) (BeginsRun host engine session) calls := by
  induction calls using List.reverseRecOn with
  | nil => simp [quiet, not_since_nil]
  | append_singleton earlier call ih =>
    rw [stopRequested_after_concat (reachable_after reached earlier).wellFormed, since_concat, ih]

/-! The law. -/

/-- A run goes as it would if no stop had been requested before. -/
theorem run_clearStop (formed : session.machine.WellFormed) (admits : session.Admits request) :
    run host engine request { session with machine := session.machine.clearStop } =
      run host engine request session := by
  have accepted := (admits_iff formed.memory).mp admits
  have forgotten : session.machine.clearStop.clearStop = session.machine.clearStop := by
    simp [Machine.clearStop, StopBoard.clear]
  have same : takeoff { session with machine := session.machine.clearStop } request =
      session.takeoff request := by simp only [takeoff, forgotten]
  rw [run_eq_landing host engine accepted formed.registers, ← same]
  exact run_eq_landing host engine accepted formed.registers

/-- A run that ends for a requested stop has one requested amid it. -/
theorem asksStop_of_explicitStop
    (formed : (session.after host engine earlier).machine.WellFormed) {left : Session W E}
    (ran : run host engine request (session.after host engine earlier) =
      .ok .explicitStop left) : AsksStop host engine session earlier (.run request) := by
  cases accepted : (session.after host engine earlier).checkRun request with
  | error cause => simp [run_of_refused host engine accepted] at ran
  | ok =>
    have begins : BeginsRun host engine session earlier (.run request) :=
      beginsRun_run_iff.mpr ((admits_iff formed.memory).mpr accepted)
    have requested : left.machine.stopRequested = true := by
      obtain ⟨ending, ends, lands⟩ :=
        (run_eq_iff host engine accepted formed.registers _).mp ran
      cases ends with
      | @stopped k flight reason arrives looked stops =>
        obtain ⟨rfl, rfl⟩ := EStateM.Result.ok.inj lands
        exact stops.holds
      | halted =>
        obtain ⟨other, -⟩ := EStateM.Result.ok.inj lands
        contradiction
      | _ => contradiction
    have step := stopRequested_after_concat formed (.run request)
    rw [after_concat, perform, ran] at step
    exact (step.mp requested).resolve_right fun kept => kept.1 begins

/-- How the stop flag of a session follows from its history. -/
structure StopsFollow (host : Host W) (engine : Engine W E) (session : Session W E)
    (calls : List (HostCall W)) : Prop where
  /-- Every handle, whenever it was taken, sees a stop exactly if one has been requested since the
  last run began, or at any time if none has. -/
  seen : ∀ handle, session.Handed host engine handle →
    ((session.after host engine calls).stopSeen handle = true ↔
      Since (AsksStop host engine session) (BeginsRun host engine session) calls)
  /-- Amid a call, too, it is up exactly if a stop has been requested and not forgotten since. -/
  points : ∀ past, past <+: session.deeds host engine calls →
    ((session.machine.replay past).stopRequested = true ↔
      Deed.StopPending session.stopHandle past)
  /-- In a call a stop is forgotten only if a run begins with it, and then first of all. -/
  forgets : ∀ call,
    let deeds := (perform.account host engine call).deeds (session.after host engine calls)
    (.clearStop ∈ deeds ↔ BeginsRun host engine session calls call) ∧ .clearStop ∉ deeds.tail
  /-- However a call ends, a stop requested with it is known behind it, and one requested before
  is still known unless a run began. -/
  lasts : ∀ call, AsksStop host engine session calls call ∨
      ¬BeginsRun host engine session calls call ∧
        (session.after host engine calls).stopSeen session.stopHandle = true →
    (session.after host engine (calls ++ [call])).stopSeen session.stopHandle = true
  /-- A run that is let in takes off with no stop requested and goes as it would if none had been
  requested before it. -/
  fresh : ∀ request, (session.after host engine calls).Admits request →
    let now := session.after host engine calls
    (now.takeoff request).cpu.machine.stopRequested = false ∧
      run host engine request { now with machine := now.machine.clearStop } =
        run host engine request now
  /-- A run that stops because it is asked to is asked to amid it. -/
  explained : ∀ request left,
    run host engine request (session.after host engine calls) = .ok .explicitStop left →
      AsksStop host engine session calls (.run request)

/-- The stop flag follows from the history of the session, whichever runs of it are let in or
refused and however they end. -/
theorem stop_flag_law {initial : E} {world : W} {arch : Arch} {mode : Mode} (host : Host W)
    (opened : create engine initial world arch mode = .ok session) (calls : List (HostCall W)) :
    session.StopsFollow host engine calls := by
  have reached : Reachable host engine session := .created opened
  have formed := (reachable_after reached calls).wellFormed
  have quiet : session.machine.stopRequested = false := by
    obtain ⟨registers, -, rfl⟩ := create_eq_ok opened
    rfl
  have reads (calls : List (HostCall W)) :
      (session.after host engine calls).stopSeen session.stopHandle =
        (session.after host engine calls).machine.stopRequested := by
    rw [← stopHandle_after host engine session calls]
    rfl
  refine ⟨fun handle handed => ?_, fun past _ => ?_,
    clearStop_mem_deeds_perform_iff formed, fun call => ?_,
    fun request admits => ⟨?_, run_clearStop formed admits⟩,
    fun request left => asksStop_of_explicitStop formed⟩
  · rw [handed_iff.mp handed, reads, stopRequested_after_iff reached quiet]
  · rw [Machine.stopRequested_replay reached.wellFormed.flagged, quiet]
    simp [stopHandle, StopHandle.clone]
  · rw [reads, reads, stopRequested_after_concat formed]
    exact id
  · exact Machine.stopRequested_clearStop _

/-- A stop requested through a clone is forgotten by a run that is let in and ends by its count,
amid which none is requested. The next run is stopped by a request amid it, known behind it. -/
theorem stop_flag_law_of_two_runs :
    ∃ session : Session Unit Unit, create .marching () () .riscv .empty = .ok session ∧
      let asking : List (HostCall Unit) :=
        [.mapMemory 0x1000 1 .all, .stopThrough session.stopHandle.clone]
      let counted : HostCall Unit := .run ⟨0x1000, none, 0, 2⟩
      let free : HostCall Unit := .run (.unbounded 0x1000)
      let now := session.after Host.obliging .marching
      let seen := fun calls => (now calls).stopSeen session.stopHandle.clone
      seen asking = true ∧
        BeginsRun Host.obliging .marching session asking counted ∧
        ¬AsksStop Host.obliging .marching session asking counted ∧
        seen (asking ++ [counted]) = false ∧
        AsksStop Host.obliging .marching session (asking ++ [counted]) free ∧
        seen (asking ++ [counted] ++ [free]) = true := by
  have opened : create .marching () () .riscv .empty = .ok (_ : Session Unit Unit) := rfl
  refine ⟨_, opened, ?_⟩
  intro asking counted free now seen
  have law := stop_flag_law Host.obliging opened
  have known : seen asking = true := by
    refine ((law asking).seen _ (.clone (.taken []))).mpr ?_
    exact ⟨[.mapMemory 0x1000 1 .all], _, [], rfl, .through (.clone (.taken [])), by simp⟩
  have forgotten : seen (asking ++ [counted]) = false := by decide +kernel
  have lasts := (law asking).lasts counted
  have stopped : answerOf (run Host.obliging .marching (.unbounded 0x1000)
      (now (asking ++ [counted]))) = .ok .explicitStop := by decide +kernel
  have asked := (law (asking ++ [counted])).explained _ _ (eq_ok_of_answerOf stopped)
  refine ⟨known, ?_, fun amid => ?_, forgotten, asked,
    (law (asking ++ [counted])).lasts free (.inl asked)⟩
  · by_contra refused
    exact Bool.false_ne_true (forgotten.symm.trans (lasts (.inr ⟨refused, known⟩)))
  · exact Bool.false_ne_true (forgotten.symm.trans (lasts (.inl amid)))

end Session

end GuestMachine
