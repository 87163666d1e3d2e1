import GuestMachine.Proofs.Cpu.Onlooker
import GuestMachine.Proofs.Session.Running
import GuestMachine.Proofs.Session.Transcript

/-!
Runs beside a hook that only looks on. Step by step the engine meets the same boundaries, as the
hook changes nothing that they are decided by, and so the whole run ends in the same way, in a
session that differs by the hook alone, with the same calls of all other hooks on the way.
-/

namespace GuestMachine

variable {W V E α : Type}

/-- A program of an engine to which it makes no difference what the view does not show. -/
def EngineProgram.Blind (view : W → V) (program : EngineProgram W E α) : Prop :=
  ∀ engine, Program.Alike (CpuOp.Asks view) (program.run.run engine) (program.run.run engine)

structure Engine.Blind (engine : Engine W E) (view : W → V) : Prop where
  begin : engine.begin.Blind view
  step : engine.step.Blind view

/-- A callback that leaves the whole world alone hides nothing from the engine. -/
theorem Engine.blind_of_injective {view : W → V} (whole : view.Injective) (engine : Engine W E) :
    engine.Blind view where
  begin _ := .refl (CpuOp.exists_asks whole) _
  step _ := .refl (CpuOp.exists_asks whole) _

namespace Onlooker

variable {onlooker : Onlooker W V} {host : Host W} {engine : Engine W E} {request : RunRequest}
  {flight watched : Flight W E}

/-- A flight without the hook beside one with it. -/
structure FlightBeside (onlooker : Onlooker W V) (flight watched : Flight W E) : Prop where
  cpu : onlooker.CpuBeside flight.cpu watched.cpu
  engine : watched.engine = flight.engine

/-- Without a timeout the reasons to stop are the same on both sides. -/
theorem CpuBeside.boundaryStop_eq {cpu watched : Cpu W} (beside : onlooker.CpuBeside cpu watched)
    (untimed : request.timeout = 0) (began : W) (retired : Nat) :
    Flight.boundaryStop host request began retired watched =
      Flight.boundaryStop host request began retired cpu := by
  obtain ⟨world, -, joined⟩ := beside.machine.joined
  simp only [Flight.boundaryStop, joined, untimed, ne_eq, not_true, false_and, if_false]
  rfl

section Flights

variable (blind : host.Blind onlooker.view onlooker.hook.callback)
  (passive : host.Passive onlooker.view onlooker.origin onlooker.hook.callback)

include blind passive

theorem runEngine_mirrors {program : EngineProgram W E α} (blindToo : program.Blind onlooker.view) :
    onlooker.Mirrors onlooker.FlightBeside Eq (Flight.runEngine.transcript host program)
      (Flight.runEngine.transcript host program) := by
  refine .bind (.get (fun _ => rfl) fun _ => rfl) fun flight watched beside => ?_
  rw [beside.engine]
  have works := (Mirrors.run (fun _ _ _ asks => cpuPerform_mirrors blind passive asks)
    (blindToo flight.engine)).lift
  refine .bind (works.within (fun _ _ beside => beside.cpu)
    fun _ _ beside _ _ ends => ⟨ends, beside.engine⟩) ?_
  rintro ⟨answer, engine⟩ _ rfl
  refine .bind (.quiet (fun _ => rfl) (fun _ => rfl) fun _ _ beside _ =>
    .ok rfl ⟨beside.cpu, rfl⟩) fun _ _ _ => ?_
  refine .bind (.quiet (fun _ => rfl) (fun _ => rfl) fun _ _ beside _ =>
    beside.cpu.takeFault.within fun _ _ ends => ⟨ends, beside.engine⟩) fun fault _ same => ?_
  obtain rfl := same
  cases fault with
  | some fault => exact .quiet (fun _ => rfl) (fun _ => rfl) fun _ _ beside _ => .error _ beside
  | none =>
    exact .quiet (fun _ => rfl) (fun _ => rfl) fun _ _ beside _ => .ofExcept answer beside

/-- One boundary after the other comes to the same. -/
theorem takeSteps_mirrors (blindStep : engine.step.Blind onlooker.view)
    (untimed : request.timeout = 0) (began : W) (fuel retired : Nat) :
    onlooker.Mirrors onlooker.FlightBeside Eq
      (Flight.takeSteps.transcript host engine request began fuel retired)
      (Flight.takeSteps.transcript host engine request began fuel retired) := by
  induction fuel generalizing retired with
  | zero => exact .quiet (fun _ => rfl) (fun _ => rfl) fun _ _ beside _ => .error _ beside
  | succ fuel ih =>
    refine .bind (.get (fun _ => rfl) fun _ => rfl) fun flight watched beside => ?_
    rw [beside.cpu.boundaryStop_eq untimed, beside.cpu.machine.registers_eq]
    refine .bind (.quiet (fun _ => rfl) (fun _ => rfl) fun _ _ beside _ => .ofExcept _ beside)
      fun found _ same => ?_
    obtain rfl := same
    cases found with
    | some reason => exact .quiet (fun _ => rfl) (fun _ => rfl) fun _ _ beside _ => .ok rfl beside
    | none =>
      refine .bind (runEngine_mirrors blind passive blindStep).after fun outcome _ same => ?_
      obtain rfl := same
      cases outcome with
      | halted => exact .quiet (fun _ => rfl) (fun _ => rfl) fun _ _ beside _ => .ok rfl beside
      | retired => exact ih (retired + 1)

theorem drive_mirrors (blindEngine : engine.Blind onlooker.view) (untimed : request.timeout = 0)
    (began : W) (fuel : Nat) :
    onlooker.Mirrors onlooker.FlightBeside Eq
      (Flight.drive.transcript host engine request began fuel)
      (Flight.drive.transcript host engine request began fuel) :=
  (runEngine_mirrors blind passive blindEngine.begin).bind fun _ _ _ =>
    takeSteps_mirrors blind passive blindEngine.step untimed began fuel 0

end Flights

end Onlooker

namespace Session

variable {host : Host W} {engine : Engine W E} {request : RunRequest} {session : Session W E}

/-- The second session is the first one with another table of hooks, as far as the view of the world
goes. -/
structure SameButHooks (view : W → V) (others table : HookTable) (session watched : Session W E) :
    Prop where
  hooks : session.machine.hooks = others
  joined : ∃ world, view world = view session.machine.world ∧
    watched = { session with
      machine := { session.machine with hooks := table, world := world } }

/-- A hook that is registered in a session that may run is added to its table, and nothing else
happens. -/
theorem register_eq_ok (canRun : session.state.canRun = true) {kind : EventKind}
    {range : AddressRange} {insn : Option InsnId} {callback : HookCallback} {handle : HookHandle}
    {hooked : Session W E}
    (registered : mutate "add a hook" (Machine.register kind range insn callback) session =
      .ok handle hooked) :
    ∃ table, session.machine.hooks.register kind range insn callback = .ok (handle, table) ∧
      hooked = { session with machine := { session.machine with hooks := table } } := by
  have isOpen : session.state.isOpen = true := by
    cases state : session.state <;> simp [state, Lifecycle.canRun] at canRun <;> rfl
  have old : session.state ≠ .created := by
    rintro new
    simp [new, Lifecycle.canRun] at canRun
  simp only [mutate, bind_apply, requireOpen_apply, if_pos isOpen, onMachine, within_apply,
    Machine.register, get_apply] at registered
  cases done : session.machine.hooks.register kind range insn callback with
  | error cause => simp [done] at registered
  | ok answer =>
    obtain ⟨given, table⟩ := answer
    simp only [done, ofExcept_ok, pure_apply, set_apply, modify_apply, touched, if_neg old]
      at registered
    obtain ⟨rfl, rfl⟩ := EStateM.Result.ok.inj registered
    exact ⟨table, rfl, rfl⟩

/-- Nothing is to be seen of a run that is refused. -/
theorem notes_run_of_refused {cause : Error} (refused : session.checkRun request = .error cause) :
    (run.transcript host engine request).notes session = [] := by
  simp only [run.transcript, Transcript.bind, Transcript.empty, get_apply, refused, ofExcept_error,
    fail_apply, List.nil_append]

/-- What an accepted run asks of the table of hooks is what callbacks and the engine ask of it. -/
theorem hookCalls_run (accepted : session.checkRun request = .ok ())
    (formed : session.machine.registers.WellFormed) :
    Deed.hookCalls ((run.account host engine request).deeds session) =
      Deed.hookCalls (session.guestDeeds host engine request) := by
  rw [deeds_run accepted formed]
  rfl

section Invisible

variable {view : W → V} {kind : EventKind} {range : AddressRange} {insn : Option InsnId}
  {callback : HookCallback} {handle : HookHandle} {hooked : Session W E}

/-- Landings of flights beside each other are sessions that differ by the hooks only. -/
theorem matches_landing {onlooker : Onlooker W V}
    {result watched : EStateM.Result Failure (Flight W E) StopReason}
    (alike : Matches onlooker.FlightBeside Eq result watched) :
    Matches (SameButHooks onlooker.view onlooker.origin.hooks onlooker.table) Eq (landing result)
      (landing watched) := by
  have lands (flight watched : Flight W E) (beside : onlooker.FlightBeside flight watched)
      (state : Lifecycle) (lastStop : Option StopReason) (lastError : Option Error) :
      SameButHooks onlooker.view onlooker.origin.hooks onlooker.table
        ⟨flight.cpu.machine, flight.engine, state, lastStop, lastError⟩
        ⟨watched.cpu.machine, watched.engine, state, lastStop, lastError⟩ := by
    obtain ⟨world, sight, joined⟩ := beside.cpu.machine.joined
    refine ⟨beside.cpu.machine.hooks, world, sight, ?_⟩
    rw [joined, beside.engine]
    rfl
  cases alike with
  | ok same ends =>
    obtain rfl := same
    exact .ok rfl (lands _ _ ends _ _ _)
  | error failure ends =>
    cases failure with
    | error cause => exact .error _ (lands _ _ ends _ _ _)
    | abort cause => exact .error _ (lands _ _ ends _ _ _)

/-- Passive hooks are invisible to the guest. Take a run without a timeout of a session that may
run, in which hooks and engine make no change to the table of hooks. If one more hook is registered
before it, of any kind but reads of ports, whose callback leaves the machine alone, succeeds and
settles nothing, the run comes to the same: it ends with the same result, in a session that differs
by the hook alone and by what only the hook sees of the world, and the calls of all other hooks on
the way are the same, in the same order and with the same arguments. -/
theorem passive_hook_is_invisible (reached : Reachable host engine session)
    (canRun : session.state.canRun = true)
    (registered : mutate "add a hook" (Machine.register kind range insn callback) session =
      .ok handle hooked)
    (noValue : kind ≠ .portIn) (passive : host.Passive view session.machine callback)
    (blind : host.Blind view callback) (blindEngine : engine.Blind view)
    (untimed : request.timeout = 0)
    (steady : hooked.machine.hooks.RefusesAll
      (Deed.hookCalls ((run.account host engine request).deeds session))) :
    Matches (SameButHooks view session.machine.hooks hooked.machine.hooks) Eq
        (run host engine request session) (run host engine request hooked) ∧
      Note.others handle ((run.transcript host engine request).notes hooked) =
        (run.transcript host engine request).notes session := by
  obtain ⟨table, added, rfl⟩ := register_eq_ok canRun registered
  have formed := reached.wellFormed
  let onlooker : Onlooker W V :=
    { view, origin := session.machine, formed, hook := ⟨handle, kind, range, insn, callback⟩, table
      added, noValue }
  have alike (result) (checked : session.checkRun request = result) :
    Session.checkRun { session with machine := { session.machine with hooks := table } } request =
      result := checked
  cases accepted : session.checkRun request with
  | error cause =>
    rw [run_of_refused host engine accepted, run_of_refused host engine (alike _ accepted),
      notes_run_of_refused accepted, notes_run_of_refused (alike _ accepted)]
    exact ⟨.error _ ⟨rfl, session.machine.world, rfl, rfl⟩, rfl⟩
  | ok =>
    have beside : onlooker.FlightBeside (session.takeoff request)
        (takeoff { session with machine := { session.machine with hooks := table } } request) :=
      ⟨⟨{ hooks := rfl
          idle := by simp [takeoff, Cpu.ofMachine, Machine.clearStop, reached.rests.running canRun]
          kin := ⟨wellFormed_takeoff formed request, rfl, rfl, RegisterBank.layout_store _ _ _⟩
          joined := ⟨session.machine.world, rfl, rfl⟩ }, rfl⟩, rfl⟩
    rw [hookCalls_run accepted formed.registers] at steady
    obtain ⟨flights, noted⟩ := Onlooker.drive_mirrors blind passive blindEngine untimed
      session.machine.world (request.fuel host.patience) _ _ beside steady
    rw [run_eq_landing host engine accepted formed.registers,
      run_eq_landing host engine (alike _ accepted) formed.registers,
      notes_run accepted formed.registers, notes_run (alike _ accepted) formed.registers]
    exact ⟨matches_landing flights, noted⟩

end Invisible

/-! A hook that counts. -/

/-- A host whose world is a count of the calls of one callback. -/
def counting : Host Nat where
  respond
    | ⟨.code, 0⟩, _ => .ask .world fun calls => .ask (.setWorld (calls + 1)) fun _ => .done (.ok ())
    | ⟨.memoryFault, _⟩, _ => .done (.ok false)
    | ⟨.portIn, _⟩, _ => .done (.ok 0)
    | ⟨.code, _ + 1⟩, _ | ⟨.memoryAccess, _⟩, _ | ⟨.portOut, _⟩, _ | ⟨.interrupt, _⟩, _ =>
      .done (.ok ())
  allocates _ _ := true
  elapsed _ _ _ := 0
  nesting := 8
  patience := 100

/-- An engine whose steps announce an instruction and do nothing else. -/
def announcing : Engine Nat Unit where
  supports _ _ := true
  layout _ _ := ⟨⟨0⟩, [⟨⟨0⟩, "pc", 64⟩]⟩
  begin := pure ()
  step := do
    EngineProgram.enterInstruction 0x1000 1 none
    return .retired

theorem passive_counting (origin : Machine Nat) :
    counting.Passive (fun _ => ()) origin ⟨.code, 0⟩ :=
  fun _ machine _ => ⟨(), machine.world + 1, rfl, rfl, rfl⟩

theorem blind_counting : counting.Blind (fun _ => ()) ⟨.code, 0⟩ where
  allocates _ _ _ := rfl
  respond other ne args := by
    obtain ⟨shape, cell⟩ := other
    cases shape with
    | code =>
      cases cell with
      | zero => exact absurd rfl ne
      | succ cell => exact .done _
    | _ => exact .done _

theorem blind_announcing : announcing.Blind fun _ : Nat => () where
  begin _ := .done _
  step _ := .ask (.same _ (by simp)) fun answer _ same => by
    obtain rfl := same
    cases answer <;> exact .done _

/-- A session with a byte of code and one hook for every instruction, the callback of which is the
second. -/
def announced : Session Nat Unit where
  machine := Machine.fresh 0 ⟨[⟨0x1000, ⟨0⟩, .all, ⟨#[0]⟩⟩], 1⟩
    ⟨[⟨⟨1⟩, .instructionEnter, .all, none, ⟨.code, 1⟩⟩], 2⟩
  engine := ()
  state := .configured
  lastStop := none
  lastError := none

theorem reachable_announced : Reachable counting announcing announced := by
  have opened : create announcing () 0 .riscv .empty = .ok (_ : Session Nat Unit) := rfl
  exact ((Reachable.created opened).asked (.mapMemory 0x1000 1 .all)).asked
    (.addHook .instructionEnter .all ⟨.code, 1⟩)

/-- Two steps are counted by a hook, and beside it the other hook is called as it is without it. -/
theorem passive_hook_is_invisible_of_counter :
    let request : RunRequest := ⟨0x1000, none, 0, 2⟩
    let ran := run counting announcing request
    let notes := (run.transcript counting announcing request).notes
    ∃ hooked, Reachable counting announcing announced ∧
      mutate "add a hook" (Machine.register .instructionEnter .all none ⟨.code, 0⟩) announced =
        .ok ⟨2⟩ hooked ∧
      (finalState (ran hooked)).machine.world = 2 ∧
      Matches (SameButHooks (fun _ => ()) announced.machine.hooks hooked.machine.hooks) Eq
        (ran announced) (ran hooked) ∧
      Note.others ⟨2⟩ (notes hooked) = notes announced := by
  intro request ran notes
  have registered : mutate "add a hook" (Machine.register .instructionEnter .all none ⟨.code, 0⟩)
      announced = .ok ⟨2⟩ _ := rfl
  have unhooked : Deed.hookCalls ((run.account counting announcing request).deeds announced) =
      [] := by decide +kernel
  have steady (table : HookTable) : table.RefusesAll
      (Deed.hookCalls ((run.account counting announcing request).deeds announced)) := by
    rw [unhooked]
    exact table.refusesAll_nil
  have invisible := passive_hook_is_invisible reachable_announced rfl registered (by decide)
    (passive_counting _) blind_counting blind_announcing rfl (steady _)
  exact ⟨_, reachable_announced, registered, by decide +kernel, invisible⟩

end Session

end GuestMachine
