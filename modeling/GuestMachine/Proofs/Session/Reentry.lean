import GuestMachine.Proofs.Cpu.Reentry
import GuestMachine.Proofs.Session.History
import GuestMachine.Proofs.Session.Onlooker
import GuestMachine.Proofs.Session.Running

/-!
Runs that are broken off for a callback that is called again. Engines raise events while no
callback runs, so such a run has come to a callback that has dispatched an event itself and has
not answered yet. If callbacks leave dispatching to the engine, no run ends so, whatever else they
do to the machine, the hook that is running included.
-/

namespace GuestMachine

variable {W E α : Type}

namespace Flight

theorem runEngine_breaks (host : Host W) (program : EngineProgram W E α) :
    BreaksInDispatch host (.abort .reentry) Flight.machine (runEngine host program) := by
  refine .get_bind fun flight => ?_
  have there (flight : Flight W E) (cpu : Cpu W) :
      Flight.cpu { flight with cpu := cpu } = cpu := rfl
  have works := (BreaksInDispatch.run (Cpu.perform_breaks host) (Cpu.perform_settles host)
    (program.run.run flight.engine)).lift.within there
  have settles := (Settles.run (Cpu.perform_settles host)
    (program.run.run flight.engine)).lift.within there
  refine works.bind settles fun result => .of_unbroken ?_
  refine (Unbroken.modify _).bind fun _ => Unbroken.bind ?_ fun fault => ?_
  · exact fun flight cause left broken => by cases broken
  · cases fault with
    | some fault => exact fun flight cause left broken => by cases broken
    | none => exact Unbroken.ofExcept result.1

theorem takeSteps_breaks (host : Host W) (engine : Engine W E) (request : RunRequest) (began : W)
    (fuel retired : Nat) :
    BreaksInDispatch host (.abort .reentry) Flight.machine
      (takeSteps host engine request began fuel retired) := by
  induction fuel generalizing retired with
  | zero => exact fun flight left broken => by cases broken
  | succ fuel ih =>
    refine .get_bind fun flight => ?_
    have settles (result : Except Error (Option StopReason)) :
        Settles Failure.Breaks Flight.machine (Attempt.ofExcept result : Attempt (Flight W E) _) :=
      .of_calm (.ofExcept result) fun _ => rfl
    refine BreaksInDispatch.bind (.of_unbroken (Unbroken.ofExcept _)) (settles _) fun found => ?_
    cases found with
    | some reason => exact .of_unbroken (.pure reason)
    | none =>
      refine (runEngine_breaks host engine.step).bind (runEngine_settles host engine.step)
        fun outcome => ?_
      cases outcome with
      | halted => exact .of_unbroken (.pure _)
      | retired => exact ih (retired + 1)

theorem drive_breaks (host : Host W) (engine : Engine W E) (request : RunRequest) (began : W)
    (fuel : Nat) :
    BreaksInDispatch host (.abort .reentry) Flight.machine
      (drive host engine request began fuel) :=
  (runEngine_breaks host engine.begin).bind (runEngine_settles host engine.begin) fun _ =>
    takeSteps_breaks host engine request began fuel 0

end Flight

namespace Session

variable {host : Host W} {engine : Engine W E} {session left : Session W E} {call : HostCall W}

/-- A call that is broken off for a callback called again is so in a dispatch, which starts while
no callback runs. -/
theorem exists_dispatch_of_reentry (reached : Reachable host engine session)
    (broken : perform host engine call session = .error (.abort .reentry) left) :
    ∃ event machine, machine.running = [] ∧
      Machine.dispatch host host.nesting event machine = .error (.abort .reentry) left.machine := by
  have formed := reached.wellFormed
  have passes : Passes session call (perform host engine call session) :=
    passes_perform formed.registers call
  rw [broken] at passes
  cases passes with
  | @brokenOff request canRun =>
    have still : session.machine.running = [] := reached.rests.running canRun
    cases accepted : session.checkRun request with
    | error cause =>
      have refused : perform host engine (.run request) session = _ :=
        run_of_refused host engine accepted
      simp [refused] at broken
    | ok =>
      have flies : perform host engine (.run request) session = _ :=
        run_eq_landing host engine accepted formed.registers
      rw [flies] at broken
      rcases flown : Flight.drive host engine request session.machine.world
        (request.fuel host.patience) (session.takeoff request) with
        ⟨reason, flight⟩ | ⟨_ | cause, flight⟩ <;> rw [flown] at broken
      · cases broken
      · cases broken
      · obtain ⟨same, rfl⟩ := EStateM.Result.error.inj broken
        obtain rfl := Failure.abort.inj same
        obtain ⟨event, machine, running, dispatched⟩ := Flight.drive_breaks host engine request
          session.machine.world (request.fuel host.patience) (session.takeoff request) flight flown
        exact ⟨event, machine, running.trans still, dispatched⟩

/-- What breaks a session off for a callback that is called again, and when nothing does. -/
structure ReentryLaw (host : Host W) (engine : Engine W E) (session : Session W E) : Prop where
  /-- No callback runs where a run may start. -/
  still : session.state.canRun = true → session.machine.running = []
  /-- The callback has been called by a dispatch that started while none ran, and one that has not
  answered since has dispatched an event. -/
  nested : ∀ call left, perform host engine call session = .error (.abort .reentry) left →
    ∃ event machine nest callback, machine.running = [] ∧
      Machine.Reaches host host.nesting event machine nest callback left.machine ∧ callback ∈ nest
  /-- If callbacks do not dispatch, no call is broken off so. -/
  never : host.NeverDispatches → ∀ call left,
    perform host engine call session ≠ .error (.abort .reentry) left

/-- In every nest of dispatches and in every history of a session, only a callback that is called
while it still runs breaks a dispatch off; if callbacks do not dispatch, that never comes about. -/
theorem reentry_law (host : Host W) {engine : Engine W E} {initial : E} {world : W} {arch : Arch}
    {mode : Mode} (opened : create engine initial world arch mode = .ok session)
    (calls : List (HostCall W)) :
    (∀ depth event machine, Machine.NestLaw host depth event machine) ∧
      (host.NeverDispatches → ∀ depth event (machine left : Machine W) cause,
        machine.running = [] →
          Machine.dispatch host (depth + 1) event machine ≠ .error (.abort cause) left) ∧
      ReentryLaw host engine (session.after host engine calls) := by
  have reached := reachable_after (.created opened : Reachable host engine session) calls
  refine ⟨Machine.nestLaw host, fun never _ _ _ _ _ still => never.dispatch_ne still,
    reached.rests.running, fun call left broken => ?_, fun never call left broken => ?_⟩
  · obtain ⟨event, machine, still, dispatched⟩ := exists_dispatch_of_reentry reached broken
    obtain ⟨nest, callback, reaches, running⟩ := Machine.exists_reaches_of_reentry dispatched
    rw [reaches.running, still, List.append_nil] at running
    exact ⟨event, machine, nest, callback, still, reaches, running⟩
  · obtain ⟨event, machine, still, dispatched⟩ := exists_dispatch_of_reentry reached broken
    cases room : host.nesting with
    | zero => rw [room] at dispatched; cases dispatched
    | succ depth => exact never.dispatch_ne still (room ▸ dispatched)

/-- A host whose code callbacks take away the hook whose number they carry. -/
def departing : Host Nat where
  respond
    | ⟨.code, cell⟩, _ => .ask (.removeHook ⟨cell⟩) .done
    | ⟨.memoryFault, _⟩, _ => .done (.ok false)
    | ⟨.portIn, _⟩, _ => .done (.ok 0)
    | ⟨.memoryAccess, _⟩, _ | ⟨.portOut, _⟩, _ | ⟨.interrupt, _⟩, _ => .done (.ok ())
  allocates _ _ := true
  elapsed _ _ _ := 0
  nesting := 8
  patience := 100

theorem neverDispatches_departing : departing.NeverDispatches := by
  rintro depth ⟨shape, cell⟩ args machine event inner asks
  cases shape with
  | code =>
    cases asks with
    | later _ asks => cases asks
  | _ => cases asks

/-- A hook takes itself away while its callback runs, and the session goes on. -/
theorem reentry_law_of_departing_hook :
    ∃ session : Session Nat Unit, create announcing () 0 .riscv .empty = .ok session ∧
      let calls : List (HostCall Nat) := [.mapMemory 0x1000 1 .all,
        .addHook .instructionEnter .all ⟨.code, 1⟩, .run ⟨0x1000, none, 0, 2⟩]
      let now := session.after departing announcing calls
      now.machine.hooks.hooks = [] ∧ now.lastStop = some .instructionLimit ∧
        now.machine.running = [] ∧
        ∀ call left, perform departing announcing call now ≠ .error (.abort .reentry) left := by
  have opened : create announcing () 0 .riscv .empty = .ok (_ : Session Nat Unit) := rfl
  refine ⟨_, opened, ?_⟩
  intro calls now
  obtain ⟨-, -, still, -, never⟩ := reentry_law departing opened calls
  have ended : now.state = .stopped := by decide +kernel
  refine ⟨by decide +kernel, by decide +kernel, still ?_, never neverDispatches_departing⟩
  rw [ended]
  rfl

end Session

end GuestMachine
