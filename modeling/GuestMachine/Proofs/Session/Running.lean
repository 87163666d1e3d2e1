import GuestMachine.Proofs.Cpu.Running
import GuestMachine.Proofs.Session.Passage
import GuestMachine.Proofs.Session.Reachable

/-!
The callbacks that run, as a host finds them: none between two calls, unless a run has been broken
off, and then the session takes no further run.
-/

namespace GuestMachine

variable {W E α : Type}

namespace Flight

theorem runEngine_settles (host : Host W) (program : EngineProgram W E α) :
    Settles Failure.Breaks Flight.machine (runEngine host program) := by
  refine Settles.bind (.of_calm .get fun _ => rfl) fun flight => ?_
  have works := Settles.run (Cpu.perform_settles host) (program.run.run flight.engine)
  have there (flight : Flight W E) (cpu : Cpu W) :
      Flight.cpu { flight with cpu := cpu } = cpu := rfl
  refine (works.lift.within there).bind fun result => ?_
  refine Settles.bind (.of_calm (.silent fun _ => rfl) fun _ => rfl) fun _ => ?_
  refine Settles.bind (.of_calm (onCpu.account Cpu.takeFault.account) fun _ => rfl) fun fault => ?_
  cases fault with
  | some fault => exact .of_calm (.fail fault) fun _ => rfl
  | none => exact .of_calm (.ofExcept result.1) fun _ => rfl

theorem takeSteps_settles (host : Host W) (engine : Engine W E) (request : RunRequest) (began : W)
    (fuel k : Nat) :
    Settles Failure.Breaks Flight.machine (takeSteps host engine request began fuel k) := by
  induction fuel generalizing k with
  | zero => exact fun flight => .inl rfl
  | succ fuel ih =>
    refine Settles.bind (.of_calm .get fun _ => rfl) fun flight => ?_
    refine Settles.bind (.of_calm (.ofExcept _) fun _ => rfl) fun found => ?_
    cases found with
    | some reason => exact .of_calm (.pure reason) fun _ => rfl
    | none =>
      refine (runEngine_settles host engine.step).bind fun outcome => ?_
      cases outcome with
      | halted => exact .of_calm (.pure _) fun _ => rfl
      | retired => exact ih (k + 1)

theorem drive_settles (host : Host W) (engine : Engine W E) (request : RunRequest) (began : W)
    (fuel : Nat) : Settles Failure.Breaks Flight.machine (drive host engine request began fuel) :=
  (runEngine_settles host engine.begin).bind fun _ =>
    takeSteps_settles host engine request began fuel 0

end Flight

namespace Session

variable {host : Host W} {engine : Engine W E} {session : Session W E}

theorem onMachine_settles {x : Attempt (Machine W) α} (settles : Settles Failure.Breaks id x) :
    Settles Failure.Breaks (Session.machine (E := E)) (onMachine x) :=
  settles.within fun _ _ => rfl

theorem requireOpen_settles (operation : String) :
    Settles Failure.Breaks Session.machine
      (requireOpen operation : Attempt (Session W E) Unit) := by
  intro session
  rw [requireOpen_apply]
  split <;> exact .inl rfl

theorem mutate_settles (operation : String) {x : Attempt (Machine W) α}
    (settles : Settles Failure.Breaks id x) :
    Settles Failure.Breaks Session.machine (mutate operation x : Attempt (Session W E) α) :=
  (requireOpen_settles operation).bind fun _ => (onMachine_settles settles).bind fun answer =>
    .bind (.of_calm (.silent machine_touched) fun _ => rfl) fun _ =>
      .of_calm (.pure answer) fun _ => rfl

theorem inspect_settles (operation : String) {x : Attempt (Machine W) α}
    (settles : Settles Failure.Breaks id x) :
    Settles Failure.Breaks Session.machine (inspect operation x : Attempt (Session W E) α) :=
  (requireOpen_settles operation).bind fun _ => onMachine_settles settles

theorem restoreContext_settles (context : Context) :
    Settles Failure.Breaks Session.machine
      (restoreContext context : Attempt (Session W E) Unit) := by
  refine (requireOpen_settles _).bind fun _ => ?_
  intro session
  simp only [bind_apply, get_apply]
  split
  · cases session.machine.registers.restore context.values <;> exact .inl rfl
  · exact .inl rfl

/-- A call that is no run lets no callback run. -/
theorem perform_settles (call : HostCall W) (still : call.role ≠ .runs) :
    Settles Failure.Breaks Session.machine (perform host engine call) := by
  cases call with
  | configure => exact .of_calm configure.account fun _ => rfl
  | mapMemory base size perms =>
    exact mutate_settles _ (.of_calm (Machine.mapMemory.account host base size perms) fun _ => rfl)
  | unmapMemory base size =>
    exact mutate_settles _ (.of_calm (Machine.unmapMemory.account base size) fun _ => rfl)
  | protectMemory base size perms =>
    exact mutate_settles _ (.of_calm (Machine.protectMemory.account base size perms) fun _ => rfl)
  | readMemory address size =>
    exact inspect_settles _ (.of_calm (Machine.readMemory.account address size) fun _ => rfl)
  | writeMemory address bytes =>
    exact mutate_settles _ (.of_calm (Machine.writeMemory.account address bytes) fun _ => rfl)
  | loadMemory address bytes =>
    exact mutate_settles _ (.of_calm (Machine.loadMemory.account address bytes) fun _ => rfl)
  | readRegister id =>
    exact inspect_settles _ (.of_calm (Machine.readRegister.account id) fun _ => rfl)
  | writeRegister id value =>
    exact inspect_settles _ (.of_calm (Machine.writeRegister.account id value) fun _ => rfl)
  | addHook kind range callback =>
    exact mutate_settles _
      (.of_calm (Machine.register.account kind range none callback) fun _ => rfl)
  | addInstructionHook range insn callback =>
    exact mutate_settles _
      (.of_calm (Machine.register.account .instructionEnter range (some insn) callback)
        fun _ => rfl)
  | removeHook handle =>
    exact mutate_settles _ (.of_calm (Machine.removeHook.account handle) fun _ => rfl)
  | regions | registerNamed | saveContext =>
    exact (requireOpen_settles _).bind fun _ => .of_calm (.silent fun _ => rfl) fun _ => rfl
  | stop | stopThrough | setWorld => exact fun session => .inl rfl
  | restoreContext context => exact restoreContext_settles context
  | close => exact (requireOpen_settles _).bind fun _ => fun session => .inl rfl
  | run request => exact absurd rfl still

/-- No callback runs, or a run has been broken off and no further one is let in. -/
inductive Rests : Session W E → Prop
  | still {session : Session W E} (none : session.machine.running = []) : Rests session
  | spent {session : Session W E} (brokenOff : session.state = .running ∨ session.state = .closed) :
      Rests session

theorem Rests.running (rests : session.Rests) (canRun : session.state.canRun = true) :
    session.machine.running = [] := by
  cases rests with
  | still none => exact none
  | spent brokenOff =>
    rcases brokenOff with state | state <;> simp [state, Lifecycle.canRun] at canRun

theorem rests_run (formed : session.machine.WellFormed) (rests : session.Rests)
    (request : RunRequest) : (finalState (run host engine request session)).Rests := by
  cases accepted : session.checkRun request with
  | error cause =>
    rwa [run_of_refused host engine accepted]
  | ok =>
    have canRun := ((checkRun_eq_ok_iff formed.memory).mp accepted).1
    have settles := Flight.drive_settles host engine request session.machine.world
      (request.fuel host.patience) (session.takeoff request)
    have none : (session.takeoff request).machine.running = [] := rests.running canRun
    rw [run_eq_landing host engine accepted formed.registers]
    cases flown : Flight.drive host engine request session.machine.world
      (request.fuel host.patience) (session.takeoff request) with
    | ok reason flight =>
      rw [flown] at settles
      exact .still ((settles.resolve_right (by simp)).trans none)
    | error failure flight =>
      rw [flown] at settles
      cases failure with
      | abort cause => exact .spent (.inl rfl)
      | error cause =>
        refine .still (Eq.trans (settles.resolve_right ?_) none)
        rintro ⟨failure, left, same, broken⟩
        obtain ⟨rfl, -⟩ := EStateM.Result.error.inj same
        exact broken

/-- A call that is no run leaves a spent session spent. -/
theorem Passes.spent {call : HostCall W} {result : EStateM.Result Failure (Session W E) call.Answer}
    (passes : Passes session call result) (still : call.role ≠ .runs)
    (spent : session.state = .running ∨ session.state = .closed) :
    (finalState result).state = .running ∨ (finalState result).state = .closed := by
  cases passes with
  | refused | inspected | signalled => exact spent
  | configured new => rcases new with new | new <;> simp [new] at spent
  | changed => rcases spent with state | state <;> simp [touched, state]
  | closed => exact .inr rfl
  | stopped | faulted | brokenOff => exact absurd rfl still

/-- In every session that a host can come to no callback runs, unless a run has been broken off. -/
theorem Reachable.rests (reached : Reachable host engine session) : session.Rests := by
  induction reached with
  | created done =>
    obtain ⟨registers, -, rfl⟩ := create_eq_ok done
    exact .still rfl
  | @asked session reached call ih =>
    have formed := reached.wellFormed
    by_cases runs : call.role = .runs
    · cases call with
      | run request => exact rests_run formed ih request
      | _ => contradiction
    · have passes : Passes session call (perform host engine call session) :=
        passes_perform formed.registers call
      cases ih with
      | spent brokenOff => exact .spent (passes.spent runs brokenOff)
      | still none =>
        have settles : Settles Failure.Breaks Session.machine (perform host engine call) :=
          perform_settles call runs
        rcases settles session with same | ⟨failure, left, failed, broken⟩
        · exact .still (same.trans none)
        · rw [failed] at passes
          cases passes with
          | refused | faulted => exact absurd broken id
          | brokenOff => exact absurd rfl runs

end Session

end GuestMachine
