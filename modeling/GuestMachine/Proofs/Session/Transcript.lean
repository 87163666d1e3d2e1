import GuestMachine.Proofs.Cpu.Transcript
import GuestMachine.Proofs.Session.Account
import GuestMachine.Proofs.Session.Run

/-!
Transcripts of runs: the steps that the engine is called for and the calls of callbacks, in turn,
from the beginning of a run to its end. Beside it stands what is done in a run, from the stop that
is forgotten at its beginning.
-/

namespace GuestMachine

variable {W E α ε : Type}

namespace Flight

def onCpu.transcript {x : EStateM ε (Cpu W) α} {account : Account Cpu.machine x}
    (transcript : Transcript account) :
    Transcript (onCpu.account (E := E) account) :=
  transcript.within

def runEngine.transcript (host : Host W) (program : EngineProgram W E α) :
    Transcript (runEngine.account host program) :=
  .bind (.empty fun _ => rfl) fun flight =>
    .bind (onCpu.transcript (Transcript.run (Cpu.perform.transcript host)
      (program.run.run flight.engine)).lift) fun result =>
    match result with
    | (_, _) =>
      .bind (.empty fun _ => rfl) fun _ => .bind (.empty fun _ => rfl) fun fault =>
        match fault with
        | some _ => .empty fun _ => rfl
        | none => .empty fun _ => rfl

/-- What can be seen of the engine at work is what can be seen of the operations it asks. -/
theorem notes_runEngine (host : Host W) (program : EngineProgram W E α) (flight : Flight W E) :
    (runEngine.transcript host program).notes flight =
      (Transcript.run (Cpu.perform.transcript host) (program.run.run flight.engine)).notes
        flight.cpu := by
  have seen : (runEngine.transcript host program).notes flight =
      [] ++ ((Transcript.run (Cpu.perform.transcript host) (program.run.run flight.engine)).notes
        flight.cpu ++ _) := rfl
  rw [seen, List.nil_append]
  refine (congrArg _ ?_).trans (List.append_nil _)
  rw [within_apply, lift_apply]
  cases (program.run.run flight.engine).run (Cpu.perform host) flight.cpu with
  | error cause left => rfl
  | ok result left =>
    obtain ⟨answer, engine⟩ := result
    obtain ⟨machine, fault⟩ := left
    cases fault <;> rfl

/-- Each step is noted before the engine is called for it. -/
def takeSteps.transcript (host : Host W) (engine : Engine W E) (request : RunRequest) (began : W) :
    (fuel retired : Nat) →
      Transcript (takeSteps.account host engine request began fuel retired)
  | 0, _ => .empty fun _ => rfl
  | fuel + 1, retired =>
    .bind (.empty fun _ => rfl) fun flight => .bind (.empty fun _ => rfl) fun found =>
      match found with
      | some _ => .empty fun _ => rfl
      | none =>
        .bind ((runEngine.transcript host engine.step).after
          (.stepped flight.cpu.machine.registers) rfl) fun outcome =>
          match outcome with
          | .halted => .empty fun _ => rfl
          | .retired => takeSteps.transcript host engine request began fuel (retired + 1)

def drive.transcript (host : Host W) (engine : Engine W E) (request : RunRequest) (began : W)
    (fuel : Nat) : Transcript (drive.account host engine request began fuel) :=
  .bind (runEngine.transcript host engine.begin) fun _ =>
    takeSteps.transcript host engine request began fuel 0

variable {host : Host W} {engine : Engine W E} {request : RunRequest} {began : W}

/-- What can be seen from a boundary on: nothing if the run stops there, else the step and what
comes behind it. -/
theorem notes_takeSteps_succ (fuel k : Nat) (flight : Flight W E) :
    (takeSteps.transcript host engine request began (fuel + 1) k).notes flight =
      match boundaryStop host request began k flight.cpu with
      | .ok none =>
        .stepped flight.cpu.machine.registers ::
          ((runEngine.transcript host engine.step).notes flight ++
            match runEngine host engine.step flight with
            | .ok .retired next =>
              (takeSteps.transcript host engine request began fuel (k + 1)).notes next
            | _ => [])
      | _ => [] := by
  simp only [takeSteps.transcript, Transcript.bind, get_apply, Transcript.empty, List.nil_append]
  cases boundaryStop host request began k flight.cpu with
  | error cause => rfl
  | ok found =>
    cases found with
    | some reason => rfl
    | none =>
      simp only [ofExcept_ok, pure_apply, Transcript.after, List.cons_append]
      cases runEngine host engine.step flight with
      | error failure next => rfl
      | ok outcome next => cases outcome <;> rfl

end Flight

namespace Session

def run.transcript (host : Host W) (engine : Engine W E) (request : RunRequest) :
    Transcript (run.account host engine request) :=
  .bind (.empty fun _ => rfl) fun _ => .bind (.empty fun _ => rfl) fun _ =>
    .bind (.empty fun _ => rfl) fun _ => .bind (.empty fun _ => rfl) fun _ =>
    .bind (.empty fun _ => rfl) fun _ =>
    { notes := fun session =>
        (Flight.drive.transcript host engine request session.machine.world
          (request.fuel host.patience)).notes ⟨Cpu.ofMachine session.machine, session.engine⟩
      calls := fun session =>
        (Flight.drive.transcript host engine request session.machine.world
          (request.fuel host.patience)).calls ⟨Cpu.ofMachine session.machine, session.engine⟩ }

variable {host : Host W} {engine : Engine W E} {request : RunRequest} {session : Session W E}

/-- What can be seen of an accepted run is what can be seen of its flight. -/
theorem notes_run (accepted : session.checkRun request = .ok ())
    (formed : session.machine.registers.WellFormed) :
    (run.transcript host engine request).notes session =
      (Flight.drive.transcript host engine request session.machine.world
        (request.fuel host.patience)).notes (session.takeoff request) := by
  have writes : session.machine.clearStop.registers.write session.machine.clearStop.registers.pc
      request.start = .ok _ := formed.write_pc request.start
  simp only [run.transcript, Transcript.bind, Transcript.empty, get_apply, accepted, ofExcept_ok,
    pure_apply, modify_apply, onMachine, within_apply, Machine.setPc, bind_apply,
    Machine.writeRegister, writes, set_apply, List.nil_append]
  rfl

/-- What callbacks and the engine do in a run that is let in. -/
def guestDeeds (host : Host W) (engine : Engine W E) (request : RunRequest)
    (session : Session W E) : List (Deed W) :=
  (Flight.drive.account host engine request session.machine.world
    (request.fuel host.patience)).deeds (session.takeoff request)

/-- A run that is let in forgets a requested stop, moves to its start and takes off. -/
theorem deeds_run (accepted : session.checkRun request = .ok ())
    (formed : session.machine.registers.WellFormed) :
    (run.account host engine request).deeds session =
      .clearStop :: .writeRegister session.machine.registers.pc request.start ::
        session.guestDeeds host engine request := by
  have writes : session.machine.clearStop.registers.write session.machine.clearStop.registers.pc
      request.start = .ok _ := formed.write_pc request.start
  simp only [run.account, Account.bind, get_apply, accepted, ofExcept_ok, pure_apply,
    modify_apply, onMachine, within_apply, Machine.setPc, bind_apply, Machine.writeRegister, writes,
    set_apply]
  rfl

theorem deeds_run_of_refused {cause : Error} (refused : session.checkRun request = .error cause) :
    (run.account host engine request).deeds session = [] := by
  simp [run.account, Account.bind, Account.get, Account.silent, Account.ofExcept, refused]

end Session

end GuestMachine
