import GuestMachine.Proofs.Cpu.Account
import GuestMachine.Session.Call

/-!
Accounts of what a host does to the machine of its session, with everything that callbacks and the
engine do to it meanwhile. The account of a history lists all of it in turn, so every point of the
history is behind some first part of the list.
-/

namespace GuestMachine

variable {W E α ε : Type}

namespace Flight

def machine (flight : Flight W E) : Machine W :=
  flight.cpu.machine

def onCpu.account {x : EStateM ε (Cpu W) α} (account : Account Cpu.machine x) :
    Account (Flight.machine (W := W) (E := E))
      (within Flight.cpu (fun flight cpu => { flight with cpu := cpu }) x) :=
  account.within fun _ _ => rfl

def runEngine.account (host : Host W) (program : EngineProgram W E α) :
    Account Flight.machine (runEngine host program) :=
  .bind .get fun flight =>
    .bind (onCpu.account (Account.run (Cpu.perform.account host)
      (program.run.run flight.engine)).lift) fun result =>
    match result with
    | (answer, _) =>
      .bind (.silent fun _ => rfl) fun _ => .bind (onCpu.account Cpu.takeFault.account) fun fault =>
        match fault with
        | some fault => .fail fault
        | none => .ofExcept answer

def takeSteps.account (host : Host W) (engine : Engine W E) (request : RunRequest) (began : W) :
    (fuel retired : Nat) → Account Flight.machine (takeSteps host engine request began fuel retired)
  | 0, _ => .abort .exhausted
  | fuel + 1, retired =>
    .bind .get fun _ => .bind (.ofExcept _) fun found =>
      match found with
      | some reason => .pure reason
      | none =>
        .bind (runEngine.account host engine.step) fun outcome =>
          match outcome with
          | .halted => .pure StopReason.completed
          | .retired => takeSteps.account host engine request began fuel (retired + 1)

def drive.account (host : Host W) (engine : Engine W E) (request : RunRequest) (began : W)
    (fuel : Nat) : Account Flight.machine (drive host engine request began fuel) :=
  .bind (runEngine.account host engine.begin) fun _ =>
    takeSteps.account host engine request began fuel 0

end Flight

namespace Session

def onMachine.account {x : EStateM ε (Machine W) α} (account : Account id x) :
    Account (Session.machine (W := W) (E := E)) (onMachine x) :=
  account.within fun _ _ => rfl

def requireOpen.account (operation : String) :
    Account Session.machine (requireOpen operation : Attempt (Session W E) Unit) :=
  .bind .get fun _ => .ite (.pure ()) (.fail _)

theorem machine_touched (session : Session W E) : session.touched.machine = session.machine := by
  unfold touched
  split <;> rfl

def mutate.account (operation : String) {x : Attempt (Machine W) α} (account : Account id x) :
    Account Session.machine (mutate operation x : Attempt (Session W E) α) :=
  .bind (requireOpen.account operation) fun _ => .bind (onMachine.account account) fun answer =>
    .bind (.silent machine_touched) fun _ => .pure answer

def inspect.account (operation : String) {x : Attempt (Machine W) α} (account : Account id x) :
    Account Session.machine (inspect operation x : Attempt (Session W E) α) :=
  .bind (requireOpen.account operation) fun _ => onMachine.account account

def configure.account : Account Session.machine (configure : Attempt (Session W E) Unit) :=
  .silent fun session => by
    simp only [configure, bind_apply, get_apply]
    cases session.state <;> rfl

def restoreContext.account (context : Context) :
    Account Session.machine (restoreContext context : Attempt (Session W E) Unit) :=
  .bind (requireOpen.account _) fun _ =>
    .ofGet
      (fun session =>
        if context.arch = session.machine.arch ∧ context.mode = session.machine.mode then
          [.restoreRegisters context.values]
        else [])
      fun session => by
        split
        · cases done : session.machine.registers.restore context.values <;>
            simp [done, Machine.replay, Machine.after, Except.toOption]
        · rfl

def close.account : Account Session.machine (close : Attempt (Session W E) Unit) :=
  .bind (requireOpen.account _) fun _ =>
    { deeds := fun _ => [.memory .clear, .clearHooks]
      replays := fun _ => rfl }

def run.account (host : Host W) (engine : Engine W E) (request : RunRequest) :
    Account Session.machine (run host engine request) :=
  .bind .get fun _ => .bind (.ofExcept _) fun _ =>
    .bind (.single (fun _ => .clearStop) fun _ => rfl) fun _ =>
    .bind (onMachine.account (Machine.setPc.account request.start)) fun _ =>
    .bind (.silent fun _ => rfl) fun _ =>
    .ofGet
      (fun session =>
        (Flight.drive.account host engine request session.machine.world
          (request.fuel host.patience)).deeds ⟨Cpu.ofMachine session.machine, session.engine⟩)
      fun session => by
        have flown := (Flight.drive.account host engine request session.machine.world
          (request.fuel host.patience)).replays ⟨Cpu.ofMachine session.machine, session.engine⟩
        refine Eq.trans ?_ flown
        rcases Flight.drive host engine request session.machine.world
          (request.fuel host.patience) ⟨Cpu.ofMachine session.machine, session.engine⟩
          with _ | ⟨_ | _, _⟩ <;> rfl

def perform.account (host : Host W) (engine : Engine W E) :
    (call : HostCall W) → Account Session.machine (perform host engine call)
  | .configure => configure.account
  | .mapMemory base size perms => mutate.account _ (Machine.mapMemory.account host base size perms)
  | .unmapMemory base size => mutate.account _ (Machine.unmapMemory.account base size)
  | .protectMemory base size perms =>
    mutate.account _ (Machine.protectMemory.account base size perms)
  | .readMemory address size => inspect.account _ (Machine.readMemory.account address size)
  | .writeMemory address bytes => mutate.account _ (Machine.writeMemory.account address bytes)
  | .loadMemory address bytes => mutate.account _ (Machine.loadMemory.account address bytes)
  | .regions =>
    .bind (requireOpen.account _) fun _ => .bind .get fun session =>
      .pure session.machine.memory.infos
  | .readRegister regId => inspect.account _ (Machine.readRegister.account regId)
  | .writeRegister regId value => inspect.account _ (Machine.writeRegister.account regId value)
  | .registerNamed name =>
    .bind (requireOpen.account _) fun _ => .bind .get fun session =>
      .pure (session.machine.registers.idOf? name)
  | .addHook kind range callback =>
    mutate.account _ (Machine.register.account kind range none callback)
  | .addInstructionHook range insn callback =>
    mutate.account _ (Machine.register.account .instructionEnter range (some insn) callback)
  | .removeHook handle => mutate.account _ (Machine.removeHook.account handle)
  | .stop =>
    Account.lift <| .single (fun session => .requestStop session.machine.stopHandle) fun _ => rfl
  | .stopThrough handle => Account.lift <| .single (fun _ => .requestStop handle) fun _ => rfl
  | .setWorld world => Account.lift <| .single (fun _ => .setWorld world) fun _ => rfl
  | .saveContext => .bind (requireOpen.account _) fun _ => .bind .get fun _ => .pure _
  | .restoreContext context => restoreContext.account context
  | .run request => run.account host engine request
  | .close => close.account

end Session

end GuestMachine
