import GuestMachine.Proofs.Cpu.Latch
import GuestMachine.Proofs.Machine.Account

/-!
Accounts of what an engine does to a machine, by the guest accesses it makes and by operations of
the machine itself. An access that is checked does nothing but what the hooks for it do, until a
write that goes through stores its bytes.
-/

namespace GuestMachine.Cpu

variable {W α ε : Type}

def onMachine.account {x : EStateM ε (Machine W) α} (account : Account id x) :
    Account Cpu.machine (onMachine x) :=
  account.within fun _ _ => rfl

def latchAndFail.account (cause : Error) :
    Account Cpu.machine (latchAndFail cause : Attempt (Cpu W) α) :=
  .silent fun cpu => by rw [latchAndFail_apply, finalState_error]

def accessResult.account (kind : AccessKind) (address : UInt64) (size : Nat)
    (result : Except Error α) :
    Account Cpu.machine (accessResult kind address size result : Attempt (Cpu W) α) :=
  .silent fun cpu => by
    rw [accessResult_apply]
    cases result <;> rfl

def notify.account (host : Host W) (event : Event) : Account Cpu.machine (notify host event) :=
  .bind .get fun cpu =>
    match cpu.fault with
    | some fault => .fail fault
    | none =>
      .bind (onMachine.account (Machine.dispatch.account host host.nesting event)).outcome.lift
        fun answer =>
          match answer with
          | .ok result => .pure result
          | .error cause => latchAndFail.account cause

def require.account (host : Host W) (kind : AccessKind) (address : UInt64) (size : Nat)
    (value : UInt64) : Account Cpu.machine (require host kind address size value) where
  deeds cpu :=
    match cpu.machine.memory.check address size kind.required with
    | .error (.unmappedMemory _) =>
      (notify.account host (.memoryUnmapped kind address size value)).deeds cpu
    | _ => []
  replays cpu := by
    have refuses (cause : Error) (after : Cpu W) := (accessResult.account (α := Unit) kind address
      size (.error cause)).replays after
    rw [require_apply]
    cases cpu.machine.memory.check address size kind.required with
    | ok => rfl
    | error cause =>
      cases cause with
      | unmappedMemory refused =>
        dsimp only
        rw [← (notify.account host _).replays cpu]
        cases notify host (.memoryUnmapped kind address size value) cpu with
        | ok result after => exact (accessResult.account kind address size _).replays after
        | error failure after => rfl
      | _ => exact refuses _ cpu

def fetch.account (host : Host W) (address : UInt64) (size : Nat) :
    Account Cpu.machine (fetch host address size) :=
  .bind (require.account host .fetch address size 0) fun _ => .bind .get fun _ =>
    accessResult.account .fetch address size _

def readMemory.account (host : Host W) (address : UInt64) (size : Nat) :
    Account Cpu.machine (readMemory host address size) :=
  .bind (require.account host .read address size 0) fun _ =>
    .bind (notify.account host _).discard fun _ => .bind .get fun _ =>
      accessResult.account .read address size _

def writeMemory.account (host : Host W) (address : UInt64) (bytes : ByteArray) :
    Account Cpu.machine (writeMemory host address bytes) :=
  .bind .get fun _ => .bind (require.account host .write address bytes.size _) fun _ =>
    .bind (notify.account host _).discard fun _ =>
    .ofGet (fun _ => [.memory (.write address bytes)]) fun cpu => by
      have same : cpu.machine.memory.attempt (.write address bytes) =
        cpu.machine.memory.writeWith (some .write) address bytes := rfl
      simp only [bind_apply, accessResult_apply, Machine.replay, List.foldl, Machine.after,
        MemoryMap.after, same]
      cases cpu.machine.memory.writeWith (some .write) address bytes <;> rfl

def portIn.account (host : Host W) (port size : Nat) :
    Account Cpu.machine (portIn host port size) :=
  .bind (onMachine.account Machine.pc.account) fun _ => .bind (notify.account host _) fun result =>
    match result with
    | .value value => .pure value
    | .proceed | .resolved => .pure 0

def notifyAtPc.account (host : Host W) (event : UInt64 → Event) : Account Cpu.machine (do
    let address ← onMachine Machine.pc
    discard (notify host (event address)) : Attempt (Cpu W) Unit) :=
  .bind (onMachine.account Machine.pc.account) fun _ => (notify.account host _).discard

def takeFault.account : Account Cpu.machine (takeFault : EStateM ε (Cpu W) (Option Error)) :=
  .silent fun _ => rfl

def perform.account (host : Host W) : (op : CpuOp W) → Account Cpu.machine (perform host op)
  | .arch => .bind .get fun cpu => .pure cpu.machine.arch
  | .mode => .bind .get fun cpu => .pure cpu.machine.mode
  | .pc => (onMachine.account Machine.pc.account).outcome
  | .setPc value => (onMachine.account (Machine.setPc.account value)).outcome
  | .readRegister regId => (onMachine.account (Machine.readRegister.account regId)).outcome
  | .writeRegister regId value =>
    (onMachine.account (Machine.writeRegister.account regId value)).outcome
  | .haltRequested => .bind .get fun cpu => .pure cpu.machine.stopRequested
  | .fetch address size => (fetch.account host address size).outcome
  | .readMemory address size => (readMemory.account host address size).outcome
  | .writeMemory address bytes => (writeMemory.account host address bytes).outcome
  | .readUInt address size =>
    Account.outcome <| .bind (readMemory.account host address size) fun bytes =>
      .bind .get fun cpu => .pure (cpu.machine.mode.decodeUInt bytes)
  | .writeUInt address value size =>
    Account.outcome <| .bind .get fun cpu =>
      writeMemory.account host address (cpu.machine.mode.encodeUInt value size)
  | .enterBlock _ _ => (notify.account host _).discard.outcome
  | .enterInstruction _ _ _ => (notify.account host _).discard.outcome
  | .portIn port size => (portIn.account host port size).outcome
  | .portOut port size value =>
    (notifyAtPc.account host fun address => .portOut address port size value).outcome
  | .interrupt number => (notifyAtPc.account host fun address => .interrupt address number).outcome
  | .notify event => (notify.account host event).outcome
  | .fault => .bind .get fun cpu => .pure cpu.fault
  | .takeFault => takeFault.account
  | .machine op =>
    onMachine.account (Machine.perform.account host (Machine.dispatch.account host host.nesting) op)

end GuestMachine.Cpu
