import GuestMachine.Proofs.Cpu.Account
import GuestMachine.Proofs.Machine.Transcript

/-!
Transcripts of what an engine asks of a processor. All that can be seen of a guest access is what
can be seen of the events that it raises.
-/

namespace GuestMachine.Cpu

variable {W α ε : Type}

def onMachine.transcript {x : EStateM ε (Machine W) α} {account : Account id x}
    (transcript : Transcript account) : Transcript (onMachine.account account) :=
  transcript.within

def notify.transcript (host : Host W) (event : Event) : Transcript (notify.account host event) :=
  .bind (.empty fun _ => rfl) fun cpu =>
    match cpu.fault with
    | some _ => .empty fun _ => rfl
    | none =>
      .bind
        (onMachine.transcript (Machine.dispatch.transcript host host.nesting event)).outcome.lift
        fun answer =>
          match answer with
          | .ok _ => .empty fun _ => rfl
          | .error _ => .empty fun _ => rfl

def require.transcript (host : Host W) (kind : AccessKind) (address : UInt64) (size : Nat)
    (value : UInt64) : Transcript (require.account host kind address size value) where
  notes cpu :=
    match cpu.machine.memory.check address size kind.required with
    | .error (.unmappedMemory _) =>
      (notify.transcript host (.memoryUnmapped kind address size value)).notes cpu
    | _ => []
  calls cpu := by
    simp only [require.account]
    cases cpu.machine.memory.check address size kind.required with
    | ok => rfl
    | error cause =>
      cases cause with
      | unmappedMemory => exact (notify.transcript host _).calls cpu
      | _ => rfl

def fetch.transcript (host : Host W) (address : UInt64) (size : Nat) :
    Transcript (fetch.account host address size) :=
  .bind (require.transcript host .fetch address size 0) fun _ =>
    .bind (.empty fun _ => rfl) fun _ => .empty fun _ => rfl

def readMemory.transcript (host : Host W) (address : UInt64) (size : Nat) :
    Transcript (readMemory.account host address size) :=
  .bind (require.transcript host .read address size 0) fun _ =>
    .bind (notify.transcript host _).discard fun _ =>
    .bind (.empty fun _ => rfl) fun _ => .empty fun _ => rfl

def writeMemory.transcript (host : Host W) (address : UInt64) (bytes : ByteArray) :
    Transcript (writeMemory.account host address bytes) :=
  .bind (.empty fun _ => rfl) fun _ =>
    .bind (require.transcript host .write address bytes.size _) fun _ =>
    .bind (notify.transcript host _).discard fun _ => .empty fun _ => rfl

def portIn.transcript (host : Host W) (port size : Nat) :
    Transcript (portIn.account host port size) :=
  .bind (.empty fun _ => rfl) fun _ => .bind (notify.transcript host _) fun result =>
    match result with
    | .value _ => .empty fun _ => rfl
    | .proceed => .empty fun _ => rfl
    | .resolved => .empty fun _ => rfl

def notifyAtPc.transcript (host : Host W) (event : UInt64 → Event) :
    Transcript (notifyAtPc.account host event) :=
  .bind (.empty fun _ => rfl) fun _ => (notify.transcript host _).discard

def perform.transcript (host : Host W) : (op : CpuOp W) → Transcript (perform.account host op)
  | .fetch address size => (fetch.transcript host address size).outcome
  | .readMemory address size => (readMemory.transcript host address size).outcome
  | .writeMemory address bytes => (writeMemory.transcript host address bytes).outcome
  | .readUInt address size =>
    Transcript.outcome <| .bind (readMemory.transcript host address size) fun _ =>
      .empty fun _ => rfl
  | .writeUInt address value size =>
    Transcript.outcome <| .bind (.empty fun _ => rfl) fun cpu =>
      writeMemory.transcript host address (cpu.machine.mode.encodeUInt value size)
  | .enterBlock _ _ => (notify.transcript host _).discard.outcome
  | .enterInstruction _ _ _ => (notify.transcript host _).discard.outcome
  | .portIn port size => (portIn.transcript host port size).outcome
  | .portOut port size value =>
    (notifyAtPc.transcript host fun address => .portOut address port size value).outcome
  | .interrupt number =>
    (notifyAtPc.transcript host fun address => .interrupt address number).outcome
  | .notify event => (notify.transcript host event).outcome
  | .machine op =>
    onMachine.transcript
      (Machine.perform.transcript host (Machine.dispatch.transcript host host.nesting) op)
  | .arch | .mode | .pc | .setPc _ | .readRegister _ | .writeRegister .. | .haltRequested | .fault
  | .takeFault => .empty fun _ => rfl

end GuestMachine.Cpu
