import GuestMachine.Proofs.Cpu.Account
import GuestMachine.Proofs.Machine.Running

/-!
The callbacks that run, as an engine finds them: none of its operations leaves a callback running
that did not run before, unless it is broken off.
-/

namespace GuestMachine.Cpu

variable {W α ε : Type} {breaks : ε → Prop}

abbrev Settles (breaks : ε → Prop) (x : EStateM ε (Cpu W) α) : Prop :=
  GuestMachine.Settles breaks Cpu.machine x

theorem onMachine_settles {x : EStateM ε (Machine W) α}
    (settles : GuestMachine.Settles breaks id x) : Settles breaks (onMachine x) :=
  settles.within fun _ _ => rfl

theorem accessResult_settles (kind : AccessKind) (address : UInt64) (size : Nat)
    (result : Except Error α) :
    Settles Failure.Breaks (accessResult kind address size result : Attempt (Cpu W) α) :=
  .of_calm (accessResult.account kind address size result) fun _ => rfl

theorem notify_settles (host : Host W) (event : Event) :
    Settles Failure.Breaks (notify host event) := by
  refine GuestMachine.Settles.bind (.of_calm .get fun _ => rfl) fun cpu => ?_
  cases cpu.fault with
  | some fault => exact .of_calm (.fail fault) fun _ => rfl
  | none =>
    refine (onMachine_settles (Machine.dispatch_settles host _ event)).outcome.lift.bind
      fun result => ?_
    cases result with
    | ok result => exact .of_calm (.pure result) fun _ => rfl
    | error cause => exact .of_calm (latchAndFail.account cause) fun _ => rfl

theorem require_settles (host : Host W) (kind : AccessKind) (address : UInt64) (size : Nat)
    (value : UInt64) : Settles Failure.Breaks (require host kind address size value) := by
  refine GuestMachine.Settles.bind (.of_calm .get fun _ => rfl) fun cpu => ?_
  split
  · exact .of_calm (.pure ()) fun _ => rfl
  · exact (notify_settles host _).discard.bind fun _ =>
      .bind (.of_calm .get fun _ => rfl) fun _ => accessResult_settles kind address size _
  · exact accessResult_settles kind address size _

theorem fetch_settles (host : Host W) (address : UInt64) (size : Nat) :
    Settles Failure.Breaks (fetch host address size) :=
  (require_settles host .fetch address size 0).bind fun _ =>
    .bind (.of_calm .get fun _ => rfl) fun _ => accessResult_settles .fetch address size _

theorem readMemory_settles (host : Host W) (address : UInt64) (size : Nat) :
    Settles Failure.Breaks (readMemory host address size) :=
  (require_settles host .read address size 0).bind fun _ =>
    (notify_settles host _).discard.bind fun _ =>
    .bind (.of_calm .get fun _ => rfl) fun _ => accessResult_settles .read address size _

theorem writeMemory_settles (host : Host W) (address : UInt64) (bytes : ByteArray) :
    Settles Failure.Breaks (writeMemory host address bytes) := by
  refine GuestMachine.Settles.bind (.of_calm .get fun _ => rfl) fun cpu =>
    (require_settles host .write address bytes.size _).bind fun _ =>
    (notify_settles host _).discard.bind fun _ => ?_
  intro cpu
  simp only [bind_apply, get_apply, accessResult_apply]
  cases cpu.machine.memory.writeWith (some .write) address bytes <;> exact .inl rfl

theorem readUInt_settles (host : Host W) (address : UInt64) (size : Nat) :
    Settles Failure.Breaks (readUInt host address size) :=
  (readMemory_settles host address size).bind fun bytes =>
    .of_calm (.bind .get fun cpu => .pure (cpu.machine.mode.decodeUInt bytes)) fun _ => rfl

theorem writeUInt_settles (host : Host W) (address value : UInt64) (size : Nat) :
    Settles Failure.Breaks (writeUInt host address value size) :=
  .bind (.of_calm .get fun _ => rfl) fun cpu =>
    writeMemory_settles host address (cpu.machine.mode.encodeUInt value size)

theorem portIn_settles (host : Host W) (port size : Nat) :
    Settles Failure.Breaks (portIn host port size) := by
  refine (onMachine_settles (.of_calm Machine.pc.account fun _ => rfl)).bind fun _ =>
    (notify_settles host _).bind fun result => ?_
  cases result <;> exact .of_calm (.pure _) fun _ => rfl

theorem notifyAtPc_settles (host : Host W) (event : UInt64 → Event) :
    Settles Failure.Breaks (do
      let address ← onMachine Machine.pc
      discard (notify host (event address)) : Attempt (Cpu W) Unit) :=
  (onMachine_settles (.of_calm Machine.pc.account fun _ => rfl)).bind fun _ =>
    (notify_settles host _).discard

/-- Every operation of the processor that is not broken off leaves the callbacks that run. -/
theorem perform_settles (host : Host W) (op : CpuOp W) :
    Settles Abort.Breaks (perform host op) := by
  cases op with
  | fetch address size => exact (fetch_settles host address size).outcome
  | readMemory address size => exact (readMemory_settles host address size).outcome
  | writeMemory address bytes => exact (writeMemory_settles host address bytes).outcome
  | readUInt address size => exact (readUInt_settles host address size).outcome
  | writeUInt address value size => exact (writeUInt_settles host address value size).outcome
  | enterBlock | enterInstruction => exact (notify_settles host _).discard.outcome
  | portIn port size => exact (portIn_settles host port size).outcome
  | portOut port size value =>
    exact (notifyAtPc_settles host fun address => .portOut address port size value).outcome
  | interrupt number =>
    exact (notifyAtPc_settles host fun address => .interrupt address number).outcome
  | notify event => exact (notify_settles host event).outcome
  | machine op =>
    have dispatches := Machine.dispatch_settles host host.nesting
    have accounts := Machine.dispatch.account host host.nesting
    exact onMachine_settles (Machine.perform_settles host accounts dispatches op)
  | pc => exact (onMachine_settles (.of_calm Machine.pc.account fun _ => rfl)).outcome
  | setPc value =>
    exact (onMachine_settles (.of_calm (Machine.setPc.account value) fun _ => rfl)).outcome
  | readRegister id =>
    exact (onMachine_settles (.of_calm (Machine.readRegister.account id) fun _ => rfl)).outcome
  | writeRegister id value =>
    exact (onMachine_settles
      (.of_calm (Machine.writeRegister.account id value) fun _ => rfl)).outcome
  | arch | mode | haltRequested | fault | takeFault =>
    exact .of_calm (.silent fun _ => rfl) fun _ => rfl

end GuestMachine.Cpu
