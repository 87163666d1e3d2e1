import GuestMachine.Proofs.Cpu.Account
import GuestMachine.Proofs.Machine.Guest

/-!
What engines can do to a machine. Whichever of its operations an engine asks, checked or not, it
does to the machine what the hooks for it do and what callbacks could do too.
-/

namespace GuestMachine.Cpu

variable {W α : Type}

theorem notify_guest (host : Host W) (event : Event) :
    (notify.account host event).Only Deed.IsGuest := by
  have dispatched : (onMachine.account
      (Machine.dispatch.account host host.nesting event)).outcome.lift.Only Deed.IsGuest :=
    fun cpu => Machine.dispatch_guest host host.nesting event cpu.machine
  refine .bind (.of_nil fun _ => rfl) fun cpu => ?_
  cases cpu.fault with
  | some fault => exact .of_nil fun _ => rfl
  | none =>
    refine dispatched.bind fun answer => ?_
    cases answer with
    | ok result => exact .of_nil fun _ => rfl
    | error cause => exact .of_nil fun _ => rfl

theorem require_guest (host : Host W) (kind : AccessKind) (address : UInt64) (size : Nat)
    (value : UInt64) : (require.account host kind address size value).Only Deed.IsGuest := by
  intro cpu deed listed
  simp only [require.account] at listed
  split at listed
  · exact notify_guest host _ cpu deed listed
  · simp at listed

theorem fetch_guest (host : Host W) (address : UInt64) (size : Nat) :
    (fetch.account host address size).Only Deed.IsGuest :=
  (require_guest host .fetch address size 0).bind fun _ => .of_nil fun _ => rfl

theorem readMemory_guest (host : Host W) (address : UInt64) (size : Nat) :
    (readMemory.account host address size).Only Deed.IsGuest := by
  have traced : (notify.account host (.memoryRead address size)).discard.Only Deed.IsGuest :=
    notify_guest host _
  exact (require_guest host .read address size 0).bind fun _ =>
    traced.bind fun _ => .of_nil fun _ => rfl

theorem writeMemory_guest (host : Host W) (address : UInt64) (bytes : ByteArray) :
    (writeMemory.account host address bytes).Only Deed.IsGuest := by
  refine .bind (.of_nil fun _ => rfl) fun cpu =>
    (require_guest host .write address bytes.size _).bind fun _ => ?_
  have traced : (notify.account host (.memoryWrite address bytes.size
      (cpu.machine.mode.decodeUInt bytes))).discard.Only Deed.IsGuest := notify_guest host _
  exact traced.bind fun _ => .of_singleton fun _ => ⟨_, rfl, trivial⟩

theorem portIn_guest (host : Host W) (port size : Nat) :
    (portIn.account host port size).Only Deed.IsGuest := by
  refine .bind (.of_nil fun _ => rfl) fun _ => (notify_guest host _).bind fun result => ?_
  cases result <;> exact .of_nil fun _ => rfl

theorem notifyAtPc_guest (host : Host W) (event : UInt64 → Event) :
    (notifyAtPc.account host event).Only Deed.IsGuest := by
  refine .bind (.of_nil fun _ => rfl) fun address => ?_
  exact notify_guest host (event address)

/-- Every operation that engines can ask does what callbacks could do too. -/
theorem perform_guest (host : Host W) (op : CpuOp W) :
    (perform.account host op).Only Deed.IsGuest := by
  cases op with
  | fetch address size => exact fetch_guest host address size
  | readMemory address size => exact readMemory_guest host address size
  | writeMemory address bytes => exact writeMemory_guest host address bytes
  | readUInt address size =>
    exact Account.Only.bind (readMemory_guest host address size) fun _ => .of_nil fun _ => rfl
  | writeUInt address value size =>
    exact fun cpu => writeMemory_guest host address (cpu.machine.mode.encodeUInt value size) cpu
  | enterBlock | enterInstruction | notify => exact notify_guest host _
  | portIn port size => exact portIn_guest host port size
  | portOut port size value =>
    exact notifyAtPc_guest host fun address => .portOut address port size value
  | interrupt number => exact notifyAtPc_guest host fun address => .interrupt address number
  | setPc | writeRegister => exact .of_singleton fun _ => ⟨_, rfl, trivial⟩
  | arch | mode | pc | readRegister | haltRequested | fault | takeFault =>
    exact .of_nil fun _ => rfl
  | machine op =>
    exact fun cpu => Machine.perform_guest host (Machine.dispatch_guest host host.nesting) op
      cpu.machine

end GuestMachine.Cpu
