import GuestMachine.Proofs.Cpu.Latch

/-!
What an engine can make of a machine. Every operation it asks of the processor leads through
changes of the machine only, so programs of engines do as well.
-/

namespace GuestMachine.Cpu

variable {W α ε : Type} {host : Host W}

def Evolves (host : Host W) (start left : Cpu W) : Prop :=
  Machine.Evolves host start.machine left.machine

instance : IsPreorder (Cpu W) (Evolves host) where
  refl _ := .refl
  trans _ _ _ first second := Relation.ReflTransGen.trans first second

theorem keeps_onMachine {x : EStateM ε (Machine W) α} (keeps : Keeps (Machine.Evolves host) x) :
    Keeps (Evolves host) (onMachine x) := by
  intro cpu
  rw [onMachine, within_apply]
  cases h : x cpu.machine with
  | ok a machine => exact keeps.of_ok h
  | error e machine => exact keeps.of_error h

theorem keeps_latchAndFail (cause : Error) :
    Keeps (Evolves host) (latchAndFail cause : Attempt (Cpu W) α) := by
  intro cpu
  rw [latchAndFail_apply]
  exact .refl

theorem keeps_notify (host : Host W) (event : Event) :
    Keeps (Evolves host) (notify host event) := by
  refine Keeps.get.bind fun cpu => ?_
  cases cpu.fault with
  | some fault => exact Keeps.fail fault
  | none =>
    refine (keeps_onMachine (Machine.keeps_dispatch host _ event)).outcome.lift.bind
      fun result => ?_
    cases result with
    | ok result => exact Keeps.pure result
    | error cause => exact keeps_latchAndFail cause

theorem keeps_accessResult (kind : AccessKind) (address : UInt64) (size : Nat)
    (result : Except Error α) : Keeps (Evolves host) (accessResult kind address size result) := by
  cases result with
  | ok a => exact Keeps.pure a
  | error cause => exact keeps_latchAndFail _

theorem keeps_require (host : Host W) (kind : AccessKind) (address : UInt64) (size : Nat)
    (value : UInt64) : Keeps (Evolves host) (require host kind address size value) := by
  refine Keeps.get.bind fun cpu => ?_
  split
  · exact Keeps.pure ()
  · exact (keeps_notify host _).discard.bind fun _ => Keeps.get.bind fun _ =>
      keeps_accessResult kind address size _
  · exact keeps_accessResult kind address size _

theorem keeps_fetch (host : Host W) (address : UInt64) (size : Nat) :
    Keeps (Evolves host) (fetch host address size) :=
  (keeps_require host .fetch address size 0).bind fun _ => Keeps.get.bind fun _ =>
    keeps_accessResult .fetch address size _

theorem keeps_readMemory (host : Host W) (address : UInt64) (size : Nat) :
    Keeps (Evolves host) (readMemory host address size) :=
  (keeps_require host .read address size 0).bind fun _ =>
    (keeps_notify host _).discard.bind fun _ =>
    Keeps.get.bind fun _ => keeps_accessResult .read address size _

theorem keeps_writeMemory (host : Host W) (address : UInt64) (bytes : ByteArray) :
    Keeps (Evolves host) (writeMemory host address bytes) := by
  refine Keeps.get.bind fun cpu => (keeps_require host .write address bytes.size _).bind fun _ =>
    (keeps_notify host _).discard.bind fun _ => ?_
  intro cpu
  simp only [bind_apply, get_apply, accessResult_apply]
  cases done : cpu.machine.memory.writeWith (some .write) address bytes with
  | ok memory => exact .single (.write done)
  | error cause => exact .refl

theorem keeps_readUInt (host : Host W) (address : UInt64) (size : Nat) :
    Keeps (Evolves host) (readUInt host address size) :=
  (keeps_readMemory host address size).bind fun bytes => Keeps.get.bind fun cpu =>
    Keeps.pure (cpu.machine.mode.decodeUInt bytes)

theorem keeps_writeUInt (host : Host W) (address value : UInt64) (size : Nat) :
    Keeps (Evolves host) (writeUInt host address value size) :=
  Keeps.get.bind fun cpu => keeps_writeMemory host address (cpu.machine.mode.encodeUInt value size)

theorem keeps_portIn (host : Host W) (port size : Nat) :
    Keeps (Evolves host) (portIn host port size) := by
  refine (keeps_onMachine Machine.keeps_pc).bind fun _ =>
    (keeps_notify host _).bind fun result => ?_
  cases result <;> exact Keeps.pure _

/-- Reading the program counter and raising an event at it. -/
theorem keeps_notifyAtPc (host : Host W) (event : UInt64 → Event) :
    Keeps (Evolves host) (do
      let address ← onMachine Machine.pc
      discard (notify host (event address)) : Attempt (Cpu W) Unit) :=
  (keeps_onMachine Machine.keeps_pc).bind fun _ => (keeps_notify host _).discard

theorem keeps_takeFault : Keeps (Evolves host) (takeFault : EStateM ε (Cpu W) (Option Error)) :=
  Keeps.get.bind fun cpu => (Keeps.update fun _ => .refl).bind fun _ => Keeps.pure cpu.fault

/-- Every operation of the processor leads through changes of the machine. -/
theorem keeps_perform (host : Host W) (op : CpuOp W) : Keeps (Evolves host) (perform host op) := by
  cases op with
  | arch => exact Keeps.get.bind fun cpu => Keeps.pure cpu.machine.arch
  | mode => exact Keeps.get.bind fun cpu => Keeps.pure cpu.machine.mode
  | pc => exact (keeps_onMachine Machine.keeps_pc).outcome
  | setPc value => exact (keeps_onMachine (Machine.keeps_setPc value)).outcome
  | readRegister id => exact (keeps_onMachine (Machine.keeps_readRegister id)).outcome
  | writeRegister id value => exact (keeps_onMachine (Machine.keeps_writeRegister id value)).outcome
  | haltRequested => exact Keeps.get.bind fun cpu => Keeps.pure cpu.machine.stopRequested
  | fetch address size => exact (keeps_fetch host address size).outcome
  | readMemory address size => exact (keeps_readMemory host address size).outcome
  | writeMemory address bytes => exact (keeps_writeMemory host address bytes).outcome
  | readUInt address size => exact (keeps_readUInt host address size).outcome
  | writeUInt address value size => exact (keeps_writeUInt host address value size).outcome
  | enterBlock address size => exact (keeps_notify host _).discard.outcome
  | enterInstruction address size insn => exact (keeps_notify host _).discard.outcome
  | portIn port size => exact (keeps_portIn host port size).outcome
  | portOut port size value =>
    exact (keeps_notifyAtPc host fun address => .portOut address port size value).outcome
  | interrupt number =>
    exact (keeps_notifyAtPc host fun address => .interrupt address number).outcome
  | notify event => exact (keeps_notify host event).outcome
  | fault => exact Keeps.get.bind fun cpu => Keeps.pure cpu.fault
  | takeFault => exact keeps_takeFault
  | machine op =>
    exact keeps_onMachine
      (Machine.keeps_perform (fun event => Machine.keeps_dispatch host _ event) op)

end GuestMachine.Cpu
