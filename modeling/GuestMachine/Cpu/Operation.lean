import GuestMachine.Cpu.Basic

/-!
The operations an engine can ask of the processor it drives, and how each is performed.
-/

namespace GuestMachine

inductive CpuOp (W : Type) where
  | arch
  | mode
  | pc
  | setPc (value : UInt64)
  | readRegister (id : RegId)
  | writeRegister (id : RegId) (value : UInt64)
  | haltRequested
  | fetch (address : UInt64) (size : Nat)
  | readMemory (address : UInt64) (size : Nat)
  | writeMemory (address : UInt64) (bytes : ByteArray)
  | readUInt (address : UInt64) (size : Nat)
  | writeUInt (address : UInt64) (value : UInt64) (size : Nat)
  | enterBlock (address : UInt64) (size : Nat)
  | enterInstruction (address : UInt64) (size : Nat) (insn : Option InsnId)
  | portIn (port size : Nat)
  | portOut (port size : Nat) (value : UInt64)
  | interrupt (number : Nat)
  | notify (event : Event)
  | fault
  | takeFault
  /-- An operation of the machine itself, past the access path. -/
  | machine (op : MachineOp W)

namespace CpuOp

variable {W : Type}

@[reducible] def Answer : CpuOp W → Type
  | arch => Arch
  | mode => Mode
  | pc => Except Error UInt64
  | setPc _ => Except Error Unit
  | readRegister _ => Except Error UInt64
  | writeRegister .. => Except Error Unit
  | haltRequested => Bool
  | fetch .. => Except Error ByteArray
  | readMemory .. => Except Error ByteArray
  | writeMemory .. => Except Error Unit
  | readUInt .. => Except Error UInt64
  | writeUInt .. => Except Error Unit
  | enterBlock .. => Except Error Unit
  | enterInstruction .. => Except Error Unit
  | portIn .. => Except Error UInt64
  | portOut .. => Except Error Unit
  | interrupt _ => Except Error Unit
  | notify _ => Except Error DispatchResult
  | fault => Option Error
  | takeFault => Option Error
  | machine op => op.Answer

end CpuOp

abbrev CpuProgram (W α : Type) : Type :=
  Program (CpuOp W) CpuOp.Answer α

/-- A program on the machine as a program that drives a processor. -/
def MachineProgram.toCpu {W α : Type} : MachineProgram W α → CpuProgram W α
  | .done a => .done a
  | .ask op next => .ask (.machine op) fun answer => MachineProgram.toCpu (next answer)

namespace Cpu

variable {W : Type}

/-- Performs an operation. Failures are answered as values, so that the engine decides what
comes of them. -/
def perform (host : Host W) : (op : CpuOp W) → Effect (Cpu W) op.Answer
  | .arch => return (← get).machine.arch
  | .mode => return (← get).machine.mode
  | .pc => Attempt.outcome (onMachine Machine.pc)
  | .setPc value => Attempt.outcome (onMachine (Machine.setPc value))
  | .readRegister id => Attempt.outcome (onMachine (Machine.readRegister id))
  | .writeRegister id value => Attempt.outcome (onMachine (Machine.writeRegister id value))
  | .haltRequested => return (← get).machine.stopRequested
  | .fetch address size => Attempt.outcome (fetch host address size)
  | .readMemory address size => Attempt.outcome (readMemory host address size)
  | .writeMemory address bytes => Attempt.outcome (writeMemory host address bytes)
  | .readUInt address size => Attempt.outcome (readUInt host address size)
  | .writeUInt address value size => Attempt.outcome (writeUInt host address value size)
  | .enterBlock address size => Attempt.outcome (enterBlock host address size)
  | .enterInstruction address size insn => Attempt.outcome (enterInstruction host address size insn)
  | .portIn port size => Attempt.outcome (portIn host port size)
  | .portOut port size value => Attempt.outcome (portOut host port size value)
  | .interrupt number => Attempt.outcome (interrupt host number)
  | .notify event => Attempt.outcome (notify host event)
  | .fault => return (← get).fault
  | .takeFault => takeFault
  | .machine op => onMachine (Machine.perform host (Machine.dispatch host host.nesting) op)

end Cpu

end GuestMachine
