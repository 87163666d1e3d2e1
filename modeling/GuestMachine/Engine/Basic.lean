import GuestMachine.Cpu.Operation
import GuestMachine.Machine.Callback

/-!
Engines: what decodes and executes guest instructions. An engine owns no guest state; it works
on a processor through the operations offered to it and keeps only a state of its own.
-/

namespace GuestMachine

/-- What a step comes to when it does not fail. -/
inductive StepOutcome where
  /-- The instruction retired. -/
  | retired
  /-- The guest halted. -/
  | halted
  deriving DecidableEq, Repr

/-- A program of an engine with state `E`. A failure keeps the state reached. -/
abbrev EngineProgram (W E α : Type) : Type :=
  ExceptT Error (StateT E (Program (CpuOp W) CpuOp.Answer)) α

/-- An engine with state `E` for guests in a world `W`. -/
structure Engine (W E : Type) where
  /-- Whether the engine can emulate a family in a mode. -/
  supports : Arch → Mode → Bool
  /-- Registers of a guest. -/
  layout : Arch → Mode → RegisterLayout
  /-- What is done when a run starts, once the program counter is set. -/
  begin : EngineProgram W E Unit
  /-- Executes the instruction at the program counter. -/
  step : EngineProgram W E StepOutcome

namespace EngineProgram

variable {W E α : Type}

/-- Asks an operation that does not fail. -/
def ask (op : CpuOp W) : EngineProgram W E op.Answer :=
  ExceptT.lift (StateT.lift (Program.call op))

/-- Fails if the answer of a program is an error. -/
def demand (program : CpuProgram W (Except Error α)) : EngineProgram W E α :=
  ExceptT.mk (StateT.lift program)

def outcome (program : EngineProgram W E α) : EngineProgram W E (Except Error α) :=
  ExceptT.lift program.run

def ofCallback (program : CallbackProgram W α) : EngineProgram W E α :=
  demand (MachineProgram.toCpu program.run)

/-! The operations of a processor, each failing when it does. -/

def pc : EngineProgram W E UInt64 :=
  demand (Program.call CpuOp.pc)

def setPc (value : UInt64) : EngineProgram W E Unit :=
  demand (Program.call (CpuOp.setPc value))

def readRegister (id : RegId) : EngineProgram W E UInt64 :=
  demand (Program.call (CpuOp.readRegister id))

def writeRegister (id : RegId) (value : UInt64) : EngineProgram W E Unit :=
  demand (Program.call (CpuOp.writeRegister id value))

def fetch (address : UInt64) (size : Nat) : EngineProgram W E ByteArray :=
  demand (Program.call (CpuOp.fetch address size))

def readMemory (address : UInt64) (size : Nat) : EngineProgram W E ByteArray :=
  demand (Program.call (CpuOp.readMemory address size))

def writeMemory (address : UInt64) (bytes : ByteArray) : EngineProgram W E Unit :=
  demand (Program.call (CpuOp.writeMemory address bytes))

def readUInt (address : UInt64) (size : Nat) : EngineProgram W E UInt64 :=
  demand (Program.call (CpuOp.readUInt address size))

def writeUInt (address value : UInt64) (size : Nat) : EngineProgram W E Unit :=
  demand (Program.call (CpuOp.writeUInt address value size))

def enterBlock (address : UInt64) (size : Nat) : EngineProgram W E Unit :=
  demand (Program.call (CpuOp.enterBlock address size))

def enterInstruction (address : UInt64) (size : Nat) (insn : Option InsnId) :
    EngineProgram W E Unit :=
  demand (Program.call (CpuOp.enterInstruction address size insn))

def portIn (port size : Nat) : EngineProgram W E UInt64 :=
  demand (Program.call (CpuOp.portIn port size))

def portOut (port size : Nat) (value : UInt64) : EngineProgram W E Unit :=
  demand (Program.call (CpuOp.portOut port size value))

def interrupt (number : Nat) : EngineProgram W E Unit :=
  demand (Program.call (CpuOp.interrupt number))

def notify (event : Event) : EngineProgram W E DispatchResult :=
  demand (Program.call (CpuOp.notify event))

end EngineProgram

end GuestMachine
