import GuestMachine.Engine.Basic

/-!
A tiny engine for 32-bit x86 guests. It knows ten instructions, of one, two or five bytes. Every
instruction is announced with its opcode as identifier, and the first instruction of a run and
every jump target are announced as a block too.
-/

namespace GuestMachine.Tiny

open EngineProgram

def eax : RegId := ⟨0⟩

def ecx : RegId := ⟨1⟩

def edx : RegId := ⟨2⟩

def ebx : RegId := ⟨3⟩

def eip : RegId := ⟨8⟩

/-- The five registers, all of 32 bits. -/
def layout : RegisterLayout where
  pc := eip
  registers := [⟨eax, "eax", 32⟩, ⟨ecx, "ecx", 32⟩, ⟨edx, "edx", 32⟩, ⟨ebx, "ebx", 32⟩,
    ⟨eip, "eip", 32⟩]

inductive Instruction where
  /-- Adds one to the counter. -/
  | incEcx
  /-- Takes one from the data register. -/
  | decEdx
  /-- Does nothing. -/
  | nop
  /-- Halts the guest. -/
  | hlt
  /-- Jumps by a signed byte, counted from the next instruction. -/
  | jmp
  /-- Reads the accumulator from a port. -/
  | input
  /-- Writes the low byte of the accumulator to a port. -/
  | output
  /-- Raises an interrupt. -/
  | int
  /-- Stores the counter at an address. -/
  | storeEcx
  /-- Loads the counter from an address. -/
  | loadEcx
  deriving DecidableEq, Repr

namespace Instruction

def ofOpcode? (opcode : UInt8) : Option Instruction :=
  if opcode = 0x41 then some incEcx
  else if opcode = 0x4A then some decEdx
  else if opcode = 0x90 then some nop
  else if opcode = 0xF4 then some hlt
  else if opcode = 0xEB then some jmp
  else if opcode = 0xE4 then some input
  else if opcode = 0xE6 then some output
  else if opcode = 0xCD then some int
  else if opcode = 0x89 then some storeEcx
  else if opcode = 0x8B then some loadEcx
  else none

/-- Length in bytes, operands included. -/
def size : Instruction → Nat
  | incEcx | decEdx | nop | hlt => 1
  | jmp | input | output | int => 2
  | storeEcx | loadEcx => 5

end Instruction

/-- State of the engine: whether the next instruction opens a block, and how many instructions
have been executed to their end. -/
structure State where
  blockPending : Bool
  executed : Nat
  deriving DecidableEq, Repr

def State.initial : State := ⟨false, 0⟩

variable {W : Type}

/-- A signed byte as a distance between addresses. -/
def displacement (byte : UInt8) : UInt64 :=
  if byte < 0x80 then byte.toUInt64 else byte.toUInt64 - 0x100

example : displacement 0xFE + 2 = 0 := by decide

/-- Byte at a position, zero past the end. -/
def byteAt (bytes : ByteArray) (i : Nat) : UInt8 :=
  (bytes.data[i]?).getD 0

/-- Carries out an instruction whose operands are `operands`. Answers where execution goes on,
given the address behind the instruction, and whether the guest halts. -/
def execute (operands : ByteArray) (next : UInt64) :
    Instruction → EngineProgram W State (UInt64 × StepOutcome)
  | .incEcx => do
    let value ← readRegister ecx
    writeRegister ecx (value + 1)
    return (next, .retired)
  | .decEdx => do
    let value ← readRegister edx
    writeRegister edx (value - 1)
    return (next, .retired)
  | .nop => return (next, .retired)
  | .hlt => return (next, .halted)
  | .jmp => do
    modify fun state => { state with blockPending := true }
    return (next + displacement (byteAt operands 0), .retired)
  | .input => do
    let value ← portIn (byteAt operands 0).toNat 1
    writeRegister eax value
    return (next, .retired)
  | .output => do
    let value ← readRegister eax
    portOut (byteAt operands 0).toNat 1 (value &&& 0xFF)
    return (next, .retired)
  | .int => do
    interrupt (byteAt operands 0).toNat
    return (next, .retired)
  | .storeEcx => do
    let value ← readRegister ecx
    writeUInt (Mode.empty.decodeUInt operands) value 4
    return (next, .retired)
  | .loadEcx => do
    let value ← readUInt (Mode.empty.decodeUInt operands) 4
    writeRegister ecx value
    return (next, .retired)

/-- Fetches, announces and executes the instruction at the program counter. If a hook has moved
the program counter by the time the instruction is announced, the step ends there, and the
instruction at the new place opens a block. -/
def step : EngineProgram W State StepOutcome := do
  let pc ← EngineProgram.pc
  let code ← fetch pc 1
  let opcode := byteAt code 0
  match Instruction.ofOpcode? opcode with
  | none => throw (.invalidInstruction pc)
  | some instruction =>
    if (← get).blockPending then
      modify fun state => { state with blockPending := false }
      enterBlock pc 0
    enterInstruction pc instruction.size (some ⟨opcode.toNat⟩)
    let current ← EngineProgram.pc
    if current ≠ pc then
      modify fun state => { state with blockPending := true }
      return .retired
    let operands ← fetch (pc + 1) (instruction.size - 1)
    let (next, outcome) ← execute operands (pc + UInt64.ofNat instruction.size) instruction
    setPc next
    modify fun state => { state with executed := state.executed + 1 }
    return outcome

/-- The engine. Only 32-bit x86 without further flags is supported. -/
def engine : Engine W State where
  supports arch mode := arch == .x86 && mode == .bits32
  layout _ _ := layout
  begin := modify fun state => { state with blockPending := true }
  step := step

end GuestMachine.Tiny
