import GuestMachine.Cpu.Operation

/-!
Scripts: callbacks and engines described by data. A script lists actions on the machine or the
processor, some of which take words that are worked out only when the action is carried out.
-/

namespace GuestMachine.Script

inductive Source where
  | word (value : UInt64)
  /-- The value of a register at that moment. -/
  | register (id : RegId)
  /-- An argument of the callback; zero if it has none of that name. -/
  | argument (name : String)
  deriving DecidableEq, Repr

/-- A word to be worked out: the bits of a source under a mask, if there is one, plus an
addend. -/
structure Operand where
  source : Source
  mask : Option UInt64
  addend : UInt64
  deriving DecidableEq, Repr

def Operand.word (value : UInt64) : Operand := ⟨.word value, none, 0⟩

/-- An action, and whether to go on when it fails. -/
structure Guarded (A : Type) where
  action : A
  lenient : Bool

/-- What a callback does in one call: its actions and then its answer. -/
structure Turn (A : Type) where
  actions : List (Guarded A)
  /-- Whether a memory fault is resolved. -/
  resolves : Bool
  /-- Value of a port. -/
  value : Operand

/-- A callback: the tag it goes by, its shape and what it does call by call. The last turn is
repeated. -/
structure HookScript (A : Type) where
  tag : String
  shape : HookShape
  turns : List (Turn A)

inductive MachineAction where
  | arch
  | mode
  | mapMemory (base : Operand) (size : UInt64) (perms : Permissions)
  | unmapMemory (base : Operand) (size : UInt64)
  | protectMemory (base : Operand) (size : UInt64) (perms : Permissions)
  | readMemory (address : Operand) (size : Nat)
  | writeMemory (address : Operand) (bytes : ByteArray)
  | loadMemory (address : Operand) (bytes : ByteArray)
  | regions
  | readRegister (id : RegId)
  | writeRegister (id : RegId) (value : Operand)
  | pc
  | addHook (kind : EventKind) (range : AddressRange) (hook : HookScript MachineAction)
  | addInstructionHook (range : AddressRange) (insn : InsnId) (hook : HookScript MachineAction)
  | removeHook (handle : HookHandle)
  | stop
  | stopRequested
  | dispatch (event : Event)
  | fail (cause : Error)

inductive CpuAction where
  | arch
  | mode
  | pc
  | setPc (value : Operand)
  /-- Moves the program counter by a distance. -/
  | advance (distance : UInt64)
  | readRegister (id : RegId)
  | writeRegister (id : RegId) (value : Operand)
  | haltRequested
  | fetch (address : Operand) (size : Nat)
  | readMemory (address : Operand) (size : Nat)
  | writeMemory (address : Operand) (bytes : ByteArray)
  | readUInt (address : Operand) (size : Nat)
  | writeUInt (address value : Operand) (size : Nat)
  | enterBlock (address : Operand) (size : Nat)
  | enterInstruction (address : Operand) (size : Nat) (insn : Option InsnId)
  | portIn (port size : Nat)
  | portOut (port size : Nat) (value : Operand)
  | interrupt (number : Nat)
  | notify (event : Event)
  | fault
  | takeFault
  /-- Lets time go by. -/
  | sleep (milliseconds : Nat)
  | machine (action : MachineAction)
  | fail (cause : Error)
  /-- Ends the list of actions and halts the guest. -/
  | halt

/-- An action of an engine, and whether it leaves no trace. -/
structure EngineAction where
  action : CpuAction
  lenient : Bool
  quiet : Bool

/-- An engine: its registers, the guests it supports (all if no list is given), what it does
when a run begins, and what it does at each program counter. -/
structure EngineScript where
  layout : RegisterLayout
  supported : Option (List (Arch × Mode))
  opening : List EngineAction
  code : List (UInt64 × List EngineAction)
  quiet : Bool

end GuestMachine.Script
