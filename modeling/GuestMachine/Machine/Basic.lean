import GuestMachine.Hook.Delivery
import GuestMachine.Hook.Table
import GuestMachine.Memory.Access
import GuestMachine.Outcome
import GuestMachine.Program
import GuestMachine.Register.Bank
import GuestMachine.Stop

/-!
The guest machine: memory, registers, hooks and the stop flag, as hooks and engines reach them
during a run. Its operations raise no event. A machine also carries the world of its host, the
state that callbacks and engines share among themselves, and the callbacks that are running.
-/

namespace GuestMachine

/-- A guest machine in a world `W` of its host. -/
structure Machine (W : Type) where
  arch : Arch
  mode : Mode
  memory : MemoryMap
  registers : RegisterBank
  hooks : HookTable
  stops : StopBoard
  stopHandle : StopHandle
  running : List HookCallback
  world : W

/-- An operation that callbacks and engines can ask of a machine. -/
inductive MachineOp (W : Type) where
  | arch
  | mode
  | mapMemory (base size : UInt64) (perms : Permissions)
  | unmapMemory (base size : UInt64)
  | protectMemory (base size : UInt64) (perms : Permissions)
  | readMemory (address : UInt64) (size : Nat)
  | writeMemory (address : UInt64) (bytes : ByteArray)
  | loadMemory (address : UInt64) (bytes : ByteArray)
  | regions
  | readRegister (id : RegId)
  | writeRegister (id : RegId) (value : UInt64)
  | pc
  | addHook (kind : EventKind) (range : AddressRange) (callback : HookCallback)
  | addInstructionHook (range : AddressRange) (insn : InsnId) (callback : HookCallback)
  | removeHook (handle : HookHandle)
  | stop
  | stopRequested
  /-- Dispatches an event at once, outside any access of the guest. -/
  | dispatch (event : Event)
  /-- The state shared among callbacks and engines. -/
  | world
  | setWorld (world : W)

namespace MachineOp

variable {W : Type}

@[reducible] def Answer : MachineOp W → Type
  | arch => Arch
  | mode => Mode
  | mapMemory .. => Except Error RegionId
  | unmapMemory .. => Except Error Unit
  | protectMemory .. => Except Error Unit
  | readMemory .. => Except Error ByteArray
  | writeMemory .. => Except Error Unit
  | loadMemory .. => Except Error Unit
  | regions => List RegionInfo
  | readRegister _ => Except Error UInt64
  | writeRegister .. => Except Error Unit
  | pc => Except Error UInt64
  | addHook .. => Except Error HookHandle
  | addInstructionHook .. => Except Error HookHandle
  | removeHook _ => Except Error Unit
  | stop => Unit
  | stopRequested => Bool
  | dispatch _ => Except Error DispatchResult
  | world => W
  | setWorld _ => Unit

end MachineOp

abbrev MachineProgram (W α : Type) : Type :=
  Program (MachineOp W) MachineOp.Answer α

/-- What surrounds the machines of a world: the behaviour of callbacks, the storage that can be
allocated, the time that runs take, and bounds that keep them finite. -/
structure Host (W : Type) where
  /-- What a callback does with its arguments. -/
  respond : (callback : HookCallback) → callback.shape.Args →
    MachineProgram W (Except Error callback.shape.Reply)
  /-- Lengths that storage can be allocated for. -/
  allocates : W → Nat → Bool
  /-- Milliseconds that a run has taken, given the world in which it began, the world at present
  and the number of instructions retired. -/
  elapsed : (began present : W) → (retired : Nat) → Nat
  /-- How many dispatches may be open at once. -/
  nesting : Nat
  /-- How many instructions a run without a count may take. -/
  patience : Nat

namespace Machine

variable {W : Type}

/-- Replaces memory by what an operation makes of it. One that fails leaves it alone. -/
def modifyMemory (update : MemoryMap → Except Error MemoryMap) : Attempt (Machine W) Unit := do
  let machine ← get
  let memory ← Attempt.ofExcept (update machine.memory)
  set { machine with memory := memory }

def mapMemory (host : Host W) (base size : UInt64) (perms : Permissions) :
    Attempt (Machine W) RegionId := do
  let machine ← get
  let (id, memory) ←
    Attempt.ofExcept (machine.memory.map (host.allocates machine.world) base size perms)
  set { machine with memory := memory }
  return id

/-- Unmaps the region that spans exactly the given range. -/
def unmapMemory (base size : UInt64) : Attempt (Machine W) Unit :=
  modifyMemory fun memory => memory.unmap base size

/-- Replaces the permissions of the region that spans exactly the given range. -/
def protectMemory (base size : UInt64) (perms : Permissions) : Attempt (Machine W) Unit :=
  modifyMemory fun memory => memory.protect base size perms

def readMemory (address : UInt64) (size : Nat) : Attempt (Machine W) ByteArray := do
  Attempt.ofExcept ((← get).memory.read address size)

def writeMemory (address : UInt64) (bytes : ByteArray) : Attempt (Machine W) Unit :=
  modifyMemory fun memory => memory.write address bytes

/-- Writes memory whatever its permissions. -/
def loadMemory (address : UInt64) (bytes : ByteArray) : Attempt (Machine W) Unit :=
  modifyMemory fun memory => memory.load address bytes

def readRegister (id : RegId) : Attempt (Machine W) UInt64 := do
  Attempt.ofExcept ((← get).registers.read id)

/-- Writes a register. Writing the program counter moves execution. -/
def writeRegister (id : RegId) (value : UInt64) : Attempt (Machine W) Unit := do
  let machine ← get
  let registers ← Attempt.ofExcept (machine.registers.write id value)
  set { machine with registers := registers }

def pc : Attempt (Machine W) UInt64 := do
  readRegister (← get).registers.pc

def setPc (value : UInt64) : Attempt (Machine W) Unit := do
  writeRegister (← get).registers.pc value

def register (kind : EventKind) (range : AddressRange) (insn : Option InsnId)
    (callback : HookCallback) : Attempt (Machine W) HookHandle := do
  let machine ← get
  let (handle, hooks) ← Attempt.ofExcept (machine.hooks.register kind range insn callback)
  set { machine with hooks := hooks }
  return handle

def addHook (kind : EventKind) (range : AddressRange) (callback : HookCallback) :
    Attempt (Machine W) HookHandle :=
  register kind range none callback

/-- Registers a hook for entered instructions of one identifier. -/
def addInstructionHook (range : AddressRange) (insn : InsnId) (callback : HookCallback) :
    Attempt (Machine W) HookHandle :=
  register .instructionEnter range (some insn) callback

/-- Removes a hook, be it the one that is running. -/
def removeHook (handle : HookHandle) : Attempt (Machine W) Unit := do
  let machine ← get
  let hooks ← Attempt.ofExcept (machine.hooks.unregister handle)
  set { machine with hooks := hooks }

def requestStop (machine : Machine W) : Machine W :=
  { machine with stops := machine.stops.request machine.stopHandle }

def clearStop (machine : Machine W) : Machine W :=
  { machine with stops := machine.stops.clear machine.stopHandle }

def stopRequested (machine : Machine W) : Bool :=
  machine.stops.isRequested machine.stopHandle

end Machine

end GuestMachine
