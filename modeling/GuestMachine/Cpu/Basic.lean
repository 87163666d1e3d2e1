import GuestMachine.Machine.Dispatch
import GuestMachine.Mode.Integer

/-!
The access path of an engine during a run. Memory is checked before it is touched; an access to
unmapped memory gives hooks one chance to map it; trace hooks run before the bytes move. The
first fault is latched, and from then on no event is dispatched.
-/

namespace GuestMachine

/-- A machine in use by an engine, with the fault latched so far. -/
structure Cpu (W : Type) where
  machine : Machine W
  fault : Option Error

namespace Cpu

variable {W α ε : Type}

def ofMachine (machine : Machine W) : Cpu W := ⟨machine, none⟩

def onMachine (x : EStateM ε (Machine W) α) : EStateM ε (Cpu W) α :=
  within Cpu.machine (fun cpu machine => { cpu with machine := machine }) x

/-- Latches a fault unless one is latched already; answers the one that is latched then. -/
def latch (cause : Error) : Attempt (Cpu W) Error := do
  match (← get).fault with
  | some first => return first
  | none =>
    modify fun cpu => { cpu with fault := some cause }
    return cause

/-- Fails with the latched fault, which is the given one if there was none. -/
def latchAndFail (cause : Error) : Attempt (Cpu W) α := do
  Attempt.fail (← latch cause)

/-- Dispatches an event. Once a fault is latched no hook runs any more. -/
def notify (host : Host W) (event : Event) : Attempt (Cpu W) DispatchResult := do
  match (← get).fault with
  | some fault => Attempt.fail fault
  | none =>
    match ← Attempt.outcome (onMachine (Machine.dispatch host host.nesting event)) with
    | .ok result => return result
    | .error cause => latchAndFail cause

/-- The fault that a refused guest access is reported as. -/
def accessFault (kind : AccessKind) (address : UInt64) (size : Nat) : Error → Error
  | .unmappedMemory _ => .unmappedAccess kind address size
  | .permissionDenied _ => .protectedAccess kind address size
  | cause => cause

/-- Fails if a memory operation of a guest access did, with the fault it counts as. -/
def accessResult (kind : AccessKind) (address : UInt64) (size : Nat) :
    Except Error α → Attempt (Cpu W) α
  | .ok a => return a
  | .error cause => latchAndFail (accessFault kind address size cause)

/-- Checks a guest access. If its first missing byte is unmapped the matching event is raised,
and once a hook has resolved it the range is checked one more time. -/
def require (host : Host W) (kind : AccessKind) (address : UInt64) (size : Nat)
    (value : UInt64) : Attempt (Cpu W) Unit := do
  match (← get).machine.memory.check address size kind.required with
  | .ok () => return
  | .error (.unmappedMemory _) =>
    discard (notify host (.memoryUnmapped kind address size value))
    accessResult kind address size ((← get).machine.memory.check address size kind.required)
  | .error cause => accessResult kind address size (.error cause)

def fetch (host : Host W) (address : UInt64) (size : Nat) : Attempt (Cpu W) ByteArray := do
  require host .fetch address size 0
  accessResult .fetch address size ((← get).machine.memory.readWith (some .exec) address size)

/-- Reads guest memory, after the hooks that trace reads. -/
def readMemory (host : Host W) (address : UInt64) (size : Nat) : Attempt (Cpu W) ByteArray := do
  require host .read address size 0
  discard (notify host (.memoryRead address size))
  accessResult .read address size ((← get).machine.memory.readWith (some .read) address size)

/-- Writes guest memory, after the hooks that trace writes. -/
def writeMemory (host : Host W) (address : UInt64) (bytes : ByteArray) :
    Attempt (Cpu W) Unit := do
  let value := (← get).machine.mode.decodeUInt bytes
  require host .write address bytes.size value
  discard (notify host (.memoryWrite address bytes.size value))
  let machine := (← get).machine
  let memory ← accessResult .write address bytes.size
    (machine.memory.writeWith (some .write) address bytes)
  modify fun cpu => { cpu with machine := { machine with memory := memory } }

/-- Reads an integer of `size` bytes in the byte order of the guest. -/
def readUInt (host : Host W) (address : UInt64) (size : Nat) : Attempt (Cpu W) UInt64 := do
  let bytes ← readMemory host address size
  return (← get).machine.mode.decodeUInt bytes

/-- Writes the low `size` bytes of a value in the byte order of the guest. -/
def writeUInt (host : Host W) (address : UInt64) (value : UInt64) (size : Nat) :
    Attempt (Cpu W) Unit := do
  writeMemory host address ((← get).machine.mode.encodeUInt value size)

def enterBlock (host : Host W) (address : UInt64) (size : Nat) : Attempt (Cpu W) Unit :=
  discard (notify host (.blockEnter address size))

def enterInstruction (host : Host W) (address : UInt64) (size : Nat) (insn : Option InsnId) :
    Attempt (Cpu W) Unit :=
  discard (notify host (.instructionEnter address size insn))

/-- Reads a port in the instruction at the program counter; zero unless a hook gives a value. -/
def portIn (host : Host W) (port size : Nat) : Attempt (Cpu W) UInt64 := do
  let address ← onMachine Machine.pc
  match ← notify host (.portIn address port size) with
  | .value value => return value
  | _ => return 0

def portOut (host : Host W) (port size : Nat) (value : UInt64) : Attempt (Cpu W) Unit := do
  let address ← onMachine Machine.pc
  discard (notify host (.portOut address port size value))

def interrupt (host : Host W) (number : Nat) : Attempt (Cpu W) Unit := do
  let address ← onMachine Machine.pc
  discard (notify host (.interrupt address number))

def takeFault : EStateM ε (Cpu W) (Option Error) := do
  let fault := (← get).fault
  modify fun cpu => { cpu with fault := none }
  return fault

end Cpu

end GuestMachine
