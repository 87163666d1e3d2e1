import GuestMachine.Memory.Permissions

/-!
Events raised while a guest runs. An event has a kind, by which hooks are chosen, an address
matched against their ranges, and for entered instructions an identifier that hooks can filter
on.
-/

namespace GuestMachine

structure InsnId where
  number : Nat
  deriving DecidableEq, Repr

/-- Inclusive range of addresses. A range that begins after its end stands for every address. -/
structure AddressRange where
  first : UInt64
  last : UInt64
  deriving DecidableEq, Repr

namespace AddressRange

def all : AddressRange := ⟨1, 0⟩

def single (address : UInt64) : AddressRange := ⟨address, address⟩

instance : Inhabited AddressRange := ⟨all⟩

/-- Whether the range stands for every address. -/
def isAll (range : AddressRange) : Bool :=
  range.last < range.first

def covers (range : AddressRange) (address : UInt64) : Bool :=
  range.isAll || (range.first ≤ address && address ≤ range.last)

example : (⟨5, 4⟩ : AddressRange).covers 1000 = true := by decide

example : (single 0x42).covers 0x43 = false := by decide

end AddressRange

inductive EventKind where
  | blockEnter
  | instructionEnter
  | memoryRead
  | memoryWrite
  | memoryReadUnmapped
  | memoryWriteUnmapped
  | memoryFetchUnmapped
  | portIn
  | portOut
  | interrupt
  deriving DecidableEq, Repr

namespace EventKind

def all : List EventKind :=
  [blockEnter, instructionEnter, memoryRead, memoryWrite, memoryReadUnmapped,
    memoryWriteUnmapped, memoryFetchUnmapped, portIn, portOut, interrupt]

/-- Kind of the event raised for an access to unmapped memory. -/
def unmapped : AccessKind → EventKind
  | .read => memoryReadUnmapped
  | .write => memoryWriteUnmapped
  | .fetch => memoryFetchUnmapped

end EventKind

inductive Event where
  /-- Entering a block of `size` bytes, zero when the engine does not know it. -/
  | blockEnter (address : UInt64) (size : Nat)
  /-- About to execute an instruction of `size` bytes. -/
  | instructionEnter (address : UInt64) (size : Nat) (insn : Option InsnId)
  /-- Reading `size` bytes of mapped memory. -/
  | memoryRead (address : UInt64) (size : Nat)
  /-- Writing `size` bytes of mapped memory that spell `value`. -/
  | memoryWrite (address : UInt64) (size : Nat) (value : UInt64)
  /-- Touching unmapped memory; `value` is zero unless the access writes. -/
  | memoryUnmapped (access : AccessKind) (address : UInt64) (size : Nat) (value : UInt64)
  /-- Reading a port in the instruction at `address`. -/
  | portIn (address : UInt64) (port size : Nat)
  /-- Writing a port in the instruction at `address`. -/
  | portOut (address : UInt64) (port size : Nat) (value : UInt64)
  /-- An interrupt raised at `address`. -/
  | interrupt (address : UInt64) (number : Nat)
  deriving DecidableEq, Repr

namespace Event

/-- Kind by which hooks are chosen. -/
def kind : Event → EventKind
  | blockEnter .. => .blockEnter
  | instructionEnter .. => .instructionEnter
  | memoryRead .. => .memoryRead
  | memoryWrite .. => .memoryWrite
  | memoryUnmapped access .. => .unmapped access
  | portIn .. => .portIn
  | portOut .. => .portOut
  | interrupt .. => .interrupt

/-- Address matched against hook ranges: the accessed one for memory, else the instruction's. -/
def key : Event → UInt64
  | blockEnter address _ => address
  | instructionEnter address _ _ => address
  | memoryRead address _ => address
  | memoryWrite address _ _ => address
  | memoryUnmapped _ address _ _ => address
  | portIn address _ _ => address
  | portOut address _ _ _ => address
  | interrupt address _ => address

def insn : Event → Option InsnId
  | instructionEnter _ _ insn => insn
  | _ => none

end Event

end GuestMachine
