import GuestMachine.Arch
import GuestMachine.Hook.Callback
import GuestMachine.Lifecycle
import GuestMachine.Mode
import GuestMachine.Register.Layout

/-!
Every way an operation can fail, the class of fault each failure counts as when it ends a run,
and the wording of both.
-/

namespace GuestMachine

/-- Class of fault that ended a run. -/
inductive FaultKind where
  /-- The guest touched unmapped memory and no hook resolved it. -/
  | unmapped (access : AccessKind)
  /-- The guest touched mapped memory without the permission it needs. -/
  | denied (access : AccessKind)
  /-- The engine could not decode or execute the instruction. -/
  | invalidInstruction
  /-- A callback failed. -/
  | hook
  /-- Any other failure of the engine. -/
  | engine
  deriving DecidableEq, Repr

def FaultKind.text : FaultKind → String
  | unmapped access => "unmapped " ++ access.name
  | denied access => "protected " ++ access.name
  | invalidInstruction => "invalid instruction"
  | hook => "hook failure"
  | engine => "engine error"

inductive Error where
  /-- A malformed size, range, layout, callback or context. -/
  | invalidArgument (reason : String)
  /-- A host access met an address outside every region. -/
  | unmappedMemory (address : UInt64)
  /-- A host access met a region that lacks the permission it needs. -/
  | permissionDenied (address : UInt64)
  /-- A register that the layout does not have. -/
  | unknownRegister (id : RegId)
  /-- A hook that is not registered, or no longer. -/
  | unknownHandle (handle : HookHandle)
  /-- An operation that the lifecycle state does not allow. -/
  | invalidState (state : Lifecycle) (operation : String)
  /-- A family and mode that the engine cannot emulate. -/
  | unsupportedArch (arch : Arch) (mode : Mode)
  /-- Storage for a region could not be allocated. -/
  | outOfMemory (size : UInt64)
  /-- A guest access to unmapped memory that no hook resolved. -/
  | unmappedAccess (kind : AccessKind) (address : UInt64) (size : Nat)
  /-- A guest access to mapped memory that lacks the permission it needs. -/
  | protectedAccess (kind : AccessKind) (address : UInt64) (size : Nat)
  /-- An instruction that the engine could not decode or execute. -/
  | invalidInstruction (address : UInt64)
  /-- A callback failed with `source`. -/
  | hook (handle : HookHandle) (source : Error)
  deriving DecidableEq, Repr

namespace Error

def message : Error → String
  | invalidArgument reason => "invalid argument: " ++ reason
  | unmappedMemory address => "memory not mapped at " ++ Hex.word address
  | permissionDenied address => "permission denied at " ++ Hex.word address
  | unknownRegister id => "unknown register " ++ id.text
  | unknownHandle handle => "unknown hook handle " ++ handle.text
  | invalidState state operation =>
    "cannot " ++ operation ++ " while session is " ++ state.name
  | unsupportedArch arch mode =>
    "engine does not support " ++ arch.name ++ " with mode " ++ mode.describe
  | outOfMemory size => "cannot allocate " ++ Hex.word size ++ " bytes of guest memory"
  | unmappedAccess kind address size =>
    "unmapped " ++ kind.name ++ " of " ++ toString size ++ " bytes at " ++ Hex.word address
  | protectedAccess kind address size =>
    "protected " ++ kind.name ++ " of " ++ toString size ++ " bytes at " ++ Hex.word address
  | invalidInstruction address => "invalid instruction at " ++ Hex.word address
  | hook handle source => "hook " ++ handle.text ++ " failed: " ++ source.message

/-- Class the failure counts as when it ends a run. -/
def faultKind : Error → FaultKind
  | unmappedAccess kind _ _ => .unmapped kind
  | protectedAccess kind _ _ => .denied kind
  | invalidInstruction _ => .invalidInstruction
  | hook _ _ => .hook
  | _ => .engine

/-- The failure that the innermost failing callback returned, or the failure itself. -/
def rootCause : Error → Error
  | hook _ source => source.rootCause
  | error => error

/-- The failure that caused this one directly. -/
def source? : Error → Option Error
  | hook _ source => some source
  | _ => none

end Error

/-! What is wrong with a malformed argument. -/

namespace Reason

def emptyRegion : String := "region size must be non-zero"

def regionOverflow : String := "region overflows the address space"

def regionOverlap : String := "region overlaps an existing mapping"

def registerWidth : String := "register width must be 1..=64 bits"

def duplicateRegister : String := "duplicate register id in layout"

def missingPc : String := "program counter missing from layout"

def shapeMismatch : String := "callback shape does not match event kind"

def filterMismatch : String := "instruction filter requires an instruction hook"

def foreignContext : String := "context was saved from a different architecture or mode"

def wideBounds : String := "run bounds do not fit the program counter"

end Reason

end GuestMachine
