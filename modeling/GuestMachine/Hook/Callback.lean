import GuestMachine.Hook.Event

/-!
Callbacks by shape. The shape fixes what a callback is handed and what it answers; the kinds of
event it can serve follow from it. A callback itself is named by a cell, and what it does is
known to the host alone.
-/

namespace GuestMachine

structure HookHandle where
  number : Nat
  deriving DecidableEq, Repr

def HookHandle.text (handle : HookHandle) : String :=
  "hook#" ++ toString handle.number

inductive HookShape where
  | code
  | memoryAccess
  | memoryFault
  | portIn
  | portOut
  | interrupt
  deriving DecidableEq, Repr

/-- A block or an instruction about to execute. -/
structure CodeEntry where
  address : UInt64
  size : Nat
  deriving DecidableEq, Repr

/-- A memory access; `value` is zero unless it writes. -/
structure MemoryAccess where
  kind : AccessKind
  address : UInt64
  size : Nat
  value : UInt64
  deriving DecidableEq, Repr

structure PortRead where
  port : Nat
  size : Nat
  deriving DecidableEq, Repr

structure PortWrite where
  port : Nat
  size : Nat
  value : UInt64
  deriving DecidableEq, Repr

namespace HookShape

def all : List HookShape :=
  [code, memoryAccess, memoryFault, portIn, portOut, interrupt]

/-- What a callback of the shape is handed. -/
abbrev Args : HookShape → Type
  | code => CodeEntry
  | memoryAccess => MemoryAccess
  | memoryFault => MemoryAccess
  | portIn => PortRead
  | portOut => PortWrite
  | interrupt => Nat

/-- What a callback of the shape answers: whether a fault is resolved, the value of a port, or
nothing. -/
abbrev Reply : HookShape → Type
  | code => Unit
  | memoryAccess => Unit
  | memoryFault => Bool
  | portIn => UInt64
  | portOut => Unit
  | interrupt => Unit

/-- Kinds of event that a callback of the shape serves. -/
def accepts : HookShape → EventKind → Bool
  | code, .blockEnter | code, .instructionEnter => true
  | memoryAccess, .memoryRead | memoryAccess, .memoryWrite => true
  | memoryFault, .memoryReadUnmapped | memoryFault, .memoryWriteUnmapped
  | memoryFault, .memoryFetchUnmapped => true
  | portIn, .portIn => true
  | portOut, .portOut => true
  | interrupt, .interrupt => true
  | _, _ => false

def name : HookShape → String
  | code => "code"
  | memoryAccess => "memory-access"
  | memoryFault => "memory-fault"
  | portIn => "port-in"
  | portOut => "port-out"
  | interrupt => "interrupt"

end HookShape

/-- A callback: its shape and the cell that names it. Equal callbacks are the same callback. -/
structure HookCallback where
  shape : HookShape
  cell : Nat
  deriving DecidableEq, Repr

/-- Text for diagnostics; the cell is not shown. -/
def HookCallback.describe (callback : HookCallback) : String :=
  "HookCallback::" ++ callback.shape.name

end GuestMachine
