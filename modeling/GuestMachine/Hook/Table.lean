import GuestMachine.Error

/-!
The table of registered hooks, in order of registration. Handles count up from one and are
never given out twice.
-/

namespace GuestMachine

/-- A registered hook: what it listens for, its filters and its callback. -/
structure Hook where
  handle : HookHandle
  kind : EventKind
  range : AddressRange
  insn : Option InsnId
  callback : HookCallback
  deriving DecidableEq, Repr

def Hook.listensTo (hook : Hook) (kind : EventKind) (key : UInt64) (insn : Option InsnId) : Bool :=
  hook.kind == kind && hook.range.covers key && (hook.insn.isNone || hook.insn == insn)

/-- Hooks in order of registration, and the number the next one gets. -/
structure HookTable where
  hooks : List Hook
  next : Nat
  deriving DecidableEq, Repr

namespace HookTable

/-- No hook; the first one registered gets handle one. -/
def empty : HookTable := ⟨[], 1⟩

instance : Inhabited HookTable := ⟨empty⟩

/-- Adds a hook at the end. The callback must serve the kind of event, and only entered
instructions can be filtered by identifier. -/
def register (table : HookTable) (kind : EventKind) (range : AddressRange) (insn : Option InsnId)
    (callback : HookCallback) : Except Error (HookHandle × HookTable) :=
  if !callback.shape.accepts kind then .error (.invalidArgument Reason.shapeMismatch)
  else if insn.isSome && kind != .instructionEnter then
    .error (.invalidArgument Reason.filterMismatch)
  else
    let handle : HookHandle := ⟨table.next⟩
    .ok (handle, ⟨table.hooks ++ [⟨handle, kind, range, insn, callback⟩], table.next + 1⟩)

def contains (table : HookTable) (handle : HookHandle) : Bool :=
  table.hooks.any fun hook => hook.handle == handle

def unregister (table : HookTable) (handle : HookHandle) : Except Error HookTable :=
  if table.contains handle then
    .ok { table with hooks := table.hooks.eraseP fun hook => hook.handle == handle }
  else .error (.unknownHandle handle)

/-- Handles and callbacks of the hooks to run for an event, in order of registration. -/
def lookup (table : HookTable) (kind : EventKind) (key : UInt64) (insn : Option InsnId) :
    List (HookHandle × HookCallback) :=
  (table.hooks.filter fun hook => hook.listensTo kind key insn).map fun hook =>
    (hook.handle, hook.callback)

def size (table : HookTable) : Nat :=
  table.hooks.length

def isEmpty (table : HookTable) : Bool :=
  table.hooks.isEmpty

/-- Removes every hook. Handles are not given out again. -/
def clear (table : HookTable) : HookTable :=
  { table with hooks := [] }

end HookTable

end GuestMachine
