import GuestMachine.Hook.Table

/-!
The operations of a hook table as data, so that a history of a table is a list. The first call of
a history comes first.
-/

namespace GuestMachine

inductive HookCall where
  | register (kind : EventKind) (range : AddressRange) (insn : Option InsnId)
    (callback : HookCallback)
  | unregister (handle : HookHandle)
  | clear
  deriving DecidableEq, Repr

namespace HookTable

def attempt (table : HookTable) : HookCall → Except Error HookTable
  | .register kind range insn callback =>
    (table.register kind range insn callback).map Prod.snd
  | .unregister handle => table.unregister handle
  | .clear => .ok table.clear

/-- The table behind a call. One that fails leaves it alone. -/
def after (table : HookTable) (call : HookCall) : HookTable :=
  (table.attempt call).toOption.getD table

def replay (table : HookTable) (calls : List HookCall) : HookTable :=
  calls.foldl after table

/-- The hook that a call adds, under the handle that it answers. -/
def added? (table : HookTable) : HookCall → Option Hook
  | .register kind range insn callback =>
    (table.register kind range insn callback).toOption.map fun answer =>
      ⟨answer.1, kind, range, insn, callback⟩
  | .unregister _ | .clear => none

def added : HookTable → List HookCall → List Hook
  | _, [] => []
  | table, call :: rest => (table.added? call).toList ++ (table.after call).added rest

end HookTable

end GuestMachine
