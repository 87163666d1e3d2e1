import GuestMachine.Hook.Callback

/-!
What an event hands to a callback, and what a callback's answer means for the event.
-/

namespace GuestMachine

inductive DispatchResult where
  /-- Every hook for the event ran. -/
  | proceed
  /-- A hook resolved the fault, so the access is tried once more. -/
  | resolved
  /-- The value the guest reads from a port, cut to the width of the access. -/
  | value (value : UInt64)
  deriving DecidableEq, Repr

/-- Bits that a port access of `size` bytes carries. -/
def portMask (size : Nat) : UInt64 :=
  if 8 ≤ size then 0xFFFFFFFFFFFFFFFF else UInt64.ofNat ((1 <<< (8 * size)) - 1)

/-- Whether an answer settles the event, so that no further hook runs. -/
def HookShape.settles : (shape : HookShape) → shape.Reply → Bool
  | memoryFault, resolved => resolved
  | _, _ => false

namespace Event

/-- What the event hands to a callback of a shape, if the shape can serve it. -/
def args? : Event → (shape : HookShape) → Option shape.Args
  | blockEnter address size, .code => some ⟨address, size⟩
  | instructionEnter address size _, .code => some ⟨address, size⟩
  | memoryRead address size, .memoryAccess => some ⟨.read, address, size, 0⟩
  | memoryWrite address size value, .memoryAccess => some ⟨.write, address, size, value⟩
  | memoryUnmapped access address size value, .memoryFault =>
    some ⟨access, address, size, value⟩
  | portIn _ port size, .portIn => some ⟨port, size⟩
  | portOut _ port size value, .portOut => some ⟨port, size, value⟩
  | interrupt _ number, .interrupt => some number
  | _, _ => none

/-- Result of dispatching the event to no hook: a port reads zero. -/
def initialResult : Event → DispatchResult
  | portIn .. => .value 0
  | _ => .proceed

/-- Result so far after one more answer: the last value read from a port counts. -/
def resultAfter : Event → (shape : HookShape) → shape.Reply → DispatchResult → DispatchResult
  | portIn _ _ size, .portIn, value, _ => .value (value &&& portMask size)
  | _, _, _, result => result

end Event

example : portMask 0 = 0 := by decide

example : portMask 2 = 0xFFFF := by decide

end GuestMachine
