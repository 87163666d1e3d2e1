import GuestMachine.Arch
import GuestMachine.Mode
import GuestMachine.Register.Layout

/-!
Register contexts: the values of registers together with the family and mode they belong to.
Memory is not part of a context.
-/

namespace GuestMachine

structure Context where
  arch : Arch
  mode : Mode
  values : List (RegId × UInt64)
  deriving DecidableEq, Repr

/-- Saved value of a register, the first one listed. -/
def Context.value? (context : Context) (id : RegId) : Option UInt64 :=
  (context.values.find? fun entry => entry.1 == id).map Prod.snd

end GuestMachine
