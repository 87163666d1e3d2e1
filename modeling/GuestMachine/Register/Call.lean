import GuestMachine.Register.Bank

/-!
The operations of a register bank as data, so that a history of a bank is a list. The first call
of a history comes first.
-/

namespace GuestMachine

/-- An operation on a register bank. -/
inductive RegisterCall where
  | read (id : RegId)
  | write (id : RegId) (value : UInt64)
  | restore (values : List (RegId × UInt64))
  | snapshot
  deriving DecidableEq, Repr

/-- Registers and the values that the call is to store in them, in turn. -/
def RegisterCall.entries : RegisterCall → List (RegId × UInt64)
  | write id value => [(id, value)]
  | restore values => values
  | read _ | snapshot => []

namespace RegisterBank

def attempt (bank : RegisterBank) : RegisterCall → Except Error RegisterBank
  | .read id => (bank.read id).map fun _ => bank
  | .write id value => bank.write id value
  | .restore values => bank.restore values
  | .snapshot => .ok bank

/-- The bank behind a call. One that fails leaves it alone. -/
def after (bank : RegisterBank) (call : RegisterCall) : RegisterBank :=
  (bank.attempt call).toOption.getD bank

def replay (bank : RegisterBank) (calls : List RegisterCall) : RegisterBank :=
  calls.foldl after bank

end RegisterBank

end GuestMachine
