import GuestMachine.Memory.Access

/-!
The operations of a region table as data, so that a history of a table is a list. The first call
of a history comes first.
-/

namespace GuestMachine

/-- An operation on a region table. Mapping says whether the host had storage for the region. -/
inductive MemoryCall where
  | map (base size : UInt64) (perms : Permissions) (allocated : Bool)
  | unmap (base size : UInt64)
  | protect (base size : UInt64) (perms : Permissions)
  | read (address : UInt64) (size : Nat)
  | check (address : UInt64) (size : Nat) (needed : Permissions)
  | write (address : UInt64) (bytes : ByteArray)
  | load (address : UInt64) (bytes : ByteArray)
  | clear
  deriving DecidableEq

namespace MemoryMap

def attempt (table : MemoryMap) : MemoryCall → Except Error MemoryMap
  | .map base size perms allocated =>
    (table.map (fun _ => allocated) base size perms).map Prod.snd
  | .unmap base size => table.unmap base size
  | .protect base size perms => table.protect base size perms
  | .read address size => (table.read address size).map fun _ => table
  | .check address size needed => (table.check address size needed).map fun _ => table
  | .write address bytes => table.write address bytes
  | .load address bytes => table.load address bytes
  | .clear => .ok table.clear

/-- The table behind a call. One that fails leaves it alone. -/
def after (table : MemoryMap) (call : MemoryCall) : MemoryMap :=
  (table.attempt call).toOption.getD table

def replay (table : MemoryMap) (calls : List MemoryCall) : MemoryMap :=
  calls.foldl after table

/-- The calls of a history that go through. -/
def accepted : MemoryMap → List MemoryCall → List MemoryCall
  | _, [] => []
  | table, call :: rest =>
    match table.attempt call with
    | .ok next => call :: next.accepted rest
    | .error _ => table.accepted rest

end MemoryMap

end GuestMachine
