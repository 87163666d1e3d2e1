import GuestMachine.Memory.Map

/-!
Access to ranges of mapped memory. A range may run across regions that touch; it is taken one
region at a time, and an access is refused at the first byte that is unmapped or lacks the
permission asked for. A write looks at the whole range before it changes a byte.
-/

namespace GuestMachine

/-- Part of a region: `count` bytes from `offset` on. -/
structure Chunk where
  region : Region
  offset : Nat
  count : Nat
  deriving DecidableEq

def Chunk.bytes (chunk : Chunk) : ByteArray :=
  chunk.region.bytes.extract chunk.offset (chunk.offset + chunk.count)

namespace MemoryMap

theorem offset_lt_of_containing {table : MemoryMap} {address : UInt64} {region : Region}
    (found : table.containing? address = some region) :
    region.offset address < region.size := by
  simpa using (Option.filter_eq_some_iff.mp found).2

/-- Parts of regions that make up the `remaining` bytes from `cursor` on, lowest first. Refuses
the range at its first byte that is unmapped or whose region lacks `needed`. -/
def walk (table : MemoryMap) (needed : Option Permissions) (cursor : UInt64) (remaining : Nat) :
    Except Error (List Chunk) :=
  if remaining = 0 then .ok []
  else
    match _ : table.containing? cursor with
    | none => .error (.unmappedMemory cursor)
    | some region =>
      if needed.all region.perms.grants then
        let offset := region.offset cursor
        let count := min (region.size - offset) remaining
        match table.walk needed region.endAddr (remaining - count) with
        | .ok rest => .ok (⟨region, offset, count⟩ :: rest)
        | .error error => .error error
      else .error (.permissionDenied cursor)
termination_by remaining
decreasing_by
  have := offset_lt_of_containing ‹_›
  omega

/-- Whether every byte of a range is mapped with `needed`. -/
def check (table : MemoryMap) (address : UInt64) (size : Nat) (needed : Permissions) :
    Except Error Unit :=
  (table.walk (some needed) address size).map fun _ => ()

def readWith (table : MemoryMap) (needed : Option Permissions) (address : UInt64) (size : Nat) :
    Except Error ByteArray :=
  (table.walk needed address size).map fun chunks =>
    chunks.foldl (fun bytes chunk => bytes ++ chunk.bytes) ByteArray.empty

/-- Parts of regions that a copy of `remaining` bytes to `cursor` goes through. Each is the rest
of the last region that starts at or below the cursor, taken as it is: what it covers has been
looked at before. A part without a byte ends the copy. -/
def span (table : MemoryMap) (cursor : UInt64) (remaining : Nat) : Except Error (List Chunk) :=
  if remaining = 0 then .ok []
  else
    match table.atOrBelow? cursor with
    | none => .error (.unmappedMemory cursor)
    | some region =>
      let offset := region.offset cursor
      let count := min (region.size - offset) remaining
      if count = 0 then .error (.unmappedMemory cursor)
      else
        match table.span (cursor + UInt64.ofNat count) (remaining - count) with
        | .ok rest => .ok (⟨region, offset, count⟩ :: rest)
        | .error error => .error error
termination_by remaining

/-- Copies the bytes of `source`, from `start` on, into parts of regions one after another. -/
def fill (source : ByteArray) : List Chunk → Nat → List Region → List Region
  | [], _, regions => regions
  | chunk :: rest, start, regions =>
    fill source rest (start + chunk.count) (regions.map fun region =>
      if region.base = chunk.region.base then
        { region with bytes := Bytes.overwrite region.bytes chunk.offset source start chunk.count }
      else region)

/-- Writes `bytes` at `address` if every byte of the range is mapped with the permission asked
for, if any is. -/
def writeWith (table : MemoryMap) (needed : Option Permissions) (address : UInt64)
    (bytes : ByteArray) : Except Error MemoryMap := do
  discard (table.walk needed address bytes.size)
  let chunks ← table.span address bytes.size
  return { table with regions := fill bytes chunks 0 table.regions }

def read (table : MemoryMap) (address : UInt64) (size : Nat) : Except Error ByteArray :=
  table.readWith (some .read) address size

def write (table : MemoryMap) (address : UInt64) (bytes : ByteArray) : Except Error MemoryMap :=
  table.writeWith (some .write) address bytes

/-- Writes mapped memory whatever it grants, as a loader does. -/
def load (table : MemoryMap) (address : UInt64) (bytes : ByteArray) : Except Error MemoryMap :=
  table.writeWith none address bytes

end MemoryMap

end GuestMachine
