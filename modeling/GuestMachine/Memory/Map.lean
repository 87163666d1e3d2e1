import GuestMachine.Error
import GuestMachine.Memory.Region

/-!
The table of mapped regions, kept in order of their bases. Regions do not meet: a range is
mapped only where it is free, and unmapped or given new permissions only as a whole.
-/

namespace GuestMachine

/-- Regions in order of base, and the number the next one gets. -/
structure MemoryMap where
  regions : List Region
  nextId : UInt32
  deriving DecidableEq

namespace MemoryMap

def empty : MemoryMap := ⟨[], 0⟩

instance : Inhabited MemoryMap := ⟨empty⟩

/-- The last region that starts at or below an address. -/
def atOrBelow? (map : MemoryMap) (address : UInt64) : Option Region :=
  (map.regions.filter fun region => region.base ≤ address).getLast?

def below? (map : MemoryMap) (address : UInt64) : Option Region :=
  (map.regions.filter fun region => region.base < address).getLast?

/-- The region that covers an address. Only the last one that starts at or below it can. -/
def containing? (map : MemoryMap) (address : UInt64) : Option Region :=
  (map.atOrBelow? address).filter fun region => region.offset address < region.size

/-- Whether the range from `base` up to `stop` meets a region. Only the last one that starts
below `stop` can reach into it. -/
def overlaps (map : MemoryMap) (base stop : UInt64) : Bool :=
  match map.below? stop with
  | some other => base < other.endAddr
  | none => false

def insertRegion (region : Region) : List Region → List Region
  | [] => [region]
  | other :: rest =>
    if region.base < other.base then region :: other :: rest
    else other :: insertRegion region rest

/-- Maps `size` zero bytes at `base`. `allocates` tells which lengths the host has storage for;
it is asked last. -/
def map (allocates : Nat → Bool) (table : MemoryMap) (base size : UInt64) (perms : Permissions) :
    Except Error (RegionId × MemoryMap) :=
  if size = 0 then .error (.invalidArgument Reason.emptyRegion)
  else if UInt64.size ≤ base.toNat + size.toNat then .error (.invalidArgument Reason.regionOverflow)
  else if table.overlaps base (base + size) then .error (.invalidArgument Reason.regionOverlap)
  else if !allocates size.toNat then .error (.outOfMemory size)
  else
    let id : RegionId := ⟨table.nextId⟩
    let region : Region := ⟨base, id, perms, Bytes.zeros size.toNat⟩
    .ok (id, ⟨insertRegion region table.regions, table.nextId + 1⟩)

/-- Succeeds if a region spans exactly `size` bytes from `base`. -/
def checkExact (table : MemoryMap) (base size : UInt64) : Except Error Unit :=
  match table.regions.find? fun region => region.base == base with
  | some region =>
    if region.size = size.toNat then .ok () else .error (.unmappedMemory base)
  | none => .error (.unmappedMemory base)

/-- Removes the region that spans exactly `size` bytes from `base`. -/
def unmap (table : MemoryMap) (base size : UInt64) : Except Error MemoryMap := do
  table.checkExact base size
  return { table with regions := table.regions.filter fun region => region.base != base }

/-- Replaces the permissions of the region that spans exactly `size` bytes from `base`. -/
def protect (table : MemoryMap) (base size : UInt64) (perms : Permissions) :
    Except Error MemoryMap := do
  table.checkExact base size
  return { table with
    regions := table.regions.map fun region =>
      if region.base = base then { region with perms := perms } else region }

/-- Removes every region. Numbers are not given out again. -/
def clear (table : MemoryMap) : MemoryMap :=
  { table with regions := [] }

def infos (table : MemoryMap) : List RegionInfo :=
  table.regions.map Region.info

def regionAt? (table : MemoryMap) (address : UInt64) : Option RegionInfo :=
  (table.containing? address).map Region.info

def size (table : MemoryMap) : Nat :=
  table.regions.length

def isEmpty (table : MemoryMap) : Bool :=
  table.regions.isEmpty

def describe (table : MemoryMap) : String :=
  "[" ++ ", ".intercalate (table.infos.map RegionInfo.describe) ++ "]"

end MemoryMap

end GuestMachine
