import GuestMachine.Proofs.Computation
import GuestMachine.Proofs.Memory.Coverage

/-!
Writes in place. A write that stores one part after another in the table itself, and would keep
the parts stored so far if it failed, comes to the same as one that makes a new table: whatever it
can fail for, it fails for before the first part is stored.
-/

namespace GuestMachine.MemoryMap

/-- Copies the bytes of a block, from `written` on, to memory from `cursor` on. Where no region has
room left the copy fails, and what has been copied stays. -/
def copyInPlace (bytes : ByteArray) (cursor : UInt64) (written : Nat) :
    Attempt MemoryMap Unit := fun table =>
  if bytes.size ≤ written then .ok () table
  else
    match table.atOrBelow? cursor with
    | none => .error (.error (.unmappedMemory cursor)) table
    | some region =>
      let offset := region.offset cursor
      let count := min (region.size - offset) (bytes.size - written)
      if count = 0 then .error (.error (.unmappedMemory cursor)) table
      else
        copyInPlace bytes (cursor + UInt64.ofNat count) (written + count)
          { table with regions := table.regions.map (patch bytes ⟨region, offset, count⟩ written) }
termination_by bytes.size - written

/-- Looks at the whole range and then copies. -/
def writeInPlace (needed : Option Permissions) (address : UInt64) (bytes : ByteArray) :
    Attempt MemoryMap Unit := fun table =>
  match table.walk needed address bytes.size with
  | .ok _ => copyInPlace bytes address 0 table
  | .error cause => .error (.error cause) table

variable {table patched : MemoryMap} {needed : Option Permissions}

/-- Tables whose regions differ in their bytes only find the same region below an address. -/
theorem atOrBelow?_of_frames_eq
    (same : patched.regions.map (fun region => (region.info, region.size)) =
      table.regions.map fun region => (region.info, region.size)) (address : UInt64) :
    (patched.atOrBelow? address).map (fun region => (region.info, region.size)) =
      (table.atOrBelow? address).map fun region => (region.info, region.size) := by
  have below (regions : List Region) :
      (regions.filter fun region => region.base ≤ address).map
          (fun region => (region.info, region.size)) =
        (regions.map fun region => (region.info, region.size)).filter
          fun frame => frame.1.base ≤ address := by
    rw [List.filter_map]
    rfl
  simp only [atOrBelow?, ← List.getLast?_map, below, same]

/-- A copy goes through the parts that are there when it begins, though it changes their bytes on
the way. -/
theorem copyInPlace_of_span {bytes : ByteArray} {chunks : List Chunk} {cursor : UInt64}
    {written : Nat} (taken : table.span cursor (bytes.size - written) = .ok chunks)
    (inside : ∀ chunk ∈ chunks, ∀ region ∈ table.regions, region.base = chunk.region.base →
      chunk.offset + chunk.count ≤ region.size)
    (same : patched.regions.map (fun region => (region.info, region.size)) =
      table.regions.map fun region => (region.info, region.size)) :
    copyInPlace bytes cursor written patched =
      .ok () { patched with regions := fill bytes chunks written patched.regions } := by
  induction chunks generalizing cursor written patched with
  | nil =>
    have spent : bytes.size ≤ written := by
      by_contra more
      rw [span, if_neg (by omega)] at taken
      dsimp only at taken
      split at taken
      · contradiction
      · split at taken
        · contradiction
        · split at taken <;> simp at taken
    rw [copyInPlace, if_pos spent]
    rfl
  | cons chunk rest ih =>
    have more : ¬bytes.size ≤ written := by
      intro spent
      rw [span, if_pos (by omega)] at taken
      simp at taken
    rw [span, if_neg (by omega)] at taken
    cases found : table.atOrBelow? cursor with
    | none => simp [found] at taken
    | some region =>
      simp only [found] at taken
      split at taken
      · contradiction
      next some_byte =>
        split at taken
        next later goes =>
          obtain ⟨rfl, rfl⟩ := List.cons.inj (Except.ok.inj taken)
          obtain ⟨twin, foundTwin, twins⟩ := Option.map_eq_some_iff.mp
            ((atOrBelow?_of_frames_eq same cursor).trans (congrArg _ found))
          obtain ⟨info, size⟩ := Prod.mk.inj twins
          have base : twin.base = region.base := congrArg RegionInfo.base info
          have offset : twin.offset cursor = region.offset cursor := by
            simp only [Region.offset, base]
          have fits : ∀ other ∈ patched.regions, other.base = region.base →
              region.offset cursor + min (region.size - region.offset cursor)
                (bytes.size - written) ≤ other.size := by
            intro other member here
            obtain ⟨old, listed, oldInfo, oldSize⟩ := exists_twin_of_frames_eq same.symm member
            have oldBase : old.base = other.base := congrArg RegionInfo.base oldInfo
            rw [← oldSize]
            exact inside ⟨region, _, _⟩ List.mem_cons_self old listed (oldBase.trans here)
          have patches : patch bytes ⟨twin, region.offset cursor,
              min (region.size - region.offset cursor) (bytes.size - written)⟩ written =
              patch bytes ⟨region, region.offset cursor,
                min (region.size - region.offset cursor) (bytes.size - written)⟩ written := by
            funext other
            simp only [patch, base]
          rw [copyInPlace, if_neg more]
          simp only [foundTwin, offset, size, patches]
          rw [if_neg some_byte, ih]
          · rfl
          · rw [← goes, Nat.sub_add_eq]
          · exact fun other listed => inside other (by simp [listed])
          · rw [map_patch_frames fits (by simp only; omega), same]
        · contradiction

/-- A write in place is a write; if it fails the table is as it was. -/
theorem WellFormed.writeInPlace_eq (formed : table.WellFormed) (needed : Option Permissions)
    (address : UInt64) (bytes : ByteArray) :
    writeInPlace needed address bytes table =
      Attempt.wholly (fun table => table.writeWith needed address bytes) table := by
  rw [Attempt.wholly, writeWith_eq_map_walk, writeInPlace]
  cases walked : table.walk needed address bytes.size with
  | error cause => rfl
  | ok chunks =>
    obtain ⟨listed, -⟩ := formed.walk_inside address bytes.size chunks walked
    refine copyInPlace_of_span (span_eq_of_walk address bytes.size chunks walked) ?_ rfl
    intro chunk member region other base
    obtain ⟨known, fits⟩ := listed chunk member
    rwa [formed.eq_of_base_eq other known base]

end GuestMachine.MemoryMap
