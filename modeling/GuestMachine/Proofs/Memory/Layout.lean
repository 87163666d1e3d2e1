import GuestMachine.Memory.Map
import Mathlib.Data.List.Pairwise
import Mathlib.Tactic.SplitIfs

/-!
Layout of mapped memory. Regions have storage, end below the top of the address space and lie one
after another, so at most one of them holds an address, and the lookup by the last base at or
below it finds that one. Mapping, unmapping and protecting keep the layout.
-/

namespace GuestMachine

namespace Region

/-- Whether the region has storage for an address. Addresses are numbers here, so that none
wraps. -/
def Holds (region : Region) (address : Nat) : Prop :=
  region.base.toNat ≤ address ∧ address < region.base.toNat + region.size

end Region

namespace MemoryMap

/-- Regions own storage that ends below the top of the address space, and each of them ends
before the next one begins. -/
structure WellFormed (table : MemoryMap) : Prop where
  nonempty : ∀ region ∈ table.regions, 0 < region.size
  fits : ∀ region ∈ table.regions, region.base.toNat + region.size < UInt64.size
  apart : table.regions.Pairwise fun a b => a.base.toNat + a.size ≤ b.base.toNat

theorem wellFormed_empty : empty.WellFormed where
  nonempty := by simp [empty]
  fits := by simp [empty]
  apart := by simp [empty]

/-- The base that a lookup finds is not above the address. -/
theorem base_le_of_atOrBelow? {table : MemoryMap} {region : Region} {address : UInt64}
    (below : table.atOrBelow? address = some region) : region.base.toNat ≤ address.toNat := by
  have starts : region.base ≤ address := by
    simpa using (List.mem_filter.mp (List.mem_of_getLast? below)).2
  exact UInt64.le_iff_toNat_le.mp starts

namespace WellFormed

variable {table : MemoryMap} {region : Region}

theorem endAddr_toNat (formed : table.WellFormed) (member : region ∈ table.regions) :
    region.endAddr.toNat = region.base.toNat + region.size := by
  have fits := formed.fits region member
  have small : region.size < UInt64.size := by omega
  rw [Region.endAddr, UInt64.toNat_add, UInt64.toNat_ofNat_of_lt' small]
  exact Nat.mod_eq_of_lt fits

theorem eq_or_apart (formed : table.WellFormed) {a b : Region} (ha : a ∈ table.regions)
    (hb : b ∈ table.regions) :
    a = b ∨ a.base.toNat + a.size ≤ b.base.toNat ∨ b.base.toNat + b.size ≤ a.base.toNat := by
  obtain ⟨i, hi, rfl⟩ := List.getElem_of_mem ha
  obtain ⟨j, hj, rfl⟩ := List.getElem_of_mem hb
  have ordered := List.pairwise_iff_getElem.mp formed.apart
  rcases Nat.lt_trichotomy i j with before | same | after
  · exact .inr (.inl (ordered i j hi hj before))
  · subst same
    exact .inl rfl
  · exact .inr (.inr (ordered j i hj hi after))

/-- At most one region holds an address. -/
theorem eq_of_holds (formed : table.WellFormed) {a b : Region} (ha : a ∈ table.regions)
    (hb : b ∈ table.regions) {address : Nat} (inA : a.Holds address) (inB : b.Holds address) :
    a = b := by
  have cases := formed.eq_or_apart ha hb
  simp only [Region.Holds] at inA inB
  rcases cases with same | apart | apart
  · exact same
  · omega
  · omega

theorem eq_of_base_eq (formed : table.WellFormed) {a b : Region} (ha : a ∈ table.regions)
    (hb : b ∈ table.regions) (same : a.base = b.base) : a = b := by
  have na := formed.nonempty a ha
  have nb := formed.nonempty b hb
  refine formed.eq_of_holds ha hb (show a.Holds a.base.toNat from ⟨Nat.le_refl _, by omega⟩) ?_
  rw [same]
  exact ⟨Nat.le_refl _, by omega⟩

/-- The last region that starts at or below an address that a region holds is that region. -/
theorem atOrBelow?_of_holds (formed : table.WellFormed) (member : region ∈ table.regions)
    {address : UInt64} (holds : region.Holds address.toNat) :
    table.atOrBelow? address = some region := by
  obtain ⟨before, after, split⟩ := List.append_of_mem member
  have apart := formed.apart
  rw [split, List.pairwise_append, List.pairwise_cons] at apart
  have none_after : after.filter (fun other => decide (other.base ≤ address)) = [] := by
    rw [List.filter_eq_nil_iff]
    intro other hother
    have := apart.2.1.1 other hother
    have := holds.2
    rw [decide_eq_true_eq, UInt64.le_iff_toNat_le]
    omega
  have starts : region.base ≤ address := UInt64.le_iff_toNat_le.mpr holds.1
  rw [atOrBelow?, split, List.filter_append, List.filter_cons_of_pos (by simpa using starts),
    none_after]
  simp

/-- The region found for an address is the one that holds it. -/
theorem containing?_eq_some_iff (formed : table.WellFormed) {address : UInt64} :
    table.containing? address = some region ↔
      region ∈ table.regions ∧ region.Holds address.toNat := by
  constructor
  · intro found
    obtain ⟨below, inside⟩ := Option.filter_eq_some_iff.mp found
    have member := (List.mem_filter.mp (List.mem_of_getLast? below)).1
    have low := base_le_of_atOrBelow? below
    have high : region.offset address < region.size := by simpa using inside
    simp only [Region.offset] at high
    exact ⟨member, low, by omega⟩
  · rintro ⟨member, holds⟩
    have inside : region.offset address < region.size := by
      have := holds.1
      have := holds.2
      simp only [Region.offset]
      omega
    rw [containing?, formed.atOrBelow?_of_holds member holds]
    simpa using inside

theorem containing?_eq_none_iff (formed : table.WellFormed) {address : UInt64} :
    table.containing? address = none ↔ ∀ region ∈ table.regions, ¬region.Holds address.toNat := by
  constructor
  · intro missing region member holds
    have found := formed.containing?_eq_some_iff.mpr ⟨member, holds⟩
    rw [missing] at found
    contradiction
  · intro free
    cases found : table.containing? address with
    | none => rfl
    | some region =>
      obtain ⟨member, holds⟩ := formed.containing?_eq_some_iff.mp found
      exact absurd holds (free region member)

/-- Layout of a table depends on the bases and lengths of its regions only. -/
theorem of_shapes_eq {other : MemoryMap} (formed : table.WellFormed)
    (same : other.regions.map (fun region => (region.base, region.size)) =
      table.regions.map fun region => (region.base, region.size)) : other.WellFormed := by
  have back (a : Region) (ha : a ∈ other.regions) :
      ∃ b ∈ table.regions, b.base = a.base ∧ b.size = a.size := by
    have listed := List.mem_map_of_mem (f := fun region => (region.base, region.size)) ha
    rw [same] at listed
    simpa using listed
  refine ⟨fun region member => ?_, fun region member => ?_, ?_⟩
  · obtain ⟨twin, listed, -, size⟩ := back region member
    exact size ▸ formed.nonempty twin listed
  · obtain ⟨twin, listed, base, size⟩ := back region member
    rw [← base, ← size]
    exact formed.fits twin listed
  · have apart : (table.regions.map fun region => (region.base, region.size)).Pairwise
        fun a b => a.1.toNat + a.2 ≤ b.1.toNat := List.pairwise_map.mpr formed.apart
    rw [← same] at apart
    exact List.pairwise_map.mp apart

/-- Neither the bytes nor the permissions of regions matter to the layout. -/
theorem of_frames_eq {other : MemoryMap} (formed : table.WellFormed)
    (same : other.regions.map (fun region => (region.info, region.size)) =
      table.regions.map fun region => (region.info, region.size)) : other.WellFormed := by
  have shapes := congrArg (List.map fun frame : RegionInfo × Nat => (frame.1.base, frame.2)) same
  simp only [List.map_map] at shapes
  exact formed.of_shapes_eq shapes

end WellFormed

/-- Of lists of regions that differ in bytes only, each has the regions of the other. -/
theorem exists_twin_of_frames_eq {regions others : List Region}
    (same : others.map (fun region => (region.info, region.size)) =
      regions.map fun region => (region.info, region.size)) {region : Region}
    (member : region ∈ regions) :
    ∃ twin ∈ others, twin.info = region.info ∧ twin.size = region.size := by
  have framed := List.mem_map_of_mem (f := fun region => (region.info, region.size)) member
  rw [← same] at framed
  obtain ⟨twin, listed, frame⟩ := List.mem_map.mp framed
  obtain ⟨info, size⟩ := Prod.mk.inj frame
  exact ⟨twin, listed, info, size⟩

/-! Mapping. -/

theorem mem_insertRegion {region other : Region} {regions : List Region} :
    other ∈ insertRegion region regions ↔ other = region ∨ other ∈ regions := by
  induction regions with
  | nil => simp [insertRegion]
  | cons first rest ih =>
    unfold insertRegion
    split
    · simp
    · simp only [List.mem_cons, ih]
      exact or_left_comm

/-- A range that the overlap test passes lies beside every region, although the test looks at a
single one. -/
theorem WellFormed.beside_of_not_overlaps {table : MemoryMap} (formed : table.WellFormed)
    {base stop : UInt64} (free : table.overlaps base stop = false) :
    ∀ region ∈ table.regions,
      region.base.toNat + region.size ≤ base.toNat ∨ stop.toNat ≤ region.base.toNat := by
  intro region member
  by_cases starts : region.base.toNat < stop.toNat
  · left
    have listed : region ∈ table.regions.filter fun other => decide (other.base < stop) :=
      List.mem_filter.mpr ⟨member, by simpa using UInt64.lt_iff_toNat_lt.mpr starts⟩
    obtain ⟨last, below⟩ : ∃ last,
        (table.regions.filter fun other => decide (other.base < stop)).getLast? = some last :=
      ⟨_, List.getLast?_eq_some_getLast (List.ne_nil_of_mem listed)⟩
    have lastMember := (List.mem_filter.mp (List.mem_of_getLast? below)).1
    have ends : last.base.toNat + last.size ≤ base.toNat := by
      have := free
      rw [overlaps, below?, below] at this
      have le : last.endAddr ≤ base := by simpa using this
      rw [UInt64.le_iff_toNat_le, formed.endAddr_toNat lastMember] at le
      exact le
    have order : region = last ∨ region.base.toNat + region.size ≤ last.base.toNat := by
      obtain ⟨initial, split⟩ := List.getLast?_eq_some_iff.mp below
      have apart := formed.apart.filter fun other => decide (other.base < stop)
      rw [split, List.pairwise_append] at apart
      rw [split, List.mem_append, List.mem_singleton] at listed
      rcases listed with early | same
      · exact .inr (apart.2.2 region early last (by simp))
      · exact .inl same
    rcases order with same | before
    · exact same ▸ ends
    · omega
  · right
    omega

theorem WellFormed.insertRegion {table : MemoryMap} (formed : table.WellFormed) {region : Region}
    (nonempty : 0 < region.size) (fits : region.base.toNat + region.size < UInt64.size)
    (beside : ∀ other ∈ table.regions, other.base.toNat + other.size ≤ region.base.toNat ∨
      region.base.toNat + region.size ≤ other.base.toNat) (nextId : UInt32) :
    (⟨insertRegion region table.regions, nextId⟩ : MemoryMap).WellFormed := by
  refine ⟨fun other member => ?_, fun other member => ?_, ?_⟩
  · rcases mem_insertRegion.mp member with rfl | member
    · exact nonempty
    · exact formed.nonempty other member
  · rcases mem_insertRegion.mp member with rfl | member
    · exact fits
    · exact formed.fits other member
  · have positive := formed.nonempty
    have apart := formed.apart
    generalize table.regions = regions at beside positive apart
    induction regions with
    | nil => simp [MemoryMap.insertRegion]
    | cons first rest ih =>
      obtain ⟨firstBefore, restApart⟩ := List.pairwise_cons.mp apart
      have firstBeside := beside first (by simp)
      have firstPositive := positive first (by simp)
      simp only [MemoryMap.insertRegion]
      split
      next less =>
        have less := UInt64.lt_iff_toNat_lt.mp less
        refine List.pairwise_cons.mpr ⟨fun other member => ?_, apart⟩
        rcases List.mem_cons.mp member with rfl | later
        · omega
        · have := firstBefore other later
          omega
      next notLess =>
        have notLess : first.base.toNat ≤ region.base.toNat := by
          simpa [UInt64.lt_iff_toNat_lt] using notLess
        refine List.pairwise_cons.mpr ⟨fun other member => ?_, ih
          (fun other member => beside other (by simp [member]))
          (fun other member => positive other (by simp [member])) restApart⟩
        rcases mem_insertRegion.mp member with rfl | later
        · omega
        · exact firstBefore other later

/-- What mapping leaves: one more region, of zeros, with the next number. -/
theorem map_eq_ok {table mapped : MemoryMap} {allocates : Nat → Bool} {base size : UInt64}
    {perms : Permissions} {id : RegionId}
    (done : table.map allocates base size perms = .ok (id, mapped)) :
    id = ⟨table.nextId⟩ ∧ mapped =
      ⟨MemoryMap.insertRegion ⟨base, ⟨table.nextId⟩, perms, Bytes.zeros size.toNat⟩ table.regions,
        table.nextId + 1⟩ := by
  unfold MemoryMap.map at done
  split_ifs at done
  obtain ⟨rfl, rfl⟩ := Prod.mk.inj (Except.ok.inj done)
  exact ⟨rfl, rfl⟩

/-- A range that is mapped is not empty, ends below the top of the address space and lies beside
every region. -/
theorem WellFormed.beside_of_map {table mapped : MemoryMap} (formed : table.WellFormed)
    {allocates : Nat → Bool} {base size : UInt64} {perms : Permissions} {id : RegionId}
    (done : table.map allocates base size perms = .ok (id, mapped)) :
    0 < size.toNat ∧ base.toNat + size.toNat < UInt64.size ∧
      ∀ region ∈ table.regions, region.base.toNat + region.size ≤ base.toNat ∨
        base.toNat + size.toNat ≤ region.base.toNat := by
  unfold MemoryMap.map at done
  split_ifs at done with zero overflow overlap allocation
  have positive : size.toNat ≠ 0 := fun none => zero (UInt64.toNat_inj.mp (by simpa using none))
  have fits : base.toNat + size.toNat < UInt64.size := Nat.lt_of_not_le overflow
  have stop : (base + size).toNat = base.toNat + size.toNat := by
    rw [UInt64.toNat_add]
    exact Nat.mod_eq_of_lt fits
  have beside := formed.beside_of_not_overlaps (by simpa using overlap)
  rw [stop] at beside
  exact ⟨Nat.pos_of_ne_zero positive, fits, beside⟩

theorem WellFormed.map {table : MemoryMap} (formed : table.WellFormed) {allocates : Nat → Bool}
    {base size : UInt64} {perms : Permissions} {id : RegionId} {mapped : MemoryMap}
    (done : table.map allocates base size perms = .ok (id, mapped)) : mapped.WellFormed := by
  obtain ⟨positive, fits, beside⟩ := formed.beside_of_map done
  obtain ⟨-, rfl⟩ := map_eq_ok done
  refine formed.insertRegion ?_ ?_ ?_ _
  · simpa only [Region.size, Bytes.size_zeros] using positive
  · simpa only [Region.size, Bytes.size_zeros] using fits
  · simpa only [Region.size, Bytes.size_zeros] using beside

/-! The other changes of the table. -/

theorem WellFormed.unmap {table : MemoryMap} (formed : table.WellFormed) {base size : UInt64}
    {rest : MemoryMap} (done : table.unmap base size = .ok rest) : rest.WellFormed := by
  unfold MemoryMap.unmap at done
  cases found : table.checkExact base size with
  | error cause => simp [found, bind, Except.bind] at done
  | ok _ =>
    simp only [found, bind, Except.bind, pure, Except.pure] at done
    obtain rfl := Except.ok.inj done
    exact ⟨fun region member => formed.nonempty region (List.mem_filter.mp member).1,
      fun region member => formed.fits region (List.mem_filter.mp member).1,
      formed.apart.filter _⟩

theorem WellFormed.protect {table : MemoryMap} (formed : table.WellFormed) {base size : UInt64}
    {perms : Permissions} {changed : MemoryMap}
    (done : table.protect base size perms = .ok changed) : changed.WellFormed := by
  unfold MemoryMap.protect at done
  cases found : table.checkExact base size with
  | error cause => simp [found, bind, Except.bind] at done
  | ok _ =>
    simp only [found, bind, Except.bind, pure, Except.pure] at done
    obtain rfl := Except.ok.inj done
    refine formed.of_shapes_eq ?_
    simp only [List.map_map]
    refine List.map_congr_left fun region _ => ?_
    by_cases same : region.base = base
    · simp [same, Region.size]
    · simp [same]

theorem wellFormed_clear (table : MemoryMap) : table.clear.WellFormed where
  nonempty := by simp [clear]
  fits := by simp [clear]
  apart := by simp [clear]

end MemoryMap

end GuestMachine
