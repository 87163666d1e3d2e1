import GuestMachine.Proofs.Memory.Identity

/-!
Lookups of regions. Whether an address lies in a region is told in three ways: by the bounds in the
list of regions, by the distance to the last base at or below the address, and by the walk that
checks a byte. They agree at every address of every table that calls lead to.
-/

namespace GuestMachine

namespace MemoryMap

variable {table : MemoryMap} {region : Region} {address : UInt64}

/-- The end of a region that is listed has an address of its own. -/
theorem Laid.toNat_endAddr (laid : table.Laid) {info : RegionInfo} (listed : info ∈ table.infos) :
    info.endAddr.toNat = info.base.toNat + info.size.toNat := by
  have fits := laid.fits info listed
  rw [RegionInfo.endAddr, UInt64.toNat_add]
  exact Nat.mod_eq_of_lt (Nat.lt_of_le_pred (by decide) fits)

/-- The bounds in the list tell what a region holds. -/
theorem Laid.contains_iff (laid : table.Laid) {info : RegionInfo} (listed : info ∈ table.infos) :
    info.contains address = true ↔
      info.base.toNat ≤ address.toNat ∧ address.toNat < info.base.toNat + info.size.toNat := by
  rw [RegionInfo.contains, Bool.and_eq_true, decide_eq_true_eq, decide_eq_true_eq,
    UInt64.le_iff_toNat_le, UInt64.lt_iff_toNat_lt, laid.toNat_endAddr listed]

theorem Laid.contains_info_iff (laid : table.Laid) (member : region ∈ table.regions) :
    region.info.contains address = true ↔ region.Holds address.toNat := by
  rw [laid.contains_iff (List.mem_map_of_mem member), ← laid.stored region member]
  rfl

/-- Regions that lie one behind another do not contain an address twice. -/
theorem Laid.countP_contains_le_one (laid : table.Laid) :
    table.infos.countP (fun info => info.contains address) ≤ 1 := by
  rw [List.countP_eq_length_filter]
  have disjoint := laid.disjoint.filter fun info => info.contains address
  cases found : table.infos.filter fun info => info.contains address with
  | nil => exact Nat.zero_le 1
  | cons first rest =>
    cases rest with
    | nil => exact Nat.le_refl 1
    | cons second rest =>
      have holds (info : RegionInfo) (among : info ∈ first :: second :: rest) :=
        have taken := List.mem_filter.mp (found ▸ among)
        (laid.contains_iff taken.1).mp taken.2
      rw [found, List.pairwise_cons] at disjoint
      have apart := disjoint.1 second List.mem_cons_self
      have inFirst := holds first List.mem_cons_self
      have inSecond := holds second (List.mem_cons_of_mem first List.mem_cons_self)
      omega

/-- The lookup by the last base at or below an address finds what the list shows. -/
theorem WellFormed.regionAt?_eq_some_iff (formed : table.WellFormed) {info : RegionInfo} :
    table.regionAt? address = some info ↔
      info ∈ table.infos ∧ info.contains address = true := by
  rw [regionAt?, Option.map_eq_some_iff]
  constructor
  · rintro ⟨region, found, rfl⟩
    obtain ⟨member, holds⟩ := formed.containing?_eq_some_iff.mp found
    exact ⟨List.mem_map_of_mem member, (formed.laid.contains_info_iff member).mpr holds⟩
  · rintro ⟨listed, contains⟩
    obtain ⟨region, member, rfl⟩ := List.mem_map.mp listed
    have holds := (formed.laid.contains_info_iff member).mp contains
    exact ⟨region, formed.containing?_eq_some_iff.mpr ⟨member, holds⟩, rfl⟩

/-- A single byte passes the check if the region that is found for it grants what is asked for. -/
theorem WellFormed.check_one_eq_ok_iff (formed : table.WellFormed) {needed : Permissions} :
    table.check address 1 needed = .ok () ↔
      ∃ info, table.regionAt? address = some info ∧ info.perms.grants needed = true := by
  have passes : table.check address 1 needed = .ok () ↔
      ∃ a, table.check address 1 needed = .ok a :=
    ⟨fun goes => ⟨(), goes⟩, fun ⟨_, goes⟩ => goes⟩
  rw [passes, (formed.check_decides address 1 needed).ok_iff_covers, covers_one]
  constructor
  · rintro ⟨region, member, holds, granted⟩
    have found := formed.containing?_eq_some_iff.mpr ⟨member, holds⟩
    exact ⟨region.info, Option.map_eq_some_iff.mpr ⟨region, found, rfl⟩, granted⟩
  · rintro ⟨info, looked, granted⟩
    obtain ⟨region, found, rfl⟩ := Option.map_eq_some_iff.mp looked
    obtain ⟨member, holds⟩ := formed.containing?_eq_some_iff.mp found
    exact ⟨region, member, holds, granted⟩

/-- What the list of regions, the lookup by an address and the check of its byte say of each
other. -/
structure LookupLaw (table : MemoryMap) (address : UInt64) : Prop where
  finds : ∀ info, table.regionAt? address = some info ↔
    info ∈ table.infos ∧ info.contains address = true
  unique : table.infos.countP (fun info => info.contains address) ≤ 1
  /-- The end of a listed region is computed without wrapping. -/
  ends : ∀ info ∈ table.infos, info.base.toNat + info.size.toNat ≤ 2 ^ 64 - 1 ∧
    info.endAddr.toNat = info.base.toNat + info.size.toNat
  checks : ∀ needed, table.check address 1 needed = .ok () ↔
    ∃ info, table.regionAt? address = some info ∧ info.perms.grants needed = true

/-- In every memory that calls lead to, the ways to tell in which region an address lies agree. -/
theorem lookups_agree (calls : List MemoryCall) (address : UInt64) :
    (empty.replay calls).LookupLaw address := by
  have formed : (empty.replay calls).WellFormed := wellFormed_empty.replay calls
  exact {
    finds := fun _ => formed.regionAt?_eq_some_iff
    unique := formed.laid.countP_contains_le_one
    ends := fun info listed =>
      ⟨formed.laid.fits info listed, formed.laid.toNat_endAddr listed⟩
    checks := fun _ => formed.check_one_eq_ok_iff }

end MemoryMap

end GuestMachine
