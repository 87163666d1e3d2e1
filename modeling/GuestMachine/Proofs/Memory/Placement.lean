import GuestMachine.Proofs.Memory.History

/-!
Where regions can be placed. A range is mapped exactly if it is not empty, ends below the top of
the address space and has no mapped address, and if the host has storage for it; the table then
has one more region, of zeros, and is the same otherwise. A region is taken away or given new
permissions only by its exact place, and no other one is touched.
-/

namespace GuestMachine

namespace MemoryMap

/-- A range that a region can be mapped to. -/
structure Free (table : MemoryMap) (base size : UInt64) : Prop where
  nonempty : size ≠ 0
  fits : base.toNat + size.toNat ≤ 2 ^ 64 - 1
  unmapped : ∀ i < size.toNat, ¬table.Mapped (base.toNat + i)

/-- How a request to map a region fares. The storage is asked for last. -/
inductive Placement (table : MemoryMap) (allocates : Nat → Bool) (base size : UInt64)
    (perms : Permissions) : Except Error (RegionId × MemoryMap) → Prop
  | empty (zero : size = 0) :
      Placement table allocates base size perms (.error (.invalidArgument Reason.emptyRegion))
  | beyond (nonempty : size ≠ 0) (tooHigh : 2 ^ 64 - 1 < base.toNat + size.toNat) :
      Placement table allocates base size perms (.error (.invalidArgument Reason.regionOverflow))
  | taken {i : Nat} (nonempty : size ≠ 0) (fits : base.toNat + size.toNat ≤ 2 ^ 64 - 1)
      (inside : i < size.toNat) (mapped : table.Mapped (base.toNat + i)) :
      Placement table allocates base size perms (.error (.invalidArgument Reason.regionOverlap))
  | unstored (free : table.Free base size) (refused : allocates size.toNat = false) :
      Placement table allocates base size perms (.error (.outOfMemory size))
  | placed {before after : List Region} (free : table.Free base size)
      (granted : allocates size.toNat = true) (split : table.regions = before ++ after) :
      Placement table allocates base size perms (.ok (⟨table.nextId⟩,
        ⟨before ++ ⟨base, ⟨table.nextId⟩, perms, Bytes.zeros size.toNat⟩ :: after,
          table.nextId + 1⟩))

variable {table : MemoryMap} {base size : UInt64}

/-! Mapping. -/

theorem exists_insertRegion_split (region : Region) (regions : List Region) :
    ∃ before after, regions = before ++ after ∧
      insertRegion region regions = before ++ region :: after := by
  induction regions with
  | nil => exact ⟨[], [], rfl, rfl⟩
  | cons first rest ih =>
    unfold insertRegion
    split
    · exact ⟨[], first :: rest, rfl, rfl⟩
    · obtain ⟨before, after, split, inserted⟩ := ih
      exact ⟨first :: before, after, congrArg _ split, congrArg _ inserted⟩

/-- A region that ends or begins where a range does leaves the range free: only one that holds an
address of the range does not. -/
theorem not_mapped_of_beside
    (beside : ∀ region ∈ table.regions, region.base.toNat + region.size ≤ base.toNat ∨
      base.toNat + size.toNat ≤ region.base.toNat) :
    ∀ i < size.toNat, ¬table.Mapped (base.toNat + i) := by
  rintro i inside ⟨region, member, low, high⟩
  rcases beside region member with before | behind <;> omega

/-- The overlap test looks at one region only, and yet it finds out whether any of them holds an
address of the range. -/
theorem WellFormed.overlaps_add_iff (formed : table.WellFormed) (nonempty : size ≠ 0)
    (fits : base.toNat + size.toNat ≤ 2 ^ 64 - 1) :
    table.overlaps base (base + size) = true ↔ ∃ i < size.toNat, table.Mapped (base.toNat + i) := by
  have positive : 0 < size.toNat :=
    Nat.pos_of_ne_zero fun zero => nonempty (UInt64.toNat_inj.mp (by simpa using zero))
  have stop : (base + size).toNat = base.toNat + size.toNat := by
    rw [UInt64.toNat_add]
    exact Nat.mod_eq_of_lt (by omega)
  constructor
  · intro overlap
    unfold overlaps at overlap
    split at overlap
    next other below =>
      obtain ⟨member, starts⟩ := List.mem_filter.mp (List.mem_of_getLast? below)
      have starts := UInt64.lt_iff_toNat_lt.mp (by simpa using starts)
      have reaches := UInt64.lt_iff_toNat_lt.mp (by simpa using overlap)
      have nonempty := formed.nonempty other member
      rw [formed.endAddr_toNat member] at reaches
      exact ⟨other.base.toNat - base.toNat, by omega, other, member, by omega, by omega⟩
    · contradiction
  · rintro ⟨i, inside, region, member, starts, ends⟩
    by_contra none
    have beside := formed.beside_of_not_overlaps (by simpa using none) region member
    omega

theorem WellFormed.placement (formed : table.WellFormed) (allocates : Nat → Bool)
    (base size : UInt64) (perms : Permissions) :
    table.Placement allocates base size perms (table.map allocates base size perms) := by
  have below (short : ¬UInt64.size ≤ base.toNat + size.toNat) :
      base.toNat + size.toNat ≤ 2 ^ 64 - 1 := Nat.le_sub_one_of_lt (Nat.lt_of_not_le short)
  unfold MemoryMap.map
  split_ifs with zero tooHigh overlap unstored
  · exact .empty zero
  · exact .beyond zero (Nat.lt_of_lt_of_le (by decide) tooHigh)
  · obtain ⟨i, inside, mapped⟩ := (formed.overlaps_add_iff zero (below tooHigh)).mp overlap
    exact .taken zero (below tooHigh) inside mapped
  · refine .unstored ⟨zero, below tooHigh, fun i inside mapped => overlap ?_⟩
      (by simpa using unstored)
    exact (formed.overlaps_add_iff zero (below tooHigh)).mpr ⟨i, inside, mapped⟩
  · obtain ⟨before, after, split, inserted⟩ := exists_insertRegion_split
      ⟨base, ⟨table.nextId⟩, perms, Bytes.zeros size.toNat⟩ table.regions
    simp only [inserted]
    refine .placed ⟨zero, below tooHigh, fun i inside mapped => overlap ?_⟩
      (by simpa using unstored) split
    exact (formed.overlaps_add_iff zero (below tooHigh)).mpr ⟨i, inside, mapped⟩

theorem not_free_iff :
    ¬table.Free base size ↔ size = 0 ∨ 2 ^ 64 - 1 < base.toNat + size.toNat ∨
      ∃ i < size.toNat, table.Mapped (base.toNat + i) := by
  constructor
  · intro taken
    by_contra none
    rw [not_or, not_or] at none
    exact taken ⟨none.1, Nat.le_of_not_lt none.2.1, fun i inside mapped =>
      none.2.2 ⟨i, inside, mapped⟩⟩
  · rintro (zero | tooHigh | ⟨i, inside, mapped⟩) free
    · exact free.nonempty zero
    · exact Nat.not_lt_of_le free.fits tooHigh
    · exact free.unmapped i inside mapped

namespace Placement

variable {allocates : Nat → Bool} {perms : Permissions}
  {result : Except Error (RegionId × MemoryMap)}

/-- Nothing but a range that is not free makes a request malformed. -/
theorem refused_iff (placement : table.Placement allocates base size perms result) :
    (∃ reason, result = .error (.invalidArgument reason)) ↔ ¬table.Free base size := by
  cases placement with
  | empty zero => exact ⟨fun _ free => free.nonempty zero, fun _ => ⟨_, rfl⟩⟩
  | beyond _ tooHigh => exact ⟨fun _ free => Nat.not_lt_of_le free.fits tooHigh, fun _ => ⟨_, rfl⟩⟩
  | taken _ _ inside mapped =>
    exact ⟨fun _ free => free.unmapped _ inside mapped, fun _ => ⟨_, rfl⟩⟩
  | unstored free | placed free => simp [free]

/-- Storage decides only where the range is free. -/
theorem unstored_iff (placement : table.Placement allocates base size perms result) :
    (∃ amount, result = .error (.outOfMemory amount)) ↔
      table.Free base size ∧ allocates size.toNat = false := by
  cases placement with
  | empty zero => simp [not_free_iff.mpr (.inl zero)]
  | beyond _ tooHigh => simp [not_free_iff.mpr (.inr (.inl tooHigh))]
  | taken _ _ inside mapped => simp [not_free_iff.mpr (.inr (.inr ⟨_, inside, mapped⟩))]
  | unstored free refused => simp [free, refused]
  | placed free granted => simp [granted]

theorem of_free (placement : table.Placement allocates base size perms result)
    (free : table.Free base size) (granted : allocates size.toNat = true) :
    ∃ before after, table.regions = before ++ after ∧ result = .ok (⟨table.nextId⟩,
      ⟨before ++ ⟨base, ⟨table.nextId⟩, perms, Bytes.zeros size.toNat⟩ :: after,
        table.nextId + 1⟩) := by
  have possible : ¬∃ reason, result = .error (.invalidArgument reason) := fun refused =>
    placement.refused_iff.mp refused free
  cases placement with
  | empty | beyond | taken => exact absurd ⟨_, rfl⟩ possible
  | unstored _ refused => simp [refused] at granted
  | placed _ _ split => exact ⟨_, _, split, rfl⟩

end Placement

/-! Taking regions away and giving them other permissions. -/

/-- Whether the table has a region at exactly this place, as one between others. -/
structure Exact (table : MemoryMap) (base size : UInt64) (before : List Region) (region : Region)
    (after : List Region) : Prop where
  split : table.regions = before ++ region :: after
  base : region.base = base
  size : region.size = size.toNat

theorem exists_exact_iff :
    (∃ before region after, table.Exact base size before region after) ↔
      ∃ region ∈ table.regions, region.base = base ∧ region.size = size.toNat := by
  constructor
  · rintro ⟨before, region, after, split, at_base, length⟩
    exact ⟨region, by simp [split], at_base, length⟩
  · rintro ⟨region, member, at_base, length⟩
    obtain ⟨before, after, split⟩ := List.append_of_mem member
    exact ⟨before, region, after, split, at_base, length⟩

/-- No other region begins where this one does. -/
theorem WellFormed.base_ne_of_exact (formed : table.WellFormed) {before after : List Region}
    {region : Region} (exact : table.Exact base size before region after) :
    ∀ other ∈ before ++ after, other.base ≠ base := by
  have apart := formed.apart
  have nonempty := formed.nonempty region (by simp [exact.split])
  rw [exact.split, List.pairwise_append, List.pairwise_cons] at apart
  intro other member same
  have here : other.base = region.base := same.trans exact.base.symm
  rcases List.mem_append.mp member with early | late
  · have positive := formed.nonempty other (by simp [exact.split, early])
    have := apart.2.2 other early region (by simp)
    rw [here] at this
    omega
  · have := apart.2.1.1 other late
    rw [here] at this
    omega

/-- How an operation on the region at exactly a place comes out, given the table that it makes of
the region and those in front of it and behind it. -/
inductive AtPlace (table : MemoryMap) (base size : UInt64)
    (make : List Region → Region → List Region → MemoryMap) : Except Error MemoryMap → Prop
  | found {before after : List Region} {region : Region}
      (exact : table.Exact base size before region after) :
      AtPlace table base size make (.ok (make before region after))
  | missing (nowhere : ¬∃ region ∈ table.regions, region.base = base ∧ region.size = size.toNat) :
      AtPlace table base size make (.error (.unmappedMemory base))

namespace AtPlace

variable {make : List Region → Region → List Region → MemoryMap} {result : Except Error MemoryMap}

theorem succeeds_iff (place : table.AtPlace base size make result) :
    (∃ next, result = .ok next) ↔
      ∃ region ∈ table.regions, region.base = base ∧ region.size = size.toNat := by
  cases place with
  | found exact => exact ⟨fun _ => exists_exact_iff.mp ⟨_, _, _, exact⟩, fun _ => ⟨_, rfl⟩⟩
  | missing nowhere => simp [nowhere]

theorem exists_of_ok {next : MemoryMap} (place : table.AtPlace base size make (.ok next)) :
    ∃ before region after, table.Exact base size before region after ∧
      next = make before region after := by
  cases place with
  | found exact => exact ⟨_, _, _, exact, rfl⟩

end AtPlace

/-- The place of a region is found exactly if the table has it. -/
theorem WellFormed.checkExact_cases (formed : table.WellFormed) (base size : UInt64) :
    (table.checkExact base size = .ok () ∧
      ∃ before region after, table.Exact base size before region after) ∨
    (table.checkExact base size = .error (.unmappedMemory base) ∧
      ¬∃ region ∈ table.regions, region.base = base ∧ region.size = size.toNat) := by
  unfold checkExact
  cases found : table.regions.find? fun region => region.base == base with
  | none =>
    refine .inr ⟨rfl, ?_⟩
    rintro ⟨region, member, at_base, -⟩
    exact List.find?_eq_none.mp found region member (by simpa using at_base)
  | some region =>
    have member := List.mem_of_find?_eq_some found
    have at_base : region.base = base := by simpa using List.find?_some found
    by_cases length : region.size = size.toNat
    · exact .inl ⟨if_pos length, exists_exact_iff.mpr ⟨region, member, at_base, length⟩⟩
    · refine .inr ⟨if_neg length, ?_⟩
      rintro ⟨other, listed, other_base, other_length⟩
      obtain rfl := formed.eq_of_base_eq listed member (other_base.trans at_base.symm)
      exact length other_length

/-- A region is taken away by its exact place; those in front of it and behind it stay. -/
theorem WellFormed.unmap_atPlace (formed : table.WellFormed) (base size : UInt64) :
    table.AtPlace base size (fun before _ after => { table with regions := before ++ after })
      (table.unmap base size) := by
  unfold MemoryMap.unmap
  rcases formed.checkExact_cases base size with
    ⟨found, before, region, after, exact⟩ | ⟨missing, nowhere⟩
  · have others := formed.base_ne_of_exact exact
    have stays (regions : List Region) (apart : ∀ other ∈ regions, other.base ≠ base) :
        regions.filter (fun other => other.base != base) = regions :=
      List.filter_eq_self.mpr fun other member => by simpa using apart other member
    have remaining : table.regions.filter (fun other => other.base != base) = before ++ after := by
      rw [exact.split, List.filter_append, List.filter_cons_of_neg (by simpa using exact.base),
        stays before fun other early => others other (List.mem_append_left _ early),
        stays after fun other late => others other (List.mem_append_right _ late)]
    rw [found, remaining]
    exact .found exact
  · rw [missing]
    exact .missing nowhere

/-- A region is protected by its exact place; those in front of it and behind it stay. -/
theorem WellFormed.protect_atPlace (formed : table.WellFormed) (base size : UInt64)
    (perms : Permissions) :
    table.AtPlace base size (fun before region after =>
      { table with regions := before ++ { region with perms := perms } :: after })
      (table.protect base size perms) := by
  unfold MemoryMap.protect
  rcases formed.checkExact_cases base size with
    ⟨found, before, region, after, exact⟩ | ⟨missing, nowhere⟩
  · have others := formed.base_ne_of_exact exact
    have stays (regions : List Region) (apart : ∀ other ∈ regions, other.base ≠ base) :
        regions.map (fun region =>
          if region.base = base then { region with perms := perms } else region) = regions :=
      (List.map_congr_left fun other member => if_neg (apart other member)).trans (List.map_id _)
    have changed : table.regions.map (fun region =>
        if region.base = base then { region with perms := perms } else region) =
          before ++ { region with perms := perms } :: after := by
      rw [exact.split, List.map_append, List.map_cons, if_pos exact.base,
        stays before fun other early => others other (List.mem_append_left _ early),
        stays after fun other late => others other (List.mem_append_right _ late)]
    rw [found, changed]
    exact .found exact
  · rw [missing]
    exact .missing nowhere

/-! The law. -/

/-- What a table makes of requests to map, to take away and to protect. -/
structure PlacementLaw (table : MemoryMap) : Prop where
  /-- What a request to map cannot be granted for whatever storage there is. -/
  refuses : ∀ allocates base size perms,
    (∃ reason, table.map allocates base size perms = .error (.invalidArgument reason)) ↔
      size = 0 ∨ 2 ^ 64 - 1 < base.toNat + size.toNat ∨
        ∃ i < size.toNat, table.Mapped (base.toNat + i)
  exhausts : ∀ allocates base size perms,
    (∃ amount, table.map allocates base size perms = .error (.outOfMemory amount)) ↔
      table.Free base size ∧ allocates size.toNat = false
  /-- The table behind has the new region besides the old ones, which are as they were. -/
  maps : ∀ allocates base size perms, table.Free base size → allocates size.toNat = true →
    ∃ before after, table.regions = before ++ after ∧
      table.map allocates base size perms = .ok (⟨table.nextId⟩,
        ⟨before ++ ⟨base, ⟨table.nextId⟩, perms, Bytes.zeros size.toNat⟩ :: after,
          table.nextId + 1⟩)
  /-- A range may touch regions on either side. -/
  touches : ∀ base size : UInt64, size ≠ 0 → base.toNat + size.toNat ≤ 2 ^ 64 - 1 →
    (∀ region ∈ table.regions, region.base.toNat + region.size ≤ base.toNat ∨
      base.toNat + size.toNat ≤ region.base.toNat) → table.Free base size
  unmaps : ∀ base size, (∃ next, table.unmap base size = .ok next) ↔
    ∃ region ∈ table.regions, region.base = base ∧ region.size = size.toNat
  /-- The region at the place, and no other, is gone. -/
  takesAway : ∀ base size next, table.unmap base size = .ok next →
    ∃ before region after, table.Exact base size before region after ∧
      next = { table with regions := before ++ after }
  protects : ∀ base size perms, (∃ next, table.protect base size perms = .ok next) ↔
    ∃ region ∈ table.regions, region.base = base ∧ region.size = size.toNat
  /-- The region at the place, and no other, has the new permissions, and is otherwise as it
  was. -/
  changes : ∀ base size perms next, table.protect base size perms = .ok next →
    ∃ before region after, table.Exact base size before region after ∧
      next = { table with regions := before ++ { region with perms := perms } :: after }

/-- In every memory that calls lead to, a region is mapped exactly where its range is free and
stored, and taken away or protected exactly where it lies. -/
theorem placement_law (calls : List MemoryCall) : (empty.replay calls).PlacementLaw := by
  have formed : (empty.replay calls).WellFormed := wellFormed_empty.replay calls
  generalize empty.replay calls = table at formed
  have placement := formed.placement
  refine ⟨fun allocates base size perms => ?_, fun allocates base size perms => ?_,
    fun allocates base size perms free granted => ?_, fun base size nonempty fits beside => ?_,
    fun base size => ?_, fun base size next done => ?_, fun base size perms => ?_,
    fun base size perms next done => ?_⟩
  · exact (placement allocates base size perms).refused_iff.trans not_free_iff
  · exact (placement allocates base size perms).unstored_iff
  · exact (placement allocates base size perms).of_free free granted
  · exact ⟨nonempty, fits, not_mapped_of_beside beside⟩
  · exact (formed.unmap_atPlace base size).succeeds_iff
  · exact (done ▸ formed.unmap_atPlace base size).exists_of_ok
  · exact (formed.protect_atPlace base size perms).succeeds_iff
  · exact (done ▸ formed.protect_atPlace base size perms).exists_of_ok

end MemoryMap

end GuestMachine
