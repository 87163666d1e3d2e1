import GuestMachine.Proofs.Memory.Origin

/-!
The table of regions at every point of a history: regions are not empty, lie one behind another
below the top of the address space and own as much storage as they say. Each is numbered by the
call that mapped it and keeps its number, place and size until it is taken away. Numbers wrap, so
two regions share one only if as many others were mapped in between as there are numbers.
-/

namespace GuestMachine

namespace MemoryMap

/-- How regions lie in the table, as far as a caller sees them. -/
structure Laid (table : MemoryMap) : Prop where
  nonempty : ∀ info ∈ table.infos, 0 < info.size
  fits : ∀ info ∈ table.infos, info.base.toNat + info.size.toNat ≤ UInt64.size - 1
  stored : ∀ region ∈ table.regions, region.bytes.size = region.info.size.toNat
  ascending : table.infos.Pairwise fun a b => a.base < b.base
  disjoint : table.infos.Pairwise fun a b => a.base.toNat + a.size.toNat ≤ b.base.toNat

/-- How regions are numbered in a history. The number of a region is that of the call that mapped
it among those that mapped one, as far as numbers go; it keeps its number, place and size. -/
structure Numbered (calls : List MemoryCall) : Prop where
  given : ∀ {base size : UInt64} {perms : Permissions} {allocated : Bool} {id : RegionId}
    {next : MemoryMap},
    (empty.replay calls).map (fun _ => allocated) base size perms = .ok (id, next) →
      id.number.toNat = (empty.accepted calls).countP MemoryCall.isMap % 2 ^ 32 ∧
      ∀ later, (∀ call ∈ next.accepted later, ¬call.Removes base) →
        ∃ region ∈ (next.replay later).regions,
          region.base = base ∧ region.id = id ∧ region.size = size.toNat
  stems : ∀ region ∈ (empty.replay calls).regions, ∃ earlier later,
    region.Stems (empty.accepted calls) earlier later
  number : ∀ region ∈ (empty.replay calls).regions, ∀ earlier later,
    region.Stems (empty.accepted calls) earlier later →
      region.id.number.toNat = earlier.countP MemoryCall.isMap % 2 ^ 32
  shared : ∀ a ∈ (empty.replay calls).regions, ∀ b ∈ (empty.replay calls).regions,
    a ≠ b → a.id = b.id → ∀ earlierA laterA earlierB laterB,
      a.Stems (empty.accepted calls) earlierA laterA →
      b.Stems (empty.accepted calls) earlierB laterB →
      ∃ rounds, 0 < rounds ∧
        (earlierA.countP MemoryCall.isMap =
            earlierB.countP MemoryCall.isMap + rounds * 2 ^ 32 ∨
          earlierB.countP MemoryCall.isMap =
            earlierA.countP MemoryCall.isMap + rounds * 2 ^ 32)
  distinct : (empty.accepted calls).countP MemoryCall.isMap ≤ 2 ^ 32 →
    (empty.replay calls).regions.Pairwise fun a b => a.id ≠ b.id

variable {table : MemoryMap} {calls : List MemoryCall}

theorem WellFormed.laid (formed : table.WellFormed) : table.Laid := by
  have length (region : Region) (member : region ∈ table.regions) :
      region.info.size.toNat = region.size := by
    have fits := formed.fits region member
    exact UInt64.toNat_ofNat_of_lt' (by omega)
  have disjoint : table.regions.Pairwise fun a b =>
      a.info.base.toNat + a.info.size.toNat ≤ b.info.base.toNat :=
    formed.apart.imp_of_mem fun memberA _ apart => by
      rw [length _ memberA]
      exact apart
  refine ⟨?_, ?_, fun region member => (length region member).symm, ?_, ?_⟩
  · intro info listed
    obtain ⟨region, member, rfl⟩ := List.mem_map.mp listed
    have := formed.nonempty region member
    rw [UInt64.lt_iff_toNat_lt, length region member]
    exact this
  · intro info listed
    obtain ⟨region, member, rfl⟩ := List.mem_map.mp listed
    have fits := formed.fits region member
    rw [length region member]
    exact Nat.le_sub_one_of_lt fits
  · refine List.pairwise_map.mpr (disjoint.imp_of_mem fun {a b} memberA _ apart => ?_)
    have := formed.nonempty a memberA
    rw [length a memberA] at apart
    rw [UInt64.lt_iff_toNat_lt]
    omega
  · exact List.pairwise_map.mpr disjoint

/-- A region has the number of the call from which it stems. -/
theorem number_of_stems {region : Region} (member : region ∈ (empty.replay calls).regions)
    {earlier later : List MemoryCall}
    (stems : region.Stems (empty.accepted calls) earlier later) :
    region.id.number.toNat = earlier.countP MemoryCall.isMap % 2 ^ 32 := by
  obtain ⟨first, rest, other, id, -⟩ := exists_stems calls region member
  obtain ⟨rfl, -⟩ := stems.unique other
  rw [id]
  exact UInt32.toNat_ofNat ..

/-- Two calls that map and have as many such calls in front of them are one. -/
theorem base_eq_of_count_eq {a b : Region}
    {history earlierA laterA earlierB laterB : List MemoryCall}
    (stemsA : a.Stems history earlierA laterA) (stemsB : b.Stems history earlierB laterB)
    (same : earlierA.countP MemoryCall.isMap = earlierB.countP MemoryCall.isMap) :
    a.base = b.base := by
  obtain ⟨sizeA, permsA, allocatedA, -, splitA⟩ := stemsA.split
  obtain ⟨sizeB, permsB, allocatedB, -, splitB⟩ := stemsB.split
  rcases List.append_eq_append_iff.mp (splitA.symm.trans splitB) with
    ⟨between, rfl, rest⟩ | ⟨between, rfl, rest⟩
  · cases between with
    | nil =>
      obtain ⟨calls, -⟩ := List.cons.inj rest
      exact (MemoryCall.map.inj calls).1
    | cons call between =>
      obtain ⟨rfl, -⟩ := List.cons.inj rest
      simp [List.countP_append, MemoryCall.isMap] at same
  · cases between with
    | nil =>
      obtain ⟨calls, -⟩ := List.cons.inj rest
      exact (MemoryCall.map.inj calls).1.symm
    | cons call between =>
      obtain ⟨rfl, -⟩ := List.cons.inj rest
      simp [List.countP_append, MemoryCall.isMap] at same

/-- Fewer calls map in front of the one from which a region stems than in the whole history. -/
theorem count_lt_of_stems {region : Region} {history earlier later : List MemoryCall}
    (stems : region.Stems history earlier later) :
    earlier.countP MemoryCall.isMap < history.countP MemoryCall.isMap := by
  obtain ⟨size, perms, allocated, -, rfl⟩ := stems.split
  rw [List.countP_append, List.countP_cons_of_pos rfl]
  omega

/-- Regions that share a number were mapped a multiple of all numbers apart. -/
theorem exists_rounds {a b : Region} (memberA : a ∈ (empty.replay calls).regions)
    (memberB : b ∈ (empty.replay calls).regions) (distinct : a ≠ b) (shared : a.id = b.id)
    {earlierA laterA earlierB laterB : List MemoryCall}
    (stemsA : a.Stems (empty.accepted calls) earlierA laterA)
    (stemsB : b.Stems (empty.accepted calls) earlierB laterB) :
    ∃ rounds, 0 < rounds ∧
      (earlierA.countP MemoryCall.isMap = earlierB.countP MemoryCall.isMap + rounds * 2 ^ 32 ∨
        earlierB.countP MemoryCall.isMap =
          earlierA.countP MemoryCall.isMap + rounds * 2 ^ 32) := by
  have numberA := number_of_stems memberA stemsA
  have numberB := number_of_stems memberB stemsB
  rw [shared, numberB] at numberA
  have formed := wellFormed_empty.replay calls
  have apart : earlierA.countP MemoryCall.isMap ≠ earlierB.countP MemoryCall.isMap := fun same =>
    distinct (formed.eq_of_base_eq memberA memberB (base_eq_of_count_eq stemsA stemsB same))
  generalize earlierA.countP MemoryCall.isMap = n at numberA apart ⊢
  generalize earlierB.countP MemoryCall.isMap = m at numberA apart ⊢
  rcases Nat.lt_or_gt_of_ne apart with less | more
  · exact ⟨(m - n) / 2 ^ 32, by omega, .inr (by omega)⟩
  · exact ⟨(n - m) / 2 ^ 32, by omega, .inl (by omega)⟩

theorem numbered (calls : List MemoryCall) : Numbered calls := by
  have formed := wellFormed_empty.replay calls
  refine ⟨?_, ?_, fun region member earlier later stems => number_of_stems member stems, ?_, ?_⟩
  · intro base size perms allocated id next done
    obtain ⟨rfl, -⟩ := map_eq_ok done
    refine ⟨?_, fun later stays => ?_⟩
    · have counted := wellFormed_empty.nextId_replay calls
      simp only [empty, UInt32.zero_add] at counted
      simp only [empty, counted, UInt32.toNat_ofNat']
    · obtain ⟨region, member, at_base, number, length⟩ := exists_region_of_goes (.map done)
      obtain ⟨kept, listed, same⟩ := (formed.map done).exists_sameRegion_replay member
        fun call known => at_base ▸ stays call known
      exact ⟨kept, listed, same.base.trans at_base, same.id.trans number,
        same.size.trans length⟩
  · intro region member
    obtain ⟨earlier, later, stems, -⟩ := exists_stems calls region member
    exact ⟨earlier, later, stems⟩
  · intro a memberA b memberB distinct shared earlierA laterA earlierB laterB stemsA stemsB
    exact exists_rounds memberA memberB distinct shared stemsA stemsB
  · intro few
    refine formed.apart.imp_of_mem fun {a b} memberA memberB apart shared => ?_
    obtain ⟨earlierA, laterA, stemsA, -⟩ := exists_stems calls a memberA
    obtain ⟨earlierB, laterB, stemsB, -⟩ := exists_stems calls b memberB
    have distinct : a ≠ b := by
      rintro rfl
      have := formed.nonempty a memberA
      omega
    obtain ⟨rounds, positive, far⟩ :=
      exists_rounds memberA memberB distinct shared stemsA stemsB
    have := count_lt_of_stems stemsA
    have := count_lt_of_stems stemsB
    omega

end MemoryMap

end GuestMachine
