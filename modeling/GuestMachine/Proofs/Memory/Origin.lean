import GuestMachine.Proofs.Memory.History

/-!
Where mapped memory comes from. Every region was mapped by exactly one of the calls that went
through, and none of the later ones took it away. Since then its bytes are the last ones that were
stored in it, and zero where nothing was.
-/

namespace GuestMachine

/-- The byte that calls have stored last at an address, if they have stored one there. -/
def MemoryCall.lastStored? (address : Nat) (calls : List MemoryCall) : Option UInt8 :=
  (calls.filterMap (MemoryCall.stored? address)).getLast?

/-- Whether an address is among those whose bytes the call is about to change. -/
def MemoryCall.Reaches (address : Nat) : MemoryCall → Prop
  | map base size _ _ | unmap base size =>
    base.toNat ≤ address ∧ address < base.toNat + size.toNat
  | write start bytes | load start bytes =>
    start.toNat ≤ address ∧ address < start.toNat + bytes.size
  | clear => True
  | protect .. | read .. | check .. => False

theorem MemoryCall.stored?_of_not_reaches {call : MemoryCall} {address : Nat}
    (beyond : ¬call.Reaches address) : call.stored? address = none := by
  cases call with
  | write start bytes | load start bytes =>
    simp only [stored?]
    split_ifs with low
    · refine getElem?_neg bytes _ fun inside => beyond ⟨low, ?_⟩
      omega
    · rfl
  | _ => rfl

/-- Whether a region was mapped in a history of calls behind `earlier` ones, and none of the
`later` ones took it away. -/
structure Region.Stems (region : Region) (history earlier later : List MemoryCall) : Prop where
  split : ∃ size perms allocated, region.size = size.toNat ∧
    history = earlier ++ .map region.base size perms allocated :: later
  stays : ∀ call ∈ later, ¬call.Removes region.base

namespace MemoryMap

variable {table : MemoryMap} {region : Region} {calls earlier later rest : List MemoryCall}

/-- One more store hides what was stored before. -/
theorem lastStored?_concat (address : Nat) (calls : List MemoryCall) (call : MemoryCall) :
    MemoryCall.lastStored? address (calls ++ [call]) =
      (call.stored? address).or (MemoryCall.lastStored? address calls) := by
  unfold MemoryCall.lastStored?
  rw [List.filterMap_append]
  cases stored : call.stored? address with
  | none => simp [stored]
  | some byte => simp [stored]

/-- Every region stems from a call of the history, has its number, and holds what has been stored
since. The last call alone decides which of the regions before it remain. -/
theorem exists_stems (calls : List MemoryCall) :
    ∀ region ∈ (empty.replay calls).regions, ∃ earlier later,
      region.Stems (empty.accepted calls) earlier later ∧
      region.id = ⟨UInt32.ofNat (earlier.countP MemoryCall.isMap)⟩ ∧
      ∀ address, region.Holds address →
        region.byteAt? address = some ((MemoryCall.lastStored? address later).getD 0) := by
  induction calls using List.reverseRecOn with
  | nil => simp [empty]
  | append_singleton past call ih =>
    have formed := wellFormed_empty.replay past
    rw [replay_concat, accepted_concat]
    cases tried : (empty.replay past).attempt call with
    | error cause =>
      simpa [after_of_error tried, Except.isOk, Except.toBool] using ih
    | ok next =>
      rw [after_of_ok tried]
      simp only [Except.isOk, Except.toBool, if_true]
      intro region member
      cases formed.comesFrom (goes_of_attempt tried) member with
      | @mapped size perms allocated asked length id blank =>
        refine ⟨empty.accepted past, [], ⟨⟨size, perms, allocated, length, asked ▸ rfl⟩, by simp⟩,
          ?_, fun address holds => ?_⟩
        · have counted := wellFormed_empty.nextId_replay past
          rw [id, counted]
          simp [empty]
        · have small : address - region.base.toNat < size.toNat := by
            have := holds.1
            have := holds.2
            omega
          rw [Region.byteAt?_of_holds holds, blank, Bytes.getElem?_zeros small]
          rfl
      | @kept old listed same stays bytes =>
        obtain ⟨earlier, later, stems, id, holdsBytes⟩ := ih old listed
        obtain ⟨size, perms, allocated, length, split⟩ := stems.split
        refine ⟨earlier, later ++ [call], ⟨⟨size, perms, allocated, same.size.trans length, ?_⟩,
          ?_⟩, same.id.trans id, fun address holds => ?_⟩
        · rw [split, same.base, List.append_assoc, List.cons_append]
        · intro other known
          rw [same.base]
          rcases List.mem_append.mp known with before | last
          · exact stems.stays other before
          · obtain rfl := List.mem_singleton.mp last
            exact stays
        · have holdsOld : old.Holds address := by
            unfold Region.Holds at holds ⊢
            rwa [← same.base, ← same.size]
          rw [bytes address holdsOld, holdsBytes address holdsOld, lastStored?_concat]
          cases call.stored? address <;> rfl

/-- A call that maps leaves a region where it was asked for, with the next number. -/
theorem exists_region_of_goes {base size : UInt64} {perms : Permissions} {allocated : Bool}
    {next : MemoryMap} (goes : table.Goes (.map base size perms allocated) next) :
    ∃ region ∈ next.regions, region.base = base ∧ region.id = ⟨table.nextId⟩ ∧
      region.size = size.toNat := by
  cases goes with
  | map done =>
    obtain ⟨-, rfl⟩ := map_eq_ok done
    exact ⟨_, mem_insertRegion.mpr (.inl rfl), rfl, rfl, Bytes.size_zeros _⟩

/-- Where a region has been mapped none is mapped until it is taken away. -/
theorem not_map_of_stays {base size size' : UInt64} {perms perms' : Permissions}
    {allocated allocated' : Bool}
    (split : empty.accepted calls = earlier ++ .map base size perms allocated ::
      (later ++ .map base size' perms' allocated' :: rest))
    (stays : ∀ call ∈ later, ¬call.Removes base) : False := by
  obtain ⟨region, member, at_base, -⟩ := exists_region_of_goes (goes_of_accepted_eq split)
  rw [← replay_concat] at member
  have stays_here : ∀ call ∈ (empty.replay (earlier ++ [.map base size perms allocated])).accepted
      later, ¬call.Removes region.base := fun call known =>
    at_base ▸ stays call ((accepted_sublist _ later).subset known)
  obtain ⟨kept, listed, same⟩ :=
    (wellFormed_empty.replay _).exists_sameRegion_replay member stays_here
  rw [← replay_append] at listed
  have again : empty.accepted calls =
      (earlier ++ [.map base size perms allocated] ++ later) ++
        .map base size' perms' allocated' :: rest := by
    simp [split]
  cases goes_of_accepted_eq again with
  | map done =>
    exact (wellFormed_empty.replay _).base_ne_of_map done kept listed (same.base.trans at_base)

/-- Whatever is unmapped has been mapped as it stands. -/
theorem exists_region_of_unmap {base size : UInt64} {next : MemoryMap}
    (done : table.unmap base size = .ok next) :
    ∃ region ∈ table.regions, region.base = base ∧ region.size = size.toNat := by
  unfold unmap checkExact at done
  cases found : table.regions.find? fun region => region.base == base with
  | none => simp [found, bind, Except.bind] at done
  | some region =>
    simp only [found] at done
    split at done
    next exact_size =>
      exact ⟨region, List.mem_of_find?_eq_some found, by simpa using List.find?_some found,
        exact_size⟩
    next => simp [bind, Except.bind] at done

/-- A call that goes through changes no byte that it does not reach. -/
theorem WellFormed.byteAt?_of_goes (formed : table.WellFormed) {call : MemoryCall}
    {next : MemoryMap} (goes : table.Goes call next) {address : Nat}
    (beyond : ¬call.Reaches address) : next.byteAt? address = table.byteAt? address := by
  have formedNext := formed.goes goes
  by_cases mapped : table.Mapped address
  · obtain ⟨old, member, holds⟩ := mapped
    have stays : ¬call.Removes old.base := by
      intro removes
      cases goes with
      | unmap done =>
        obtain ⟨taken, listed, base, size⟩ := exists_region_of_unmap done
        obtain rfl := formed.eq_of_base_eq listed member (base.trans removes)
        exact beyond ⟨base ▸ holds.1, base ▸ size ▸ holds.2⟩
      | clear => exact beyond trivial
      | _ => exact removes
    obtain ⟨kept, listed, same⟩ := formed.exists_sameRegion goes member stays
    have holdsKept : kept.Holds address := by
      unfold Region.Holds
      rwa [same.base, same.size]
    rw [formedNext.byteAt?_of_holds listed holdsKept, formed.byteAt?_of_holds member holds]
    cases formed.comesFrom goes listed with
    | mapped asked length id blank =>
      subst asked
      cases goes with
      | map done => exact absurd same.base.symm (formed.base_ne_of_map done old member)
    | @kept twin inside sameTwin staysTwin bytes =>
      obtain rfl := formed.eq_of_base_eq inside member (sameTwin.base.symm.trans same.base)
      rw [bytes address holds, MemoryCall.stored?_of_not_reaches beyond, Option.none_or]
  · have free : ¬next.Mapped address := by
      rintro ⟨region, listed, holds⟩
      cases formed.comesFrom goes listed with
      | mapped asked length id blank =>
        subst asked
        exact beyond ⟨holds.1, length ▸ holds.2⟩
      | kept inside same stays bytes =>
        unfold Region.Holds at holds
        rw [same.base, same.size] at holds
        exact mapped ⟨_, inside, holds⟩
    rw [byteAt?_eq_none_iff.mpr free, byteAt?_eq_none_iff.mpr mapped]

/-- A region that has just been mapped holds zeros, whatever lay there before. -/
theorem WellFormed.byteAt?_of_map (formed : table.WellFormed) {base size : UInt64}
    {perms : Permissions} {allocated : Bool} {next : MemoryMap}
    (goes : table.Goes (.map base size perms allocated) next) {address : Nat}
    (low : base.toNat ≤ address) (high : address < base.toNat + size.toNat) :
    next.byteAt? address = some 0 := by
  have formedNext := formed.goes goes
  cases goes with
  | map done =>
    obtain ⟨-, rfl⟩ := map_eq_ok done
    have small : address - base.toNat < size.toNat := by omega
    have holds : (⟨base, ⟨table.nextId⟩, perms, Bytes.zeros size.toNat⟩ : Region).Holds address :=
      ⟨low, by simpa only [Region.size, Bytes.size_zeros] using high⟩
    rw [formedNext.byteAt?_of_holds (mem_insertRegion.mpr (.inl rfl)) holds,
      Region.byteAt?_of_holds holds, Bytes.getElem?_zeros small]

end MemoryMap

open MemoryMap in
/-- A region stems from one call only. -/
theorem Region.Stems.unique {region : Region} {calls earlier later earlier' later' : List MemoryCall}
    (first : region.Stems (empty.accepted calls) earlier later)
    (second : region.Stems (empty.accepted calls) earlier' later') :
    earlier = earlier' ∧ later = later' := by
  obtain ⟨size, perms, allocated, -, split⟩ := first.split
  obtain ⟨size', perms', allocated', -, split'⟩ := second.split
  rcases List.append_eq_append_iff.mp (split.symm.trans split') with
    ⟨between, rfl, rest⟩ | ⟨between, rfl, rest⟩
  · cases between with
    | nil => exact ⟨(List.append_nil _).symm, (List.cons.inj rest).2⟩
    | cons call between =>
      obtain ⟨rfl, rfl⟩ := List.cons.inj rest
      exact (not_map_of_stays split fun call known =>
        first.stays call (List.mem_append_left _ known)).elim
  · cases between with
    | nil => exact ⟨List.append_nil _, (List.cons.inj rest).2.symm⟩
    | cons call between =>
      obtain ⟨rfl, rfl⟩ := List.cons.inj rest
      exact (not_map_of_stays split' fun call known =>
        second.stays call (List.mem_append_left _ known)).elim

/-- Memory holds what its history has put there. Every region stems from one call; each of its
bytes is the one stored last since then, and zero if none was. So a region that has just been
mapped holds zeros, calls that fail change nothing, and the others change no byte that they do not
reach. -/
theorem MemoryMap.contents_follow_history (calls : List MemoryCall) :
    let table := MemoryMap.empty.replay calls
    (∀ region ∈ table.regions, ∃ earlier later,
      region.Stems (MemoryMap.empty.accepted calls) earlier later ∧
      (∀ earlier' later', region.Stems (MemoryMap.empty.accepted calls) earlier' later' →
        earlier = earlier' ∧ later = later') ∧
      ∀ address, region.Holds address →
        table.byteAt? address = some ((MemoryCall.lastStored? address later).getD 0)) ∧
    (∀ base size perms allocated next,
      table.attempt (.map base size perms allocated) = .ok next →
      ∀ address, base.toNat ≤ address → address < base.toNat + size.toNat →
        next.byteAt? address = some 0) ∧
    (∀ call cause, table.attempt call = .error cause → table.after call = table) ∧
    ∀ call next, table.attempt call = .ok next → ∀ address, ¬call.Reaches address →
      next.byteAt? address = table.byteAt? address := by
  intro table
  have formed : table.WellFormed := wellFormed_empty.replay calls
  refine ⟨fun region member => ?_, fun base size perms allocated next done address low high =>
    formed.byteAt?_of_map (goes_of_attempt done) low high,
    fun call cause failed => after_of_error failed,
    fun call next done address beyond => formed.byteAt?_of_goes (goes_of_attempt done) beyond⟩
  obtain ⟨earlier, later, stems, -, bytes⟩ := exists_stems calls region member
  refine ⟨earlier, later, stems, fun earlier' later' other => stems.unique other,
    fun address holds => ?_⟩
  rw [formed.byteAt?_of_holds member holds, bytes address holds]

end GuestMachine
