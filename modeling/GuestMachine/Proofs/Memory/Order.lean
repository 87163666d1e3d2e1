import GuestMachine.Proofs.Memory.Identity
import GuestMachine.Proofs.Memory.Likeness
import GuestMachine.Proofs.Memory.Placement

/-!
Requests for regions that do not meet, in whatever order they are made. All of them are granted, and
the tables that different orders lead to are alike: they differ in the identifiers of the regions
and in nothing else, and so do the tables behind any calls that follow.
-/

namespace GuestMachine

namespace MapRequest

def call (request : MapRequest) : MemoryCall :=
  .map request.base request.size request.perms true

/-- A range of addresses that is not empty and ends below the top of the address space. -/
structure Fits (request : MapRequest) : Prop where
  nonempty : request.size ≠ 0
  below : request.base.toNat + request.size.toNat ≤ 2 ^ 64 - 1

instance (request : MapRequest) : Decidable request.Fits :=
  decidable_of_iff
    (request.size ≠ 0 ∧ request.base.toNat + request.size.toNat ≤ 2 ^ 64 - 1)
    ⟨fun fits => ⟨fits.1, fits.2⟩, fun fits => ⟨fits.nonempty, fits.below⟩⟩

def Apart (a b : MapRequest) : Prop :=
  a.base.toNat + a.size.toNat ≤ b.base.toNat ∨ b.base.toNat + b.size.toNat ≤ a.base.toNat

instance (a b : MapRequest) : Decidable (a.Apart b) :=
  inferInstanceAs (Decidable (_ ∨ _))

theorem Apart.symm {a b : MapRequest} (apart : a.Apart b) : b.Apart a :=
  Or.symm apart

def region (request : MapRequest) : Region :=
  ⟨request.base, ⟨0⟩, request.perms, Bytes.zeros request.size.toNat⟩

theorem size_region (request : MapRequest) : request.region.size = request.size.toNat :=
  Bytes.size_zeros _

theorem request_info_region (request : MapRequest) : request.region.info.request = request := by
  cases request with
  | mk base size perms =>
    show MapRequest.mk base (UInt64.ofNat (Bytes.zeros size.toNat).size) perms = _
    rw [Bytes.size_zeros, UInt64.ofNat_toNat]

end MapRequest

namespace MemoryMap

/-- A table that requests have been granted in. -/
structure Fulfils (table : MemoryMap) (requests : List MapRequest) : Prop where
  formed : table.WellFormed
  regions : (table.regions.map Region.anonymous).Perm (requests.map MapRequest.region)
  nextId : table.nextId = UInt32.ofNat requests.length

variable {table : MemoryMap} {requests : List MapRequest} {request : MapRequest}

theorem fulfils_empty : empty.Fulfils [] :=
  ⟨wellFormed_empty, .refl _, rfl⟩

/-- Every region of the table was requested. -/
theorem Fulfils.exists_request (fulfils : table.Fulfils requests) {region : Region}
    (member : region ∈ table.regions) :
    ∃ request ∈ requests, region.base = request.base ∧ region.size = request.size.toNat := by
  have listed := fulfils.regions.mem_iff.mp (List.mem_map_of_mem member)
  obtain ⟨request, requested, same⟩ := List.mem_map.mp listed
  have base : request.region.base = region.anonymous.base := congrArg Region.base same
  have size : request.region.size = region.anonymous.size := congrArg Region.size same
  rw [request.size_region] at size
  exact ⟨request, requested, base.symm, size.symm⟩

/-- A range that is apart from all those before is granted as well. -/
theorem Fulfils.attempt (fulfils : table.Fulfils requests) (fits : request.Fits)
    (apart : ∀ earlier ∈ requests, earlier.Apart request) :
    ∃ next, table.attempt request.call = .ok next ∧ next.Fulfils (requests ++ [request]) := by
  have beside : ∀ region ∈ table.regions,
      region.base.toNat + region.size ≤ request.base.toNat ∨
        request.base.toNat + request.size.toNat ≤ region.base.toNat := by
    intro region member
    obtain ⟨earlier, requested, base, size⟩ := fulfils.exists_request member
    rw [base, size]
    exact apart earlier requested
  have free : table.Free request.base request.size :=
    ⟨fits.nonempty, fits.below, not_mapped_of_beside beside⟩
  obtain ⟨before, after, split, granted⟩ :=
    (fulfils.formed.placement (fun _ => true) request.base request.size request.perms).of_free free
      rfl
  refine ⟨_, congrArg (Except.map Prod.snd) granted, fulfils.formed.map granted, ?_, ?_⟩
  · have old := fulfils.regions
    rw [split, List.map_append] at old
    rw [List.map_append, List.map_append, List.map_cons]
    exact (List.perm_middle.trans (old.cons request.region)).trans
      (List.perm_append_singleton ..).symm
  · show table.nextId + 1 = _
    rw [fulfils.nextId, List.length_append, UInt32.ofNat_add]
    rfl

/-- Requests that fit and are apart are all granted. -/
theorem fulfils_replay (fits : ∀ request ∈ requests, request.Fits)
    (apart : requests.Pairwise MapRequest.Apart) :
    empty.accepted (requests.map MapRequest.call) = requests.map MapRequest.call ∧
      (empty.replay (requests.map MapRequest.call)).Fulfils requests := by
  induction requests using List.reverseRecOn with
  | nil => exact ⟨rfl, fulfils_empty⟩
  | append_singleton earlier request ih =>
    obtain ⟨apart, -, others⟩ := List.pairwise_append.mp apart
    obtain ⟨all, fulfils⟩ := ih (fun request member => fits request (by simp [member])) apart
    obtain ⟨next, granted, fulfils⟩ := fulfils.attempt (fits request (by simp))
      fun other member => others other member request (by simp)
    rw [List.map_append, accepted_append, all, List.map_singleton, replay_concat,
      after_of_ok granted]
    refine ⟨?_, fulfils⟩
    simp only [accepted, granted]

/-- A table lists what was requested, in order of base. -/
theorem Fulfils.perm_infos (fulfils : table.Fulfils requests) :
    (table.infos.map RegionInfo.request).Perm requests := by
  have listed := (fulfils.regions.map Region.info).map RegionInfo.request
  simpa [infos, Function.comp_def, MapRequest.request_info_region] using listed

/-- Regions in order of base are told by which they are. -/
theorem Fulfils.alike {other : MemoryMap} {others : List MapRequest}
    (fulfils : table.Fulfils requests) (otherFulfils : other.Fulfils others)
    (same : requests.Perm others) : table.Alike other := by
  have ascending {table : MemoryMap} (formed : table.WellFormed) :
      (table.regions.map Region.anonymous).Pairwise fun a b => a.base < b.base := by
    have bases := formed.laid.ascending
    rw [infos, List.pairwise_map] at bases
    exact List.pairwise_map.mpr bases
  have regions : table.regions.map Region.anonymous = other.regions.map Region.anonymous :=
    ((fulfils.regions.trans (same.map _)).trans otherFulfils.regions.symm).eq_of_pairwise
      (fun _ _ _ _ less more => absurd less (UInt64.lt_asymm more))
      (ascending fulfils.formed) (ascending otherFulfils.formed)
  have nextId : table.nextId = other.nextId := by
    rw [fulfils.nextId, otherFulfils.nextId, same.length_eq]
  rw [Alike, anonymous, anonymous, regions, nextId]

/-! The law. -/

/-- How requests fare that are made of an empty table: all of them are granted, and the table lists
the regions asked for by base. -/
structure GrantsAll (order requests : List MapRequest) : Prop where
  accepted : empty.accepted (order.map MapRequest.call) = order.map MapRequest.call
  listed : ((empty.replay (order.map MapRequest.call)).infos.map RegionInfo.request).Perm requests
  ascending : (empty.replay (order.map MapRequest.call)).infos.Pairwise fun a b => a.base < b.base

/-- Requests for ranges that do not meet are granted in every order. No call that follows can tell
one order from another but by the identifiers of the regions. -/
theorem disjoint_requests_commute (fits : ∀ request ∈ requests, request.Fits)
    (apart : requests.Pairwise MapRequest.Apart) :
    (∀ order : List MapRequest, order.Perm requests → GrantsAll order requests) ∧
      ∀ order other : List MapRequest, order.Perm requests → other.Perm requests →
        ∀ later : List MemoryCall, AnswersAlike (empty.replay (order.map MapRequest.call ++ later))
          (empty.replay (other.map MapRequest.call ++ later)) := by
  have granted (order : List MapRequest) (same : order.Perm requests) :=
    fulfils_replay (fun request member => fits request (same.mem_iff.mp member))
      (same.symm.pairwise apart MapRequest.Apart.symm)
  refine ⟨fun order same => ?_, fun order other same otherSame later => ?_⟩
  · obtain ⟨accepted, fulfils⟩ := granted order same
    exact ⟨accepted, fulfils.perm_infos.trans same, fulfils.formed.laid.ascending⟩
  · have alike := (granted order same).2.alike (granted other otherSame).2
      (same.trans otherSame.symm)
    rw [replay_append, replay_append]
    exact (alike.replay later).answers

/-- Three regions that touch, the highest of which ends right below the top. -/
theorem disjoint_requests_commute_at_top :
    let low : MapRequest := ⟨0xFFFFFFFFFFFFC000, 0x1000, .read⟩
    let middle : MapRequest := ⟨0xFFFFFFFFFFFFD000, 0x2000, .all⟩
    let high : MapRequest := ⟨0xFFFFFFFFFFFFF000, 0xFFF, .exec⟩
    GrantsAll [high, low, middle] [low, middle, high] ∧
      ∀ later : List MemoryCall,
        AnswersAlike (empty.replay ([high, low, middle].map MapRequest.call ++ later))
          (empty.replay ([middle, high, low].map MapRequest.call ++ later)) := by
  intro low middle high
  have fits : ∀ request ∈ [low, middle, high], request.Fits := by decide
  have apart : [low, middle, high].Pairwise MapRequest.Apart := by decide
  obtain ⟨granted, alike⟩ := disjoint_requests_commute fits apart
  exact ⟨granted _ (by decide), alike _ _ (by decide) (by decide)⟩

end MemoryMap

end GuestMachine
