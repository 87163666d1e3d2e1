import GuestMachine.Memory.Call
import GuestMachine.Proofs.Memory.Contents
import Mathlib.Data.List.Induction

/-!
Histories of memory. Every table that calls lead to is well formed, whether they go through or
fail, so what decides an access there is each byte of its range. The main statement about a single
call says where each region behind it comes from: it is new and holds zeros, or it was there
before, in the same place, and holds what the call has stored in it over what it held.
-/

namespace GuestMachine

namespace MemoryCall

def isMap : MemoryCall → Bool
  | map .. => true
  | _ => false

/-- Whether the call takes the region at a base away. -/
def Removes (base : UInt64) : MemoryCall → Prop
  | unmap start _ => start = base
  | clear => True
  | _ => False

/-- The byte that the call stores at an address, if it stores one there. -/
def stored? (address : Nat) : MemoryCall → Option UInt8
  | write start bytes | load start bytes =>
    if start.toNat ≤ address then bytes[address - start.toNat]? else none
  | _ => none

end MemoryCall

namespace MemoryMap

variable {table next : MemoryMap} {call : MemoryCall}

@[simp] theorem replay_nil (table : MemoryMap) : table.replay [] = table := rfl

theorem replay_append (table : MemoryMap) (earlier later : List MemoryCall) :
    table.replay (earlier ++ later) = (table.replay earlier).replay later :=
  List.foldl_append

theorem replay_concat (table : MemoryMap) (earlier : List MemoryCall) (call : MemoryCall) :
    table.replay (earlier ++ [call]) = (table.replay earlier).after call :=
  replay_append table earlier [call]

theorem after_of_ok (done : table.attempt call = .ok next) : table.after call = next := by
  rw [after, done]
  rfl

theorem after_of_error {cause : Error} (failed : table.attempt call = .error cause) :
    table.after call = table := by
  rw [after, failed]
  rfl

theorem accepted_append (table : MemoryMap) (earlier later : List MemoryCall) :
    table.accepted (earlier ++ later) =
      table.accepted earlier ++ (table.replay earlier).accepted later := by
  induction earlier generalizing table with
  | nil => rfl
  | cons call rest ih =>
    cases tried : table.attempt call with
    | ok next => simp [accepted, replay, tried, after_of_ok tried, ih]
    | error cause => simp [accepted, replay, tried, after_of_error tried, ih]

/-! What a call does. -/

/-- Whether two regions are one as far as its place and its identifier go. -/
structure SameRegion (a b : Region) : Prop where
  base : a.base = b.base
  id : a.id = b.id
  size : a.size = b.size

/-- Where a region behind a call comes from, and what it holds. -/
inductive ComesFrom (table : MemoryMap) (call : MemoryCall) (region : Region) : Prop
  | mapped {size : UInt64} {perms : Permissions} {allocated : Bool}
      (asked : call = .map region.base size perms allocated) (length : region.size = size.toNat)
      (id : region.id = ⟨table.nextId⟩) (blank : region.bytes = Bytes.zeros size.toNat)
  | kept {old : Region} (member : old ∈ table.regions) (same : SameRegion region old)
      (stays : ¬call.Removes old.base)
      (bytes : ∀ address, old.Holds address →
        region.byteAt? address = (call.stored? address).or (old.byteAt? address))

theorem unmap_eq_ok {base size : UInt64} (done : table.unmap base size = .ok next) :
    next = { table with regions := table.regions.filter fun region => region.base != base } := by
  unfold unmap at done
  cases found : table.checkExact base size with
  | error cause => simp [found, bind, Except.bind] at done
  | ok _ =>
    simp only [found, bind, Except.bind, pure, Except.pure] at done
    exact (Except.ok.inj done).symm

theorem protect_eq_ok {base size : UInt64} {perms : Permissions}
    (done : table.protect base size perms = .ok next) :
    next = { table with regions := table.regions.map fun region =>
      if region.base = base then { region with perms := perms } else region } := by
  unfold protect at done
  cases found : table.checkExact base size with
  | error cause => simp [found, bind, Except.bind] at done
  | ok _ =>
    simp only [found, bind, Except.bind, pure, Except.pure] at done
    exact (Except.ok.inj done).symm

/-- The ways in which a call goes through. -/
inductive Goes (table : MemoryMap) : MemoryCall → MemoryMap → Prop
  | map {base size : UInt64} {perms : Permissions} {allocated : Bool} {id : RegionId}
      {next : MemoryMap} (done : table.map (fun _ => allocated) base size perms = .ok (id, next)) :
      Goes table (.map base size perms allocated) next
  | unmap {base size : UInt64} {next : MemoryMap} (done : table.unmap base size = .ok next) :
      Goes table (.unmap base size) next
  | protect {base size : UInt64} {perms : Permissions} {next : MemoryMap}
      (done : table.protect base size perms = .ok next) :
      Goes table (.protect base size perms) next
  | read (address : UInt64) (size : Nat) : Goes table (.read address size) table
  | check (address : UInt64) (size : Nat) (needed : Permissions) :
      Goes table (.check address size needed) table
  | write {address : UInt64} {bytes : ByteArray} {next : MemoryMap}
      (done : table.writeWith (some .write) address bytes = .ok next) :
      Goes table (.write address bytes) next
  | load {address : UInt64} {bytes : ByteArray} {next : MemoryMap}
      (done : table.writeWith none address bytes = .ok next) :
      Goes table (.load address bytes) next
  | clear : Goes table .clear table.clear

theorem map_eq_ok_iff {α β : Type} {result : Except Error α} {f : α → β} {b : β} :
    result.map f = .ok b ↔ ∃ a, result = .ok a ∧ f a = b := by
  cases result <;> simp [Except.map]

theorem goes_of_attempt (done : table.attempt call = .ok next) : table.Goes call next := by
  cases call with
  | map base size perms allocated =>
    obtain ⟨⟨id, made⟩, made, rfl⟩ := map_eq_ok_iff.mp done
    exact .map made
  | unmap base size => exact .unmap done
  | protect base size perms => exact .protect done
  | read address size =>
    obtain ⟨-, -, rfl⟩ := map_eq_ok_iff.mp done
    exact .read address size
  | check address size needed =>
    obtain ⟨-, -, rfl⟩ := map_eq_ok_iff.mp done
    exact .check address size needed
  | write address bytes => exact .write done
  | load address bytes => exact .load done
  | clear =>
    obtain rfl := Except.ok.inj done
    exact .clear

theorem WellFormed.goes (formed : table.WellFormed) (goes : table.Goes call next) :
    next.WellFormed := by
  cases goes with
  | map done => exact formed.map done
  | unmap done => exact formed.unmap done
  | protect done => exact formed.protect done
  | read | check => exact formed
  | write done | load done => exact formed.writeWith done
  | clear => exact wellFormed_clear table

/-- Calls keep the layout, whether they go through or fail. -/
theorem WellFormed.replay (formed : table.WellFormed) (calls : List MemoryCall) :
    (table.replay calls).WellFormed := by
  induction calls using List.reverseRecOn with
  | nil => exact formed
  | append_singleton earlier call ih =>
    rw [replay_concat]
    cases tried : (table.replay earlier).attempt call with
    | ok next =>
      rw [after_of_ok tried]
      exact ih.goes (goes_of_attempt tried)
    | error cause =>
      rw [after_of_error tried]
      exact ih

/-- Writing keeps each region, and what it holds outside the bytes that are written. -/
theorem WellFormed.comesFrom_writeWith (formed : table.WellFormed)
    {needed : Option Permissions} {start : UInt64} {bytes : ByteArray}
    (done : table.writeWith needed start bytes = .ok next) {region : Region}
    (member : region ∈ next.regions) (stays : ∀ base, ¬call.Removes base)
    (stores : ∀ address, call.stored? address =
      if start.toNat ≤ address then bytes[address - start.toNat]? else none) :
    table.ComesFrom call region := by
  obtain ⟨-, frames⟩ := formed.writeWith_frames done
  obtain ⟨old, listed, info, size⟩ := exists_twin_of_frames_eq frames.symm member
  have base : region.base = old.base := congrArg RegionInfo.base info.symm
  have id : region.id = old.id := congrArg RegionInfo.id info.symm
  refine .kept listed ⟨base, id, size.symm⟩ (stays _) fun address holds => ?_
  have holdsAfter : region.Holds address := by
    unfold Region.Holds
    rw [base, ← size]
    exact holds
  rw [← (formed.writeWith done).byteAt?_of_holds member holdsAfter,
    ← formed.byteAt?_of_holds listed holds, formed.byteAt?_writeWith done, stores]
  by_cases low : start.toNat ≤ address
  · by_cases high : address < start.toNat + bytes.size
    · have inside : address - start.toNat < bytes.size := by omega
      rw [if_pos ⟨low, high⟩, if_pos low, getElem?_pos bytes _ inside, Option.some_or]
    · have outside : ¬address - start.toNat < bytes.size := by omega
      rw [if_neg fun both => high both.2, if_pos low, getElem?_neg bytes _ outside, Option.none_or]
  · rw [if_neg fun both => low both.1, if_neg low, Option.none_or]

/-- Every region behind a call was mapped by it or was there before. -/
theorem WellFormed.comesFrom (formed : table.WellFormed) (goes : table.Goes call next)
    {region : Region} (member : region ∈ next.regions) : table.ComesFrom call region := by
  have unchanged {old : Region} (listed : old ∈ table.regions) (stays : ¬call.Removes old.base)
      (stores : ∀ address, call.stored? address = none) : table.ComesFrom call old :=
    .kept listed ⟨rfl, rfl, rfl⟩ stays fun address _ => by rw [stores, Option.none_or]
  cases goes with
  | map done =>
    obtain ⟨-, rfl⟩ := map_eq_ok done
    rcases mem_insertRegion.mp member with rfl | listed
    · exact .mapped rfl (Bytes.size_zeros _) rfl rfl
    · exact unchanged listed not_false fun _ => rfl
  | unmap done =>
    obtain rfl := unmap_eq_ok done
    obtain ⟨listed, other⟩ := List.mem_filter.mp member
    refine unchanged listed (fun removed => ?_) fun _ => rfl
    simp [show _ = region.base from removed] at other
  | @protect base size perms _ done =>
    obtain rfl := protect_eq_ok done
    obtain ⟨old, listed, rfl⟩ := List.mem_map.mp member
    refine .kept listed ⟨?_, ?_, ?_⟩ not_false fun address _ => ?_
    · split_ifs <;> rfl
    · split_ifs <;> rfl
    · split_ifs <;> rfl
    · have none : (MemoryCall.protect base size perms).stored? address = none := rfl
      rw [none, Option.none_or]
      split_ifs <;> rfl
  | read | check => exact unchanged member not_false fun _ => rfl
  | write done => exact formed.comesFrom_writeWith done member (fun _ => not_false) fun _ => rfl
  | load done => exact formed.comesFrom_writeWith done member (fun _ => not_false) fun _ => rfl
  | clear => simp [MemoryMap.clear] at member

/-- No region begins where another one is mapped. -/
theorem WellFormed.base_ne_of_map (formed : table.WellFormed) {allocates : Nat → Bool}
    {base size : UInt64} {perms : Permissions} {id : RegionId}
    (done : table.map allocates base size perms = .ok (id, next)) :
    ∀ region ∈ table.regions, region.base ≠ base := by
  rintro region member rfl
  obtain ⟨positive, -, beside⟩ := formed.beside_of_map done
  have nonempty := formed.nonempty region member
  have := beside region member
  omega

/-- Every region that a call does not remove is there behind it, in the same place. -/
theorem WellFormed.exists_sameRegion (formed : table.WellFormed) (goes : table.Goes call next)
    {region : Region} (member : region ∈ table.regions) (stays : ¬call.Removes region.base) :
    ∃ kept ∈ next.regions, SameRegion kept region := by
  cases goes with
  | map done =>
    obtain ⟨-, rfl⟩ := map_eq_ok done
    exact ⟨region, mem_insertRegion.mpr (.inr member), rfl, rfl, rfl⟩
  | @unmap base size _ done =>
    obtain rfl := unmap_eq_ok done
    have other : region.base ≠ base := fun same => stays same.symm
    exact ⟨region, List.mem_filter.mpr ⟨member, by simpa using other⟩, rfl, rfl, rfl⟩
  | protect done =>
    obtain rfl := protect_eq_ok done
    refine ⟨_, List.mem_map_of_mem member, ?_, ?_, ?_⟩ <;> split_ifs <;> rfl
  | read | check => exact ⟨region, member, rfl, rfl, rfl⟩
  | write done | load done =>
    obtain ⟨-, frames⟩ := formed.writeWith_frames done
    obtain ⟨kept, listed, info, size⟩ := exists_twin_of_frames_eq frames member
    exact ⟨kept, listed, congrArg RegionInfo.base info, congrArg RegionInfo.id info, size⟩
  | clear => exact absurd trivial stays

/-- A number is given out by each call that maps, and by no other. -/
theorem WellFormed.nextId_of_goes (formed : table.WellFormed) (goes : table.Goes call next) :
    next.nextId = if call.isMap then table.nextId + 1 else table.nextId := by
  cases goes with
  | map done =>
    obtain ⟨-, rfl⟩ := map_eq_ok done
    rfl
  | unmap done =>
    obtain rfl := unmap_eq_ok done
    rfl
  | protect done =>
    obtain rfl := protect_eq_ok done
    rfl
  | read | check | clear => rfl
  | write done | load done => exact (formed.writeWith_frames done).1

/-! Calls that go through. -/

theorem accepted_concat (table : MemoryMap) (earlier : List MemoryCall) (call : MemoryCall) :
    table.accepted (earlier ++ [call]) =
      table.accepted earlier ++
        if ((table.replay earlier).attempt call).isOk then [call] else [] := by
  rw [accepted_append]
  cases tried : (table.replay earlier).attempt call <;>
    simp [accepted, tried, Except.isOk, Except.toBool]

theorem accepted_sublist (table : MemoryMap) (calls : List MemoryCall) :
    (table.accepted calls).Sublist calls := by
  induction calls generalizing table with
  | nil => exact .slnil
  | cons call rest ih =>
    cases tried : table.attempt call with
    | ok next => simpa [accepted, tried] using ih next
    | error cause => simpa [accepted, tried] using (ih table).cons call

/-- A call that goes through in a history does so behind those that went through before it. -/
theorem goes_of_accepted_eq {calls earlier later : List MemoryCall}
    (split : table.accepted calls = earlier ++ call :: later) :
    (table.replay earlier).Goes call ((table.replay earlier).after call) := by
  induction calls generalizing table earlier with
  | nil => simp [accepted] at split
  | cons first rest ih =>
    cases tried : table.attempt first with
    | error cause =>
      rw [accepted, tried] at split
      exact ih split
    | ok next =>
      simp only [accepted, tried] at split
      cases earlier with
      | nil =>
        obtain ⟨rfl, -⟩ := List.cons.inj split
        rw [replay_nil, after_of_ok tried]
        exact goes_of_attempt tried
      | cons _ earlier =>
        obtain ⟨rfl, splitRest⟩ := List.cons.inj split
        have reached : table.replay (first :: earlier) = next.replay earlier := by
          rw [← after_of_ok tried]
          rfl
        rw [reached]
        exact ih splitRest

/-- A region stays in its place until a call removes it. -/
theorem WellFormed.exists_sameRegion_replay (formed : table.WellFormed) {region : Region}
    (member : region ∈ table.regions) {calls : List MemoryCall}
    (stays : ∀ call ∈ table.accepted calls, ¬call.Removes region.base) :
    ∃ kept ∈ (table.replay calls).regions, SameRegion kept region := by
  induction calls using List.reverseRecOn with
  | nil => exact ⟨region, member, rfl, rfl, rfl⟩
  | append_singleton earlier call ih =>
    rw [accepted_concat] at stays
    obtain ⟨kept, listed, same⟩ := ih fun other early => stays other (List.mem_append_left _ early)
    rw [replay_concat]
    cases tried : (table.replay earlier).attempt call with
    | error cause =>
      rw [after_of_error tried]
      exact ⟨kept, listed, same⟩
    | ok next =>
      have stays_last : ¬call.Removes kept.base := by
        rw [same.base]
        exact stays call (by simp [tried, Except.isOk, Except.toBool])
      rw [after_of_ok tried]
      obtain ⟨last, final, sameLast⟩ :=
        (formed.replay earlier).exists_sameRegion (goes_of_attempt tried) listed stays_last
      exact ⟨last, final, sameLast.base.trans same.base, sameLast.id.trans same.id,
        sameLast.size.trans same.size⟩

/-- The number that the next region gets counts the calls that have mapped one. -/
theorem WellFormed.nextId_replay (formed : table.WellFormed) (calls : List MemoryCall) :
    (table.replay calls).nextId =
      table.nextId + UInt32.ofNat ((table.accepted calls).countP MemoryCall.isMap) := by
  induction calls using List.reverseRecOn with
  | nil => simp [accepted]
  | append_singleton earlier call ih =>
    rw [accepted_concat, replay_concat]
    cases tried : (table.replay earlier).attempt call with
    | error cause => simpa [after_of_error tried, Except.isOk, Except.toBool] using ih
    | ok next =>
      rw [after_of_ok tried, (formed.replay earlier).nextId_of_goes (goes_of_attempt tried), ih]
      cases maps : call.isMap <;>
        simp [maps, Except.isOk, Except.toBool, UInt32.add_assoc]

end MemoryMap

end GuestMachine
