import GuestMachine.Proofs.Register.Layout
import GuestMachine.Register.Call
import Mathlib.Algebra.Group.Nat.Defs
import Mathlib.Data.List.Induction

/-!
Histories of registers. Whatever calls a bank has seen, it holds the registers of its layout, and
each of them the value last stored in it, cut to its width, or zero. A call stores all the values
it names in turn, or none if it names a register outside the layout.
-/

namespace GuestMachine

/-! What a history stores. -/

/-- What calls store in the registers of a layout, in turn. -/
def RegisterLayout.stored (layout : RegisterLayout) (calls : List RegisterCall) :
    List (RegId × UInt64) :=
  calls.flatMap fun call =>
    if ∀ entry ∈ call.entries, layout.Declares entry.1 then call.entries else []

/-- The value listed for a register, the last one if there are several. -/
def lastFor (id : RegId) (entries : List (RegId × UInt64)) : Option UInt64 :=
  (entries.reverse.find? fun entry => entry.1 == id).map Prod.snd

theorem lastFor_concat (id : RegId) (earlier : List (RegId × UInt64)) (entry : RegId × UInt64) :
    lastFor id (earlier ++ [entry]) =
      if entry.1 = id then some entry.2 else lastFor id earlier := by
  by_cases same : entry.1 = id <;> simp [lastFor, same]

theorem lastFor_append_of_forall_ne {id : RegId} {later : List (RegId × UInt64)}
    (others : ∀ entry ∈ later, entry.1 ≠ id) (earlier : List (RegId × UInt64)) :
    lastFor id (earlier ++ later) = lastFor id earlier := by
  induction later using List.reverseRecOn with
  | nil => rw [List.append_nil]
  | append_singleton before last ih =>
    rw [← List.append_assoc, lastFor_concat, if_neg (others last (by simp))]
    exact ih fun entry member => others entry (List.mem_append_left _ member)

/-! The width of a register. -/

theorem RegisterSpec.mask_toNat {spec : RegisterSpec} (narrow : spec.bits ≤ 64) :
    spec.mask.toNat = 2 ^ spec.bits - 1 := by
  unfold mask
  split
  next wide =>
    rw [Nat.le_antisymm narrow wide]
    rfl
  next small =>
    have width : 2 ^ spec.bits ≤ 2 ^ 64 := Nat.pow_le_pow_right (by omega) narrow
    have positive : 0 < 2 ^ spec.bits := Nat.two_pow_pos _
    rw [Nat.one_shiftLeft, UInt64.toNat_ofNat_of_lt' (by simp only [UInt64.size]; omega)]

theorem RegisterSpec.and_mask_toNat {spec : RegisterSpec} (narrow : spec.bits ≤ 64)
    (value : UInt64) : (value &&& spec.mask).toNat = value.toNat % 2 ^ spec.bits := by
  rw [UInt64.toNat_and, mask_toNat narrow, Nat.and_two_pow_sub_one_eq_mod]

namespace RegisterBank

variable {bank : RegisterBank} {layout : RegisterLayout} {id : RegId} {spec : RegisterSpec}

/-- A register holds the last value stored in it, or what it held before. -/
theorem slotOf?_storeEach (bank : RegisterBank) (entries : List (RegId × UInt64)) (id : RegId) :
    slotOf? (bank.storeEach entries).slots id =
      (slotOf? bank.slots id).map fun slot =>
        match lastFor id entries with
        | some value => { slot with value := value &&& slot.spec.mask }
        | none => slot := by
  induction entries using List.reverseRecOn with
  | nil => cases found : slotOf? bank.slots id <;> simp [found, lastFor]
  | append_singleton earlier entry ih =>
    rw [storeEach_concat, slotOf?_store, ih, lastFor_concat]
    cases found : slotOf? bank.slots id with
    | none => rfl
    | some slot =>
      have named : slot.spec.id = id := by simpa using List.find?_some found
      by_cases same : entry.1 = id
      · cases lastFor id earlier <;> simp [named, same]
      · have other : ¬id = entry.1 := fun back => same back.symm
        cases lastFor id earlier <;> simp [named, same, other]

theorem read_storeEach_of_lastFor {entries : List (RegId × UInt64)} {slot : RegisterSlot}
    {value : UInt64} (found : slotOf? bank.slots id = some slot)
    (last : lastFor id entries = some value) :
    (bank.storeEach entries).read id = .ok (value &&& slot.spec.mask) := by
  rw [read, slotOf?_storeEach, found, last]
  rfl

theorem read_storeEach_of_none {entries : List (RegId × UInt64)}
    (none : lastFor id entries = none) : (bank.storeEach entries).read id = bank.read id := by
  rw [read, read, slotOf?_storeEach, none, Option.map_id']

/-! Single calls. -/

theorem store_of_missing (missing : slotOf? bank.slots id = none) (value : UInt64) :
    bank.store id value = bank := by
  have same : bank.slots.map (fun slot => if slot.spec.id = id then
      { slot with value := value &&& slot.spec.mask } else slot) = bank.slots :=
    (List.map_congr_left fun slot member =>
      if_neg (ne_of_slotOf?_eq_none missing slot member)).trans (List.map_id _)
  rw [store, same]

/-- A write leaves what storing the value leaves, also where it fails. -/
theorem getD_write (bank : RegisterBank) (id : RegId) (value : UInt64) :
    (bank.write id value).toOption.getD bank = bank.store id value := by
  rw [write]
  split
  · rfl
  next unknown =>
    have missing : slotOf? bank.slots id = none := by simpa [has] using unknown
    exact (store_of_missing missing value).symm

/-- A call stores its values if they are for registers that are there. -/
theorem after_of_known {call : RegisterCall}
    (known : ∀ entry ∈ call.entries, bank.has entry.1 = true) :
    bank.after call = bank.storeEach call.entries := by
  cases call with
  | read id => cases found : bank.read id <;> simp [after, attempt, found, Except.map] <;> rfl
  | snapshot => rfl
  | write id value =>
    have written : bank.write id value = .ok (bank.store id value) :=
      if_pos (known (id, value) List.mem_cons_self)
    rw [after, attempt, written]
    rfl
  | restore values =>
    have restored : bank.restore values = .ok (bank.storeEach values) := restore_of_known known
    rw [after, attempt, restored]
    rfl

/-- A call that names a register that is not there stores nothing. -/
theorem after_of_unknown {call : RegisterCall} {entry : RegId × UInt64}
    (member : entry ∈ call.entries) (unknown : bank.has entry.1 = false) :
    bank.after call = bank := by
  cases call with
  | read | snapshot => simp [RegisterCall.entries] at member
  | write id value =>
    obtain rfl := List.mem_singleton.mp member
    simp only [after, attempt, write, unknown]
    rfl
  | restore values =>
    cases found : values.find? fun entry => !bank.has entry.1 with
    | none => simpa [unknown] using List.find?_eq_none.mp found entry member
    | some first => simp only [after, attempt, restore, found, Except.toOption, Option.getD_none]

/-- A call stores all its values, or changes nothing. -/
theorem after_eq_or (bank : RegisterBank) (call : RegisterCall) :
    bank.after call = bank.storeEach call.entries ∨ bank.after call = bank := by
  by_cases known : ∀ entry ∈ call.entries, bank.has entry.1 = true
  · exact .inl (after_of_known known)
  · obtain ⟨entry, member, unknown⟩ : ∃ entry ∈ call.entries, bank.has entry.1 = false := by
      simpa using known
    exact .inr (after_of_unknown member unknown)

theorem layout_after (bank : RegisterBank) (call : RegisterCall) :
    (bank.after call).layout = bank.layout := by
  rcases after_eq_or bank call with stored | same
  · rw [stored, layout_storeEach]
  · rw [same]

theorem WellFormed.after (formed : bank.WellFormed) (call : RegisterCall) :
    (bank.after call).WellFormed := by
  rcases after_eq_or bank call with stored | same
  · rw [stored]
    exact formed.storeEach call.entries
  · rwa [same]

/-! Histories. -/

@[simp] theorem replay_nil (bank : RegisterBank) : bank.replay [] = bank := rfl

theorem replay_concat (bank : RegisterBank) (earlier : List RegisterCall) (call : RegisterCall) :
    bank.replay (earlier ++ [call]) = (bank.replay earlier).after call :=
  List.foldl_append

theorem WellFormed.replay (formed : bank.WellFormed) (calls : List RegisterCall) :
    (bank.replay calls).WellFormed := by
  induction calls using List.reverseRecOn with
  | nil => exact formed
  | append_singleton earlier call ih =>
    rw [replay_concat]
    exact ih.after call

theorem layout_replay (bank : RegisterBank) (calls : List RegisterCall) :
    (bank.replay calls).layout = bank.layout := by
  induction calls using List.reverseRecOn with
  | nil => rfl
  | append_singleton earlier call ih => rw [replay_concat, layout_after, ih]

/-- A history leaves the bank in which its values are stored in turn. -/
theorem replay_eq_storeEach (made : ofLayout layout = .ok bank) (calls : List RegisterCall) :
    bank.replay calls = bank.storeEach (layout.stored calls) := by
  induction calls using List.reverseRecOn with
  | nil => rfl
  | append_singleton earlier call ih =>
    have known (id : RegId) : (bank.replay earlier).has id = true ↔ layout.Declares id := by
      rw [ih, has_storeEach, has_ofLayout made]
    rw [replay_concat, RegisterLayout.stored, List.flatMap_append, List.flatMap_singleton]
    split
    next declared =>
      rw [after_of_known fun entry member => (known entry.1).mpr (declared entry member), ih]
      exact (storeEach_append bank _ call.entries).symm
    next undeclared =>
      obtain ⟨entry, member, other⟩ : ∃ entry ∈ call.entries, ¬layout.Declares entry.1 := by
        simpa using undeclared
      rw [after_of_unknown member (by simpa using mt (known entry.1).mp other), ih,
        List.append_nil]
      rfl

/-! The law. -/

/-- How a bank follows from its history. -/
structure FollowsHistory (bank : RegisterBank) (layout : RegisterLayout)
    (calls : List RegisterCall) : Prop where
  pc : bank.pc = layout.pc
  /-- The registers and their descriptions are those of the layout. -/
  specs : ∀ id spec, bank.spec? id = some spec ↔ spec ∈ layout.registers ∧ spec.id = id
  /-- A register reads what was last stored in it, cut to its width, or zero. -/
  reads : ∀ spec ∈ layout.registers, ∃ value, bank.read spec.id = .ok value ∧
    value.toNat = ((lastFor spec.id (layout.stored calls)).getD 0).toNat % 2 ^ spec.bits
  fits : ∀ spec ∈ layout.registers, ∀ value, bank.read spec.id = .ok value →
    value.toNat < 2 ^ spec.bits
  /-- Registers of the layout can be written, and restored together. -/
  writes : ∀ id, layout.Declares id → ∀ value, ∃ written, bank.write id value = .ok written
  restores : ∀ values, (∀ entry ∈ values, layout.Declares entry.1) →
    ∃ restored, bank.restore values = .ok restored
  unknown : ∀ id, ¬layout.Declares id →
    bank.read id = .error (.unknownRegister id) ∧
      ∀ value, bank.write id value = .error (.unknownRegister id)
  /-- Restoring fails for the first register in the list that the layout does not have. -/
  refuses : ∀ earlier entry later, (∀ other ∈ earlier, layout.Declares other.1) →
    ¬layout.Declares entry.1 →
      bank.restore (earlier ++ entry :: later) = .error (.unknownRegister entry.1)
  /-- A call that names a register outside the layout changes nothing. -/
  unchanged : ∀ call, (∃ entry ∈ call.entries, ¬layout.Declares entry.1) →
    bank.after call = bank
  /-- A call changes no register that it does not name. -/
  apart : ∀ call id, (∀ entry ∈ call.entries, entry.1 ≠ id) →
    (bank.after call).read id = bank.read id
  ascending : bank.snapshot.Pairwise fun a b => a.1.number < b.1.number
  listed : ∀ id value, (id, value) ∈ bank.snapshot ↔ bank.read id = .ok value

/-- A register of the layout has a slot with what was last stored in it. -/
theorem exists_slot_replay (made : ofLayout layout = .ok bank) (calls : List RegisterCall)
    (declared : spec ∈ layout.registers) :
    ∃ slot, slotOf? (bank.replay calls).slots spec.id = some slot ∧ slot.spec = spec ∧
      slot.value = ((lastFor spec.id (layout.stored calls)).getD 0) &&& spec.mask := by
  have fresh : slotOf? bank.slots spec.id = some ⟨spec, 0⟩ :=
    (slotOf?_ofLayout_eq_some_iff made).mpr ⟨⟨declared, rfl⟩, rfl⟩
  rw [replay_eq_storeEach made, slotOf?_storeEach, fresh]
  cases lastFor spec.id (layout.stored calls) <;> simp

theorem followsHistory (made : ofLayout layout = .ok bank) (calls : List RegisterCall) :
    (bank.replay calls).FollowsHistory layout calls := by
  have formed : (bank.replay calls).WellFormed := (wellFormed_ofLayout made).replay calls
  have laid := layout_replay bank calls
  have known (id : RegId) : (bank.replay calls).has id = true ↔ layout.Declares id := by
    rw [has_eq_of_layout_eq laid]
    exact has_ofLayout made
  have unknown (id : RegId) (undeclared : ¬layout.Declares id) :
      slotOf? (bank.replay calls).slots id = none := by
    simpa [has] using mt (known id).mp undeclared
  exact {
    pc := (congrArg Prod.fst laid).trans (ofLayout_eq_ok made).2.2
    specs := fun id spec => by
      rw [spec?_eq_of_layout_eq laid, spec?, Option.map_eq_some_iff]
      constructor
      · rintro ⟨slot, found, rfl⟩
        exact ((slotOf?_ofLayout_eq_some_iff made).mp found).1
      · intro declared
        exact ⟨⟨spec, 0⟩, (slotOf?_ofLayout_eq_some_iff made).mpr ⟨declared, rfl⟩, rfl⟩
    reads := fun spec declared => by
      obtain ⟨slot, found, rfl, stored⟩ := exists_slot_replay made calls declared
      have narrow := (formed.widths slot (List.mem_of_find?_eq_some found)).2
      refine ⟨slot.value, by rw [read, found], ?_⟩
      rw [stored, RegisterSpec.and_mask_toNat narrow]
    fits := fun spec declared value found => by
      obtain ⟨slot, here, rfl, stored⟩ := exists_slot_replay made calls declared
      have narrow := (formed.widths slot (List.mem_of_find?_eq_some here)).2
      rw [read, here] at found
      obtain rfl := Except.ok.inj found
      rw [stored, RegisterSpec.and_mask_toNat narrow]
      exact Nat.mod_lt _ (Nat.two_pow_pos _)
    writes := fun id declared value => ⟨_, if_pos ((known id).mpr declared)⟩
    restores := fun values declared =>
      ⟨_, restore_of_known fun entry member => (known entry.1).mpr (declared entry member)⟩
    unknown := fun id undeclared => by
      have missing := unknown id undeclared
      refine ⟨by rw [read, missing], fun value => ?_⟩
      rw [write, has, missing]
      rfl
    refuses := fun earlier entry later declared undeclared =>
      restore_of_unknown (fun other member => (known other.1).mpr (declared other member))
        (by simpa using mt (known entry.1).mp undeclared)
    unchanged := fun call => by
      rintro ⟨entry, member, undeclared⟩
      exact after_of_unknown member (by simpa using mt (known entry.1).mp undeclared)
    apart := fun call id others => by
      rcases after_eq_or (bank.replay calls) call with stored | same
      · have none : lastFor id call.entries = none := lastFor_append_of_forall_ne others []
        rw [stored, read, read, slotOf?_storeEach, none, Option.map_id']
      · rw [same]
    ascending := List.pairwise_map.mpr formed.ascending
    listed := fun id value => by
      rw [snapshot, List.mem_map, read_eq_ok_iff]
      constructor
      · rintro ⟨slot, member, same⟩
        obtain ⟨rfl, rfl⟩ := Prod.mk.inj same
        exact ⟨slot, slotOf?_of_mem formed.ascending member, rfl⟩
      · rintro ⟨slot, found, rfl⟩
        have named : slot.spec.id = id := by simpa using List.find?_some found
        exact ⟨slot, List.mem_of_find?_eq_some found, by rw [named]⟩ }

end RegisterBank

end GuestMachine
