import GuestMachine.Proofs.Computation
import GuestMachine.Register.Bank
import Mathlib.Data.List.Induction
import Mathlib.Data.List.Pairwise

/-!
Register banks. Slots go up by identifier, widths are between one and 64 bits, every value fits
its register and the program counter is one of the registers. Writing keeps all of it.
-/

namespace GuestMachine

namespace RegisterBank

/-- Slots go up by identifier and hold values that fit, and the program counter has a slot. -/
structure WellFormed (bank : RegisterBank) : Prop where
  ascending : bank.slots.Pairwise fun a b => a.spec.id.number < b.spec.id.number
  widths : ∀ slot ∈ bank.slots, 0 < slot.spec.bits ∧ slot.spec.bits ≤ 64
  fits : ∀ slot ∈ bank.slots, slot.value &&& slot.spec.mask = slot.value
  hasPc : bank.has bank.pc

theorem slotOf?_map {slots : List RegisterSlot} {f : RegisterSlot → RegisterSlot}
    (same : ∀ slot, (f slot).spec = slot.spec) (id : RegId) :
    slotOf? (slots.map f) id = (slotOf? slots id).map f := by
  simp only [slotOf?, List.find?_map, Function.comp_def, same]

/-- Storing a value keeps the registers. -/
@[simp] theorem spec_store (bank : RegisterBank) (id : RegId) (value : UInt64) :
    (bank.store id value).slots.map RegisterSlot.spec = bank.slots.map RegisterSlot.spec := by
  rw [store, List.map_map]
  refine List.map_congr_left fun slot _ => ?_
  by_cases same : slot.spec.id = id <;> simp [same]

theorem slotOf?_store (bank : RegisterBank) (id other : RegId) (value : UInt64) :
    slotOf? (bank.store id value).slots other =
      (slotOf? bank.slots other).map fun slot =>
        if slot.spec.id = id then { slot with value := value &&& slot.spec.mask } else slot := by
  refine slotOf?_map (fun slot => ?_) other
  by_cases same : slot.spec.id = id <;> simp [same]

@[simp] theorem has_store (bank : RegisterBank) (id other : RegId) (value : UInt64) :
    (bank.store id value).has other = bank.has other := by
  rw [has, slotOf?_store, Option.isSome_map, has]

@[simp] theorem pc_store (bank : RegisterBank) (id : RegId) (value : UInt64) :
    (bank.store id value).pc = bank.pc := rfl

namespace WellFormed

variable {bank : RegisterBank}

theorem store (formed : bank.WellFormed) (id : RegId) (value : UInt64) :
    (bank.store id value).WellFormed := by
  refine ⟨?_, ?_, ?_, ?_⟩
  · have ascending : (bank.slots.map RegisterSlot.spec).Pairwise
        fun a b => a.id.number < b.id.number := List.pairwise_map.mpr formed.ascending
    rw [← spec_store bank id value] at ascending
    have back := List.pairwise_map.mp ascending
    exact back
  · intro slot member
    obtain ⟨old, listed, rfl⟩ := List.mem_map.mp member
    have widths := formed.widths old listed
    by_cases same : old.spec.id = id
    · simpa [same] using widths
    · simpa [same] using widths
  · intro slot member
    obtain ⟨old, listed, rfl⟩ := List.mem_map.mp member
    by_cases same : old.spec.id = id
    · simp [same, UInt64.and_assoc]
    · simpa [same] using formed.fits old listed
  · rw [has_store, pc_store]
    exact formed.hasPc

theorem write (formed : bank.WellFormed) {id : RegId} {value : UInt64} {written : RegisterBank}
    (done : bank.write id value = .ok written) : written.WellFormed := by
  unfold RegisterBank.write at done
  split at done
  · obtain rfl := Except.ok.inj done
    exact formed.store id value
  · contradiction

/-- The program counter can be read. -/
theorem exists_read_pc (formed : bank.WellFormed) : ∃ value, bank.read bank.pc = .ok value := by
  obtain ⟨slot, found⟩ := Option.isSome_iff_exists.mp formed.hasPc
  exact ⟨slot.value, by rw [read, found]⟩

/-- The program counter can be written. -/
theorem write_pc (formed : bank.WellFormed) (value : UInt64) :
    bank.write bank.pc value = .ok (bank.store bank.pc value) :=
  if_pos formed.hasPc

/-- Restoring values keeps the bank well formed. -/
theorem restore (formed : bank.WellFormed) {values : List (RegId × UInt64)}
    {restored : RegisterBank} (done : bank.restore values = .ok restored) :
    restored.WellFormed := by
  unfold RegisterBank.restore at done
  split at done
  · contradiction
  · exact foldlM_keeps (fun _ _ _ written formed => formed.write written) done formed

end WellFormed

/-- Every slot is the one of its register. -/
theorem slotOf?_of_mem {slots : List RegisterSlot} {slot : RegisterSlot}
    (ascending : slots.Pairwise fun a b => a.spec.id.number < b.spec.id.number)
    (member : slot ∈ slots) : slotOf? slots slot.spec.id = some slot := by
  induction slots with
  | nil => simp at member
  | cons first rest ih =>
    obtain ⟨before, later⟩ := List.pairwise_cons.mp ascending
    rw [slotOf?, List.find?_cons]
    rcases List.mem_cons.mp member with rfl | member
    · simp
    · have less := before slot member
      have distinct : (first.spec.id == slot.spec.id) = false := by
        rw [beq_eq_false_iff_ne]
        intro same
        rw [same] at less
        exact Nat.lt_irrefl _ less
      rw [distinct]
      exact ih later member

theorem read_eq_ok_iff {bank : RegisterBank} {id : RegId} {value : UInt64} :
    bank.read id = .ok value ↔ ∃ slot, slotOf? bank.slots id = some slot ∧ slot.value = value := by
  unfold read
  cases slotOf? bank.slots id <;> simp

/-- Storing what a register reads changes nothing. -/
theorem WellFormed.store_of_read {bank : RegisterBank} (formed : bank.WellFormed) {id : RegId}
    {value : UInt64} (found : bank.read id = .ok value) : bank.store id value = bank := by
  obtain ⟨held, here, rfl⟩ := read_eq_ok_iff.mp found
  have same : bank.slots.map (fun slot =>
      if slot.spec.id = id then { slot with value := held.value &&& slot.spec.mask } else slot) =
      bank.slots := by
    refine (List.map_congr_left fun slot member => ?_).trans (List.map_id _)
    by_cases named : slot.spec.id = id
    · obtain rfl : slot = held := by
        have own := slotOf?_of_mem formed.ascending member
        rw [named, here] at own
        exact (Option.some.inj own).symm
      rw [if_pos named, formed.fits slot member]
      rfl
    · rw [if_neg named]
      rfl
  rw [RegisterBank.store, same]

/-- The layout of a bank: its program counter and the descriptions of its registers, in order. -/
def layout (bank : RegisterBank) : RegId × List RegisterSpec :=
  (bank.pc, bank.slots.map RegisterSlot.spec)

@[simp] theorem layout_store (bank : RegisterBank) (id : RegId) (value : UInt64) :
    (bank.store id value).layout = bank.layout := by
  rw [layout, layout, spec_store, pc_store]

theorem layout_write {bank written : RegisterBank} {id : RegId} {value : UInt64}
    (done : bank.write id value = .ok written) : written.layout = bank.layout := by
  unfold write at done
  split at done
  · obtain rfl := Except.ok.inj done
    exact layout_store bank id value
  · contradiction

theorem spec?_eq_find? (bank : RegisterBank) (id : RegId) :
    bank.spec? id = bank.layout.2.find? fun spec => spec.id == id := by
  rw [spec?, slotOf?, layout, List.find?_map]
  rfl

theorem spec?_eq_of_layout_eq {bank other : RegisterBank} (same : other.layout = bank.layout)
    (id : RegId) : other.spec? id = bank.spec? id := by
  rw [spec?_eq_find?, spec?_eq_find?, same]

theorem has_eq_of_layout_eq {bank other : RegisterBank} (same : other.layout = bank.layout)
    (id : RegId) : other.has id = bank.has id := by
  have described (bank : RegisterBank) : bank.has id = (bank.spec? id).isSome :=
    (Option.isSome_map ..).symm
  rw [described, described, spec?_eq_of_layout_eq same]

/-- The width of the program counter is part of the layout. -/
theorem pcMask_eq_of_layout_eq {bank other : RegisterBank} (same : other.layout = bank.layout) :
    other.pcMask = bank.pcMask := by
  have pc : other.pc = bank.pc := congrArg Prod.fst same
  rw [pcMask, pcMask, pc, spec?_eq_of_layout_eq same]

/-- What the program counter reads fits it. -/
theorem WellFormed.and_pcMask_of_read {bank : RegisterBank} (formed : bank.WellFormed)
    {value : UInt64} (found : bank.read bank.pc = .ok value) : value &&& bank.pcMask = value := by
  obtain ⟨held, here, rfl⟩ := read_eq_ok_iff.mp found
  rw [pcMask, spec?, here]
  exact formed.fits held (List.mem_of_find?_eq_some here)

/-! Values stored in turn. -/

/-- Stores values in registers that are there, in turn. -/
def storeEach (bank : RegisterBank) (entries : List (RegId × UInt64)) : RegisterBank :=
  entries.foldl (fun bank entry => bank.store entry.1 entry.2) bank

@[simp] theorem storeEach_nil (bank : RegisterBank) : bank.storeEach [] = bank := rfl

theorem storeEach_append (bank : RegisterBank) (earlier later : List (RegId × UInt64)) :
    bank.storeEach (earlier ++ later) = (bank.storeEach earlier).storeEach later :=
  List.foldl_append

theorem storeEach_concat (bank : RegisterBank) (earlier : List (RegId × UInt64))
    (entry : RegId × UInt64) :
    bank.storeEach (earlier ++ [entry]) = (bank.storeEach earlier).store entry.1 entry.2 :=
  storeEach_append bank earlier [entry]

@[simp] theorem layout_storeEach (bank : RegisterBank) (entries : List (RegId × UInt64)) :
    (bank.storeEach entries).layout = bank.layout := by
  induction entries using List.reverseRecOn with
  | nil => rfl
  | append_singleton earlier entry ih => rw [storeEach_concat, layout_store, ih]

@[simp] theorem pc_storeEach (bank : RegisterBank) (entries : List (RegId × UInt64)) :
    (bank.storeEach entries).pc = bank.pc :=
  congrArg Prod.fst (layout_storeEach bank entries)

@[simp] theorem has_storeEach (bank : RegisterBank) (entries : List (RegId × UInt64))
    (id : RegId) : (bank.storeEach entries).has id = bank.has id := by
  induction entries using List.reverseRecOn with
  | nil => rfl
  | append_singleton earlier entry ih => rw [storeEach_concat, has_store, ih]

theorem WellFormed.storeEach {bank : RegisterBank} (formed : bank.WellFormed)
    (entries : List (RegId × UInt64)) : (bank.storeEach entries).WellFormed := by
  induction entries using List.reverseRecOn with
  | nil => exact formed
  | append_singleton earlier entry ih =>
    rw [storeEach_concat]
    exact ih.store entry.1 entry.2

/-- Registers that are there still are once the first of them is written. -/
theorem known_store {bank : RegisterBank} {entry : RegId × UInt64}
    {rest : List (RegId × UInt64)} (known : ∀ other ∈ entry :: rest, bank.has other.1 = true) :
    ∀ other ∈ rest, (bank.store entry.1 entry.2).has other.1 = true := by
  intro other member
  rw [has_store]
  exact known other (List.mem_cons_of_mem entry member)

/-- Restoring stores all the values if their registers are there. -/
theorem restore_of_known {bank : RegisterBank} {values : List (RegId × UInt64)}
    (known : ∀ entry ∈ values, bank.has entry.1 = true) :
    bank.restore values = .ok (bank.storeEach values) := by
  have none : values.find? (fun entry => !bank.has entry.1) = none := by
    simpa using known
  simp only [restore, none]
  clear none
  induction values generalizing bank with
  | nil => rfl
  | cons entry rest ih =>
    have written : bank.write entry.1 entry.2 = .ok (bank.store entry.1 entry.2) :=
      if_pos (known entry List.mem_cons_self)
    rw [List.foldlM_cons, written]
    exact ih (known_store known)

/-- Restoring fails for the first register in the list that is not there. -/
theorem restore_of_unknown {bank : RegisterBank} {earlier later : List (RegId × UInt64)}
    {entry : RegId × UInt64} (known : ∀ other ∈ earlier, bank.has other.1 = true)
    (unknown : bank.has entry.1 = false) :
    bank.restore (earlier ++ entry :: later) = .error (.unknownRegister entry.1) := by
  have none : earlier.find? (fun other => !bank.has other.1) = none := by
    simpa using known
  simp [restore, none, unknown]

/-! Values stored in place. -/

/-- Writes values in order of the list. Where one names an unknown register this fails, and what
has been written stays. -/
def writeEach : List (RegId × UInt64) → Attempt RegisterBank Unit
  | [] => pure ()
  | entry :: rest => fun bank =>
    match bank.write entry.1 entry.2 with
    | .ok written => writeEach rest written
    | .error cause => .error (.error cause) bank

/-- Looks at the whole list and then writes. -/
def restoreInPlace (values : List (RegId × UInt64)) : Attempt RegisterBank Unit := fun bank =>
  match values.find? fun entry => !bank.has entry.1 with
  | some entry => .error (.error (.unknownRegister entry.1)) bank
  | none => writeEach values bank

/-- Values of registers that are there can all be written. -/
theorem writeEach_of_known {bank : RegisterBank} {values : List (RegId × UInt64)}
    (known : ∀ entry ∈ values, bank.has entry.1 = true) :
    writeEach values bank = .ok () (bank.storeEach values) := by
  induction values generalizing bank with
  | nil => rfl
  | cons entry rest ih =>
    have written : bank.write entry.1 entry.2 = .ok (bank.store entry.1 entry.2) :=
      if_pos (known entry List.mem_cons_self)
    simp only [writeEach, written]
    exact ih (known_store known)

/-- Values restored one after another are restored; if this fails no register has changed. -/
theorem restoreInPlace_eq (values : List (RegId × UInt64)) (bank : RegisterBank) :
    restoreInPlace values bank = Attempt.wholly (fun bank => bank.restore values) bank := by
  unfold restoreInPlace
  split
  next entry unknown => simp only [Attempt.wholly, restore, unknown]
  next known =>
    have there : ∀ entry ∈ values, bank.has entry.1 = true := fun entry member => by
      simpa using List.find?_eq_none.mp known entry member
    simp only [writeEach_of_known there, Attempt.wholly, restore_of_known there]

end RegisterBank

end GuestMachine
