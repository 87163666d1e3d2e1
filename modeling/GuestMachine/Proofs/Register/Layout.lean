import GuestMachine.Proofs.Register.Bank

/-!
Banks of layouts. A layout has a bank if its registers can be declared one after another and its
program counter is among them. The bank has the registers of the layout and no others, each of
them holding zero, and it is well formed.
-/

namespace GuestMachine

/-- Whether a layout has a register. -/
def RegisterLayout.Declares (layout : RegisterLayout) (id : RegId) : Prop :=
  ∃ spec ∈ layout.registers, spec.id = id

instance (layout : RegisterLayout) (id : RegId) : Decidable (layout.Declares id) :=
  inferInstanceAs (Decidable (∃ spec ∈ layout.registers, spec.id = id))

namespace RegisterBank

theorem mem_insertSlot {slot other : RegisterSlot} {slots : List RegisterSlot} :
    other ∈ insertSlot slot slots ↔ other = slot ∨ other ∈ slots := by
  induction slots with
  | nil => simp [insertSlot]
  | cons first rest ih =>
    simp only [insertSlot]
    split <;> simp [ih, or_left_comm]

/-- A slot goes to its place by identifier, if no other has that identifier. -/
theorem pairwise_insertSlot {slot : RegisterSlot} {slots : List RegisterSlot}
    (ascending : slots.Pairwise fun a b => a.spec.id.number < b.spec.id.number)
    (fresh : ∀ other ∈ slots, other.spec.id ≠ slot.spec.id) :
    (insertSlot slot slots).Pairwise fun a b => a.spec.id.number < b.spec.id.number := by
  induction slots with
  | nil => exact List.pairwise_singleton _ _
  | cons first rest ih =>
    obtain ⟨before, later⟩ := List.pairwise_cons.mp ascending
    simp only [insertSlot]
    split
    next less =>
      refine List.pairwise_cons.mpr ⟨fun other member => ?_, ascending⟩
      rcases List.mem_cons.mp member with rfl | member
      · exact less
      · exact Nat.lt_trans less (before other member)
    next notLess =>
      refine List.pairwise_cons.mpr ⟨fun other member => ?_, ih later fun other member =>
        fresh other (by simp [member])⟩
      rcases mem_insertSlot.mp member with rfl | member
      · have distinct : first.spec.id.number ≠ other.spec.id.number := fun same =>
          fresh first (by simp) (by cases h : first.spec.id; cases k : other.spec.id; simp_all)
        omega
      · exact before other member

theorem ne_of_slotOf?_eq_none {slots : List RegisterSlot} {id : RegId}
    (missing : slotOf? slots id = none) : ∀ slot ∈ slots, slot.spec.id ≠ id := by
  intro slot member
  simpa using List.find?_eq_none.mp missing slot member

/-- Slots as a bank holds them, whichever register is the program counter. -/
structure Declared (slots : List RegisterSlot) : Prop where
  ascending : slots.Pairwise fun a b => a.spec.id.number < b.spec.id.number
  widths : ∀ slot ∈ slots, 0 < slot.spec.bits ∧ slot.spec.bits ≤ 64
  fits : ∀ slot ∈ slots, slot.value &&& slot.spec.mask = slot.value

/-- Declaring a register puts a zeroed slot in its place if its width is one there is and its
identifier is new. -/
theorem declare_eq_ok {slots longer : List RegisterSlot} {spec : RegisterSpec}
    (done : declare slots spec = .ok longer) :
    (0 < spec.bits ∧ spec.bits ≤ 64) ∧ slotOf? slots spec.id = none ∧
      longer = insertSlot ⟨spec, 0⟩ slots := by
  unfold declare at done
  split at done
  · contradiction
  next wide =>
    split at done
    · contradiction
    next free => exact ⟨by omega, by simpa using free, (Except.ok.inj done).symm⟩

theorem Declared.declare {slots longer : List RegisterSlot} (declared : Declared slots)
    {spec : RegisterSpec} (done : declare slots spec = .ok longer) : Declared longer := by
  obtain ⟨width, missing, rfl⟩ := declare_eq_ok done
  refine ⟨pairwise_insertSlot declared.ascending (ne_of_slotOf?_eq_none missing), ?_, ?_⟩
  · intro slot member
    rcases mem_insertSlot.mp member with rfl | member
    · exact width
    · exact declared.widths slot member
  · intro slot member
    rcases mem_insertSlot.mp member with rfl | member
    · exact UInt64.zero_and
    · exact declared.fits slot member

theorem slotOf?_insertSlot {slot : RegisterSlot} {slots : List RegisterSlot}
    (fresh : ∀ other ∈ slots, other.spec.id ≠ slot.spec.id) (id : RegId) :
    slotOf? (insertSlot slot slots) id =
      if slot.spec.id = id then some slot else slotOf? slots id := by
  induction slots with
  | nil => by_cases same : slot.spec.id = id <;> simp [insertSlot, slotOf?, same]
  | cons first rest ih =>
    have later := ih fun other member => fresh other (List.mem_cons_of_mem first member)
    have distinct := fresh first List.mem_cons_self
    simp only [insertSlot]
    split
    · by_cases same : slot.spec.id = id <;> simp [slotOf?, same]
    · rw [slotOf?, List.find?_cons, slotOf?, List.find?_cons]
      cases here : first.spec.id == id with
      | true =>
        rw [if_neg fun same => distinct ((beq_iff_eq.mp here).trans same.symm)]
      | false => exact later

/-- What declaring registers one after another makes of slots: each register is new among them and
has a zeroed slot in the end, and the slots of other registers stay. -/
structure DeclaresAll (slots : List RegisterSlot) (specs : List RegisterSpec)
    (final : List RegisterSlot) : Prop where
  fresh : ∀ spec ∈ specs, slotOf? slots spec.id = none
  added : ∀ spec ∈ specs, slotOf? final spec.id = some ⟨spec, 0⟩
  kept : ∀ id, (∀ spec ∈ specs, spec.id ≠ id) → slotOf? final id = slotOf? slots id

theorem declaresAll_of_foldlM {slots final : List RegisterSlot} {specs : List RegisterSpec}
    (done : specs.foldlM declare slots = .ok final) : DeclaresAll slots specs final := by
  induction specs generalizing slots with
  | nil =>
    obtain rfl := Except.ok.inj done
    exact ⟨by simp, by simp, fun _ _ => rfl⟩
  | cons first rest ih =>
    rw [List.foldlM_cons] at done
    cases declared : declare slots first with
    | error cause => simp [declared, Bind.bind, Except.bind] at done
    | ok longer =>
      simp only [declared, Bind.bind, Except.bind] at done
      obtain ⟨-, missing, rfl⟩ := declare_eq_ok declared
      have looked (id : RegId) : slotOf? (insertSlot ⟨first, 0⟩ slots) id =
          if first.id = id then some ⟨first, 0⟩ else slotOf? slots id :=
        slotOf?_insertSlot (ne_of_slotOf?_eq_none missing) id
      obtain ⟨fresh, added, kept⟩ := ih done
      have apart : ∀ spec ∈ rest, first.id ≠ spec.id ∧ slotOf? slots spec.id = none := by
        intro spec member
        have none := fresh spec member
        rw [looked] at none
        by_cases same : first.id = spec.id
        · simp [same] at none
        · exact ⟨same, by simpa [same] using none⟩
      refine ⟨?_, ?_, fun id others => ?_⟩
      · exact List.forall_mem_cons.mpr ⟨missing, fun spec member => (apart spec member).2⟩
      · refine List.forall_mem_cons.mpr ⟨?_, added⟩
        rw [kept first.id fun spec member => (apart spec member).1.symm, looked, if_pos rfl]
      · obtain ⟨other, later⟩ := List.forall_mem_cons.mp others
        rw [kept id later, looked, if_neg other]

theorem ofLayout_eq_ok {layout : RegisterLayout} {bank : RegisterBank}
    (made : ofLayout layout = .ok bank) :
    layout.registers.foldlM declare [] = .ok bank.slots ∧ (slotOf? bank.slots layout.pc).isSome ∧
      bank.pc = layout.pc := by
  unfold ofLayout at made
  cases added : layout.registers.foldlM declare [] with
  | error cause => simp [added, Bind.bind, Except.bind] at made
  | ok slots =>
    simp only [added, Bind.bind, Except.bind] at made
    split at made
    next hasPc =>
      obtain rfl := Except.ok.inj made
      exact ⟨rfl, hasPc, rfl⟩
    · contradiction

/-- The bank of a layout is well formed. -/
theorem wellFormed_ofLayout {layout : RegisterLayout} {bank : RegisterBank}
    (done : ofLayout layout = .ok bank) : bank.WellFormed := by
  obtain ⟨added, hasPc, pc⟩ := ofLayout_eq_ok done
  have declared : Declared bank.slots :=
    foldlM_keeps (fun _ _ _ done declared => declared.declare done) added ⟨.nil, by simp, by simp⟩
  refine ⟨declared.ascending, declared.widths, declared.fits, ?_⟩
  rw [has, pc]
  exact hasPc

/-- The bank of a layout has its registers and no others, each holding zero. -/
theorem slotOf?_ofLayout_eq_some_iff {layout : RegisterLayout} {bank : RegisterBank}
    (made : ofLayout layout = .ok bank) {id : RegId} {slot : RegisterSlot} :
    slotOf? bank.slots id = some slot ↔
      (slot.spec ∈ layout.registers ∧ slot.spec.id = id) ∧ slot.value = 0 := by
  have declares := declaresAll_of_foldlM (ofLayout_eq_ok made).1
  constructor
  · intro found
    by_cases others : ∀ spec ∈ layout.registers, spec.id ≠ id
    · rw [declares.kept id others] at found
      contradiction
    · obtain ⟨spec, member, rfl⟩ : ∃ spec ∈ layout.registers, spec.id = id := by
        simpa using others
      rw [declares.added spec member] at found
      obtain rfl := Option.some.inj found
      exact ⟨⟨member, rfl⟩, rfl⟩
  · rintro ⟨⟨member, rfl⟩, zero⟩
    rw [declares.added slot.spec member, ← zero]

theorem has_ofLayout {layout : RegisterLayout} {bank : RegisterBank}
    (made : ofLayout layout = .ok bank) {id : RegId} :
    bank.has id = true ↔ layout.Declares id := by
  rw [has, Option.isSome_iff_exists]
  constructor
  · rintro ⟨slot, found⟩
    exact ⟨slot.spec, ((slotOf?_ofLayout_eq_some_iff made).mp found).1⟩
  · rintro ⟨spec, declared⟩
    exact ⟨⟨spec, 0⟩, (slotOf?_ofLayout_eq_some_iff made).mpr ⟨declared, rfl⟩⟩

end RegisterBank

end GuestMachine
