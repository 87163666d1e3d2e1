import GuestMachine.Proofs.Register.History
import GuestMachine.Proofs.Register.Snapshot
import Mathlib.Data.List.Forall2
import Mathlib.Data.List.Nodup

/-!
Layouts and the order in which they list their registers. A layout has a bank if and only if every
width is one there is, no identifier is listed twice and the program counter is listed. The bank
does not depend on the order of the list. Neither does the register that goes by a name: it is the
one of least identifier.
-/

namespace GuestMachine

/-! Names. -/

/-- Whether two characters are equal, or one ASCII letter in its two cases. -/
def SameLetter (a b : Char) : Prop :=
  a = b ∨ a.isAlpha ∧ b.isAlpha ∧ (a.toNat + 32 = b.toNat ∨ b.toNat + 32 = a.toNat)

/-- Whether two texts are equal but for the case of ASCII letters. -/
def SameName (text other : String) : Prop :=
  List.Forall₂ SameLetter text.toList other.toList

theorem toNat_toLower (c : Char) :
    c.toLower.toNat = if 65 ≤ c.toNat ∧ c.toNat ≤ 90 then c.toNat + 32 else c.toNat := by
  unfold Char.toLower
  split
  next upper =>
    have low : 65 ≤ c.toNat := upper.1
    have high : c.toNat ≤ 90 := upper.2
    rw [if_pos ⟨low, high⟩]
    show (c.val + 32).toNat = c.toNat + 32
    rw [UInt32.toNat_add]
    exact Nat.mod_eq_of_lt (show c.toNat + 32 < 2 ^ 32 by omega)
  next other => exact (if_neg other).symm

theorem isAlpha_iff (c : Char) :
    c.isAlpha = true ↔ 65 ≤ c.toNat ∧ c.toNat ≤ 90 ∨ 97 ≤ c.toNat ∧ c.toNat ≤ 122 := by
  have upper : c.isUpper = true ↔ 65 ≤ c.toNat ∧ c.toNat ≤ 90 := decide_eq_true_iff
  have lower : c.isLower = true ↔ 97 ≤ c.toNat ∧ c.toNat ≤ 122 :=
    Bool.and_eq_true_iff.trans (and_congr decide_eq_true_iff decide_eq_true_iff)
  exact Bool.or_eq_true_iff.trans (or_congr upper lower)

theorem toLower_eq_toLower_iff {a b : Char} : a.toLower = b.toLower ↔ SameLetter a b := by
  rw [← Char.toNat_inj, toNat_toLower, toNat_toLower, SameLetter, isAlpha_iff, isAlpha_iff,
    ← Char.toNat_inj]
  split <;> split <;> omega

theorem RegisterSpec.isNamed_iff {spec : RegisterSpec} {name : String} :
    spec.isNamed name = true ↔ SameName spec.name name := by
  rw [isNamed, beq_iff_eq, SameName, ← List.forall₂_eq_eq_eq, List.forall₂_map_left_iff,
    List.forall₂_map_right_iff]
  simp only [toLower_eq_toLower_iff]

/-- Whether a register is the one of least identifier among those of a layout that go by a name. -/
def RegisterLayout.LeastNamed (layout : RegisterLayout) (name : String) (id : RegId) : Prop :=
  (∃ spec ∈ layout.registers, spec.id = id ∧ SameName spec.name name) ∧
    ∀ spec ∈ layout.registers, SameName spec.name name → id.number ≤ spec.id.number

/-- What a layout must meet to have a bank. -/
structure RegisterLayout.Valid (layout : RegisterLayout) : Prop where
  widths : ∀ spec ∈ layout.registers, 1 ≤ spec.bits ∧ spec.bits ≤ 64
  distinct : layout.registers.Pairwise fun a b => a.id ≠ b.id
  hasPc : layout.Declares layout.pc

theorem RegisterLayout.Valid.perm {layout other : RegisterLayout} (valid : layout.Valid)
    (pc : other.pc = layout.pc) (same : other.registers.Perm layout.registers) : other.Valid where
  widths := fun spec member => valid.widths spec (same.mem_iff.mp member)
  distinct := same.symm.pairwise valid.distinct fun distinct => distinct.symm
  hasPc := by
    obtain ⟨spec, member, named⟩ := valid.hasPc
    exact ⟨spec, same.mem_iff.mpr member, named.trans pc.symm⟩

namespace RegisterBank

variable {layout other : RegisterLayout} {bank : RegisterBank} {slots : List RegisterSlot}

/-! Layouts that have a bank. -/

theorem declare_of_fresh {spec : RegisterSpec} (width : 1 ≤ spec.bits ∧ spec.bits ≤ 64)
    (missing : slotOf? slots spec.id = none) :
    declare slots spec = .ok (insertSlot ⟨spec, 0⟩ slots) := by
  have wide : ¬(spec.bits = 0 ∨ 64 < spec.bits) := by omega
  rw [declare, if_neg wide, missing]
  rfl

/-- Registers can be declared one after another if their widths are there are, and each of them is
new. -/
theorem exists_foldlM_declare {specs : List RegisterSpec}
    (widths : ∀ spec ∈ specs, 1 ≤ spec.bits ∧ spec.bits ≤ 64)
    (distinct : specs.Pairwise fun a b => a.id ≠ b.id)
    (fresh : ∀ spec ∈ specs, slotOf? slots spec.id = none) :
    ∃ final, specs.foldlM declare slots = .ok final := by
  induction specs generalizing slots with
  | nil => exact ⟨slots, rfl⟩
  | cons first rest ih =>
    obtain ⟨width, widths⟩ := List.forall_mem_cons.mp widths
    obtain ⟨missing, fresh⟩ := List.forall_mem_cons.mp fresh
    obtain ⟨apart, distinct⟩ := List.pairwise_cons.mp distinct
    rw [List.foldlM_cons, declare_of_fresh width missing]
    refine ih widths distinct fun spec member => ?_
    rw [slotOf?_insertSlot (ne_of_slotOf?_eq_none missing), if_neg (apart spec member)]
    exact fresh spec member

theorem perm_insertSlot (slot : RegisterSlot) (slots : List RegisterSlot) :
    (insertSlot slot slots).Perm (slot :: slots) := by
  induction slots with
  | nil => exact .refl _
  | cons first rest ih =>
    simp only [insertSlot]
    split
    · exact .refl _
    · exact (ih.cons first).trans (.swap slot first rest)

/-- Declaring registers adds a zeroed slot for each of them. -/
theorem perm_foldlM_declare {specs : List RegisterSpec} {final : List RegisterSlot}
    (done : specs.foldlM declare slots = .ok final) :
    final.Perm (specs.map (fun spec => ⟨spec, 0⟩) ++ slots) := by
  induction specs generalizing slots with
  | nil =>
    obtain rfl := Except.ok.inj done
    exact .refl _
  | cons first rest ih =>
    rw [List.foldlM_cons] at done
    cases declared : declare slots first with
    | error cause => simp [declared, Bind.bind, Except.bind] at done
    | ok longer =>
      simp only [declared, Bind.bind, Except.bind] at done
      obtain ⟨-, -, rfl⟩ := declare_eq_ok declared
      exact ((ih done).trans ((perm_insertSlot _ slots).append_left _)).trans List.perm_middle

theorem perm_slots_ofLayout (made : ofLayout layout = .ok bank) :
    bank.slots.Perm (layout.registers.map fun spec => ⟨spec, 0⟩) := by
  have added := perm_foldlM_declare (ofLayout_eq_ok made).1
  rwa [List.append_nil] at added

/-- A layout has a bank exactly if it is valid. -/
theorem exists_ofLayout_iff : (∃ bank, ofLayout layout = .ok bank) ↔ layout.Valid := by
  constructor
  · rintro ⟨bank, made⟩
    have formed := wellFormed_ofLayout made
    have listed := perm_slots_ofLayout made
    refine ⟨fun spec member => ?_, ?_, ?_⟩
    · have slot : ⟨spec, 0⟩ ∈ bank.slots := listed.mem_iff.mpr (List.mem_map_of_mem member)
      exact formed.widths _ slot
    · have distinct : bank.slots.Pairwise fun a b => a.spec.id ≠ b.spec.id :=
        formed.ascending.imp fun {a b} less same => by
          rw [same] at less
          exact Nat.lt_irrefl _ less
      have apart := listed.pairwise distinct fun distinct => distinct.symm
      rwa [List.pairwise_map] at apart
    · rw [← (ofLayout_eq_ok made).2.2]
      exact (has_ofLayout made).mp formed.hasPc
  · intro valid
    obtain ⟨slots, added⟩ := exists_foldlM_declare valid.widths valid.distinct
      fun spec _ => show slotOf? [] spec.id = none from rfl
    obtain ⟨spec, declared, named⟩ := valid.hasPc
    have hasPc : (slotOf? slots layout.pc).isSome := by
      rw [← named, (declaresAll_of_foldlM added).added spec declared]
      rfl
    refine ⟨⟨layout.pc, slots⟩, ?_⟩
    simp only [ofLayout, added, Bind.bind, Except.bind, if_pos hasPc]
    rfl

/-- Layouts that list the same registers have the same bank, or none. -/
theorem ofLayout_perm (pc : other.pc = layout.pc) (same : other.registers.Perm layout.registers)
    (made : ofLayout layout = .ok bank) : ofLayout other = .ok bank := by
  have valid : layout.Valid := exists_ofLayout_iff.mp ⟨bank, made⟩
  obtain ⟨again, remade⟩ := exists_ofLayout_iff.mpr (valid.perm pc same)
  have pc : again.pc = bank.pc :=
    ((ofLayout_eq_ok remade).2.2.trans pc).trans (ofLayout_eq_ok made).2.2.symm
  have listed : again.slots.Perm bank.slots :=
    ((perm_slots_ofLayout remade).trans (same.map _)).trans (perm_slots_ofLayout made).symm
  have slots : again.slots = bank.slots :=
    listed.eq_of_pairwise (fun _ _ _ _ less more => absurd less (Nat.lt_asymm more))
      (wellFormed_ofLayout remade).ascending (wellFormed_ofLayout made).ascending
  rw [remade]
  cases again
  cases bank
  exact congrArg Except.ok (congrArg₂ mk pc slots)

/-! The register that goes by a name. -/

/-- Among slots in order of identifier the one that is found is the least that meets the
condition. -/
theorem find?_eq_some_iff_least
    (ascending : slots.Pairwise fun a b => a.spec.id.number < b.spec.id.number)
    {p : RegisterSlot → Bool} {slot : RegisterSlot} :
    slots.find? p = some slot ↔ (slot ∈ slots ∧ p slot) ∧
      ∀ other ∈ slots, p other → slot.spec.id.number ≤ other.spec.id.number := by
  have least {first : RegisterSlot} (found : slots.find? p = some first) :
      ∀ other ∈ slots, p other → first.spec.id.number ≤ other.spec.id.number := by
    obtain ⟨-, earlier, later, rfl, none⟩ := List.find?_eq_some_iff_append.mp found
    obtain ⟨-, ascending, -⟩ := List.pairwise_append.mp ascending
    intro other member meets
    rcases List.mem_append.mp member with before | behind
    · exact absurd meets (by simpa using none other before)
    · rcases List.mem_cons.mp behind with rfl | behind
      · exact Nat.le_refl _
      · exact Nat.le_of_lt ((List.pairwise_cons.mp ascending).1 other behind)
  constructor
  · intro found
    exact ⟨⟨List.mem_of_find?_eq_some found, List.find?_some found⟩, least found⟩
  · rintro ⟨⟨member, meets⟩, lowest⟩
    obtain ⟨first, found⟩ :=
      Option.isSome_iff_exists.mp (List.find?_isSome.mpr ⟨slot, member, meets⟩)
    have listed := List.mem_of_find?_eq_some found
    have number : first.spec.id.number = slot.spec.id.number :=
      Nat.le_antisymm (least found slot member meets)
        (lowest first listed (List.find?_some found))
    have id : first.spec.id = slot.spec.id := congrArg RegId.mk number
    have own := slotOf?_of_mem ascending listed
    rw [id, slotOf?_of_mem ascending member] at own
    rw [found, own]

/-- The registers of a layout are those of its bank, whatever the bank has seen. -/
theorem mem_registers_iff (made : ofLayout layout = .ok bank) (calls : List RegisterCall)
    {spec : RegisterSpec} :
    spec ∈ layout.registers ↔ ∃ slot ∈ (bank.replay calls).slots, slot.spec = spec := by
  have specs : (bank.replay calls).slots.map RegisterSlot.spec = bank.slots.map RegisterSlot.spec :=
    congrArg Prod.snd (layout_replay bank calls)
  have listed : (bank.slots.map RegisterSlot.spec).Perm layout.registers := by
    simpa [List.map_map, Function.comp_def] using
      (perm_slots_ofLayout made).map RegisterSlot.spec
  rw [← listed.mem_iff, ← specs, List.mem_map]

theorem idOf?_replay_eq_some_iff (made : ofLayout layout = .ok bank) (calls : List RegisterCall)
    {name : String} {id : RegId} :
    (bank.replay calls).idOf? name = some id ↔ layout.LeastNamed name id := by
  have ascending := ((wellFormed_ofLayout made).replay calls).ascending
  have registers (spec : RegisterSpec) : spec ∈ layout.registers ↔
      ∃ slot ∈ (bank.replay calls).slots, slot.spec = spec := mem_registers_iff made calls
  rw [idOf?, Option.map_eq_some_iff]
  constructor
  · rintro ⟨slot, found, rfl⟩
    obtain ⟨⟨member, named⟩, lowest⟩ := (find?_eq_some_iff_least ascending).mp found
    have declared := (registers slot.spec).mpr ⟨slot, member, rfl⟩
    refine ⟨⟨slot.spec, declared, rfl, RegisterSpec.isNamed_iff.mp named⟩, ?_⟩
    intro spec declared same
    obtain ⟨other, listed, rfl⟩ := (registers spec).mp declared
    exact lowest other listed (RegisterSpec.isNamed_iff.mpr same)
  · rintro ⟨⟨spec, declared, rfl, same⟩, lowest⟩
    obtain ⟨slot, member, rfl⟩ := (registers spec).mp declared
    have named := RegisterSpec.isNamed_iff.mpr same
    refine ⟨slot, (find?_eq_some_iff_least ascending).mpr ⟨⟨member, named⟩, ?_⟩, rfl⟩
    intro other listed named
    have declared := (registers other.spec).mpr ⟨other, listed, rfl⟩
    exact lowest other.spec declared (RegisterSpec.isNamed_iff.mp named)

theorem idOf?_replay_eq_none_iff (made : ofLayout layout = .ok bank) (calls : List RegisterCall)
    {name : String} :
    (bank.replay calls).idOf? name = none ↔
      ∀ spec ∈ layout.registers, ¬SameName spec.name name := by
  rw [idOf?, Option.map_eq_none_iff, List.find?_eq_none]
  simp only [RegisterSpec.isNamed_iff]
  constructor
  · intro none spec declared
    obtain ⟨slot, member, rfl⟩ := (mem_registers_iff made calls).mp declared
    exact none slot member
  · intro none slot member
    exact none slot.spec ((mem_registers_iff made calls).mpr ⟨slot, member, rfl⟩)

/-- What a layout settles, in whatever order it lists its registers. -/
structure SettledByRegisters (layout : RegisterLayout) : Prop where
  accepted : (∃ bank, ofLayout layout = .ok bank) ↔ layout.Valid
  /-- Every order of the registers is accepted if one is, and gives the same bank. -/
  anyOrder : ∀ registers : List RegisterSpec, registers.Perm layout.registers → ∀ bank,
    ofLayout { layout with registers := registers } = .ok bank ↔ ofLayout layout = .ok bank
  /-- A name stands for the least register that goes by it, whatever has been written. -/
  named : ∀ bank, ofLayout layout = .ok bank → ∀ calls name id,
    (bank.replay calls).idOf? name = some id ↔ layout.LeastNamed name id
  unnamed : ∀ bank, ofLayout layout = .ok bank → ∀ calls name,
    (bank.replay calls).idOf? name = none ↔ ∀ spec ∈ layout.registers, ¬SameName spec.name name

theorem layout_law (layout : RegisterLayout) : SettledByRegisters layout where
  accepted := exists_ofLayout_iff
  anyOrder := fun _ same _ => ⟨ofLayout_perm rfl same.symm, ofLayout_perm rfl same⟩
  named := fun _ made calls _ _ => idOf?_replay_eq_some_iff made calls
  unnamed := fun _ made calls _ => idOf?_replay_eq_none_iff made calls

/-- Of two registers of one name the name stands for the one listed last, as it is less. -/
example : (ofLayout ⟨⟨3⟩, [⟨⟨3⟩, "Pc", 32⟩, ⟨⟨1⟩, "pC", 64⟩]⟩).toOption.bind (idOf? · "PC") =
    some ⟨1⟩ := by
  decide

end RegisterBank

end GuestMachine
