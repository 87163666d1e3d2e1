import GuestMachine.Context
import GuestMachine.Proofs.Register.History

/-!
Snapshots of registers. A snapshot lists every register once, so restoring it, in a bank of the
same layout, leaves no trace of what the bank held before.
-/

namespace GuestMachine

/-- Where a register is listed once, its value is the one listed. -/
theorem lastFor_of_mem {entries : List (RegId × UInt64)}
    (distinct : entries.Pairwise fun a b => a.1 ≠ b.1) {entry : RegId × UInt64}
    (member : entry ∈ entries) : lastFor entry.1 entries = some entry.2 := by
  induction entries using List.reverseRecOn with
  | nil => simp at member
  | append_singleton earlier last ih =>
    obtain ⟨before, -, apart⟩ := List.pairwise_append.mp distinct
    rw [lastFor_concat]
    rcases List.mem_append.mp member with listed | final
    · rw [if_neg fun same => apart entry listed last (by simp) same.symm, ih before listed]
    · obtain rfl := List.mem_singleton.mp final
      rw [if_pos rfl]

namespace RegisterBank

variable {bank saved : RegisterBank} {id : RegId}

/-- Banks of one layout that hold the same values are equal. -/
theorem eq_of_slotOf?_eq (formed : bank.WellFormed) (savedFormed : saved.WellFormed)
    (same : bank.layout = saved.layout)
    (each : ∀ id, slotOf? bank.slots id = slotOf? saved.slots id) : bank = saved := by
  have looked {bank : RegisterBank} (formed : bank.WellFormed) :
      bank.layout.2.map (fun spec => slotOf? bank.slots spec.id) = bank.slots.map some := by
    rw [layout, List.map_map]
    exact List.map_congr_left fun slot member => slotOf?_of_mem formed.ascending member
  have slots : bank.slots.map some = saved.slots.map some := by
    rw [← looked formed, ← looked savedFormed, same]
    exact List.map_congr_left fun spec _ => each spec.id
  have pc : bank.pc = saved.pc := congrArg Prod.fst same
  cases bank
  cases saved
  exact congrArg₂ mk pc ((List.map_inj_right fun _ _ => Option.some.inj).mp slots)

theorem find?_snapshot (bank : RegisterBank) (id : RegId) :
    (bank.snapshot.find? fun entry => entry.1 == id) =
      (slotOf? bank.slots id).map fun slot => (slot.spec.id, slot.value) := by
  rw [snapshot, List.find?_map]
  rfl

/-- The value that a context of a bank has for a register is the one that the register reads. -/
theorem value?_snapshot (bank : RegisterBank) (arch : Arch) (mode : Mode) (id : RegId) :
    (⟨arch, mode, bank.snapshot⟩ : Context).value? id = (bank.read id).toOption := by
  rw [Context.value?, find?_snapshot, read]
  cases slotOf? bank.slots id <;> rfl

theorem has_of_mem_snapshot {entry : RegId × UInt64} (member : entry ∈ bank.snapshot) :
    bank.has entry.1 = true := by
  obtain ⟨slot, listed, rfl⟩ := List.mem_map.mp member
  exact List.find?_isSome.mpr ⟨slot, listed, beq_self_eq_true slot.spec.id⟩

theorem WellFormed.distinct_snapshot (formed : bank.WellFormed) :
    bank.snapshot.Pairwise fun a b => a.1 ≠ b.1 := by
  refine List.pairwise_map.mpr (formed.ascending.imp fun {a b} less same => ?_)
  have named : a.spec.id = b.spec.id := same
  rw [named] at less
  exact Nat.lt_irrefl _ less

theorem WellFormed.lastFor_snapshot (formed : bank.WellFormed) (id : RegId) :
    lastFor id bank.snapshot = (slotOf? bank.slots id).map RegisterSlot.value := by
  cases found : slotOf? bank.slots id with
  | none =>
    refine lastFor_append_of_forall_ne (fun entry member => ?_) []
    rintro rfl
    have here := has_of_mem_snapshot member
    simp [has, found] at here
  | some slot =>
    have named : slot.spec.id = id := by simpa using List.find?_some found
    have listed : (id, slot.value) ∈ bank.snapshot :=
      List.mem_map.mpr ⟨slot, List.mem_of_find?_eq_some found, by rw [named]⟩
    exact lastFor_of_mem formed.distinct_snapshot listed

/-- Restoring a snapshot makes of every bank of its layout the bank it was taken of. -/
theorem restore_snapshot (same : bank.layout = saved.layout) (formed : bank.WellFormed)
    (savedFormed : saved.WellFormed) : bank.restore saved.snapshot = .ok saved := by
  have known : ∀ entry ∈ saved.snapshot, bank.has entry.1 = true := fun entry member => by
    rw [has_eq_of_layout_eq same]
    exact has_of_mem_snapshot member
  have restored : bank.storeEach saved.snapshot = saved := by
    refine eq_of_slotOf?_eq (formed.storeEach _) savedFormed ((layout_storeEach ..).trans same)
      fun id => ?_
    have specs : (slotOf? bank.slots id).map RegisterSlot.spec =
        (slotOf? saved.slots id).map RegisterSlot.spec := spec?_eq_of_layout_eq same id
    rw [slotOf?_storeEach, savedFormed.lastFor_snapshot]
    cases found : slotOf? saved.slots id with
    | none => simpa [found] using specs
    | some slot =>
      obtain ⟨held, here, spec⟩ := Option.map_eq_some_iff.mp (specs.trans (by rw [found]; rfl))
      have fits := savedFormed.fits slot (List.mem_of_find?_eq_some found)
      simp [here, spec, fits]
  rw [restore_of_known known, restored]

end RegisterBank

end GuestMachine
