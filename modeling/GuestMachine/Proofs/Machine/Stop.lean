import GuestMachine.Proofs.Machine.Account
import Mathlib.Data.List.Induction

/-!
The stop flag of a machine. A stop is requested through the handle of the machine and forgotten
when the flag is cleared, and nothing else that can be done to a machine touches the flag. So it
is up behind a history exactly if a stop was requested in it and has not been forgotten since.
-/

namespace GuestMachine

/-! What has begun and not ended since. -/

section Since

variable {α : Type} {begins ends : List α → α → Prop} {items : List α} {item : α}

/-- Along a list something has begun with an item and ended with none of the later ones. Whether
an item begins or ends it may depend on the items before. -/
def Since (begins ends : List α → α → Prop) (items : List α) : Prop :=
  ∃ earlier item later, items = earlier ++ item :: later ∧ begins earlier item ∧
    ∀ between other rest, later = between ++ other :: rest →
      ¬ends (earlier ++ item :: between) other

theorem not_since_nil : ¬Since begins ends [] := by
  rintro ⟨earlier, item, later, split, -⟩
  simp at split

/-- An item that begins it does so even if it ends it too. -/
theorem since_concat :
    Since begins ends (items ++ [item]) ↔
      begins items item ∨ ¬ends items item ∧ Since begins ends items := by
  constructor
  · rintro ⟨earlier, first, later, split, begun, kept⟩
    rcases List.eq_nil_or_concat later with rfl | ⟨later, last, rfl⟩
    · obtain ⟨rfl, same⟩ := List.append_inj' split rfl
      obtain rfl := List.singleton_inj.mp same
      exact .inl begun
    · rw [List.concat_eq_append] at split kept
      rw [← List.cons_append, ← List.append_assoc] at split
      obtain ⟨rfl, same⟩ := List.append_inj' split rfl
      obtain rfl := List.singleton_inj.mp same
      refine .inr ⟨kept later item [] rfl, earlier, first, later, rfl, begun, ?_⟩
      rintro between other rest rfl
      exact kept between other (rest ++ [item]) (by simp)
  · rintro (begun | ⟨goesOn, earlier, first, later, rfl, begun, kept⟩)
    · exact ⟨items, item, [], rfl, begun, by simp⟩
    · refine ⟨earlier, first, later ++ [item], by simp, begun, fun between other rest split => ?_⟩
      rcases List.eq_nil_or_concat rest with rfl | ⟨rest, last, rfl⟩
      · obtain ⟨rfl, same⟩ := List.append_inj' split rfl
        obtain rfl := List.singleton_inj.mp same
        exact goesOn
      · rw [List.concat_eq_append, ← List.cons_append, ← List.append_assoc] at split
        obtain ⟨rfl, -⟩ := List.append_inj' split rfl
        exact kept between other rest rfl

end Since

namespace Deed

variable {W : Type} {handle : StopHandle} {deeds : List (Deed W)}

/-- Among deeds a stop is requested through a handle and not forgotten later. -/
def StopPending (handle : StopHandle) (deeds : List (Deed W)) : Prop :=
  Since (fun _ deed => deed = requestStop handle) (fun _ deed => deed = clearStop) deeds

theorem stopPending_concat {deed : Deed W} :
    StopPending handle (deeds ++ [deed]) ↔
      deed = requestStop handle ∨ deed ≠ clearStop ∧ StopPending handle deeds :=
  since_concat

/-- Where none is forgotten but at first, a stop is pending as soon as it is requested. -/
theorem stopPending_iff_mem (kept : clearStop ∉ deeds.tail) :
    StopPending handle deeds ↔ requestStop handle ∈ deeds := by
  constructor
  · rintro ⟨earlier, _, later, rfl, rfl, -⟩
    simp
  · intro listed
    obtain ⟨earlier, later, rfl⟩ := List.append_of_mem listed
    refine ⟨earlier, _, later, rfl, rfl, ?_⟩
    rintro between _ rest rfl rfl
    cases earlier <;> simp at kept

end Deed

namespace Machine

variable {W : Type} {machine : Machine W}

theorem stopHandle_replay (machine : Machine W) (deeds : List (Deed W)) :
    (machine.replay deeds).stopHandle = machine.stopHandle :=
  eq_replay stopHandle (fun _ deed => by cases deed <;> rfl) machine deeds

theorem length_flags_replay (machine : Machine W) (deeds : List (Deed W)) :
    (machine.replay deeds).stops.flags.length = machine.stops.flags.length := by
  refine eq_replay (fun machine => machine.stops.flags.length) (fun machine deed => ?_) _ deeds
  cases deed with
  | requestStop | clearStop => exact List.length_set
  | _ => rfl

/-- The flag is up behind a deed that requests a stop, and behind every other one but clearing if
it was up before. -/
theorem stopRequested_after (flagged : machine.stopHandle.flag < machine.stops.flags.length)
    (deed : Deed W) :
    (machine.after deed).stopRequested = true ↔
      deed = .requestStop machine.stopHandle ∨
        deed ≠ .clearStop ∧ machine.stopRequested = true := by
  cases deed with
  | clearStop =>
    simp [after, stopRequested, clearStop, StopBoard.isRequested, StopBoard.clear, flagged]
  | requestStop handle =>
    by_cases own : handle = machine.stopHandle
    · subst own
      simp [after, stopRequested, StopBoard.isRequested, StopBoard.request, flagged]
    · have other : handle.flag ≠ machine.stopHandle.flag := fun same =>
        own (congrArg StopHandle.mk same)
      simp [after, stopRequested, StopBoard.isRequested, StopBoard.request, own, other]
  | _ => simp [after, stopRequested]

/-- The flag is up behind a history exactly if a stop was requested in it, or before it, and not
forgotten since. -/
theorem stopRequested_replay (flagged : machine.stopHandle.flag < machine.stops.flags.length)
    (deeds : List (Deed W)) :
    (machine.replay deeds).stopRequested = true ↔
      Deed.StopPending machine.stopHandle deeds ∨
        .clearStop ∉ deeds ∧ machine.stopRequested = true := by
  induction deeds using List.reverseRecOn with
  | nil => simp [Deed.StopPending, not_since_nil]
  | append_singleton earlier deed ih =>
    have flaggedThen : (machine.replay earlier).stopHandle.flag <
        (machine.replay earlier).stops.flags.length := by
      rwa [stopHandle_replay, length_flags_replay]
    have step := stopRequested_after flaggedThen deed
    rw [stopHandle_replay, ih] at step
    have other : ¬Deed.clearStop = deed ↔ deed ≠ .clearStop := ne_comm
    rw [replay_append, Deed.stopPending_concat, List.mem_append, List.mem_singleton, not_or, other]
    refine step.trans ?_
    rw [and_or_left, or_assoc, and_left_comm, and_assoc]

end Machine

end GuestMachine
