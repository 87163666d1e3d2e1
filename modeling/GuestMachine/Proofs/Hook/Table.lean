import GuestMachine.Hook.Delivery
import GuestMachine.Hook.Table
import Mathlib.Data.List.Pairwise

/-!
Tables of hooks. Every hook serves its kind of event, only hooks for entered instructions are
filtered by identifier, and handles go up from hook to hook. So every hook that is looked up for
an event can be handed it.
-/

namespace GuestMachine

/-- An event can be handed to exactly the callbacks that serve its kind. -/
theorem Event.isSome_args? (event : Event) (shape : HookShape) :
    (event.args? shape).isSome = shape.accepts event.kind := by
  cases event with
  | memoryUnmapped access => cases access <;> cases shape <;> rfl
  | _ => cases shape <;> rfl

namespace HookTable

/-- Hooks serve their kind of event, are filtered only where that has a meaning, and have handles
that go up and have been given out. -/
structure WellFormed (table : HookTable) : Prop where
  served : ∀ hook ∈ table.hooks, hook.callback.shape.accepts hook.kind
  filtered : ∀ hook ∈ table.hooks, hook.insn.isSome → hook.kind = .instructionEnter
  ascending : table.hooks.Pairwise fun a b => a.handle.number < b.handle.number
  given : ∀ hook ∈ table.hooks, hook.handle.number < table.next

theorem wellFormed_empty : empty.WellFormed where
  served := by simp [empty]
  filtered := by simp [empty]
  ascending := by simp [empty]
  given := by simp [empty]

namespace WellFormed

variable {table : HookTable}

theorem register (formed : table.WellFormed) {kind : EventKind} {range : AddressRange}
    {insn : Option InsnId} {callback : HookCallback} {handle : HookHandle} {longer : HookTable}
    (done : table.register kind range insn callback = .ok (handle, longer)) :
    longer.WellFormed := by
  unfold HookTable.register at done
  split at done
  · contradiction
  next serves =>
    split at done
    · contradiction
    next filter =>
      obtain ⟨-, rfl⟩ := Prod.mk.inj (Except.ok.inj done)
      have serves : callback.shape.accepts kind = true := by simpa using serves
      have filter : insn.isSome → kind = .instructionEnter := by
        intro some
        by_contra other
        exact filter (by simpa [some] using other)
      refine ⟨?_, ?_, ?_, ?_⟩
      · intro hook member
        rcases List.mem_append.mp member with old | new
        · exact formed.served hook old
        · obtain rfl := List.mem_singleton.mp new
          exact serves
      · intro hook member
        rcases List.mem_append.mp member with old | new
        · exact formed.filtered hook old
        · obtain rfl := List.mem_singleton.mp new
          exact filter
      · refine List.pairwise_append.mpr ⟨formed.ascending, List.pairwise_singleton _ _, ?_⟩
        intro old member new last
        obtain rfl := List.mem_singleton.mp last
        exact formed.given old member
      · intro hook member
        rcases List.mem_append.mp member with old | new
        · exact Nat.lt_succ_of_lt (formed.given hook old)
        · obtain rfl := List.mem_singleton.mp new
          exact Nat.lt_succ_self table.next

/-- A table without some of its hooks is still well formed. -/
theorem sublist (formed : table.WellFormed) {hooks : List Hook}
    (fewer : hooks.Sublist table.hooks) : (⟨hooks, table.next⟩ : HookTable).WellFormed where
  served hook member := formed.served hook (fewer.subset member)
  filtered hook member := formed.filtered hook (fewer.subset member)
  ascending := formed.ascending.sublist fewer
  given hook member := formed.given hook (fewer.subset member)

theorem unregister (formed : table.WellFormed) {handle : HookHandle} {shorter : HookTable}
    (done : table.unregister handle = .ok shorter) : shorter.WellFormed := by
  unfold HookTable.unregister at done
  split at done
  · obtain rfl := Except.ok.inj done
    exact formed.sublist (List.eraseP_sublist)
  · contradiction

theorem clear (formed : table.WellFormed) : table.clear.WellFormed :=
  formed.sublist (List.nil_sublist _)

/-- Every hook looked up for an event can be handed the event. -/
theorem exists_args (formed : table.WellFormed) {event : Event} {handle : HookHandle}
    {callback : HookCallback}
    (listed : (handle, callback) ∈ table.lookup event.kind event.key event.insn) :
    ∃ args, event.args? callback.shape = some args := by
  obtain ⟨hook, member, same⟩ := List.mem_map.mp listed
  obtain ⟨-, rfl⟩ := Prod.mk.inj same
  obtain ⟨registered, listens⟩ := List.mem_filter.mp member
  have kind : hook.kind = event.kind := by
    simp only [Hook.listensTo, Bool.and_eq_true, beq_iff_eq] at listens
    exact listens.1.1
  have serves := formed.served hook registered
  rw [kind, ← Event.isSome_args?] at serves
  exact Option.isSome_iff_exists.mp serves

end WellFormed

end HookTable

end GuestMachine
