import GuestMachine.Hook.Call
import GuestMachine.Proofs.Hook.Table
import Mathlib.Data.List.Induction

/-!
Histories of hooks. A call takes away the hooks it is meant for and adds at most one behind those
that stay, under the next handle. So the table lists the hooks that were added and not taken away
since, as they were added and in that order, and a handle is given out once only.
-/

namespace GuestMachine

/-- Whether the call takes the hook with a handle away. -/
def HookCall.removes (handle : HookHandle) : HookCall → Bool
  | register .. => false
  | unregister other => handle == other
  | clear => true

/-- Whether a hook listens for an event of `kind` at `key`. A range whose first address is behind
its last one stands for every address. -/
def Hook.ListensTo (hook : Hook) (kind : EventKind) (key : UInt64) (insn : Option InsnId) : Prop :=
  hook.kind = kind ∧
    (hook.range.last < hook.range.first ∨ hook.range.first ≤ key ∧ key ≤ hook.range.last) ∧
    (hook.insn = none ∨ hook.insn = insn)

instance (hook : Hook) (kind : EventKind) (key : UInt64) (insn : Option InsnId) :
    Decidable (hook.ListensTo kind key insn) :=
  inferInstanceAs (Decidable (_ ∧ _ ∧ _))

theorem Hook.listensTo_eq_decide (hook : Hook) (kind : EventKind) (key : UInt64)
    (insn : Option InsnId) :
    hook.listensTo kind key insn = decide (hook.ListensTo kind key insn) := by
  rw [Bool.eq_iff_iff, decide_eq_true_iff]
  simp [listensTo, ListensTo, AddressRange.covers, AddressRange.isAll, and_assoc]

/-- Whether a hook was added in a history behind `earlier` calls, and none of the `later` ones took
it away. -/
structure Hook.Stems (hook : Hook) (calls earlier later : List HookCall) : Prop where
  split : calls = earlier ++ .register hook.kind hook.range hook.insn hook.callback :: later
  answered : ∃ longer, (HookTable.empty.replay earlier).register hook.kind hook.range hook.insn
    hook.callback = .ok (hook.handle, longer)
  stays : ∀ call ∈ later, call.removes hook.handle = false

namespace HookTable

variable {table : HookTable} {call : HookCall} {hook : Hook} {handle : HookHandle}

/-! Single calls. -/

theorem register_eq_ok {kind : EventKind} {range : AddressRange} {insn : Option InsnId}
    {callback : HookCallback} {longer : HookTable}
    (done : table.register kind range insn callback = .ok (handle, longer)) :
    handle = ⟨table.next⟩ ∧
      longer = ⟨table.hooks ++ [⟨handle, kind, range, insn, callback⟩], table.next + 1⟩ := by
  unfold register at done
  split at done
  · contradiction
  · split at done
    · contradiction
    · obtain ⟨rfl, rfl⟩ := Prod.mk.inj (Except.ok.inj done)
      exact ⟨rfl, rfl⟩

theorem added?_eq_some_iff :
    table.added? call = some hook ↔
      call = .register hook.kind hook.range hook.insn hook.callback ∧
        ∃ longer, table.register hook.kind hook.range hook.insn hook.callback =
          .ok (hook.handle, longer) := by
  constructor
  · intro adds
    cases call with
    | register kind range insn callback =>
      cases done : table.register kind range insn callback with
      | error cause => simp [added?, done, Except.toOption] at adds
      | ok answer =>
        simp only [added?, done, Except.toOption, Option.map_some] at adds
        obtain rfl := Option.some.inj adds
        exact ⟨rfl, answer.2, done⟩
    | unregister | clear => simp [added?] at adds
  · rintro ⟨rfl, longer, done⟩
    simp [added?, done, Except.toOption]

theorem handle_of_added? (adds : table.added? call = some hook) : hook.handle = ⟨table.next⟩ := by
  obtain ⟨-, longer, done⟩ := added?_eq_some_iff.mp adds
  exact (register_eq_ok done).1

/-- Where handles go up, the first hook with a handle is the only one. -/
theorem eraseP_eq_filter {hooks : List Hook}
    (ascending : hooks.Pairwise fun a b => a.handle.number < b.handle.number)
    (handle : HookHandle) :
    hooks.eraseP (fun hook => hook.handle == handle) =
      hooks.filter fun hook => !(hook.handle == handle) := by
  induction hooks with
  | nil => rfl
  | cons first rest ih =>
    obtain ⟨before, later⟩ := List.pairwise_cons.mp ascending
    by_cases here : first.handle = handle
    · subst here
      have others : ∀ hook ∈ rest, (!(hook.handle == first.handle)) = true := by
        intro hook member
        have less := before hook member
        rw [Bool.not_eq_true', beq_eq_false_iff_ne]
        intro same
        rw [same] at less
        exact Nat.lt_irrefl _ less
      rw [List.eraseP_cons_of_pos (by simp), List.filter_cons_of_neg (by simp),
        List.filter_eq_self.mpr others]
    · rw [List.eraseP_cons_of_neg (by simpa using here),
        List.filter_cons_of_pos (by simpa using here), ih later]

/-- A call takes away the hooks that it removes and adds at most one behind the others. -/
theorem WellFormed.hooks_after (formed : table.WellFormed) (call : HookCall) :
    (table.after call).hooks =
      table.hooks.filter (fun hook => !call.removes hook.handle) ++
        (table.added? call).toList := by
  cases call with
  | register kind range insn callback =>
    have stay : table.hooks.filter (fun hook =>
        !(HookCall.register kind range insn callback).removes hook.handle) = table.hooks :=
      List.filter_eq_self.mpr fun hook member => rfl
    rw [stay]
    cases done : table.register kind range insn callback with
    | error cause => simp [HookTable.after, attempt, added?, done, Except.map, Except.toOption]
    | ok answer =>
      obtain ⟨handle, longer⟩ := answer
      obtain ⟨-, rfl⟩ := register_eq_ok done
      simp [HookTable.after, attempt, added?, done, Except.map, Except.toOption]
  | unregister handle =>
    simp only [HookTable.after, attempt, added?, HookTable.unregister, HookCall.removes,
      Option.toList_none, List.append_nil]
    split
    · exact eraseP_eq_filter formed.ascending handle
    next missing =>
      refine (List.filter_eq_self.mpr fun hook member => ?_).symm
      by_contra same
      exact missing (List.any_eq_true.mpr ⟨hook, member, by simpa using same⟩)
  | clear =>
    simp [HookTable.after, attempt, added?, HookTable.clear, HookCall.removes, Except.toOption]

theorem next_after (table : HookTable) (call : HookCall) :
    (table.after call).next = table.next + (table.added? call).toList.length := by
  cases call with
  | register kind range insn callback =>
    cases done : table.register kind range insn callback with
    | error cause => simp [after, attempt, added?, done, Except.map, Except.toOption]
    | ok answer =>
      obtain ⟨handle, longer⟩ := answer
      obtain ⟨-, rfl⟩ := register_eq_ok done
      simp [after, attempt, added?, done, Except.map, Except.toOption]
  | unregister handle =>
    simp only [after, attempt, added?, unregister]
    split <;> rfl
  | clear => rfl

theorem WellFormed.after (formed : table.WellFormed) (call : HookCall) :
    (table.after call).WellFormed := by
  cases tried : table.attempt call with
  | error cause => simpa [HookTable.after, tried, Except.toOption] using formed
  | ok next =>
    have goes : table.after call = next := by simp [HookTable.after, tried, Except.toOption]
    rw [goes]
    cases call with
    | register kind range insn callback =>
      cases done : table.register kind range insn callback with
      | error cause => simp [attempt, done, Except.map] at tried
      | ok answer =>
        simp only [attempt, done, Except.map] at tried
        obtain rfl := Except.ok.inj tried
        exact formed.register done
    | unregister handle => exact formed.unregister tried
    | clear =>
      obtain rfl := Except.ok.inj tried
      exact formed.clear

/-! Histories. -/

@[simp] theorem replay_nil (table : HookTable) : table.replay [] = table := rfl

theorem replay_append (table : HookTable) (earlier later : List HookCall) :
    table.replay (earlier ++ later) = (table.replay earlier).replay later :=
  List.foldl_append

theorem replay_concat (table : HookTable) (earlier : List HookCall) (call : HookCall) :
    table.replay (earlier ++ [call]) = (table.replay earlier).after call :=
  replay_append table earlier [call]

theorem added_append (table : HookTable) (earlier later : List HookCall) :
    table.added (earlier ++ later) =
      table.added earlier ++ (table.replay earlier).added later := by
  induction earlier generalizing table with
  | nil => rfl
  | cons call rest ih =>
    simp only [List.cons_append, added, ih, List.append_assoc]
    rfl

theorem added_concat (table : HookTable) (earlier : List HookCall) (call : HookCall) :
    table.added (earlier ++ [call]) =
      table.added earlier ++ ((table.replay earlier).added? call).toList := by
  rw [added_append, added, added, List.append_nil]

theorem WellFormed.replay (formed : table.WellFormed) (calls : List HookCall) :
    (table.replay calls).WellFormed := by
  induction calls using List.reverseRecOn with
  | nil => exact formed
  | append_singleton earlier call ih =>
    rw [replay_concat]
    exact ih.after call

theorem next_replay (table : HookTable) (calls : List HookCall) :
    (table.replay calls).next = table.next + (table.added calls).length := by
  induction calls using List.reverseRecOn with
  | nil => rfl
  | append_singleton earlier call ih =>
    rw [replay_concat, next_after, ih, added_concat, List.length_append, Nat.add_assoc]

/-- Hooks are added under one handle after another. -/
theorem handles_added (table : HookTable) (calls : List HookCall) :
    (table.added calls).map Hook.handle =
      (List.range' table.next (table.added calls).length).map HookHandle.mk := by
  induction calls using List.reverseRecOn with
  | nil => rfl
  | append_singleton earlier call ih =>
    rw [added_concat, List.map_append, ih]
    cases adds : (table.replay earlier).added? call with
    | none => simp
    | some hook =>
      simp [List.range'_concat, handle_of_added? adds, next_replay]

/-- The table lists hooks as they were added, in that order. -/
theorem hooks_replay_sublist (calls : List HookCall) :
    (empty.replay calls).hooks.Sublist (empty.added calls) := by
  induction calls using List.reverseRecOn with
  | nil => exact List.Sublist.refl []
  | append_singleton earlier call ih =>
    rw [replay_concat, (wellFormed_empty.replay earlier).hooks_after, added_concat]
    exact (List.filter_sublist.trans ih).append (List.Sublist.refl _)

theorem WellFormed.mem_hooks_after (formed : table.WellFormed) :
    hook ∈ (table.after call).hooks ↔
      hook ∈ table.hooks ∧ call.removes hook.handle = false ∨ table.added? call = some hook := by
  rw [formed.hooks_after, List.mem_append, List.mem_filter, Option.mem_toList,
    Bool.not_eq_eq_eq_not, Bool.not_true]

/-- The table lists exactly the hooks that were added and not taken away since: the last call took
a hook away, added it, or left it alone. -/
theorem mem_hooks_replay_iff (calls : List HookCall) (hook : Hook) :
    hook ∈ (empty.replay calls).hooks ↔ ∃ earlier later, hook.Stems calls earlier later := by
  induction calls using List.reverseRecOn with
  | nil =>
    constructor
    · intro member
      simp [empty] at member
    · rintro ⟨earlier, later, stems⟩
      simpa using stems.split
  | append_singleton past call ih =>
    rw [replay_concat, (wellFormed_empty.replay past).mem_hooks_after, ih]
    constructor
    · rintro (⟨⟨earlier, later, stems⟩, stays⟩ | adds)
      · refine ⟨earlier, later ++ [call], by simp [stems.split], stems.answered, ?_⟩
        intro other known
        rcases List.mem_append.mp known with before | last
        · exact stems.stays other before
        · obtain rfl := List.mem_singleton.mp last
          exact stays
      · obtain ⟨rfl, answered⟩ := added?_eq_some_iff.mp adds
        exact ⟨past, [], rfl, answered, by simp⟩
    · rintro ⟨earlier, later, stems⟩
      rcases List.eq_nil_or_concat later with rfl | ⟨between, last, rfl⟩
      · obtain ⟨rfl, same⟩ := List.append_inj' stems.split rfl
        obtain rfl := (List.cons.inj same).1
        exact .inr (added?_eq_some_iff.mpr ⟨rfl, stems.answered⟩)
      · have split : past ++ [call] = (earlier ++
            .register hook.kind hook.range hook.insn hook.callback :: between) ++ [last] := by
          rw [stems.split, List.append_assoc, List.cons_append, List.concat_eq_append]
        obtain ⟨rfl, same⟩ := List.append_inj' split rfl
        obtain rfl := (List.cons.inj same).1
        refine .inl ⟨⟨earlier, between, rfl, stems.answered, fun other known => ?_⟩, ?_⟩
        · exact stems.stays other (by simp [known])
        · exact stems.stays call (by simp)

/-! Handles that have been taken away. -/

theorem contains_eq_true_iff : table.contains handle = true ↔
    ∃ hook ∈ table.hooks, hook.handle = handle := by
  simp [contains]

/-- A handle that was given out and is gone does not come back. -/
theorem WellFormed.not_contains_replay (formed : table.WellFormed)
    (given : handle.number < table.next) (gone : table.contains handle = false)
    (later : List HookCall) : (table.replay later).contains handle = false := by
  induction later using List.reverseRecOn with
  | nil => exact gone
  | append_singleton earlier call ih =>
    rw [replay_concat]
    by_contra back
    obtain ⟨hook, member, rfl⟩ := contains_eq_true_iff.mp (by simpa using back)
    rcases (formed.replay earlier).mem_hooks_after.mp member with ⟨old, -⟩ | adds
    · rw [contains_eq_true_iff.mpr ⟨hook, old, rfl⟩] at ih
      contradiction
    · rw [handle_of_added? adds, next_replay] at given
      simp only at given
      omega

/-- Hooks are added under handles that were not given out before. -/
theorem le_handle_of_mem_added {calls : List HookCall} (member : hook ∈ table.added calls) :
    table.next ≤ hook.handle.number := by
  have listed := List.mem_map_of_mem (f := Hook.handle) member
  rw [handles_added] at listed
  obtain ⟨number, range, same⟩ := List.mem_map.mp listed
  rw [← same]
  exact (List.mem_range'_1.mp range).1

/-! The law. -/

/-- How a table follows from its history. -/
structure FollowsHistory (table : HookTable) (calls : List HookCall) : Prop where
  /-- The n-th hook added gets handle n; what fails adds none. -/
  numbered : (empty.added calls).map Hook.handle =
    (List.range' 1 (empty.added calls).length).map HookHandle.mk
  /-- The hook added next gets the number behind these. -/
  answers : ∀ {kind : EventKind} {range : AddressRange} {insn : Option InsnId}
    {callback : HookCallback} {handle : HookHandle} {longer : HookTable},
    table.register kind range insn callback = .ok (handle, longer) →
      handle = ⟨(empty.added calls).length + 1⟩
  /-- As long as fewer hooks are added than there are words, each handle is one. -/
  words : (empty.added calls).length < UInt64.size - 1 →
    ∀ hook ∈ empty.added calls, hook.handle.number < UInt64.size
  ascending : table.hooks.Pairwise fun a b => a.handle.number < b.handle.number
  /-- Hooks are listed in the order in which they were added. -/
  ordered : table.hooks.Sublist (empty.added calls)
  /-- Those are listed that were added and not taken away since. -/
  listed : ∀ hook, hook ∈ table.hooks ↔ ∃ earlier later, hook.Stems calls earlier later
  /-- A handle that was taken away is unknown from then on and not given out again. -/
  gone : ∀ earlier call later, calls = earlier ++ call :: later →
    ∀ handle, (empty.replay earlier).contains handle = true → call.removes handle = true →
      table.contains handle = false ∧ table.unregister handle = .error (.unknownHandle handle) ∧
        ∀ hook ∈ (empty.replay (earlier ++ [call])).added later, hook.handle ≠ handle
  /-- Those are looked up, in the order of the table, that listen for the event. -/
  lookup : ∀ kind key insn, table.lookup kind key insn =
    (table.hooks.filter fun hook => decide (hook.ListensTo kind key insn)).map fun hook =>
      (hook.handle, hook.callback)

theorem followsHistory (calls : List HookCall) : (empty.replay calls).FollowsHistory calls where
  numbered := handles_added empty calls
  answers done := by
    rw [(register_eq_ok done).1, next_replay, Nat.add_comm]
    rfl
  words few hook member := by
    have listed := List.mem_map_of_mem (f := Hook.handle) member
    rw [handles_added] at listed
    obtain ⟨number, range, same⟩ := List.mem_map.mp listed
    have bound : number < 1 + (empty.added calls).length := (List.mem_range'_1.mp range).2
    rw [← same]
    change number < UInt64.size
    omega
  ascending := (wellFormed_empty.replay calls).ascending
  ordered := hooks_replay_sublist calls
  listed := mem_hooks_replay_iff calls
  gone := by
    intro earlier call later split handle known removes
    have formed := wellFormed_empty.replay earlier
    obtain ⟨old, member, rfl⟩ := contains_eq_true_iff.mp known
    have given : old.handle.number < (empty.replay (earlier ++ [call])).next := by
      rw [replay_concat, next_after]
      exact Nat.lt_add_right _ (formed.given old member)
    have absent : (empty.replay (earlier ++ [call])).contains old.handle = false := by
      rw [replay_concat]
      by_contra back
      obtain ⟨hook, listed, same⟩ := contains_eq_true_iff.mp (by simpa using back)
      rcases formed.mem_hooks_after.mp listed with ⟨-, stays⟩ | adds
      · rw [same, removes] at stays
        contradiction
      · have fresh := formed.given old member
        rw [← same, handle_of_added? adds] at fresh
        exact Nat.lt_irrefl _ fresh
    have forever := (wellFormed_empty.replay (earlier ++ [call])).not_contains_replay given absent
      later
    rw [← replay_append, List.append_assoc, List.singleton_append, ← split] at forever
    refine ⟨forever, by simp [unregister, forever], fun hook added same => ?_⟩
    have := le_handle_of_mem_added added
    rw [same] at this
    omega
  lookup kind key insn := by
    simp only [HookTable.lookup, Hook.listensTo_eq_decide]

end HookTable

end GuestMachine
