import GuestMachine.Proofs.Session.Context

/-!
Contexts as they are restored, saved ones and others. Of several values for one register the last
one is restored, cut to the width of the register, while a look at the context finds the first.
The two agree on every register that has one value in the list, so on all of them if the context
was saved. A register that is not listed keeps its value.
-/

namespace GuestMachine

/-! The first value listed for a register, and the last. -/

theorem Context.value?_eq_none_iff {context : Context} {id : RegId} :
    context.value? id = none ↔ ∀ entry ∈ context.values, entry.1 ≠ id := by
  simp [Context.value?]

theorem Context.mem_values_of_value? {context : Context} {id : RegId} {value : UInt64}
    (found : context.value? id = some value) : (id, value) ∈ context.values := by
  obtain ⟨⟨named, value⟩, listed, rfl⟩ := Option.map_eq_some_iff.mp found
  have same : named = id := by simpa using List.find?_some listed
  rw [← same]
  exact List.mem_of_find?_eq_some listed

/-- Of the values listed for a register there is a last one. -/
theorem exists_lastFor {id : RegId} {entries : List (RegId × UInt64)} {entry : RegId × UInt64}
    (member : entry ∈ entries) (named : entry.1 = id) :
    ∃ last, lastFor id entries = some last ∧ (id, last) ∈ entries := by
  have listed : (entries.reverse.find? fun entry => entry.1 == id).isSome :=
    List.find?_isSome.mpr ⟨entry, List.mem_reverse.mpr member, by simpa using named⟩
  obtain ⟨⟨other, last⟩, found⟩ := Option.isSome_iff_exists.mp listed
  obtain rfl : other = id := by simpa using List.find?_some found
  exact ⟨last, by rw [lastFor, found]; rfl, List.mem_reverse.mp (List.mem_of_find?_eq_some found)⟩

/-- Restoring stores the values in turn. All their registers are there, or it fails. -/
theorem RegisterBank.restore_eq_ok {bank restored : RegisterBank}
    {values : List (RegId × UInt64)} (done : bank.restore values = .ok restored) :
    (∀ entry ∈ values, bank.has entry.1 = true) ∧ restored = bank.storeEach values := by
  have known : ∀ entry ∈ values, bank.has entry.1 = true := by
    unfold restore at done
    split at done
    · contradiction
    next none => simpa using none
  rw [restore_of_known known] at done
  exact ⟨known, (Except.ok.inj done).symm⟩

namespace Session

variable {W E : Type} {host : Host W} {engine : Engine W E} {session restored : Session W E}
  {context : Context} {id : RegId}

/-- A context is restored in an open session, and stores its values in turn. -/
theorem restoreContext_eq_ok (accepted : restoreContext context session = .ok () restored) :
    session.state.isOpen = true ∧
      (∀ entry ∈ context.values, session.machine.registers.has entry.1 = true) ∧
      restored = { session with
        machine := { session.machine with
          registers := session.machine.registers.storeEach context.values } } := by
  by_cases isOpen : session.state.isOpen = true
  · by_cases kind : context.arch = session.machine.arch ∧ context.mode = session.machine.mode
    · cases done : session.machine.registers.restore context.values with
      | error cause => simp [restoreContext, requireOpen_apply, isOpen, kind, done] at accepted
      | ok registers =>
        obtain ⟨known, rfl⟩ := RegisterBank.restore_eq_ok done
        refine ⟨isOpen, known, ?_⟩
        simpa [restoreContext, requireOpen_apply, isOpen, kind, done] using accepted.symm
    · simp [restoreContext, requireOpen_apply, isOpen, kind] at accepted
  · simp [restoreContext, requireOpen_apply, isOpen] at accepted

/-- The slot of a register of the guest, with its description. -/
theorem Reachable.exists_slot (reached : Reachable host engine session)
    (there : session.machine.registers.has id = true) :
    ∃ slot, RegisterBank.slotOf? session.machine.registers.slots id = some slot ∧
      slot.spec ∈ (session.registerLayout engine).registers ∧ slot.spec.id = id ∧
      slot.spec.bits ≤ 64 := by
  obtain ⟨fresh, declared, same⟩ := reached.exists_ofLayout
  obtain ⟨slot, found⟩ := Option.isSome_iff_exists.mp there
  have described : fresh.spec? id = some slot.spec := by
    rw [← RegisterBank.spec?_eq_of_layout_eq same, RegisterBank.spec?, found]
    rfl
  obtain ⟨zeroed, here, spec⟩ := Option.map_eq_some_iff.mp described
  obtain ⟨listed, -⟩ := (RegisterBank.slotOf?_ofLayout_eq_some_iff declared).mp here
  rw [spec] at listed
  have formed := reached.wellFormed.registers
  exact ⟨slot, found, listed.1, listed.2, (formed.widths slot (List.mem_of_find?_eq_some found)).2⟩

/-- Whether a register of the guest reads the bits of `value` that fit it. -/
def ReadsCut (engine : Engine W E) (session : Session W E) (id : RegId) (value : UInt64) : Prop :=
  ∃ spec ∈ (session.registerLayout engine).registers, spec.id = id ∧
    ∃ held, readRegister id session = .ok held session ∧
      held.toNat = value.toNat % 2 ^ spec.bits

/-- A register that a context lists reads the last value listed for it. -/
theorem readsCut_of_lastFor (reached : Reachable host engine session)
    (accepted : restoreContext context session = .ok () restored) {last : UInt64}
    (listed : lastFor id context.values = some last) (member : (id, last) ∈ context.values) :
    restored.ReadsCut engine id last := by
  obtain ⟨isOpen, known, stored⟩ := restoreContext_eq_ok accepted
  obtain ⟨slot, found, declared, named, narrow⟩ := reached.exists_slot (known _ member)
  have openNow : restored.state.isOpen = true := by rwa [stored]
  have reads : restored.machine.registers.read id = .ok (last &&& slot.spec.mask) := by
    rw [stored]
    exact RegisterBank.read_storeEach_of_lastFor found listed
  refine ⟨slot.spec, ?_, named, _, readRegister_apply_of_open openNow reads,
    RegisterSpec.and_mask_toNat narrow last⟩
  rw [stored]
  exact declared

/-- A register that a context does not list keeps its value. -/
theorem read_restored_of_unlisted (reached : Reachable host engine session)
    (accepted : restoreContext context session = .ok () restored)
    (declared : (session.registerLayout engine).Declares id)
    (others : ∀ entry ∈ context.values, entry.1 ≠ id) :
    ∃ held, readRegister id session = .ok held session ∧
      readRegister id restored = .ok held restored := by
  obtain ⟨isOpen, -, stored⟩ := restoreContext_eq_ok accepted
  obtain ⟨slot, found⟩ :=
    Option.isSome_iff_exists.mp ((reached.has_iff_declares id).mpr declared)
  have none : lastFor id context.values = none := lastFor_append_of_forall_ne others []
  have openNow : restored.state.isOpen = true := by rwa [stored]
  refine ⟨slot.value, readRegister_apply_of_open isOpen (by rw [RegisterBank.read, found]),
    readRegister_apply_of_open openNow ?_⟩
  rw [stored, RegisterBank.read_storeEach_of_none none, RegisterBank.read, found]

/-- A saved context lists every register once. -/
theorem distinct_of_saveContext {source left : Session W E}
    (reached : Reachable host engine source) (saved : saveContext source = .ok context left) :
    context.values.Pairwise fun a b => a.1 ≠ b.1 := by
  rw [saveContext_apply] at saved
  split at saved
  · obtain ⟨rfl, -⟩ := EStateM.Result.ok.inj saved
    exact reached.wellFormed.registers.distinct_snapshot
  · contradiction

/-- How the registers read once a context has been restored. -/
structure Restores (host : Host W) (engine : Engine W E) (context : Context)
    (session restored : Session W E) : Prop where
  /-- Of the values listed for a register the last one counts. -/
  last : ∀ id value, context.value? id = some value → ∃ last,
    lastFor id context.values = some last ∧ restored.ReadsCut engine id last
  /-- It is the one that a look at the context finds, unless the list has another. -/
  listed : ∀ id value, context.value? id = some value →
    (∀ entry ∈ context.values, entry.1 = id → entry.2 = value) → restored.ReadsCut engine id value
  /-- So a saved context is restored as it is looked at. -/
  saved : ∀ source left : Session W E, Reachable host engine source →
    saveContext source = .ok context left →
      ∀ id value, context.value? id = some value → restored.ReadsCut engine id value
  unlisted : ∀ id, (session.registerLayout engine).Declares id → context.value? id = none →
    ∃ held, readRegister id session = .ok held session ∧
      readRegister id restored = .ok held restored

theorem restored_context_law (reached : Reachable host engine session)
    (accepted : restoreContext context session = .ok () restored) :
    Restores host engine context session restored := by
  have last (id : RegId) (value : UInt64) (found : context.value? id = some value) :
      ∃ last, lastFor id context.values = some last ∧ (id, last) ∈ context.values ∧
        restored.ReadsCut engine id last := by
    obtain ⟨last, listed, member⟩ := exists_lastFor (Context.mem_values_of_value? found) rfl
    exact ⟨last, listed, member, readsCut_of_lastFor reached accepted listed member⟩
  have listed (id : RegId) (value : UInt64) (found : context.value? id = some value)
      (alone : ∀ entry ∈ context.values, entry.1 = id → entry.2 = value) :
      restored.ReadsCut engine id value := by
    obtain ⟨last, -, member, reads⟩ := last id value found
    obtain rfl : last = value := alone _ member rfl
    exact reads
  exact {
    last := fun id value found => by
      obtain ⟨last, listed, -, reads⟩ := last id value found
      exact ⟨last, listed, reads⟩
    listed := listed
    saved := fun source left sourceReached saved id value found => by
      refine listed id value found fun entry member named => ?_
      have distinct := distinct_of_saveContext sourceReached saved
      have first := lastFor_of_mem distinct (Context.mem_values_of_value? found)
      rw [← named, lastFor_of_mem distinct member] at first
      exact Option.some.inj first
    unlisted := fun id declared none =>
      read_restored_of_unlisted reached accepted declared (Context.value?_eq_none_iff.mp none) }

/-- Values that are out of order, too wide or listed twice. -/
theorem restored_context_law_of_repeated_value :
    ∃ session restored : Session Unit Tiny.State, Reachable Host.obliging Tiny.engine session ∧
      let context : Context :=
        ⟨.x86, .bits32, [(Tiny.ecx, 0x100000003), (Tiny.eax, 1), (Tiny.eax, 2)]⟩
      restoreContext context session = .ok () restored ∧
        Restores Host.obliging Tiny.engine context session restored := by
  have opened : create Tiny.engine .initial () .x86 .bits32 =
    .ok (_ : Session Unit Tiny.State) := rfl
  have reached : Reachable Host.obliging Tiny.engine _ := .created opened
  exact ⟨_, _, reached, rfl, restored_context_law reached rfl⟩

/-- A register with two values in the list reads the second, where a look at the context finds the
first. -/
theorem restored_register_may_differ_from_context :
    ¬∀ (session restored : Session Unit Tiny.State) (context : Context),
      Reachable Host.obliging Tiny.engine session →
      restoreContext context session = .ok () restored →
      ∀ id value, context.value? id = some value → restored.ReadsCut Tiny.engine id value := by
  intro agrees
  have opened : create Tiny.engine .initial () .x86 .bits32 =
    .ok (_ : Session Unit Tiny.State) := rfl
  obtain ⟨spec, -, -, held, reads, cut⟩ := agrees _ _
    ⟨.x86, .bits32, [(Tiny.eax, 1), (Tiny.eax, 2)]⟩ (.created opened) rfl Tiny.eax 1 rfl
  obtain rfl : 2 = held := (EStateM.Result.ok.inj reads).1
  have less : 1 % 2 ^ spec.bits ≤ 1 := Nat.mod_le _ _
  have cut : 2 = 1 % 2 ^ spec.bits := cut
  omega

end Session

end GuestMachine
