import GuestMachine.Proofs.Hook.History

/-!
Events, one after another: what hooks are matched against for each of them, and what it hands to
their callbacks.
-/

namespace GuestMachine

namespace Event

/-- What hooks are matched against for an event: its kind, the address looked for in their ranges,
and the identifier of an entered instruction. -/
inductive Announces : Event → EventKind → UInt64 → Option InsnId → Prop
  | blockEnter (address : UInt64) (size : Nat) :
      Announces (.blockEnter address size) .blockEnter address none
  | instructionEnter (address : UInt64) (size : Nat) (insn : Option InsnId) :
      Announces (.instructionEnter address size insn) .instructionEnter address insn
  | memoryRead (address : UInt64) (size : Nat) :
      Announces (.memoryRead address size) .memoryRead address none
  | memoryWrite (address : UInt64) (size : Nat) (value : UInt64) :
      Announces (.memoryWrite address size value) .memoryWrite address none
  | memoryReadUnmapped (address : UInt64) (size : Nat) (value : UInt64) :
      Announces (.memoryUnmapped .read address size value) .memoryReadUnmapped address none
  | memoryWriteUnmapped (address : UInt64) (size : Nat) (value : UInt64) :
      Announces (.memoryUnmapped .write address size value) .memoryWriteUnmapped address none
  | memoryFetchUnmapped (address : UInt64) (size : Nat) (value : UInt64) :
      Announces (.memoryUnmapped .fetch address size value) .memoryFetchUnmapped address none
  | portIn (address : UInt64) (port size : Nat) :
      Announces (.portIn address port size) .portIn address none
  | portOut (address : UInt64) (port size : Nat) (value : UInt64) :
      Announces (.portOut address port size value) .portOut address none
  | interrupt (address : UInt64) (number : Nat) :
      Announces (.interrupt address number) .interrupt address none

/-- What an event hands to a callback of a shape: its own data, a value only where it writes. -/
inductive Hands : Event → (shape : HookShape) → shape.Args → Prop
  | blockEnter (address : UInt64) (size : Nat) :
      Hands (.blockEnter address size) .code { address := address, size := size }
  | instructionEnter (address : UInt64) (size : Nat) (insn : Option InsnId) :
      Hands (.instructionEnter address size insn) .code { address := address, size := size }
  | memoryRead (address : UInt64) (size : Nat) :
      Hands (.memoryRead address size) .memoryAccess
        { kind := .read, address := address, size := size, value := 0 }
  | memoryWrite (address : UInt64) (size : Nat) (value : UInt64) :
      Hands (.memoryWrite address size value) .memoryAccess
        { kind := .write, address := address, size := size, value := value }
  | memoryUnmapped (access : AccessKind) (address : UInt64) (size : Nat) (value : UInt64) :
      Hands (.memoryUnmapped access address size value) .memoryFault
        { kind := access, address := address, size := size, value := value }
  | portIn (address : UInt64) (port size : Nat) :
      Hands (.portIn address port size) .portIn { port := port, size := size }
  | portOut (address : UInt64) (port size : Nat) (value : UInt64) :
      Hands (.portOut address port size value) .portOut
        { port := port, size := size, value := value }
  | interrupt (address : UInt64) (number : Nat) :
      Hands (.interrupt address number) .interrupt number

variable {event : Event} {shape : HookShape}

theorem announces_iff {kind : EventKind} {key : UInt64} {insn : Option InsnId} :
    event.Announces kind key insn ↔ kind = event.kind ∧ key = event.key ∧ insn = event.insn := by
  constructor
  · intro announced
    cases announced <;> exact ⟨rfl, rfl, rfl⟩
  · rintro ⟨rfl, rfl, rfl⟩
    cases event with
    | memoryUnmapped access => cases access <;> constructor
    | _ => constructor

theorem Hands.args?_eq {args : shape.Args} (hands : event.Hands shape args) :
    event.args? shape = some args := by
  cases hands <;> rfl

theorem args?_eq_some_iff {args : shape.Args} :
    event.args? shape = some args ↔ event.Hands shape args := by
  refine ⟨fun handed => ?_, Hands.args?_eq⟩
  cases event <;> cases shape <;> cases handed <;> constructor

/-- Only accesses to unmapped memory are handed to callbacks that resolve faults. -/
theorem Hands.eq_memoryUnmapped {access : MemoryAccess} (hands : event.Hands .memoryFault access) :
    event = .memoryUnmapped access.kind access.address access.size access.value := by
  cases hands
  rfl

end Event

/-- Whether a hook is one that an event is for. -/
def Hook.Hears (hook : Hook) (event : Event) : Prop :=
  ∃ kind key insn, event.Announces kind key insn ∧ hook.ListensTo kind key insn

theorem Hook.hears_iff {hook : Hook} {event : Event} :
    hook.Hears event ↔ hook.ListensTo event.kind event.key event.insn := by
  constructor
  · rintro ⟨kind, key, insn, announced, listens⟩
    obtain ⟨rfl, rfl, rfl⟩ := Event.announces_iff.mp announced
    exact listens
  · exact fun listens => ⟨_, _, _, Event.announces_iff.mpr ⟨rfl, rfl, rfl⟩, listens⟩

instance (hook : Hook) (event : Event) : Decidable (hook.Hears event) :=
  decidable_of_iff _ Hook.hears_iff.symm

namespace HookTable

/-- Those are looked up for an event, in the order of the table, that it is for. -/
theorem lookup_eq_hearing (table : HookTable) (event : Event) :
    table.lookup event.kind event.key event.insn =
      (table.hooks.filter fun hook => decide (hook.Hears event)).map fun hook =>
        (hook.handle, hook.callback) := by
  simp only [lookup, Hook.listensTo_eq_decide, Hook.hears_iff]

theorem WellFormed.exists_hands {table : HookTable} (formed : table.WellFormed) {event : Event}
    {handle : HookHandle} {callback : HookCallback}
    (listed : (handle, callback) ∈ table.lookup event.kind event.key event.insn) :
    ∃ args, event.Hands callback.shape args := by
  obtain ⟨args, handed⟩ := formed.exists_args listed
  exact ⟨args, Event.args?_eq_some_iff.mp handed⟩

end HookTable

end GuestMachine
