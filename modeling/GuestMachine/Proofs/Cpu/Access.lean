import GuestMachine.Proofs.Cpu.Latch

/-!
The course of a guest access. An access raises at most two events: one if its first missing byte
is unmapped, and then, if the range is allowed, one for the hooks that trace it. Memory as these
hooks leave it decides what the access comes to, whatever they did to it.
-/

namespace GuestMachine

/-- An access that an engine makes for its guest. -/
inductive GuestAccess where
  | fetch (address : UInt64) (size : Nat)
  | read (address : UInt64) (size : Nat)
  | write (address : UInt64) (bytes : ByteArray)

namespace GuestAccess

def kind : GuestAccess → AccessKind
  | fetch .. => .fetch
  | read .. => .read
  | write .. => .write

def address : GuestAccess → UInt64
  | fetch address _ => address
  | read address _ => address
  | write address _ => address

def size : GuestAccess → Nat
  | fetch _ size => size
  | read _ size => size
  | write _ bytes => bytes.size

/-- Value that the access writes, in the byte order of a mode; zero unless it writes. -/
def value (mode : Mode) : GuestAccess → UInt64
  | write _ bytes => mode.decodeUInt bytes
  | _ => 0

/-- The event of an access that meets unmapped memory. -/
def unmappedEvent (mode : Mode) (access : GuestAccess) : Event :=
  .memoryUnmapped access.kind access.address access.size (access.value mode)

/-- The event that traces the access. Fetches are not traced. -/
def traceEvent? (mode : Mode) : GuestAccess → Option Event
  | fetch .. => none
  | read address size => some (.memoryRead address size)
  | write address bytes => some (.memoryWrite address bytes.size (mode.decodeUInt bytes))

@[reducible] def Answer : GuestAccess → Type
  | fetch .. => ByteArray
  | read .. => ByteArray
  | write .. => Unit

/-- The access as the processor makes it. -/
def perform {W : Type} (host : Host W) : (access : GuestAccess) → Attempt (Cpu W) access.Answer
  | fetch address size => Cpu.fetch host address size
  | read address size => Cpu.readMemory host address size
  | write address bytes => Cpu.writeMemory host address bytes

/-- What the access makes of memory: its answer, and memory after it. -/
def touch (memory : MemoryMap) : (access : GuestAccess) → Except Error (access.Answer × MemoryMap)
  | fetch address size =>
    (memory.readWith (some .exec) address size).map fun bytes => (bytes, memory)
  | read address size =>
    (memory.readWith (some .read) address size).map fun bytes => (bytes, memory)
  | write address bytes =>
    (memory.writeWith (some .write) address bytes).map fun written => ((), written)

/-! What memory says to an access. -/

/-- Every byte of the range is mapped with the permission that the access needs. -/
def Allowed (access : GuestAccess) (memory : MemoryMap) : Prop :=
  memory.Covers (some access.kind.required) access.address.toNat access.size

/-- The lowest byte that is not is unmapped. -/
def Unmapped (access : GuestAccess) (memory : MemoryMap) : Prop :=
  ∃ refused, memory.FirstRefused (some access.kind.required) access.address.toNat access.size
    refused ∧ ¬memory.Mapped refused

/-- The lowest byte that is not is mapped, but without the permission. -/
def Denied (access : GuestAccess) (memory : MemoryMap) : Prop :=
  ∃ refused, memory.FirstRefused (some access.kind.required) access.address.toNat access.size
    refused ∧ memory.Mapped refused

variable {access : GuestAccess} {memory : MemoryMap} {α : Type}

theorem Unmapped.not_allowed (unmapped : access.Unmapped memory) : ¬access.Allowed memory := by
  obtain ⟨refused, first, -⟩ := unmapped
  exact first.not_covers

theorem Denied.not_allowed (denied : access.Denied memory) : ¬access.Allowed memory := by
  obtain ⟨refused, first, -⟩ := denied
  exact first.not_covers

theorem Denied.not_unmapped (denied : access.Denied memory) : ¬access.Unmapped memory := by
  obtain ⟨refused, first, mapped⟩ := denied
  rintro ⟨other, second, free⟩
  rw [first.unique second] at mapped
  exact free mapped

theorem check_decides (formed : memory.WellFormed) (access : GuestAccess) :
    memory.Decides (some access.kind.required) access.address.toNat access.size
      (memory.check access.address access.size access.kind.required) :=
  formed.check_decides _ _ _

/-- The access itself goes through exactly where its check does. -/
theorem touch_decides (formed : memory.WellFormed) (access : GuestAccess) :
    memory.Decides (some access.kind.required) access.address.toNat access.size
      (access.touch memory) := by
  cases access with
  | fetch address size => exact (formed.readWith_decides _ address size).map _
  | read address size => exact (formed.readWith_decides _ address size).map _
  | write address bytes => exact (formed.writeWith_decides _ address bytes).map _

end GuestAccess

namespace Machine

/-- Dispatches events in turn, up to the first that fails. -/
def raiseAll {W : Type} (host : Host W) : List Event → Attempt (Machine W) Unit
  | [] => pure ()
  | event :: rest => do
    discard (dispatch host host.nesting event)
    raiseAll host rest

variable {W : Type} {host : Host W} {machine : Machine W}

theorem raiseAll_append (first rest : List Event) :
    raiseAll host (first ++ rest) machine =
      match raiseAll host first machine with
      | .ok () left => raiseAll host rest left
      | .error failure left => .error failure left := by
  induction first generalizing machine with
  | nil => rfl
  | cons event later ih =>
    simp only [List.cons_append, raiseAll, bind_apply, discard_apply]
    cases dispatch host host.nesting event machine with
    | ok result left => exact ih
    | error failure left => rfl

theorem wellFormed_of_raiseAll (formed : machine.memory.WellFormed) {events : List Event}
    {left : Machine W} (raised : raiseAll host events machine = .ok () left) :
    left.memory.WellFormed := by
  have keeps : Keeps (Evolves host) (raiseAll host events) := by
    clear raised
    induction events with
    | nil => exact Keeps.pure ()
    | cons event rest ih => exact (keeps_dispatch host _ event).discard.bind fun _ => ih
  exact (keeps.of_ok raised).keeps (fun _ _ => Change.memory) formed

end Machine

namespace GuestAccess

variable {W : Type} {host : Host W}

/-- An access behind its check: it is traced and then made. -/
def carryOut (host : Host W) (mode : Mode) (access : GuestAccess) :
    Attempt (Cpu W) access.Answer := do
  match access.traceEvent? mode with
  | some event => discard (Cpu.notify host event)
  | none => pure ()
  let (answer, memory) ← Cpu.accessResult access.kind access.address access.size
    (access.touch (← get).machine.memory)
  modify fun cpu => { cpu with machine := { cpu.machine with memory := memory } }
  return answer

theorem perform_eq_carryOut (host : Host W) (access : GuestAccess) (cpu : Cpu W) :
    access.perform host cpu =
      match Cpu.require host access.kind access.address access.size
        (access.value cpu.machine.mode) cpu with
      | .ok () after => access.carryOut host cpu.machine.mode after
      | .error failure after => .error failure after := by
  cases access with
  | fetch address size =>
    simp only [perform, Cpu.fetch, bind_apply, get_apply, GuestAccess.kind, GuestAccess.address,
      GuestAccess.size, value]
    cases Cpu.require host .fetch address size 0 cpu with
    | ok _ after =>
      simp only [carryOut, traceEvent?, touch, bind_apply, pure_apply, get_apply, modify_apply,
        Cpu.accessResult_apply]
      cases after.machine.memory.readWith (some .exec) address size <;> rfl
    | error failure after => rfl
  | read address size =>
    simp only [perform, Cpu.readMemory, bind_apply, get_apply, GuestAccess.kind,
      GuestAccess.address, GuestAccess.size, value]
    cases Cpu.require host .read address size 0 cpu with
    | ok _ after =>
      simp only [carryOut, traceEvent?, touch, bind_apply, discard_apply, pure_apply, get_apply,
        modify_apply, Cpu.accessResult_apply]
      cases Cpu.notify host (.memoryRead address size) after with
      | ok result left =>
        simp only
        cases left.machine.memory.readWith (some .read) address size <;> rfl
      | error failure left => rfl
    | error failure after => rfl
  | write address bytes =>
    simp only [perform, Cpu.writeMemory, bind_apply, get_apply, GuestAccess.kind,
      GuestAccess.address, GuestAccess.size, value]
    cases Cpu.require host .write address bytes.size (cpu.machine.mode.decodeUInt bytes) cpu with
    | ok _ after =>
      simp only [carryOut, traceEvent?, touch, bind_apply, discard_apply, pure_apply, get_apply,
        modify_apply, Cpu.accessResult_apply]
      cases Cpu.notify host
        (.memoryWrite address bytes.size (cpu.machine.mode.decodeUInt bytes)) after with
      | ok result left =>
        simp only
        cases left.machine.memory.writeWith (some .write) address bytes <;> rfl
      | error failure left => rfl
    | error failure after => rfl

/-- What an access comes to, given what came of the events that it raised. -/
inductive Ends (access : GuestAccess) :
    EStateM.Result Failure (Machine W) Unit → EStateM.Result Failure (Cpu W) access.Answer → Prop
  | granted {machine : Machine W} {answer : access.Answer} {memory : MemoryMap}
      (allowed : access.Allowed machine.memory)
      (made : access.touch machine.memory = .ok (answer, memory)) :
      Ends access (.ok () machine) (.ok answer ⟨{ machine with memory := memory }, none⟩)
  | unmapped {machine : Machine W} (unmapped : access.Unmapped machine.memory) :
      Ends access (.ok () machine)
        (.error (.error (.unmappedAccess access.kind access.address access.size))
          ⟨machine, some (.unmappedAccess access.kind access.address access.size)⟩)
  | denied {machine : Machine W} (denied : access.Denied machine.memory) :
      Ends access (.ok () machine)
        (.error (.error (.protectedAccess access.kind access.address access.size))
          ⟨machine, some (.protectedAccess access.kind access.address access.size)⟩)
  | failed (cause : Error) (machine : Machine W) :
      Ends access (.error (.error cause) machine) (.error (.error cause) ⟨machine, some cause⟩)
  | brokenOff (cause : Abort) (machine : Machine W) :
      Ends access (.error (.abort cause) machine) (.error (.abort cause) ⟨machine, none⟩)

/-- How an access goes that raises `opening` before its last check and `closing` behind it. The
first holds the event of unmapped memory exactly if the first check finds some, the second the
event that traces the access exactly if its range is allowed in the end. -/
structure Course (host : Host W) (access : GuestAccess) (cpu : Cpu W)
    (opening closing : List Event) : Prop where
  announced : access.Unmapped cpu.machine.memory →
    opening = [access.unmappedEvent cpu.machine.mode]
  silent : ¬access.Unmapped cpu.machine.memory → opening = []
  traced : ∀ left, Machine.raiseAll host opening cpu.machine = .ok () left →
    access.Allowed left.memory → closing = (access.traceEvent? cpu.machine.mode).toList
  untraced : (¬∃ left, Machine.raiseAll host opening cpu.machine = .ok () left ∧
    access.Allowed left.memory) → closing = []
  ends : access.Ends (Machine.raiseAll host (opening ++ closing) cpu.machine)
    (access.perform host cpu)

variable {access : GuestAccess} {machine : Machine W}

theorem ends_touch (formed : machine.memory.WellFormed) :
    access.Ends (.ok () machine)
      (match access.touch machine.memory with
      | .ok (answer, memory) => .ok answer ⟨{ machine with memory := memory }, none⟩
      | .error cause =>
        .error (.error (Cpu.accessFault access.kind access.address access.size cause))
          ⟨machine, some (Cpu.accessFault access.kind access.address access.size cause)⟩) := by
  have decided := touch_decides formed access
  cases made : access.touch machine.memory with
  | ok touched =>
    rw [made] at decided
    cases decided with
    | granted allowed => exact .granted allowed made
  | error cause =>
    rw [made] at decided
    cases decided with
    | unmapped first free => exact .unmapped ⟨_, first, free⟩
    | denied first mapped => exact .denied ⟨_, first, mapped⟩

/-- The part of an access that is not checked again comes to what making it does. -/
theorem carryOut_apply (mode : Mode) :
    access.carryOut host mode ⟨machine, none⟩ =
      match Machine.raiseAll host (access.traceEvent? mode).toList machine with
      | .ok () left =>
        (match access.touch left.memory with
        | .ok (answer, memory) => .ok answer ⟨{ left with memory := memory }, none⟩
        | .error cause =>
          .error (.error (Cpu.accessFault access.kind access.address access.size cause))
            ⟨left, some (Cpu.accessFault access.kind access.address access.size cause)⟩)
      | .error (.error cause) left => .error (.error cause) ⟨left, some cause⟩
      | .error (.abort cause) left => .error (.abort cause) ⟨left, none⟩ := by
  cases traced : access.traceEvent? mode with
  | none =>
    simp only [carryOut, traced, bind_apply, pure_apply, get_apply, Cpu.accessResult_apply,
      Option.toList_none, Machine.raiseAll]
    cases access.touch machine.memory <;> rfl
  | some event =>
    simp only [carryOut, traced, bind_apply, discard_apply, pure_apply, get_apply,
      Cpu.accessResult_apply, Option.toList_some, Machine.raiseAll, Cpu.notify_of_calm]
    cases Machine.dispatch host host.nesting event machine with
    | ok result left =>
      simp only
      cases access.touch left.memory <;> rfl
    | error failure left => cases failure <;> rfl

theorem ends_carryOut (formed : machine.memory.WellFormed) (mode : Mode) :
    access.Ends (Machine.raiseAll host (access.traceEvent? mode).toList machine)
      (access.carryOut host mode ⟨machine, none⟩) := by
  rw [carryOut_apply]
  cases raised : Machine.raiseAll host (access.traceEvent? mode).toList machine with
  | ok _ left => exact ends_touch (Machine.wellFormed_of_raiseAll formed raised)
  | error failure left =>
    cases failure with
    | error cause => exact .failed cause left
    | abort cause => exact .brokenOff cause left

/-- An access from a check on that is the last one. -/
def settle (host : Host W) (mode : Mode) (access : GuestAccess) (machine : Machine W) :
    EStateM.Result Failure (Cpu W) access.Answer :=
  match machine.memory.check access.address access.size access.kind.required with
  | .ok () => access.carryOut host mode ⟨machine, none⟩
  | .error cause =>
    .error (.error (Cpu.accessFault access.kind access.address access.size cause))
      ⟨machine, some (Cpu.accessFault access.kind access.address access.size cause)⟩

theorem ends_settle (host : Host W) (access : GuestAccess) (mode : Mode)
    (formed : machine.memory.WellFormed) :
    ∃ closing,
      (access.Allowed machine.memory → closing = (access.traceEvent? mode).toList) ∧
      (¬access.Allowed machine.memory → closing = []) ∧
      access.Ends (Machine.raiseAll host closing machine) (access.settle host mode machine) := by
  have decided := check_decides formed access
  unfold settle
  cases checked : machine.memory.check access.address access.size access.kind.required with
  | ok =>
    rw [checked] at decided
    cases decided with
    | granted allowed =>
      exact ⟨_, fun _ => rfl, fun refused => absurd allowed refused, ends_carryOut formed mode⟩
  | error cause =>
    rw [checked] at decided
    have refused : ¬access.Allowed machine.memory := by
      intro allowed
      obtain ⟨_, succeeds⟩ := decided.ok_iff_covers.mpr allowed
      contradiction
    refine ⟨[], fun allowed => absurd allowed refused, fun _ => rfl, ?_⟩
    cases decided with
    | unmapped first free => exact .unmapped ⟨_, first, free⟩
    | denied first mapped => exact .denied ⟨_, first, mapped⟩

/-- The first check is the last one unless it finds the range unmapped. -/
theorem perform_of_not_unmapped (host : Host W) (formed : machine.memory.WellFormed)
    (found : ¬access.Unmapped machine.memory) :
    access.perform host ⟨machine, none⟩ = access.settle host machine.mode machine := by
  have decided := check_decides formed access
  rw [perform_eq_carryOut, Cpu.require_apply, settle]
  cases checked : machine.memory.check access.address access.size access.kind.required with
  | ok => rfl
  | error cause =>
    rw [checked] at decided
    cases decided with
    | unmapped first free => exact absurd ⟨_, first, free⟩ found
    | denied first mapped => rfl

theorem perform_of_unmapped (host : Host W) (formed : machine.memory.WellFormed)
    (found : access.Unmapped machine.memory) :
    access.perform host ⟨machine, none⟩ =
      match Machine.raiseAll host [access.unmappedEvent machine.mode] machine with
      | .ok () left => access.settle host machine.mode left
      | .error (.error cause) left => .error (.error cause) ⟨left, some cause⟩
      | .error (.abort cause) left => .error (.abort cause) ⟨left, none⟩ := by
  have decided := check_decides formed access
  rw [perform_eq_carryOut, Cpu.require_apply]
  cases checked : machine.memory.check access.address access.size access.kind.required with
  | ok =>
    rw [checked] at decided
    cases decided with
    | granted allowed => exact absurd allowed found.not_allowed
  | error cause =>
    rw [checked] at decided
    cases decided with
    | unmapped first free =>
      simp only [Cpu.notify_of_calm, Machine.raiseAll, bind_apply, discard_apply, pure_apply,
        unmappedEvent]
      cases Machine.dispatch host host.nesting _ machine with
      | ok result left =>
        simp only [Cpu.accessResult_apply, settle]
        cases left.memory.check access.address access.size access.kind.required <;> rfl
      | error failure left => cases failure <;> rfl
    | denied first mapped => exact absurd found (Denied.not_unmapped ⟨_, first, mapped⟩)

/-- Every access goes its course, whatever the hooks do to the machine. -/
theorem exists_course (host : Host W) (access : GuestAccess) (cpu : Cpu W)
    (calm : cpu.fault = none) (formed : cpu.machine.memory.WellFormed) :
    ∃ opening closing, access.Course host cpu opening closing := by
  obtain ⟨machine, _⟩ := cpu
  obtain rfl := calm
  change machine.memory.WellFormed at formed
  by_cases unmapped : access.Unmapped machine.memory
  · have performed := perform_of_unmapped host formed unmapped
    cases raised : Machine.raiseAll host [access.unmappedEvent machine.mode] machine with
    | ok _ left =>
      obtain ⟨closing, traced, untraced, ends⟩ := ends_settle host access machine.mode
        (Machine.wellFormed_of_raiseAll formed raised)
      refine ⟨_, closing, fun _ => rfl, absurd unmapped, ?_, ?_, ?_⟩
      · intro other same allowed
        rw [raised] at same
        obtain ⟨⟩ := same
        exact traced allowed
      · intro none
        exact untraced fun allowed => none ⟨left, raised, allowed⟩
      · rw [Machine.raiseAll_append, performed, raised]
        exact ends
    | error failure left =>
      refine ⟨_, [], fun _ => rfl, absurd unmapped, ?_, fun _ => rfl, ?_⟩
      · intro other same
        rw [raised] at same
        contradiction
      · rw [Machine.raiseAll_append, performed, raised]
        cases failure with
        | error cause => exact .failed cause left
        | abort cause => exact .brokenOff cause left
  · obtain ⟨closing, traced, untraced, ends⟩ := ends_settle host access machine.mode formed
    refine ⟨[], closing, fun found => absurd found unmapped, fun _ => rfl, ?_, ?_, ?_⟩
    · rintro left ⟨⟩ allowed
      exact traced allowed
    · intro none
      exact untraced fun allowed => none ⟨machine, rfl, allowed⟩
    · rw [perform_of_not_unmapped host formed unmapped]
      exact ends

/-- A read of unmapped memory that a hook maps goes its course. -/
theorem exists_course_of_missed_read :
    let hooks : HookTable := ⟨[⟨⟨1⟩, .memoryReadUnmapped, .all, none, ⟨.memoryFault, 0⟩⟩], 2⟩
    let cpu := Cpu.ofMachine (Machine.fresh () MemoryMap.empty hooks)
    cpu.fault = none ∧ cpu.machine.memory.WellFormed ∧
      ∃ opening closing, (read 0x1000 4).Course Host.obliging cpu opening closing :=
  ⟨rfl, MemoryMap.wellFormed_empty, exists_course _ _ _ rfl MemoryMap.wellFormed_empty⟩

end GuestAccess

end GuestMachine
