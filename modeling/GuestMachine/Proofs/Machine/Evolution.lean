import GuestMachine.Machine.Dispatch
import GuestMachine.Proofs.Computation
import GuestMachine.Proofs.Hook.Table
import GuestMachine.Proofs.Memory.Coverage
import GuestMachine.Proofs.Register.Bank
import Mathlib.Logic.Relation

/-!
What can become of a machine. Operations change it one part at a time; whatever callbacks and
dispatches do is a chain of such changes. So what every single change keeps holds of each machine
that a dispatch leaves, also when it fails or is broken off.
-/

namespace GuestMachine

namespace Machine

variable {W : Type}

/-- A single change that an operation makes, or that a call of a callback makes on its own. -/
inductive Change (host : Host W) (machine : Machine W) : Machine W → Prop
  | map {base size : UInt64} {perms : Permissions} {id : RegionId} {memory : MemoryMap}
      (done : machine.memory.map (host.allocates machine.world) base size perms =
        .ok (id, memory)) : Change host machine { machine with memory := memory }
  | unmap {base size : UInt64} {memory : MemoryMap}
      (done : machine.memory.unmap base size = .ok memory) :
      Change host machine { machine with memory := memory }
  | protect {base size : UInt64} {perms : Permissions} {memory : MemoryMap}
      (done : machine.memory.protect base size perms = .ok memory) :
      Change host machine { machine with memory := memory }
  | write {needed : Option Permissions} {address : UInt64} {bytes : ByteArray}
      {memory : MemoryMap}
      (done : machine.memory.writeWith needed address bytes = .ok memory) :
      Change host machine { machine with memory := memory }
  | writeRegister {id : RegId} {value : UInt64} {registers : RegisterBank}
      (done : machine.registers.write id value = .ok registers) :
      Change host machine { machine with registers := registers }
  | register {kind : EventKind} {range : AddressRange} {insn : Option InsnId}
      {callback : HookCallback} {handle : HookHandle} {hooks : HookTable}
      (done : machine.hooks.register kind range insn callback = .ok (handle, hooks)) :
      Change host machine { machine with hooks := hooks }
  | unregister {handle : HookHandle} {hooks : HookTable}
      (done : machine.hooks.unregister handle = .ok hooks) :
      Change host machine { machine with hooks := hooks }
  | stop : Change host machine machine.requestStop
  | world (world : W) : Change host machine { machine with world := world }
  | call (callback : HookCallback) :
      Change host machine { machine with running := callback :: machine.running }
  | answered (callback : HookCallback) :
      Change host machine { machine with running := machine.running.erase callback }

abbrev Evolves (host : Host W) : Machine W → Machine W → Prop :=
  Relation.ReflTransGen (Change host)

variable {host : Host W} {machine : Machine W} {α : Type}

/-! Operations that do not dispatch. -/

/-- Replacing memory evolves the machine if each success of the update is a change. -/
theorem keeps_modifyMemory {update : MemoryMap → Except Error MemoryMap}
    (changes : ∀ (machine : Machine W) memory, update machine.memory = .ok memory →
      Change host machine { machine with memory := memory }) :
    Keeps (Evolves host) (modifyMemory update) := by
  intro machine
  cases done : update machine.memory with
  | ok memory => simpa [modifyMemory, done] using .single (changes machine memory done)
  | error cause => simpa [modifyMemory, done] using .refl

theorem keeps_mapMemory (base size : UInt64) (perms : Permissions) :
    Keeps (Evolves host) (mapMemory host base size perms) := by
  intro machine
  cases done : machine.memory.map (host.allocates machine.world) base size perms with
  | ok answer => simpa [mapMemory, done] using .single (.map done)
  | error cause => simpa [mapMemory, done] using .refl

theorem keeps_writeRegister (id : RegId) (value : UInt64) :
    Keeps (Evolves host) (writeRegister id value) := by
  intro machine
  cases done : machine.registers.write id value with
  | ok registers => simpa [writeRegister, done] using .single (.writeRegister done)
  | error cause => simpa [writeRegister, done] using .refl

theorem keeps_setPc (value : UInt64) : Keeps (Evolves host) (setPc value) :=
  Keeps.get.bind fun machine => keeps_writeRegister machine.registers.pc value

theorem keeps_readRegister (id : RegId) : Keeps (Evolves host) (readRegister id) :=
  Keeps.get.bind fun machine => Keeps.ofExcept (machine.registers.read id)

theorem keeps_pc : Keeps (Evolves host) (pc : Attempt (Machine W) UInt64) :=
  Keeps.get.bind fun machine => keeps_readRegister machine.registers.pc

theorem keeps_register (kind : EventKind) (range : AddressRange) (insn : Option InsnId)
    (callback : HookCallback) : Keeps (Evolves host) (register kind range insn callback) := by
  intro machine
  cases done : machine.hooks.register kind range insn callback with
  | ok answer => simpa [register, done] using .single (.register done)
  | error cause => simpa [register, done] using .refl

theorem keeps_removeHook (handle : HookHandle) : Keeps (Evolves host) (removeHook handle) := by
  intro machine
  cases done : machine.hooks.unregister handle with
  | ok hooks => simpa [removeHook, done] using .single (.unregister done)
  | error cause => simpa [removeHook, done] using .refl

/-! Dispatch. -/

/-- Every operation evolves the machine if the dispatch it may ask for does. -/
theorem keeps_perform {dispatch : Event → Attempt (Machine W) DispatchResult}
    (dispatches : ∀ event, Keeps (Evolves host) (dispatch event)) (op : MachineOp W) :
    Keeps (Evolves host) (perform host dispatch op) := by
  cases op with
  | arch => exact Keeps.get.bind fun machine => Keeps.pure machine.arch
  | mode => exact Keeps.get.bind fun machine => Keeps.pure machine.mode
  | mapMemory base size perms => exact (keeps_mapMemory base size perms).outcome
  | unmapMemory base size => exact (keeps_modifyMemory fun _ _ => .unmap).outcome
  | protectMemory base size perms => exact (keeps_modifyMemory fun _ _ => .protect).outcome
  | readMemory address size =>
    exact (Keeps.get.bind fun machine : Machine W =>
      Keeps.ofExcept (machine.memory.read address size)).outcome
  | writeMemory address bytes => exact (keeps_modifyMemory fun _ _ => .write).outcome
  | loadMemory address bytes => exact (keeps_modifyMemory fun _ _ => .write).outcome
  | regions => exact Keeps.get.bind fun machine => Keeps.pure machine.memory.infos
  | readRegister id => exact (keeps_readRegister id).outcome
  | writeRegister id value => exact (keeps_writeRegister id value).outcome
  | pc => exact keeps_pc.outcome
  | addHook kind range callback => exact (keeps_register kind range none callback).outcome
  | addInstructionHook range insn callback =>
    exact (keeps_register .instructionEnter range (some insn) callback).outcome
  | removeHook handle => exact (keeps_removeHook handle).outcome
  | stop => exact Keeps.update fun machine => .single .stop
  | stopRequested => exact Keeps.get.bind fun machine => Keeps.pure machine.stopRequested
  | dispatch event => exact (dispatches event).outcome
  | world => exact Keeps.get.bind fun machine => Keeps.pure machine.world
  | setWorld world => exact Keeps.update fun machine => .single (.world world)

theorem keeps_invoke {perform : (op : MachineOp W) → Effect (Machine W) op.Answer}
    (performs : ∀ op, Keeps (Evolves host) (perform op)) (callback : HookCallback)
    (args : callback.shape.Args) : Keeps (Evolves host) (invoke host perform callback args) := by
  refine Keeps.get.bind fun machine => ?_
  split
  · exact Keeps.abort .reentry
  · have begins : Keeps (ε := Failure) (Evolves host) (modify fun machine : Machine W =>
        { machine with running := callback :: machine.running }) :=
      Keeps.update fun machine => .single (.call callback)
    have ends : Keeps (ε := Failure) (Evolves host) (modify fun machine : Machine W =>
        { machine with running := machine.running.erase callback }) :=
      Keeps.update fun machine => .single (.answered callback)
    have works := (Keeps.run performs (host.respond callback args)).lift
    exact begins.bind fun _ => works.bind fun answer => ends.bind fun _ => Keeps.ofExcept answer

theorem keeps_deliver {invoke : (callback : HookCallback) → callback.shape.Args →
      Attempt (Machine W) callback.shape.Reply}
    (invokes : ∀ callback args, Keeps (Evolves host) (invoke callback args)) (event : Event)
    (hooks : List (HookHandle × HookCallback)) (result : DispatchResult) :
    Keeps (Evolves host) (deliver invoke event hooks result) := by
  induction hooks generalizing result with
  | nil =>
    cases event with
    | memoryUnmapped => exact Keeps.fail _
    | _ => exact Keeps.pure result
  | cons hook rest ih =>
    obtain ⟨handle, callback⟩ := hook
    rw [deliver]
    split
    · exact ih result
    next args _ =>
      refine (invokes callback args).outcome.lift.bind fun answer => ?_
      cases answer with
      | error cause => exact Keeps.fail _
      | ok reply =>
        dsimp only
        split
        · exact Keeps.pure _
        · exact ih _

/-- A dispatch leads through changes only, whatever the callbacks do and however deep they
nest. -/
theorem keeps_dispatch (host : Host W) (depth : Nat) (event : Event) :
    Keeps (Evolves host) (dispatch host depth event) := by
  induction depth generalizing event with
  | zero => exact Keeps.abort .exhausted
  | succ depth ih =>
    refine Keeps.get.bind fun machine => ?_
    exact keeps_deliver
      (fun callback args => keeps_invoke (keeps_perform ih) callback args) event _ _

/-! The invariant of machines. -/

/-- Memory, registers and hooks are well formed, and the stop handle is that of a flag. -/
structure WellFormed (machine : Machine W) : Prop where
  memory : machine.memory.WellFormed
  registers : machine.registers.WellFormed
  hooks : machine.hooks.WellFormed
  flagged : machine.stopHandle.flag < machine.stops.flags.length

namespace Change

variable {changed : Machine W}

theorem memory (change : Change host machine changed) (formed : machine.memory.WellFormed) :
    changed.memory.WellFormed := by
  cases change with
  | map done => exact formed.map done
  | unmap done => exact formed.unmap done
  | protect done => exact formed.protect done
  | write done => exact formed.writeWith done
  | _ => exact formed

theorem registers (change : Change host machine changed) (formed : machine.registers.WellFormed) :
    changed.registers.WellFormed := by
  cases change with
  | writeRegister done => exact formed.write done
  | _ => exact formed

theorem layout (change : Change host machine changed) :
    changed.registers.layout = machine.registers.layout := by
  cases change with
  | writeRegister done => exact RegisterBank.layout_write done
  | _ => rfl

theorem hooks (change : Change host machine changed) (formed : machine.hooks.WellFormed) :
    changed.hooks.WellFormed := by
  cases change with
  | register done => exact formed.register done
  | unregister done => exact formed.unregister done
  | _ => exact formed

theorem flagged (change : Change host machine changed)
    (flagged : machine.stopHandle.flag < machine.stops.flags.length) :
    changed.stopHandle.flag < changed.stops.flags.length := by
  cases change with
  | stop => simpa [requestStop, StopBoard.request] using flagged
  | _ => exact flagged

/-- A stop that has been requested stays requested. -/
theorem stopRequested (change : Change host machine changed)
    (requested : machine.stopRequested = true) : changed.stopRequested = true := by
  cases change with
  | stop =>
    have flagged : machine.stopHandle.flag < machine.stops.flags.length := by
      by_contra beyond
      simp [Machine.stopRequested, StopBoard.isRequested, beyond] at requested
    simp [requestStop, StopBoard.request, Machine.stopRequested, StopBoard.isRequested, flagged]
  | _ => exact requested

/-- A change keeps the invariant. -/
theorem wellFormed (change : Change host machine changed) (formed : machine.WellFormed) :
    changed.WellFormed where
  memory := change.memory formed.memory
  registers := change.registers formed.registers
  hooks := change.hooks formed.hooks
  flagged := change.flagged formed.flagged

end Change

/-- What every change keeps, a chain of changes keeps. -/
theorem Evolves.keeps {P : Machine W → Prop}
    (step : ∀ machine changed, Change host machine changed → P machine → P changed)
    {left : Machine W} (evolves : Evolves host machine left) (start : P machine) : P left := by
  induction evolves with
  | refl => exact start
  | tail _ change ih => exact step _ _ change ih

theorem Evolves.wellFormed {left : Machine W} (evolves : Evolves host machine left)
    (formed : machine.WellFormed) : left.WellFormed :=
  evolves.keeps (fun _ _ => Change.wellFormed) formed

/-- The layout of the registers stays. -/
theorem Evolves.layout {left : Machine W} (evolves : Evolves host machine left) :
    left.registers.layout = machine.registers.layout :=
  evolves.keeps (fun _ _ change same => change.layout.trans same) rfl

/-! Machines to begin with. -/

/-- A machine of one register, its program counter, with given memory and hooks. -/
def fresh (world : W) (memory : MemoryMap) (hooks : HookTable) : Machine W where
  arch := .riscv
  mode := .empty
  memory := memory
  registers := ⟨⟨0⟩, [⟨⟨⟨0⟩, "pc", 64⟩, 0⟩]⟩
  hooks := hooks
  stops := ⟨[false]⟩
  stopHandle := ⟨0⟩
  running := []
  world := world

theorem wellFormed_fresh (world : W) {memory : MemoryMap} {hooks : HookTable}
    (mapped : memory.WellFormed) (hooked : hooks.WellFormed) :
    (fresh world memory hooks).WellFormed where
  memory := mapped
  registers := by
    refine ⟨List.pairwise_singleton _ _, ?_, ?_, rfl⟩
    · simp [fresh]
    · simp [fresh]
  hooks := hooked
  flagged := Nat.zero_lt_one

end Machine

/-- A host whose callbacks map what the guest misses, and give ports the number of their cell. -/
def Host.obliging : Host Unit where
  respond
    | ⟨.memoryFault, _⟩, access =>
      .ask (.mapMemory access.address (UInt64.ofNat access.size) .all) fun _ => .done (.ok true)
    | ⟨.portIn, cell⟩, _ => .done (.ok (UInt64.ofNat cell))
    | ⟨.code, _⟩, _ | ⟨.memoryAccess, _⟩, _ | ⟨.portOut, _⟩, _ | ⟨.interrupt, _⟩, _ =>
      .done (.ok ())
  allocates _ _ := true
  elapsed _ _ _ := 0
  nesting := 8
  patience := 100

/-- A host whose callbacks note what they are handed. Those for code take away the hook whose
number they carry and request a stop, those for faults resolve them unless they carry zero, those
for ports give the number, and those for interrupts fail. -/
def Host.noting : Host (List ((callback : HookCallback) × callback.shape.Args)) where
  respond callback args :=
    .ask .world fun notes => .ask (.setWorld (notes ++ [⟨callback, args⟩])) fun _ =>
      match callback with
      | ⟨.code, cell⟩ => .ask (.removeHook ⟨cell⟩) fun _ => .ask .stop fun _ => .done (.ok ())
      | ⟨.memoryFault, cell⟩ => .done (.ok (cell != 0))
      | ⟨.portIn, cell⟩ => .done (.ok (UInt64.ofNat cell))
      | ⟨.interrupt, cell⟩ => .done (.error (.unknownRegister ⟨cell⟩))
      | ⟨.memoryAccess, _⟩ | ⟨.portOut, _⟩ => .done (.ok ())
  allocates _ _ := true
  elapsed _ _ _ := 0
  nesting := 8
  patience := 100

end GuestMachine
