import GuestMachine.Proofs.Hook.History
import GuestMachine.Proofs.Machine.Evolution
import GuestMachine.Proofs.Machine.Mirror

/-!
A hook that only looks on. Its callback leaves the machine alone, raises no event, settles no
fault and gives no port a value; all it may change is a part of the world that nobody else sees.
A machine with the hook stands beside one without it, and every operation that does not dispatch
comes to the same in both, as long as it changes no hooks.
-/

namespace GuestMachine

namespace Machine

variable {W : Type} {host : Host W} {origin machine left : Machine W}

/-- Machines of one make: well formed, of the same family and mode and with the same registers. -/
structure Kin (origin machine : Machine W) : Prop where
  formed : machine.WellFormed
  arch : machine.arch = origin.arch
  mode : machine.mode = origin.mode
  layout : machine.registers.layout = origin.registers.layout

theorem Change.kin (change : Change host machine left) (kin : origin.Kin machine) :
    origin.Kin left where
  formed := change.wellFormed kin.formed
  arch := by cases change <;> exact kin.arch
  mode := by cases change <;> exact kin.mode
  layout := change.layout.trans kin.layout

/-- What a computation makes of a machine is of the same make. -/
theorem Kin.evolves (kin : origin.Kin machine) (evolves : Evolves host machine left) :
    origin.Kin left :=
  Evolves.keeps (fun _ _ => Change.kin) evolves kin

theorem Kin.withRunning (kin : origin.Kin machine) (running : List HookCallback) :
    origin.Kin { machine with running := running } := by
  obtain ⟨⟨memory, registers, hooks, flagged⟩, arch, mode, layout⟩ := kin
  exact ⟨⟨memory, registers, hooks, flagged⟩, arch, mode, layout⟩

theorem Kin.withWorld (kin : origin.Kin machine) (world : W) :
    origin.Kin { machine with world := world } := by
  obtain ⟨⟨memory, registers, hooks, flagged⟩, arch, mode, layout⟩ := kin
  exact ⟨⟨memory, registers, hooks, flagged⟩, arch, mode, layout⟩

end Machine

/-- What is mapped has failed if an error comes of it. -/
theorem Except.eq_error_of_map {α β : Type} {result : Except Error α} {f : α → β} {cause : Error}
    (failed : result.map f = .error cause) : result = .error cause := by
  cases result with
  | ok a => contradiction
  | error other => exact congrArg Except.error (Except.error.inj failed)

/-- Operations of a machine that are asked alike as far as a view of the world goes, and which of
their answers agree. -/
inductive MachineOp.Asks {W V : Type} (view : W → V) :
    (op other : MachineOp W) → (op.Answer → other.Answer → Prop) → Prop
  | same (op : MachineOp W) (blind : op ≠ .world) : Asks view op op Eq
  | world : Asks view .world .world fun a b => view a = view b
  | setWorld {world other : W} (sight : view world = view other) :
      Asks view (.setWorld world) (.setWorld other) Eq

/-- Where the view shows the whole world, only equal answers agree. -/
theorem MachineOp.exists_asks {W V : Type} {view : W → V} (whole : view.Injective)
    (op : MachineOp W) : ∃ agree, MachineOp.Asks view op op agree ∧ ∀ a b, agree a b → a = b := by
  by_cases seen : op = .world
  · subst seen
    exact ⟨_, .world, fun a b sight => whole sight⟩
  · exact ⟨Eq, .same op seen, fun _ _ same => same⟩

/-- A callback that leaves every machine of a make alone, whatever it is handed, and succeeds. It
changes nothing but what the view of the world does not show, raises no event, as it would be
broken off for want of room if it did, and settles none. -/
def Host.Passive {W V : Type} (host : Host W) (view : W → V) (origin : Machine W)
    (callback : HookCallback) : Prop :=
  ∀ args machine, origin.Kin machine → ∃ reply world,
    (host.respond callback args).run (Machine.perform host (Machine.dispatch host 0)) machine =
        .ok (.ok reply) { machine with world := world } ∧
      view world = view machine.world ∧ callback.shape.settles reply = false

/-- What the view does not show is seen neither where storage is allocated nor by any callback but
the given one. -/
structure Host.Blind {W V : Type} (host : Host W) (view : W → V) (callback : HookCallback) :
    Prop where
  allocates : ∀ world other, view world = view other → host.allocates world = host.allocates other
  respond : ∀ other, other ≠ callback → ∀ args,
    Program.Alike (MachineOp.Asks view) (host.respond other args) (host.respond other args)

/-- A callback that leaves the whole world alone hides nothing from the others. -/
theorem Host.blind_of_injective {W V : Type} {view : W → V} (whole : view.Injective)
    (host : Host W) (callback : HookCallback) : host.Blind view callback where
  allocates world other sight := by rw [whole sight]
  respond other _ args := .refl (MachineOp.exists_asks whole) _

/-- A hook that has been added last to the table of a machine, any but one for reads of ports. -/
structure Onlooker (W V : Type) where
  /-- What is seen of the world beside the hook. -/
  view : W → V
  /-- A machine without the hook. -/
  origin : Machine W
  formed : origin.WellFormed
  hook : Hook
  /-- The table with the hook. -/
  table : HookTable
  added : origin.hooks.register hook.kind hook.range hook.insn hook.callback =
    .ok (hook.handle, table)
  noValue : hook.kind ≠ .portIn

namespace Onlooker

variable {W V : Type} (onlooker : Onlooker W V)

theorem hooks_table : onlooker.table.hooks = onlooker.origin.hooks.hooks ++ [onlooker.hook] :=
  congrArg HookTable.hooks (HookTable.register_eq_ok onlooker.added).2

theorem wellFormed_table : onlooker.table.WellFormed :=
  onlooker.formed.hooks.register onlooker.added

theorem mem_hooks_table : onlooker.hook ∈ onlooker.table.hooks := by
  rw [hooks_table]
  exact List.mem_append_right _ (List.mem_singleton_self _)

/-- The hooks for an event, with the one that looks on behind the others if it listens. -/
theorem lookup_table (kind : EventKind) (key : UInt64) (insn : Option InsnId) :
    onlooker.table.lookup kind key insn = onlooker.origin.hooks.lookup kind key insn ++
      if onlooker.hook.listensTo kind key insn
        then [(onlooker.hook.handle, onlooker.hook.callback)] else [] := by
  simp only [HookTable.lookup, hooks_table, List.filter_append, List.map_append]
  cases listens : onlooker.hook.listensTo kind key insn <;> simp [listens]

/-- No other hook has its handle. -/
theorem handle_ne {kind : EventKind} {key : UInt64} {insn : Option InsnId}
    {entry : HookHandle × HookCallback}
    (listed : entry ∈ onlooker.origin.hooks.lookup kind key insn) :
    entry.1 ≠ onlooker.hook.handle := by
  obtain ⟨hook, member, rfl⟩ := List.mem_map.mp listed
  have given := onlooker.formed.hooks.given hook (List.mem_filter.mp member).1
  obtain ⟨named, -⟩ := HookTable.register_eq_ok onlooker.added
  rw [named]
  rintro same
  exact absurd (congrArg HookHandle.number same) (Nat.ne_of_lt given)

theorem shape_ne_portIn : onlooker.hook.callback.shape ≠ .portIn := by
  intro reads
  have serves := onlooker.wellFormed_table.served _ onlooker.mem_hooks_table
  have ne := onlooker.noValue
  rw [reads] at serves
  cases kind : onlooker.hook.kind <;> simp [kind, HookShape.accepts] at serves ne

/-- There is but one answer that settles nothing. -/
theorem reply_unique {reply other : onlooker.hook.callback.shape.Reply}
    (first : onlooker.hook.callback.shape.settles reply = false)
    (second : onlooker.hook.callback.shape.settles other = false) : reply = other := by
  have ne := onlooker.shape_ne_portIn
  revert reply other
  generalize onlooker.hook.callback.shape = shape at ne ⊢
  cases shape with
  | portIn => contradiction
  | memoryFault => exact fun first second => first.trans second.symm
  | _ => exact fun _ _ => rfl

/-- What an event comes to is the same behind its answer. -/
theorem resultAfter_eq (event : Event) (reply : onlooker.hook.callback.shape.Reply)
    (result : DispatchResult) :
    event.resultAfter onlooker.hook.callback.shape reply result = result := by
  have ne := onlooker.shape_ne_portIn
  revert reply
  generalize onlooker.hook.callback.shape = shape at ne ⊢
  cases shape with
  | portIn => contradiction
  | _ => cases event <;> exact fun _ => rfl

/-- The machine with the hook in it, in a given world. -/
def join (machine : Machine W) (world : W) : Machine W :=
  { machine with hooks := onlooker.table, world := world }

/-- A machine without the hook beside one with it, between the calls of its callback. -/
structure Beside (machine watched : Machine W) : Prop where
  hooks : machine.hooks = onlooker.origin.hooks
  idle : onlooker.hook.callback ∉ machine.running
  kin : onlooker.origin.Kin machine
  joined : ∃ world, onlooker.view world = onlooker.view machine.world ∧
    watched = onlooker.join machine world

variable {onlooker} {host : Host W} {machine watched left : Machine W}

theorem Beside.watchedKin (beside : onlooker.Beside machine watched) :
    onlooker.origin.Kin watched := by
  obtain ⟨world, -, rfl⟩ := beside.joined
  obtain ⟨memory, registers, -, flagged⟩ := beside.kin.formed
  exact ⟨⟨memory, registers, onlooker.wellFormed_table, flagged⟩, beside.kin.arch, beside.kin.mode,
    beside.kin.layout⟩

/-- Both go on beside each other where neither the hooks nor the callbacks that run change. -/
theorem Beside.next (beside : onlooker.Beside machine watched)
    (evolves : Machine.Evolves host machine left) (hooks : left.hooks = machine.hooks)
    (running : left.running = machine.running) {world : W}
    (sight : onlooker.view world = onlooker.view left.world) :
    onlooker.Beside left (onlooker.join left world) where
  hooks := hooks.trans beside.hooks
  idle := running ▸ beside.idle
  kin := beside.kin.evolves evolves
  joined := ⟨world, sight, rfl⟩

/-- Both go on beside each other while the callbacks that run in them change alike and that of the
hook is none of them. -/
theorem Beside.withRunning (beside : onlooker.Beside machine watched)
    (change : List HookCallback → List HookCallback)
    (idle : onlooker.hook.callback ∉ change machine.running) :
    onlooker.Beside { machine with running := change machine.running }
      { watched with running := change watched.running } := by
  obtain ⟨world, sight, rfl⟩ := beside.joined
  exact ⟨beside.hooks, idle, beside.kin.withRunning _, world, sight, rfl⟩

/-- Both go on beside each other in worlds that the view does not tell apart. -/
theorem Beside.withWorlds (beside : onlooker.Beside machine watched) {world other : W}
    (sight : onlooker.view other = onlooker.view world) :
    onlooker.Beside { machine with world := world } { watched with world := other } := by
  obtain ⟨old, -, rfl⟩ := beside.joined
  exact ⟨beside.hooks, beside.idle, beside.kin.withWorld world, other, sight, rfl⟩

/-- What is read of neither hooks nor world is the same on both sides. -/
theorem Beside.reads {α : Type} (beside : onlooker.Beside machine watched) (f : Machine W → α)
    (same : ∀ world, f (onlooker.join machine world) = f machine) : f watched = f machine := by
  obtain ⟨world, -, rfl⟩ := beside.joined
  exact same world

theorem Beside.mode_eq (beside : onlooker.Beside machine watched) : watched.mode = machine.mode :=
  beside.reads Machine.mode fun _ => rfl

theorem Beside.memory_eq (beside : onlooker.Beside machine watched) :
    watched.memory = machine.memory :=
  beside.reads Machine.memory fun _ => rfl

theorem Beside.registers_eq (beside : onlooker.Beside machine watched) :
    watched.registers = machine.registers :=
  beside.reads Machine.registers fun _ => rfl

theorem Beside.running_eq (beside : onlooker.Beside machine watched) :
    watched.running = machine.running :=
  beside.reads Machine.running fun _ => rfl

theorem Beside.sight (beside : onlooker.Beside machine watched) :
    onlooker.view watched.world = onlooker.view machine.world := by
  obtain ⟨world, sight, rfl⟩ := beside.joined
  exact sight

theorem Beside.hooks_watched (beside : onlooker.Beside machine watched) :
    watched.hooks = onlooker.table := by
  obtain ⟨world, -, rfl⟩ := beside.joined
  rfl

abbrev Mirrors {S ε α β : Type} {part : S → Machine W} (onlooker : Onlooker W V)
    (beside : S → S → Prop) (agree : α → β → Prop) {x : EStateM ε S α} {y : EStateM ε S β}
    {account : Account part x} {other : Account part y} (plain : Transcript account)
    (watched : Transcript other) : Prop :=
  GuestMachine.Mirrors onlooker.table onlooker.hook.handle beside agree plain watched

/-! Operations that do not dispatch. -/

theorem Beside.look {ε α : Type} (beside : onlooker.Beside machine watched) (f : Machine W → α)
    (same : ∀ world, f (onlooker.join machine world) = f machine) :
    Matches onlooker.Beside Eq (.ok (f machine) machine : EStateM.Result ε (Machine W) α)
      (.ok (f watched) watched) :=
  .ok (beside.reads f same).symm beside

theorem Beside.inspect {α : Type} (beside : onlooker.Beside machine watched)
    {x : Attempt (Machine W) α} (f : Machine W → Except Error α)
    (looks : ∀ machine, x machine = Attempt.ofExcept (f machine) machine)
    (same : ∀ world, f (onlooker.join machine world) = f machine) :
    Matches onlooker.Beside Eq (x machine) (x watched) := by
  rw [looks, looks, beside.reads f same]
  exact .ofExcept _ beside

theorem Beside.readRegister (beside : onlooker.Beside machine watched) (id : RegId) :
    Matches onlooker.Beside Eq (Machine.readRegister id machine)
      (Machine.readRegister id watched) :=
  beside.inspect (fun machine => machine.registers.read id) (fun _ => rfl) fun _ => rfl

theorem Beside.pc (beside : onlooker.Beside machine watched) :
    Matches onlooker.Beside Eq (Machine.pc machine) (Machine.pc watched) :=
  beside.inspect (fun machine => machine.registers.read machine.registers.pc) (fun _ => rfl)
    fun _ => rfl

theorem Beside.writeRegister (host : Host W) (beside : onlooker.Beside machine watched)
    (id : RegId) (value : UInt64) :
    Matches onlooker.Beside Eq (Machine.writeRegister id value machine)
      (Machine.writeRegister id value watched) := by
  obtain ⟨world, sight, rfl⟩ := beside.joined
  simp only [Machine.writeRegister, bind_apply, get_apply, join]
  cases done : machine.registers.write id value with
  | error cause => exact .error _ beside
  | ok registers =>
    have changes : Machine.Evolves host machine _ := .single (.writeRegister done)
    exact .ok rfl (beside.next changes rfl rfl sight)

theorem Beside.setPc (host : Host W) (beside : onlooker.Beside machine watched) (value : UInt64) :
    Matches onlooker.Beside Eq (Machine.setPc value machine) (Machine.setPc value watched) := by
  simp only [Machine.setPc, bind_apply, get_apply, beside.registers_eq]
  exact beside.writeRegister host machine.registers.pc value

/-- An update of memory that changes lead along is made alike. -/
theorem Beside.modifyMemory (host : Host W) (beside : onlooker.Beside machine watched)
    {update : MemoryMap → Except Error MemoryMap}
    (changes : ∀ memory, update machine.memory = .ok memory →
      Machine.Change host machine { machine with memory := memory }) :
    Matches onlooker.Beside Eq (Machine.modifyMemory update machine)
      (Machine.modifyMemory update watched) := by
  obtain ⟨world, sight, rfl⟩ := beside.joined
  simp only [Machine.modifyMemory, bind_apply, get_apply, join]
  cases done : update machine.memory with
  | error cause => exact .error _ beside
  | ok memory => exact .ok rfl (beside.next (.single (changes memory done)) rfl rfl sight)

theorem Beside.mapMemory (blind : host.Blind onlooker.view onlooker.hook.callback)
    (beside : onlooker.Beside machine watched) (base size : UInt64) (perms : Permissions) :
    Matches onlooker.Beside Eq (Machine.mapMemory host base size perms machine)
      (Machine.mapMemory host base size perms watched) := by
  obtain ⟨world, sight, rfl⟩ := beside.joined
  simp only [Machine.mapMemory, bind_apply, get_apply, join,
    blind.allocates world machine.world sight]
  cases done : machine.memory.map (host.allocates machine.world) base size perms with
  | error cause => exact .error _ beside
  | ok answer => exact .ok rfl (beside.next (.single (.map done)) rfl rfl sight)

/-- What the table with the hook refuses the one without it refuses alike. -/
theorem attempt_eq_error (onlooker : Onlooker W V) {call : HookCall}
    (refused : ∀ changed, onlooker.table.attempt call ≠ .ok changed) :
    ∃ cause, onlooker.table.attempt call = .error cause ∧
      onlooker.origin.hooks.attempt call = .error cause := by
  cases call with
  | clear => exact absurd rfl (refused _)
  | register kind range insn callback =>
    simp only [HookTable.attempt, HookTable.register] at refused ⊢
    split_ifs at refused ⊢
    · exact ⟨_, rfl, rfl⟩
    · exact ⟨_, rfl, rfl⟩
    · exact absurd rfl (refused _)
  | unregister handle =>
    simp only [HookTable.attempt, HookTable.unregister] at refused ⊢
    cases known : onlooker.table.contains handle with
    | true => simp [known] at refused
    | false =>
      have unknown : onlooker.origin.hooks.contains handle = false := by
        simp only [HookTable.contains, hooks_table, List.any_append, Bool.or_eq_false_iff] at known
        exact known.1
      exact ⟨_, rfl, by simp [unknown]⟩

theorem Beside.register (beside : onlooker.Beside machine watched) {kind : EventKind}
    {range : AddressRange} {insn : Option InsnId} {callback : HookCallback}
    (refused : ∀ changed,
      onlooker.table.attempt (.register kind range insn callback) ≠ .ok changed) :
    Matches onlooker.Beside Eq (Machine.register kind range insn callback machine)
      (Machine.register kind range insn callback watched) := by
  obtain ⟨cause, here, there⟩ := onlooker.attempt_eq_error refused
  replace here := Except.eq_error_of_map here
  replace there := Except.eq_error_of_map there
  obtain ⟨world, sight, rfl⟩ := beside.joined
  simp only [Machine.register, bind_apply, get_apply, beside.hooks, join, here, there]
  exact .error _ beside

theorem Beside.removeHook (beside : onlooker.Beside machine watched) {handle : HookHandle}
    (refused : ∀ changed, onlooker.table.attempt (.unregister handle) ≠ .ok changed) :
    Matches onlooker.Beside Eq (Machine.removeHook handle machine)
      (Machine.removeHook handle watched) := by
  obtain ⟨cause, here, there⟩ := onlooker.attempt_eq_error refused
  simp only [HookTable.attempt] at here there
  obtain ⟨world, sight, rfl⟩ := beside.joined
  simp only [Machine.removeHook, bind_apply, get_apply, beside.hooks, join, here, there]
  exact .error _ beside

/-- An operation that neither dispatches nor asks for the world comes to the same beside the hook,
unless it is one on hooks that goes through. -/
theorem Beside.perform (blind : host.Blind onlooker.view onlooker.hook.callback)
    (beside : onlooker.Beside machine watched)
    {dispatch : Event → Attempt (Machine W) DispatchResult}
    (accounts : ∀ event, Account id (dispatch event)) {op : MachineOp W} (seesNoWorld : op ≠ .world)
    (quiet : ∀ event, op ≠ .dispatch event)
    (steady : onlooker.table.RefusesAll
      (Deed.hookCalls ((Machine.perform.account host accounts op).deeds machine))) :
    Matches onlooker.Beside Eq (Machine.perform host dispatch op machine)
      (Machine.perform host dispatch op watched) := by
  cases op with
  | arch => exact beside.look Machine.arch fun _ => rfl
  | mode => exact beside.look Machine.mode fun _ => rfl
  | regions => exact beside.look (fun machine => machine.memory.infos) fun _ => rfl
  | stopRequested => exact beside.look Machine.stopRequested fun _ => rfl
  | mapMemory base size perms => exact (beside.mapMemory blind base size perms).outcome
  | unmapMemory base size => exact (beside.modifyMemory host fun _ => .unmap).outcome
  | protectMemory base size perms => exact (beside.modifyMemory host fun _ => .protect).outcome
  | writeMemory | loadMemory => exact (beside.modifyMemory host fun _ => .write).outcome
  | readMemory address size =>
    have read : Matches onlooker.Beside Eq (Machine.readMemory address size machine)
        (Machine.readMemory address size watched) :=
      beside.inspect (fun machine => machine.memory.read address size) (fun _ => rfl) fun _ => rfl
    exact read.outcome
  | readRegister id => exact (beside.readRegister id).outcome
  | pc => exact beside.pc.outcome
  | writeRegister id value => exact (beside.writeRegister host id value).outcome
  | addHook | addInstructionHook =>
    exact (beside.register (steady _ (List.mem_singleton_self _))).outcome
  | removeHook => exact (beside.removeHook (steady _ (List.mem_singleton_self _))).outcome
  | stop =>
    obtain ⟨world, sight, rfl⟩ := beside.joined
    have changes : Machine.Evolves host machine machine.requestStop := .single .stop
    exact .ok rfl (beside.next changes rfl rfl sight)
  | setWorld world => exact .ok rfl (beside.withWorlds rfl)
  | dispatch event => exact absurd rfl (quiet event)
  | world => exact absurd rfl seesNoWorld

end Onlooker

end GuestMachine
