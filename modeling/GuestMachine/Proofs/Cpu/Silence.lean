import GuestMachine.Proofs.Cpu.Evolution
import GuestMachine.Proofs.Trail

/-!
Silence under a latched fault. Every operation that would reach the guest fails with that fault
and changes nothing; only bytes that can be executed are still fetched. No callback has a say in
what the operations do, and none of them takes the fault away.
-/

namespace GuestMachine

namespace Machine

variable {W : Type}

/-- An operation that does not dispatch is performed whatever callbacks would do. -/
theorem perform_eq_of_not_dispatch {op : MachineOp W} (plain : ∀ event, op ≠ .dispatch event)
    (host : Host W)
    (respond : (callback : HookCallback) → callback.shape.Args →
      MachineProgram W (Except Error callback.shape.Reply))
    (dispatch other : Event → Attempt (Machine W) DispatchResult) :
    perform { host with respond := respond } other op = perform host dispatch op := by
  cases op with
  | dispatch event => exact absurd rfl (plain event)
  | _ => rfl

theorem unbroken_modifyMemory (update : MemoryMap → Except Error MemoryMap) :
    Unbroken (modifyMemory update : Attempt (Machine W) Unit) :=
  Unbroken.get.bind fun _ => (Unbroken.ofExcept _).bind fun _ => Unbroken.set _

theorem unbroken_readRegister (id : RegId) :
    Unbroken (readRegister id : Attempt (Machine W) UInt64) :=
  Unbroken.get.bind fun _ => Unbroken.ofExcept _

theorem unbroken_writeRegister (id : RegId) (value : UInt64) :
    Unbroken (writeRegister id value : Attempt (Machine W) Unit) :=
  Unbroken.get.bind fun _ => (Unbroken.ofExcept _).bind fun _ => Unbroken.set _

theorem unbroken_register (kind : EventKind) (range : AddressRange) (insn : Option InsnId)
    (callback : HookCallback) :
    Unbroken (register kind range insn callback : Attempt (Machine W) HookHandle) :=
  Unbroken.get.bind fun _ => (Unbroken.ofExcept _).bind fun _ => (Unbroken.set _).bind fun _ =>
    Unbroken.pure _

/-- An operation that does not dispatch is always answered. -/
theorem exists_perform_of_not_dispatch {op : MachineOp W} (plain : ∀ event, op ≠ .dispatch event)
    (host : Host W) (dispatch : Event → Attempt (Machine W) DispatchResult)
    (machine : Machine W) :
    ∃ answer after, perform host dispatch op machine = .ok answer after := by
  cases op with
  | mapMemory base size perms =>
    refine Unbroken.exists_outcome ?_ machine
    exact Unbroken.get.bind fun _ => (Unbroken.ofExcept _).bind fun _ =>
      (Unbroken.set _).bind fun _ => Unbroken.pure _
  | unmapMemory | protectMemory | writeMemory | loadMemory =>
    exact (unbroken_modifyMemory _).exists_outcome machine
  | readMemory address size =>
    exact (Unbroken.get.bind fun _ => Unbroken.ofExcept _).exists_outcome machine
  | readRegister id => exact (unbroken_readRegister id).exists_outcome machine
  | writeRegister id value => exact (unbroken_writeRegister id value).exists_outcome machine
  | pc => exact (Unbroken.get.bind fun _ => unbroken_readRegister _).exists_outcome machine
  | addHook | addInstructionHook => exact (unbroken_register _ _ _ _).exists_outcome machine
  | removeHook handle =>
    refine Unbroken.exists_outcome ?_ machine
    exact Unbroken.get.bind fun _ => (Unbroken.ofExcept _).bind fun _ => Unbroken.set _
  | dispatch event => exact absurd rfl (plain event)
  | arch | mode | regions | stop | stopRequested | world | setWorld => exact ⟨_, _, rfl⟩

end Machine

namespace CpuOp

variable {W : Type}

/-- Whether the operation neither takes the latched fault away nor dispatches past it. -/
def Confined : CpuOp W → Prop
  | takeFault => False
  | machine (.dispatch _) => False
  | _ => True

/-- Whether the operation fails with a fault and changes nothing, if it is one that reaches the
guest. A fetch does so unless all of its bytes can be executed. -/
def Refused (fault : Error) (before : Cpu W) : (op : CpuOp W) → op.Answer → Cpu W → Prop
  | fetch address size, answer, after => after = before ∧
    (before.machine.memory.Covers (some .exec) address.toNat size →
      ∃ bytes, before.machine.memory.readWith (some .exec) address size = .ok bytes ∧
        answer = .ok bytes) ∧
    (¬before.machine.memory.Covers (some .exec) address.toNat size → answer = .error fault)
  | readMemory .., answer, after => answer = .error fault ∧ after = before
  | writeMemory .., answer, after => answer = .error fault ∧ after = before
  | readUInt .., answer, after => answer = .error fault ∧ after = before
  | writeUInt .., answer, after => answer = .error fault ∧ after = before
  | enterBlock .., answer, after => answer = .error fault ∧ after = before
  | enterInstruction .., answer, after => answer = .error fault ∧ after = before
  | portIn .., answer, after => answer = .error fault ∧ after = before
  | portOut .., answer, after => answer = .error fault ∧ after = before
  | interrupt _, answer, after => answer = .error fault ∧ after = before
  | notify _, answer, after => answer = .error fault ∧ after = before
  | _, _, _ => True

end CpuOp

namespace Cpu

variable {W : Type} {cpu : Cpu W} {fault : Error}

/-- What an engine meets at a moment when a fault is latched: the fault stays, no callback has a
say, only registers change unless the machine itself is asked, and the guest is out of reach. -/
structure Silenced (host : Host W) (fault : Error)
    (moment : Moment (CpuOp W) CpuOp.Answer (Cpu W)) : Prop where
  stays : moment.after.fault = some fault
  unheard : ∀ respond, perform { host with respond := respond } moment.op moment.before =
    .ok moment.answer moment.after
  kept : (∀ op, moment.op ≠ .machine op) → ∃ registers, moment.after =
    { moment.before with machine := { moment.before.machine with registers := registers } }
  refused : moment.op.Refused fault moment.before moment.answer moment.after

theorem fetch_of_latched (latched : cpu.fault = some fault) (host : Host W) (address : UInt64)
    (size : Nat) :
    fetch host address size cpu =
      match cpu.machine.memory.readWith (some .exec) address size with
      | .ok bytes => .ok bytes cpu
      | .error _ => .error (.error fault) cpu := by
  simp only [fetch, bind_apply, get_apply, require_of_latched latched, MemoryMap.check,
    MemoryMap.readWith, AccessKind.required]
  cases walked : cpu.machine.memory.walk (some .exec) address size with
  | ok chunks => simp only [Except.map, walked, accessResult_apply]
  | error cause => rfl

theorem readMemory_of_latched (latched : cpu.fault = some fault) (host : Host W)
    (address : UInt64) (size : Nat) :
    readMemory host address size cpu = .error (.error fault) cpu := by
  simp only [readMemory, bind_apply, discard_apply, require_of_latched latched]
  cases cpu.machine.memory.check address size AccessKind.read.required with
  | ok => simp only [notify_of_latched latched]
  | error cause => rfl

theorem writeMemory_of_latched (latched : cpu.fault = some fault) (host : Host W)
    (address : UInt64) (bytes : ByteArray) :
    writeMemory host address bytes cpu = .error (.error fault) cpu := by
  simp only [writeMemory, bind_apply, get_apply, discard_apply, require_of_latched latched]
  cases cpu.machine.memory.check address bytes.size AccessKind.write.required with
  | ok => simp only [notify_of_latched latched]
  | error cause => rfl

theorem readUInt_of_latched (latched : cpu.fault = some fault) (host : Host W) (address : UInt64)
    (size : Nat) : readUInt host address size cpu = .error (.error fault) cpu := by
  simp only [readUInt, bind_apply, readMemory_of_latched latched]

theorem writeUInt_of_latched (latched : cpu.fault = some fault) (host : Host W)
    (address value : UInt64) (size : Nat) :
    writeUInt host address value size cpu = .error (.error fault) cpu := by
  simp only [writeUInt, bind_apply, get_apply, writeMemory_of_latched latched]

theorem discard_notify_of_latched (latched : cpu.fault = some fault) (host : Host W)
    (event : Event) :
    (discard (notify host event) : Attempt (Cpu W) Unit) cpu = .error (.error fault) cpu := by
  simp only [discard_apply, notify_of_latched latched]

/-- The program counter can always be read. -/
theorem exists_onMachine_pc (formed : cpu.machine.registers.WellFormed) :
    ∃ value, (onMachine Machine.pc : Attempt (Cpu W) UInt64) cpu = .ok value cpu := by
  obtain ⟨value, found⟩ := formed.exists_read_pc
  exact ⟨value, by simp [onMachine, within_apply, Machine.pc, Machine.readRegister, found]⟩

theorem portIn_of_latched (latched : cpu.fault = some fault)
    (formed : cpu.machine.registers.WellFormed) (host : Host W) (port size : Nat) :
    portIn host port size cpu = .error (.error fault) cpu := by
  obtain ⟨address, atPc⟩ := exists_onMachine_pc formed
  simp only [portIn, bind_apply, atPc, notify_of_latched latched]

theorem notifyAtPc_of_latched (latched : cpu.fault = some fault)
    (formed : cpu.machine.registers.WellFormed) (host : Host W) (event : UInt64 → Event) :
    (do
      let address ← onMachine Machine.pc
      discard (notify host (event address)) : Attempt (Cpu W) Unit) cpu =
      .error (.error fault) cpu := by
  obtain ⟨address, atPc⟩ := exists_onMachine_pc formed
  simp only [bind_apply, atPc, discard_notify_of_latched latched]

/-! Single operations. -/

def MeetsSilence (host : Host W) (fault : Error) (cpu : Cpu W) (op : CpuOp W) : Prop :=
  ∃ answer after, Silenced host fault ⟨cpu, op, answer, after⟩

/-- An operation that is answered alike by every host and changes nothing is silenced, if its
answer is as it should be. -/
theorem meetsSilence_of_unchanged {op : CpuOp W} (host : Host W) (answer : op.Answer)
    (latched : cpu.fault = some fault) (refused : op.Refused fault cpu answer cpu)
    (answered : ∀ host : Host W, perform host op cpu = .ok answer cpu) :
    MeetsSilence host fault cpu op :=
  ⟨answer, cpu, latched, fun respond => answered { host with respond := respond },
    fun _ => ⟨cpu.machine.registers, rfl⟩, refused⟩

/-- An operation that does no more than to change registers, alike with every host, is silenced. -/
theorem meetsSilence_of_registers {op : CpuOp W} (host : Host W) (answer : op.Answer)
    (latched : cpu.fault = some fault) (registers : RegisterBank)
    (free : ∀ after, op.Refused fault cpu answer after)
    (answered : ∀ host : Host W, perform host op cpu =
      .ok answer { cpu with machine := { cpu.machine with registers := registers } }) :
    MeetsSilence host fault cpu op :=
  ⟨answer, { cpu with machine := { cpu.machine with registers := registers } }, latched,
    fun respond => answered { host with respond := respond }, fun _ => ⟨registers, rfl⟩, free _⟩

theorem outcome_of_fails {α : Type} {x : Attempt (Cpu W) α}
    (fails : x cpu = .error (.error fault) cpu) :
    Attempt.outcome x cpu = .ok (.error fault) cpu := by
  rw [outcome_apply, fails]

theorem pc_meetsSilence (host : Host W) (latched : cpu.fault = some fault)
    (formed : cpu.machine.registers.WellFormed) : MeetsSilence host fault cpu .pc := by
  obtain ⟨pc, atPc⟩ := exists_onMachine_pc formed
  refine meetsSilence_of_unchanged host (.ok pc) latched trivial fun host => ?_
  simp only [perform, outcome_apply, atPc]

theorem setPc_meetsSilence (host : Host W) (latched : cpu.fault = some fault)
    (formed : cpu.machine.registers.WellFormed) (value : UInt64) :
    MeetsSilence host fault cpu (.setPc value) := by
  refine meetsSilence_of_registers host (.ok ()) latched
    (cpu.machine.registers.store cpu.machine.registers.pc value) (fun _ => trivial) fun host => ?_
  simp [perform, outcome_apply, onMachine, within_apply, Machine.setPc, Machine.writeRegister,
    formed.write_pc]

theorem readRegister_meetsSilence (host : Host W) (latched : cpu.fault = some fault) (id : RegId) :
    MeetsSilence host fault cpu (.readRegister id) := by
  refine meetsSilence_of_unchanged host (cpu.machine.registers.read id) latched trivial
    fun host => ?_
  cases read : cpu.machine.registers.read id <;>
    simp [perform, outcome_apply, onMachine, within_apply, Machine.readRegister, read]

theorem writeRegister_meetsSilence (host : Host W) (latched : cpu.fault = some fault) (id : RegId)
    (value : UInt64) : MeetsSilence host fault cpu (.writeRegister id value) := by
  cases write : cpu.machine.registers.write id value with
  | ok registers =>
    refine meetsSilence_of_registers host (.ok ()) latched registers (fun _ => trivial)
      fun host => ?_
    simp [perform, outcome_apply, onMachine, within_apply, Machine.writeRegister, write]
  | error cause =>
    refine meetsSilence_of_unchanged host (.error cause) latched trivial fun host => ?_
    simp [perform, outcome_apply, onMachine, within_apply, Machine.writeRegister, write]

theorem fetch_meetsSilence (host : Host W) (latched : cpu.fault = some fault)
    (formed : cpu.machine.memory.WellFormed) (address : UInt64) (size : Nat) :
    MeetsSilence host fault cpu (.fetch address size) := by
  have decided := formed.readWith_decides (some .exec) address size
  cases read : cpu.machine.memory.readWith (some .exec) address size with
  | ok bytes =>
    have covers := decided.ok_iff_covers.mp ⟨bytes, read⟩
    refine meetsSilence_of_unchanged host (.ok bytes) latched
      ⟨rfl, fun _ => ⟨bytes, read, rfl⟩, absurd covers⟩ fun host => ?_
    simp only [perform, outcome_apply, fetch_of_latched latched, read]
  | error cause =>
    have refused : ¬cpu.machine.memory.Covers (some .exec) address.toNat size := by
      intro covers
      obtain ⟨bytes, succeeds⟩ := decided.ok_iff_covers.mpr covers
      rw [read] at succeeds
      contradiction
    refine meetsSilence_of_unchanged host (.error fault) latched
      ⟨rfl, fun covers => absurd covers refused, fun _ => rfl⟩ fun host => ?_
    simp only [perform, outcome_apply, fetch_of_latched latched, read]

theorem machine_meetsSilence (host : Host W) (latched : cpu.fault = some fault)
    {op : MachineOp W} (plain : ∀ event, op ≠ .dispatch event) :
    MeetsSilence host fault cpu (.machine op) := by
  obtain ⟨answer, after, performed⟩ := Machine.exists_perform_of_not_dispatch plain host
    (Machine.dispatch host host.nesting) cpu.machine
  refine ⟨answer, { cpu with machine := after }, latched, fun respond => ?_,
    fun other => absurd rfl (other op), trivial⟩
  simp only [perform, onMachine, within_apply]
  rw [Machine.perform_eq_of_not_dispatch plain host respond (Machine.dispatch host host.nesting),
    performed]

/-- A confined operation is silenced once a fault is latched. -/
theorem meetsSilence (host : Host W) {op : CpuOp W} (confined : op.Confined)
    (latched : cpu.fault = some fault) (formed : cpu.machine.WellFormed) :
    MeetsSilence host fault cpu op := by
  cases op with
  | arch => exact meetsSilence_of_unchanged host _ latched trivial fun _ => rfl
  | mode => exact meetsSilence_of_unchanged host _ latched trivial fun _ => rfl
  | haltRequested => exact meetsSilence_of_unchanged host _ latched trivial fun _ => rfl
  | fault => exact meetsSilence_of_unchanged host _ latched trivial fun _ => rfl
  | pc => exact pc_meetsSilence host latched formed.registers
  | setPc value => exact setPc_meetsSilence host latched formed.registers value
  | readRegister id => exact readRegister_meetsSilence host latched id
  | writeRegister id value => exact writeRegister_meetsSilence host latched id value
  | fetch address size => exact fetch_meetsSilence host latched formed.memory address size
  | readMemory address size =>
    exact meetsSilence_of_unchanged host (.error fault) latched ⟨rfl, rfl⟩ fun host =>
      outcome_of_fails (readMemory_of_latched latched host address size)
  | writeMemory address bytes =>
    exact meetsSilence_of_unchanged host (.error fault) latched ⟨rfl, rfl⟩ fun host =>
      outcome_of_fails (writeMemory_of_latched latched host address bytes)
  | readUInt address size =>
    exact meetsSilence_of_unchanged host (.error fault) latched ⟨rfl, rfl⟩ fun host =>
      outcome_of_fails (readUInt_of_latched latched host address size)
  | writeUInt address value size =>
    exact meetsSilence_of_unchanged host (.error fault) latched ⟨rfl, rfl⟩ fun host =>
      outcome_of_fails (writeUInt_of_latched latched host address value size)
  | enterBlock address size =>
    exact meetsSilence_of_unchanged host (.error fault) latched ⟨rfl, rfl⟩ fun host =>
      outcome_of_fails (discard_notify_of_latched latched host (.blockEnter address size))
  | enterInstruction address size insn =>
    exact meetsSilence_of_unchanged host (.error fault) latched ⟨rfl, rfl⟩ fun host =>
      outcome_of_fails
        (discard_notify_of_latched latched host (.instructionEnter address size insn))
  | portIn port size =>
    exact meetsSilence_of_unchanged host (.error fault) latched ⟨rfl, rfl⟩ fun host =>
      outcome_of_fails (portIn_of_latched latched formed.registers host port size)
  | portOut port size value =>
    exact meetsSilence_of_unchanged host (.error fault) latched ⟨rfl, rfl⟩ fun host =>
      outcome_of_fails (notifyAtPc_of_latched latched formed.registers host fun address =>
        .portOut address port size value)
  | interrupt number =>
    exact meetsSilence_of_unchanged host (.error fault) latched ⟨rfl, rfl⟩ fun host =>
      outcome_of_fails (notifyAtPc_of_latched latched formed.registers host fun address =>
        .interrupt address number)
  | notify event =>
    exact meetsSilence_of_unchanged host (.error fault) latched ⟨rfl, rfl⟩ fun host =>
      outcome_of_fails (notify_of_latched latched host event)
  | takeFault => exact absurd confined id
  | machine op =>
    refine machine_meetsSilence host latched ?_
    rintro event rfl
    exact confined

/-- Behind a moment at which a fault is latched, a confined program meets silence only, and it
ends with that fault latched. -/
theorem silenced_of_latched {α : Type} {host : Host W} {program : CpuProgram W α}
    {earlier later : List (Moment (CpuOp W) CpuOp.Answer (Cpu W))}
    {moment : Moment (CpuOp W) CpuOp.Answer (Cpu W)} (only : program.Only CpuOp.Confined)
    (formed : cpu.machine.WellFormed)
    (split : program.trail (perform host) cpu = earlier ++ moment :: later)
    (latched : moment.after.fault = some fault) :
    (∀ m ∈ later, Silenced host fault m) ∧
      ∃ a final, program.run (perform host) cpu = .ok a final ∧ final.fault = some fault := by
  have step (op : CpuOp W) (confined : op.Confined) (before : Cpu W)
      (holds : before.fault = some fault ∧ before.machine.WellFormed) :
      ∃ answer after, perform host op before = .ok answer after ∧
        (after.fault = some fault ∧ after.machine.WellFormed) ∧
        Silenced host fault ⟨before, op, answer, after⟩ := by
    obtain ⟨answer, after, silenced⟩ := meetsSilence host confined holds.1 holds.2
    have performed : perform host op before = .ok answer after := silenced.unheard host.respond
    have evolves : Evolves host before after := (keeps_perform host op).of_ok performed
    exact ⟨answer, after, performed, ⟨silenced.stays, evolves.wellFormed holds.2⟩, silenced⟩
  have listed : moment ∈ program.trail (perform host) cpu := by simp [split]
  have reached : Evolves host cpu moment.after :=
    Program.keeps_trail (keeps_perform host) program cpu moment listed
  obtain ⟨rest, restOnly, behind, same⟩ := Program.exists_rest_of_trail_eq only split
  obtain ⟨moments, a, final, ran, held, -⟩ :=
    Program.trail_of_invariant step rest restOnly ⟨latched, reached.wellFormed formed⟩
  exact ⟨fun m member => moments m (behind ▸ member), a, final, same ▸ ran, held⟩

end Cpu

end GuestMachine
