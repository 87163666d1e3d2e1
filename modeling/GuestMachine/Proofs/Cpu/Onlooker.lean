import GuestMachine.Proofs.Cpu.Transcript
import GuestMachine.Proofs.Machine.OnlookerDispatch

/-!
A processor beside a hook that only looks on. Whatever an engine asks of it comes to the same: an
access that no other hook resolves fails with the same fault, and the first fault is latched alike.
-/

namespace GuestMachine

/-- Operations of a processor that are asked alike as far as a view of the world goes, and which of
their answers agree. -/
inductive CpuOp.Asks {W V : Type} (view : W → V) :
    (op other : CpuOp W) → (op.Answer → other.Answer → Prop) → Prop
  | same (op : CpuOp W) (guarded : ∀ inner, op ≠ .machine inner) : Asks view op op Eq
  | machine {op other : MachineOp W} {agree : op.Answer → other.Answer → Prop}
      (asks : MachineOp.Asks view op other agree) : Asks view (.machine op) (.machine other) agree

/-- Where the view shows the whole world, only equal answers agree. -/
theorem CpuOp.exists_asks {W V : Type} {view : W → V} (whole : view.Injective) (op : CpuOp W) :
    ∃ agree, CpuOp.Asks view op op agree ∧ ∀ a b, agree a b → a = b := by
  cases op with
  | machine op =>
    obtain ⟨agree, asked, same⟩ := MachineOp.exists_asks whole op
    exact ⟨agree, .machine asked, same⟩
  | _ => exact ⟨Eq, .same _ (by simp), fun _ _ same => same⟩

namespace Onlooker

variable {W V α β ε : Type} {onlooker : Onlooker W V} {host : Host W} {cpu watched : Cpu W}

/-- A processor without the hook beside one with it. -/
structure CpuBeside (onlooker : Onlooker W V) (cpu watched : Cpu W) : Prop where
  machine : onlooker.Beside cpu.machine watched.machine
  fault : watched.fault = cpu.fault

theorem onMachine_mirrors {agree : α → β → Prop} {x : EStateM ε (Machine W) α}
    {y : EStateM ε (Machine W) β} {account : Account id x} {other : Account id y}
    {plain : Transcript account} {seen : Transcript other}
    (mirrors : onlooker.Mirrors onlooker.Beside agree plain seen) :
    onlooker.Mirrors onlooker.CpuBeside agree (Cpu.onMachine.transcript plain)
      (Cpu.onMachine.transcript seen) :=
  mirrors.within (fun _ _ beside => beside.machine) fun _ _ beside _ _ ends => ⟨ends, beside.fault⟩

theorem CpuBeside.latchAndFail (beside : onlooker.CpuBeside cpu watched) (cause : Error) :
    Matches onlooker.CpuBeside Eq (Cpu.latchAndFail cause cpu : EStateM.Result Failure (Cpu W) α)
      (Cpu.latchAndFail cause watched) := by
  rw [Cpu.latchAndFail_apply, Cpu.latchAndFail_apply, beside.fault]
  exact .error _ ⟨beside.machine, rfl⟩

theorem CpuBeside.accessResult (beside : onlooker.CpuBeside cpu watched) (kind : AccessKind)
    (address : UInt64) (size : Nat) (result : Except Error α) :
    Matches onlooker.CpuBeside Eq (Cpu.accessResult kind address size result cpu)
      (Cpu.accessResult kind address size result watched) := by
  cases result with
  | ok a => exact .ok rfl beside
  | error cause => exact beside.latchAndFail _

theorem CpuBeside.onMachine {agree : α → α → Prop} {x y : EStateM ε (Machine W) α}
    (beside : onlooker.CpuBeside cpu watched)
    (alike : Matches onlooker.Beside agree (x cpu.machine) (y watched.machine)) :
    Matches onlooker.CpuBeside agree (Cpu.onMachine x cpu) (Cpu.onMachine y watched) :=
  alike.within fun _ _ ends => ⟨ends, beside.fault⟩

theorem CpuBeside.look (beside : onlooker.CpuBeside cpu watched) (f : Machine W → α)
    (same : ∀ world, f (onlooker.join cpu.machine world) = f cpu.machine) :
    Matches onlooker.CpuBeside Eq (.ok (f cpu.machine) cpu : EStateM.Result ε (Cpu W) α)
      (.ok (f watched.machine) watched) :=
  .ok (beside.machine.reads f same).symm beside

theorem CpuBeside.takeFault (beside : onlooker.CpuBeside cpu watched) :
    Matches onlooker.CpuBeside Eq (Cpu.takeFault cpu : EStateM.Result ε (Cpu W) (Option Error))
      (Cpu.takeFault watched) :=
  .ok beside.fault.symm ⟨beside.machine, rfl⟩

/-- Bytes that are let through are stored alike. -/
theorem CpuBeside.store (host : Host W) (beside : onlooker.CpuBeside cpu watched)
    (address : UInt64) (bytes : ByteArray) :
    let store : Attempt (Cpu W) Unit := do
      let machine := (← get).machine
      let memory ← Cpu.accessResult .write address bytes.size
        (machine.memory.writeWith (some .write) address bytes)
      modify fun cpu => { cpu with machine := { machine with memory := memory } }
    Matches onlooker.CpuBeside Eq (store cpu) (store watched) := by
  simp only [bind_apply, get_apply, Cpu.accessResult_apply, beside.fault,
    beside.machine.memory_eq]
  cases done : cpu.machine.memory.writeWith (some .write) address bytes with
  | error cause => exact .error _ ⟨beside.machine, rfl⟩
  | ok memory =>
    obtain ⟨world, sight, joined⟩ := beside.machine.joined
    have changes : Machine.Evolves host cpu.machine _ := .single (.write done)
    refine .ok rfl ⟨?_, beside.fault⟩
    rw [joined]
    exact beside.machine.next changes rfl rfl sight

section Accesses

variable (blind : host.Blind onlooker.view onlooker.hook.callback)
  (passive : host.Passive onlooker.view onlooker.origin onlooker.hook.callback)

include blind passive

theorem notify_mirrors (event : Event) :
    onlooker.Mirrors onlooker.CpuBeside Eq (Cpu.notify.transcript host event)
      (Cpu.notify.transcript host event) := by
  refine .bind (.get (fun _ => rfl) fun _ => rfl) fun cpu watched beside => ?_
  obtain ⟨machine, fault⟩ := cpu
  obtain ⟨watched, latched⟩ := watched
  obtain rfl : latched = fault := beside.fault
  cases latched with
  | some fault => exact .quiet (fun _ => rfl) (fun _ => rfl) fun _ _ beside _ => .error _ beside
  | none =>
    have dispatches := dispatch_mirrors blind passive host.nesting event
    refine .bind (onMachine_mirrors dispatches).outcome.lift fun answer _ same => ?_
    obtain rfl := same
    cases answer with
    | ok result => exact .quiet (fun _ => rfl) (fun _ => rfl) fun _ _ beside _ => .ok rfl beside
    | error cause =>
      exact .quiet (fun _ => rfl) (fun _ => rfl) fun _ _ beside _ => beside.latchAndFail cause

/-- A check that meets unmapped memory comes to the same, as the hook resolves nothing. -/
theorem require_mirrors (kind : AccessKind) (address : UInt64) (size : Nat) (value : UInt64) :
    onlooker.Mirrors onlooker.CpuBeside Eq
      (Cpu.require.transcript host kind address size value)
      (Cpu.require.transcript host kind address size value) := by
  intro cpu watched beside steady
  simp only [Cpu.require.account] at steady
  simp only [Cpu.require.transcript, Cpu.require_apply, beside.machine.memory_eq]
  generalize cpu.machine.memory.check address size kind.required = checked at steady ⊢
  rcases checked with cause | _
  · cases cause with
    | unmappedMemory refused =>
      obtain ⟨alike, noted⟩ := notify_mirrors blind passive _ cpu watched beside steady
      refine ⟨?_, noted⟩
      dsimp only
      generalize Cpu.notify host _ cpu = result at alike ⊢
      generalize Cpu.notify host _ watched = resultToo at alike ⊢
      cases alike with
      | error failure ends => exact .error failure ends
      | ok same ends =>
        dsimp only
        rw [ends.machine.memory_eq]
        exact ends.accessResult kind address size _
    | _ => exact ⟨beside.accessResult kind address size _, rfl⟩
  · exact ⟨beside.accessResult kind address size _, rfl⟩

theorem fetch_mirrors (address : UInt64) (size : Nat) :
    onlooker.Mirrors onlooker.CpuBeside Eq (Cpu.fetch.transcript host address size)
      (Cpu.fetch.transcript host address size) := by
  refine .bind (require_mirrors blind passive .fetch address size 0) fun _ _ _ => ?_
  refine .bind (.get (fun _ => rfl) fun _ => rfl) fun cpu watched beside => ?_
  refine .quiet (fun _ => rfl) (fun _ => rfl) fun _ _ ends _ => ?_
  rw [beside.machine.memory_eq]
  exact ends.accessResult .fetch address size _

theorem readMemory_mirrors (address : UInt64) (size : Nat) :
    onlooker.Mirrors onlooker.CpuBeside Eq (Cpu.readMemory.transcript host address size)
      (Cpu.readMemory.transcript host address size) := by
  refine .bind (require_mirrors blind passive .read address size 0) fun _ _ _ => ?_
  refine .bind (notify_mirrors blind passive _).discard fun _ _ _ => ?_
  refine .bind (.get (fun _ => rfl) fun _ => rfl) fun cpu watched beside => ?_
  refine .quiet (fun _ => rfl) (fun _ => rfl) fun _ _ ends _ => ?_
  rw [beside.machine.memory_eq]
  exact ends.accessResult .read address size _

theorem writeMemory_mirrors (address : UInt64) (bytes : ByteArray) :
    onlooker.Mirrors onlooker.CpuBeside Eq (Cpu.writeMemory.transcript host address bytes)
      (Cpu.writeMemory.transcript host address bytes) := by
  refine .bind (.get (fun _ => rfl) fun _ => rfl) fun cpu watched beside => ?_
  rw [beside.machine.mode_eq]
  refine .bind (require_mirrors blind passive .write address bytes.size _) fun _ _ _ => ?_
  refine .bind (notify_mirrors blind passive _).discard fun _ _ _ => ?_
  exact .quiet (fun _ => rfl) (fun _ => rfl) fun _ _ beside _ => beside.store host address bytes

theorem portIn_mirrors (port size : Nat) :
    onlooker.Mirrors onlooker.CpuBeside Eq (Cpu.portIn.transcript host port size)
      (Cpu.portIn.transcript host port size) := by
  refine .bind (.quiet (fun _ => rfl) (fun _ => rfl) fun _ _ beside _ =>
    beside.onMachine beside.machine.pc) fun address _ same => ?_
  obtain rfl := same
  refine .bind (notify_mirrors blind passive _) fun result _ same => ?_
  obtain rfl := same
  cases result <;>
    exact .quiet (fun _ => rfl) (fun _ => rfl) fun _ _ beside _ => .ok rfl beside

theorem notifyAtPc_mirrors (event : UInt64 → Event) :
    onlooker.Mirrors onlooker.CpuBeside Eq (Cpu.notifyAtPc.transcript host event)
      (Cpu.notifyAtPc.transcript host event) := by
  refine .bind (.quiet (fun _ => rfl) (fun _ => rfl) fun _ _ beside _ =>
    beside.onMachine beside.machine.pc) fun address _ same => ?_
  obtain rfl := same
  exact (notify_mirrors blind passive _).discard

/-- Operations asked alike come to the same beside the hook. -/
theorem cpuPerform_mirrors {op other : CpuOp W} {agree : op.Answer → other.Answer → Prop}
    (asks : CpuOp.Asks onlooker.view op other agree) :
    onlooker.Mirrors onlooker.CpuBeside agree (Cpu.perform.transcript host op)
      (Cpu.perform.transcript host other) := by
  cases asks with
  | machine asks =>
    exact onMachine_mirrors (perform_mirrors blind (dispatch_mirrors blind passive _) asks)
  | same op guarded =>
    cases op with
    | machine inner => exact absurd rfl (guarded inner)
    | fetch address size => exact (fetch_mirrors blind passive address size).outcome
    | readMemory address size => exact (readMemory_mirrors blind passive address size).outcome
    | writeMemory address bytes => exact (writeMemory_mirrors blind passive address bytes).outcome
    | readUInt address size =>
      refine Mirrors.outcome (.bind (readMemory_mirrors blind passive address size) ?_)
      rintro bytes _ rfl
      exact .quiet (fun _ => rfl) (fun _ => rfl) fun _ _ beside _ =>
        beside.look (fun machine => machine.mode.decodeUInt bytes) fun _ => rfl
    | writeUInt address value size =>
      refine Mirrors.outcome (.bind (.get (fun _ => rfl) fun _ => rfl) fun cpu watched beside => ?_)
      rw [beside.machine.mode_eq]
      exact writeMemory_mirrors blind passive address _
    | enterBlock | enterInstruction => exact (notify_mirrors blind passive _).discard.outcome
    | portIn port size => exact (portIn_mirrors blind passive port size).outcome
    | portOut port size value =>
      exact (notifyAtPc_mirrors blind passive fun address =>
        .portOut address port size value).outcome
    | interrupt number =>
      exact (notifyAtPc_mirrors blind passive fun address => .interrupt address number).outcome
    | notify event => exact (notify_mirrors blind passive event).outcome
    | arch =>
      exact .quiet (fun _ => rfl) (fun _ => rfl) fun _ _ beside _ =>
        beside.look Machine.arch fun _ => rfl
    | mode =>
      exact .quiet (fun _ => rfl) (fun _ => rfl) fun _ _ beside _ =>
        beside.look Machine.mode fun _ => rfl
    | haltRequested =>
      exact .quiet (fun _ => rfl) (fun _ => rfl) fun _ _ beside _ =>
        beside.look Machine.stopRequested fun _ => rfl
    | pc =>
      exact .quiet (fun _ => rfl) (fun _ => rfl) fun _ _ beside _ =>
        (beside.onMachine beside.machine.pc).outcome
    | setPc value =>
      exact .quiet (fun _ => rfl) (fun _ => rfl) fun _ _ beside _ =>
        (beside.onMachine (beside.machine.setPc host value)).outcome
    | readRegister id =>
      exact .quiet (fun _ => rfl) (fun _ => rfl) fun _ _ beside _ =>
        (beside.onMachine (beside.machine.readRegister id)).outcome
    | writeRegister id value =>
      exact .quiet (fun _ => rfl) (fun _ => rfl) fun _ _ beside _ =>
        (beside.onMachine (beside.machine.writeRegister host id value)).outcome
    | fault =>
      exact .quiet (fun _ => rfl) (fun _ => rfl) fun _ _ beside _ => .ok beside.fault.symm beside
    | takeFault => exact .quiet (fun _ => rfl) (fun _ => rfl) fun _ _ beside _ => beside.takeFault

end Accesses

end Onlooker

end GuestMachine
