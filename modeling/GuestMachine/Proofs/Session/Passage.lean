import GuestMachine.Proofs.Session.Run
import GuestMachine.Session.Call

/-!
How host calls pass. A call does what it is for, or it is refused and nothing changes. Only a run
that was let in can fail and yet change the session, and only a run can be broken off.
-/

namespace GuestMachine

/-- An attempt that succeeds along a relation, or fails with an error and changes nothing. -/
def Atomic {S α : Type} (R : S → S → Prop) (x : Attempt S α) : Prop :=
  ∀ s, (∃ a t, x s = .ok a t ∧ R s t) ∨ ∃ cause, x s = .error (.error cause) s

namespace Machine

variable {W : Type}

/-- Whether memory and hooks are the same in both machines. -/
structure SameStores (before after : Machine W) : Prop where
  memory : after.memory = before.memory
  hooks : after.hooks = before.hooks

theorem atomic_modifyMemory (update : MemoryMap → Except Error MemoryMap) :
    Atomic (fun _ _ : Machine W => True) (modifyMemory update) := by
  intro machine
  cases done : update machine.memory with
  | ok memory => exact .inl ⟨(), _, by simp [modifyMemory, done]; rfl, trivial⟩
  | error cause => exact .inr ⟨cause, by simp [modifyMemory, done]⟩

theorem atomic_mapMemory (host : Host W) (base size : UInt64) (perms : Permissions) :
    Atomic (fun _ _ => True) (mapMemory host base size perms) := by
  intro machine
  cases done : machine.memory.map (host.allocates machine.world) base size perms with
  | ok answer => exact .inl ⟨answer.1, _, by simp [mapMemory, done]; rfl, trivial⟩
  | error cause => exact .inr ⟨cause, by simp [mapMemory, done]⟩

theorem atomic_register (kind : EventKind) (range : AddressRange) (insn : Option InsnId)
    (callback : HookCallback) :
    Atomic (fun _ _ : Machine W => True) (register kind range insn callback) := by
  intro machine
  cases done : machine.hooks.register kind range insn callback with
  | ok answer => exact .inl ⟨answer.1, _, by simp [register, done]; rfl, trivial⟩
  | error cause => exact .inr ⟨cause, by simp [register, done]⟩

theorem atomic_removeHook (handle : HookHandle) :
    Atomic (fun _ _ : Machine W => True) (removeHook handle) := by
  intro machine
  cases done : machine.hooks.unregister handle with
  | ok hooks => exact .inl ⟨(), _, by simp [removeHook, done]; rfl, trivial⟩
  | error cause => exact .inr ⟨cause, by simp [removeHook, done]⟩

theorem atomic_readMemory (address : UInt64) (size : Nat) :
    Atomic (SameStores (W := W)) (readMemory address size) := by
  intro machine
  cases done : machine.memory.read address size with
  | ok bytes => exact .inl ⟨bytes, machine, by simp [readMemory, done], rfl, rfl⟩
  | error cause => exact .inr ⟨cause, by simp [readMemory, done]⟩

theorem atomic_readRegister (id : RegId) : Atomic (SameStores (W := W)) (readRegister id) := by
  intro machine
  cases done : machine.registers.read id with
  | ok value => exact .inl ⟨value, machine, by simp [readRegister, done], rfl, rfl⟩
  | error cause => exact .inr ⟨cause, by simp [readRegister, done]⟩

theorem atomic_writeRegister (id : RegId) (value : UInt64) :
    Atomic (SameStores (W := W)) (writeRegister id value) := by
  intro machine
  cases done : machine.registers.write id value with
  | ok registers =>
    have written : writeRegister id value machine =
        .ok () { machine with registers := registers } := by simp [writeRegister, done]
    exact .inl ⟨(), _, written, rfl, rfl⟩
  | error cause => exact .inr ⟨cause, by simp [writeRegister, done]⟩

end Machine

namespace HostCall

variable {W : Type}

/-- What a call is for, as far as the lifecycle goes. -/
inductive Role where
  | configures
  /-- Changes memory or hooks. -/
  | changes
  /-- Reads, or touches registers. -/
  | inspects
  /-- Cannot fail. -/
  | signals
  | runs
  | closes
  deriving DecidableEq

def role : HostCall W → Role
  | configure => .configures
  | mapMemory .. | unmapMemory .. | protectMemory .. | writeMemory .. | loadMemory ..
  | addHook .. | addInstructionHook .. | removeHook _ => .changes
  | readMemory .. | regions | readRegister _ | writeRegister .. | registerNamed _ | saveContext
  | restoreContext _ => .inspects
  | stop | stopThrough _ | setWorld _ => .signals
  | run _ => .runs
  | close => .closes

/-- Name under which a call is refused, if it can be. -/
def operation? : HostCall W → Option String
  | configure => "configure"
  | mapMemory .. => "map memory"
  | unmapMemory .. => "unmap memory"
  | protectMemory .. => "protect memory"
  | readMemory .. => "read memory"
  | writeMemory .. => "write memory"
  | loadMemory .. => "load memory"
  | regions => "list memory regions"
  | readRegister _ => "read a register"
  | writeRegister .. => "write a register"
  | registerNamed _ => "look up a register"
  | addHook .. => "add a hook"
  | addInstructionHook .. => "add a hook"
  | removeHook _ => "remove a hook"
  | stop | stopThrough _ | setWorld _ => none
  | saveContext => "save a context"
  | restoreContext _ => "restore a context"
  | run _ => "run"
  | close => "close"

theorem operation?_eq_none_iff (call : HostCall W) : call.operation? = none ↔ call.role = .signals := by
  cases call <;> simp [operation?, role]

end HostCall

namespace Session

variable {W E : Type} {host : Host W} {engine : Engine W E} {session : Session W E}

/-- How a call passes, given the session before it: its result and the session behind it. -/
inductive Passes (session : Session W E) :
    (call : HostCall W) → EStateM.Result Failure (Session W E) call.Answer → Prop
  | refused {call : HostCall W} (fallible : call.role ≠ .signals) (cause : Error) :
      Passes session call (.error (.error cause) session)
  | configured (new : session.state = .created ∨ session.state = .configured) :
      Passes session .configure (.ok () { session with state := .configured })
  | changed {call : HostCall W} (changes : call.role = .changes)
      (isOpen : session.state.isOpen = true) (answer : call.Answer) (machine : Machine W) :
      Passes session call (.ok answer { session with machine := machine }.touched)
  | inspected {call : HostCall W} (inspects : call.role = .inspects)
      (isOpen : session.state.isOpen = true) (answer : call.Answer) {machine : Machine W}
      (same : session.machine.SameStores machine) :
      Passes session call (.ok answer { session with machine := machine })
  | signalled {call : HostCall W} (signals : call.role = .signals) (answer : call.Answer)
      {machine : Machine W} (same : session.machine.SameStores machine) :
      Passes session call (.ok answer { session with machine := machine })
  | stopped {request : RunRequest} (canRun : session.state.canRun = true) (reason : StopReason)
      (noFault : ∀ kind, reason ≠ .fault kind) (machine : Machine W) (engine : E) :
      Passes session (.run request) (.ok reason
        { machine := machine, engine := engine, state := .stopped
          lastStop := some reason, lastError := none })
  | faulted {request : RunRequest} (canRun : session.state.canRun = true) (cause : Error)
      (machine : Machine W) (engine : E) :
      Passes session (.run request) (.error (.error cause)
        { machine := machine, engine := engine, state := .faulted
          lastStop := some (.fault cause.faultKind), lastError := some cause })
  | brokenOff {request : RunRequest} (canRun : session.state.canRun = true) (cause : Abort)
      (left : Session W E) : Passes session (.run request) (.error (.abort cause) left)
  | closed (isOpen : session.state.isOpen = true) :
      Passes session .close (.ok () { session with
        machine := { session.machine with
          memory := session.machine.memory.clear
          hooks := session.machine.hooks.clear }
        state := .closed })

theorem requireOpen_apply (operation : String) (session : Session W E) :
    requireOpen operation session =
      if session.state.isOpen then .ok () session
      else .error (.error (.invalidState session.state operation)) session := by
  simp only [requireOpen, bind_apply, get_apply]
  split <;> rfl

/-- What is asked of an open session only passes if it does in an open one. -/
theorem passes_requireOpen {call : HostCall W} (fallible : call.role ≠ .signals)
    (operation : String) {rest : Attempt (Session W E) call.Answer}
    (passes : session.state.isOpen = true → Passes session call (rest session)) :
    Passes session call ((requireOpen operation >>= fun _ => rest) session) := by
  simp only [bind_apply, requireOpen_apply]
  by_cases isOpen : session.state.isOpen = true
  · rw [if_pos isOpen]
    exact passes isOpen
  · rw [if_neg isOpen]
    exact .refused fallible _

theorem passes_mutate {call : HostCall W} (changes : call.role = .changes) (operation : String)
    {x : Attempt (Machine W) call.Answer} (atomic : Atomic (fun _ _ => True) x) :
    Passes session call (mutate operation x session) := by
  have fallible : call.role ≠ .signals := by simp [changes]
  refine passes_requireOpen fallible operation fun isOpen => ?_
  simp only [onMachine, bind_apply, within_apply]
  rcases atomic session.machine with ⟨answer, machine, done, -⟩ | ⟨cause, failed⟩
  · rw [done]
    exact .changed changes isOpen answer machine
  · rw [failed]
    exact .refused fallible cause

theorem passes_inspect {call : HostCall W} (inspects : call.role = .inspects) (operation : String)
    {x : Attempt (Machine W) call.Answer} (atomic : Atomic Machine.SameStores x) :
    Passes session call (inspect operation x session) := by
  have fallible : call.role ≠ .signals := by simp [inspects]
  refine passes_requireOpen fallible operation fun isOpen => ?_
  simp only [onMachine, within_apply]
  rcases atomic session.machine with ⟨answer, machine, done, same⟩ | ⟨cause, failed⟩
  · rw [done]
    exact .inspected inspects isOpen answer same
  · rw [failed]
    exact .refused fallible cause

theorem passes_look (call : HostCall W) (inspects : call.role = .inspects) (operation : String)
    (look : Session W E → call.Answer) :
    Passes session call ((do requireOpen operation; return look (← get)) session) := by
  refine passes_requireOpen (by simp [inspects]) operation fun isOpen => ?_
  exact .inspected inspects isOpen (look session) ⟨rfl, rfl⟩

theorem passes_signal {call : HostCall W} (signals : call.role = .signals) {answer : call.Answer}
    {machine : Machine W}
    (done : perform host engine call session = .ok answer { session with machine := machine })
    (same : session.machine.SameStores machine) :
    Passes session call (perform host engine call session) := by
  rw [done]
  exact .signalled signals answer same

theorem passes_configure : Passes session .configure (configure session) := by
  obtain ⟨machine, engine, state, lastStop, lastError⟩ := session
  cases state with
  | created => exact .configured (.inl rfl)
  | configured => exact .configured (.inr rfl)
  | _ => exact .refused (by simp [HostCall.role]) _

theorem passes_restoreContext (context : Context) :
    Passes session (.restoreContext context) (restoreContext context session) := by
  have inspects : (HostCall.restoreContext context : HostCall W).role = .inspects := rfl
  have fallible : (HostCall.restoreContext context : HostCall W).role ≠ .signals := by
    simp [inspects]
  refine passes_requireOpen fallible _ fun isOpen => ?_
  simp only [bind_apply, get_apply]
  split
  · cases restored : session.machine.registers.restore context.values with
    | ok registers =>
      simp only [bind_apply, ofExcept_ok, pure_apply, set_apply]
      exact .inspected inspects isOpen () ⟨rfl, rfl⟩
    | error cause => exact .refused fallible cause
  · exact .refused fallible _

theorem passes_run (formed : session.machine.registers.WellFormed) (request : RunRequest) :
    Passes session (.run request) (run host engine request session) := by
  cases accepted : session.checkRun request with
  | error cause =>
    rw [run_of_refused host engine accepted]
    exact .refused (by simp [HostCall.role]) cause
  | ok =>
    have canRun : session.state.canRun = true := by
      unfold checkRun at accepted
      split at accepted
      · contradiction
      next runs => simpa using runs
    obtain ⟨ending, ends, lands⟩ := (run_eq_iff host engine accepted formed _).mp rfl
    rw [← lands]
    cases ends with
    | @stopped k flight reason arrives looked stops =>
      refine .stopped canRun reason ?_ _ _
      rintro kind rfl
      exact stops.holds
    | halted => exact .stopped canRun .completed (by simp) _ _
    | failed | faulted => exact .faulted canRun _ _ _
    | brokenOff | outlasted => exact .brokenOff canRun _ _

theorem passes_close : Passes session .close (close session) :=
  passes_requireOpen (by simp [HostCall.role]) _ fun isOpen => .closed isOpen

/-- Every call passes in one of the ways there are. -/
theorem passes_perform (formed : session.machine.registers.WellFormed) (call : HostCall W) :
    Passes session call (perform host engine call session) := by
  cases call with
  | configure => exact passes_configure
  | mapMemory base size perms =>
    exact passes_mutate rfl _ (Machine.atomic_mapMemory host base size perms)
  | unmapMemory | protectMemory | writeMemory | loadMemory =>
    exact passes_mutate rfl _ (Machine.atomic_modifyMemory _)
  | readMemory address size => exact passes_inspect rfl _ (Machine.atomic_readMemory address size)
  | regions => exact passes_look .regions rfl _ fun session => session.machine.memory.infos
  | readRegister id => exact passes_inspect rfl _ (Machine.atomic_readRegister id)
  | writeRegister id value => exact passes_inspect rfl _ (Machine.atomic_writeRegister id value)
  | registerNamed name =>
    exact passes_look (.registerNamed name) rfl _ fun session =>
      session.machine.registers.idOf? name
  | addHook | addInstructionHook => exact passes_mutate rfl _ (Machine.atomic_register _ _ _ _)
  | removeHook handle => exact passes_mutate rfl _ (Machine.atomic_removeHook handle)
  | stop | stopThrough | setWorld => exact passes_signal rfl rfl ⟨rfl, rfl⟩
  | saveContext =>
    exact passes_look .saveContext rfl _ fun session =>
      ⟨session.machine.arch, session.machine.mode, session.machine.registers.snapshot⟩
  | restoreContext context => exact passes_restoreContext context
  | run request => exact passes_run formed request
  | close => exact passes_close

end Session

end GuestMachine
