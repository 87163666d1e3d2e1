import GuestMachine.Proofs.Memory.InPlace
import GuestMachine.Proofs.Session.Passage
import GuestMachine.Proofs.Session.Reachable

/-!
Refused calls. A call of the host that fails has changed nothing, unless it is a run that was let
in. That holds as well where memory and registers are changed in place, one part after another:
whatever a call can fail for, it has looked at before it changes the first part.
-/

namespace GuestMachine

namespace Machine

variable {W α : Type}

def onMemory (x : Attempt MemoryMap α) : Attempt (Machine W) α :=
  within Machine.memory (fun machine memory => { machine with memory := memory }) x

def onRegisters (x : Attempt RegisterBank α) : Attempt (Machine W) α :=
  within Machine.registers (fun machine registers => { machine with registers := registers }) x

theorem onMemory_wholly (update : MemoryMap → Except Error MemoryMap) :
    onMemory (Attempt.wholly update) = (modifyMemory update : Attempt (Machine W) Unit) := by
  funext machine
  cases done : update machine.memory <;>
    simp [onMemory, within_apply, Attempt.wholly, modifyMemory, done]

/-- A write in place to memory that is laid out well is one that makes a new table. -/
theorem onMemory_writeInPlace {machine : Machine W} (formed : machine.memory.WellFormed)
    (needed : Option Permissions) (address : UInt64) (bytes : ByteArray) :
    onMemory (MemoryMap.writeInPlace needed address bytes) machine =
      modifyMemory (fun memory => memory.writeWith needed address bytes) machine := by
  rw [← onMemory_wholly]
  simp only [onMemory, within_apply, formed.writeInPlace_eq]

end Machine

namespace Session

variable {W E : Type} {host : Host W} {engine : Engine W E} {session : Session W E}

/-- Restores saved register values in place, one register after another. -/
def restoreContextInPlace (context : Context) : Attempt (Session W E) Unit := do
  requireOpen "restore a context"
  let session ← get
  if context.arch = session.machine.arch ∧ context.mode = session.machine.mode then
    onMachine (Machine.onRegisters (RegisterBank.restoreInPlace context.values))
  else Attempt.fail (.invalidArgument Reason.foreignContext)

/-- Performs an operation. The ones that change several bytes or registers change them in place,
one part after another, and would keep the parts changed so far if they failed amid them. -/
def performInPlace (host : Host W) (engine : Engine W E) :
    (call : HostCall W) → Attempt (Session W E) call.Answer
  | .writeMemory address bytes => mutate "write memory"
      (Machine.onMemory (MemoryMap.writeInPlace (some .write) address bytes))
  | .loadMemory address bytes => mutate "load memory"
      (Machine.onMemory (MemoryMap.writeInPlace none address bytes))
  | .restoreContext context => restoreContextInPlace context
  | call => perform host engine call

/-- Changes of one machine that come to the same change a session alike. -/
theorem mutate_congr {α : Type} {operation : String} {x y : Attempt (Machine W) α}
    (same : x session.machine = y session.machine) :
    mutate operation x session = mutate operation y session := by
  simp only [mutate, bind_apply, requireOpen_apply]
  by_cases isOpen : session.state.isOpen = true
  · rw [if_pos isOpen]
    simp only [onMachine, within_apply, same]
  · rw [if_neg isOpen]

theorem restoreContextInPlace_eq (context : Context) :
    restoreContextInPlace context session = restoreContext context session := by
  simp only [restoreContextInPlace, restoreContext, bind_apply, requireOpen_apply]
  by_cases isOpen : session.state.isOpen = true
  · rw [if_pos isOpen]
    simp only [get_apply]
    split
    · simp only [onMachine, Machine.onRegisters, within_apply, RegisterBank.restoreInPlace_eq]
      cases restored : session.machine.registers.restore context.values <;>
        simp [Attempt.wholly, restored]
    · rfl
  · rw [if_neg isOpen]

/-- Changes in place come to the same as changes made as a whole. -/
theorem performInPlace_eq (formed : session.machine.memory.WellFormed) (call : HostCall W) :
    performInPlace host engine call session = perform host engine call session := by
  cases call with
  | writeMemory address bytes =>
    exact mutate_congr (Machine.onMemory_writeInPlace formed (some .write) address bytes)
  | loadMemory address bytes =>
    exact mutate_congr (Machine.onMemory_writeInPlace formed none address bytes)
  | restoreContext context => exact restoreContextInPlace_eq context
  | _ => rfl

/-- Whether a run is let in: the state allows it, its bounds fit the program counter, and its start
is mapped executable. -/
structure Admits (session : Session W E) (request : RunRequest) : Prop where
  canRun : session.state.canRun = true
  fits : session.boundsFit request = true
  executable : session.machine.memory.Grants (some .exec) request.start.toNat

theorem admits_iff (formed : session.machine.memory.WellFormed) {request : RunRequest} :
    session.Admits request ↔ session.checkRun request = .ok () := by
  rw [checkRun_eq_ok_iff formed]
  exact ⟨fun ⟨canRun, fits, executable⟩ => ⟨canRun, fits, executable⟩,
    fun ⟨canRun, fits, executable⟩ => ⟨canRun, fits, executable⟩⟩

/-- What a failed call leaves: the session as it was, or, if the call is a run that was let in, a
session that records the fault. -/
inductive Leaves (session : Session W E) (call : HostCall W) (cause : Error) :
    Session W E → Prop
  | unchanged (kept : ∀ request, call = .run request → ¬session.Admits request) :
      Leaves session call cause session
  | faulted {request : RunRequest} (runs : call = .run request) (admits : session.Admits request)
      (machine : Machine W) (engine : E) :
      Leaves session call cause
        { machine := machine, engine := engine, state := .faulted
          lastStop := some (.fault cause.faultKind), lastError := some cause }

theorem leaves_run (formed : session.machine.WellFormed) {request : RunRequest} {cause : Error}
    {left : Session W E} (failed : run host engine request session = .error (.error cause) left) :
    Leaves session (.run request) cause left := by
  cases accepted : session.checkRun request with
  | error refusal =>
    rw [run_of_refused host engine accepted] at failed
    obtain ⟨-, rfl⟩ := EStateM.Result.error.inj failed
    refine .unchanged fun other same admits => ?_
    obtain rfl := HostCall.run.inj same
    rw [(admits_iff formed.memory).mp admits] at accepted
    contradiction
  | ok =>
    rw [run_eq_landing host engine accepted formed.registers] at failed
    generalize Flight.drive host engine request session.machine.world
      (request.fuel host.patience) (session.takeoff request) = ending at failed
    cases ending with
    | ok reason flight => contradiction
    | error failure flight =>
      cases failure with
      | error fault =>
        obtain ⟨same, rfl⟩ := EStateM.Result.error.inj failed
        obtain rfl := Failure.error.inj same
        exact .faulted rfl ((admits_iff formed.memory).mpr accepted) _ _
      | abort broken => simp [landing] at failed

/-- A call that fails leaves no trace, unless it is a run that was let in. -/
theorem leaves_perform (formed : session.machine.WellFormed) {call : HostCall W} {cause : Error}
    {left : Session W E}
    (failed : perform host engine call session = .error (.error cause) left) :
    Leaves session call cause left := by
  have passes : Passes session call (perform host engine call session) :=
    passes_perform formed.registers call
  rw [failed] at passes
  cases call with
  | run request => exact leaves_run formed failed
  | _ =>
    cases passes with
    | refused fallible cause => exact .unchanged (by simp)

/-- Failed calls leave no trace. In every session that a host can come to, a call that fails with
an error leaves the whole session as it was, unless it is a run that was let in, which leaves the
fault. A run that is not let in fails. Nothing of this rests on changes being made as a whole:
made in place they come to the same. -/
theorem failed_calls_leave_no_trace (reached : Reachable host engine session) :
    (∀ call cause left, perform host engine call session = .error (.error cause) left →
      Leaves session call cause left) ∧
    (∀ request, ¬session.Admits request →
      ∃ cause, run host engine request session = .error (.error cause) session) ∧
    ∀ call, performInPlace host engine call session = perform host engine call session := by
  have formed := reached.wellFormed
  refine ⟨fun call cause left => leaves_perform formed, fun request refused => ?_,
    performInPlace_eq formed.memory⟩
  cases accepted : session.checkRun request with
  | ok => exact absurd ((admits_iff formed.memory).mpr accepted) refused
  | error cause => exact ⟨cause, run_of_refused host engine accepted⟩

/-- A context whose last register is unknown writes none of the registers before it, and a run from
an address that is not mapped leaves a stop requested. -/
theorem failed_calls_leave_no_trace_of_new_session :
    ∃ session : Session Unit Unit, Reachable Host.obliging .idle session ∧
      session.machine.stopRequested = true ∧
      performInPlace Host.obliging .idle
          (.restoreContext ⟨.riscv, .empty, [(⟨0⟩, 7), (⟨9⟩, 1)]⟩) session =
        .error (.error (.unknownRegister ⟨9⟩)) session ∧
      ∃ cause, run Host.obliging .idle (.unbounded 0x1000) session =
        .error (.error cause) session := by
  have opened : create .idle () () .riscv .empty = .ok (_ : Session Unit Unit) := rfl
  have reached : Reachable Host.obliging .idle _ := (Reachable.created opened).asked .stop
  obtain ⟨leaves, refused, inPlace⟩ := failed_calls_leave_no_trace reached
  refine ⟨_, reached, rfl, ?_, refused _ fun admits => absurd admits.canRun (by decide)⟩
  rw [inPlace]
  cases leaves (.restoreContext ⟨.riscv, .empty, [(⟨0⟩, 7), (⟨9⟩, 1)]⟩) _ _ rfl with
  | unchanged => rfl

end Session

end GuestMachine
