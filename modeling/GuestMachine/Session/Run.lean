import GuestMachine.Session.Basic

/-!
Runs of a session. A run that is let in starts with the program counter at the start address
and no stop requested, then takes instructions one by one. Before each of them it asks whether
to stop: because a stop was requested, the end address is reached, enough instructions have
retired or the time is up, in this order. A latched fault outweighs whatever the engine
answered.
-/

namespace GuestMachine

/-- A run under way: the processor and the state of the engine. -/
structure Flight (W E : Type) where
  cpu : Cpu W
  engine : E

namespace Flight

variable {W E α : Type}

/-- Lets the engine run a program of its own. A fault latched meanwhile is taken away and is
what the program fails with, whatever it answered. -/
def runEngine (host : Host W) (program : EngineProgram W E α) : Attempt (Flight W E) α := do
  let flight ← get
  let (answer, engine) ← within Flight.cpu (fun flight cpu => { flight with cpu := cpu })
    ((program.run.run flight.engine).run (Cpu.perform host) : Effect (Cpu W) _)
  modify fun flight => { flight with engine := engine }
  match ← within Flight.cpu (fun flight cpu => { flight with cpu := cpu }) Cpu.takeFault with
  | some fault => Attempt.fail fault
  | none => Attempt.ofExcept answer

/-- Reason to stop before the next instruction, if there is one, when `retired` instructions
have retired in a run that began in world `began`. -/
def boundaryStop (host : Host W) (request : RunRequest) (began : W) (retired : Nat)
    (cpu : Cpu W) : Except Error (Option StopReason) :=
  if cpu.machine.stopRequested then .ok (some .explicitStop)
  else
    match cpu.machine.registers.read cpu.machine.registers.pc with
    | .error cause => .error cause
    | .ok pc =>
      if request.stopAt = some pc then .ok (some .completed)
      else if request.count ≠ 0 ∧ request.count ≤ retired then .ok (some .instructionLimit)
      else if request.timeout ≠ 0 ∧
          request.timeout ≤ host.elapsed began cpu.machine.world retired then
        .ok (some .timeout)
      else .ok none

/-- Takes instructions until there is a reason to stop, the guest halts or something fails, but
looks at no more than `fuel` boundaries. -/
def takeSteps (host : Host W) (engine : Engine W E) (request : RunRequest) (began : W) :
    (fuel retired : Nat) → Attempt (Flight W E) StopReason
  | 0, _ => Attempt.abort .exhausted
  | fuel + 1, retired => do
    match ← Attempt.ofExcept (boundaryStop host request began retired (← get).cpu) with
    | some reason => return reason
    | none =>
      match ← runEngine host engine.step with
      | .halted => return .completed
      | .retired => takeSteps host engine request began fuel (retired + 1)

def drive (host : Host W) (engine : Engine W E) (request : RunRequest) (began : W)
    (fuel : Nat) : Attempt (Flight W E) StopReason := do
  runEngine host engine.begin
  takeSteps host engine request began fuel 0

end Flight

/-- Number of boundaries that a run may look at: a run with a count needs one more than that. -/
def RunRequest.fuel (request : RunRequest) (patience : Nat) : Nat :=
  if request.count = 0 then patience else request.count + 1

namespace Session

variable {W E : Type}

def boundsFit (session : Session W E) (request : RunRequest) : Bool :=
  let wide := ~~~session.machine.registers.pcMask
  request.start &&& wide == 0 && request.stopAt.all fun stopAt => stopAt &&& wide == 0

/-- Whether a run may start: the state allows it, the bounds fit the program counter, and the
start is mapped executable. -/
def checkRun (session : Session W E) (request : RunRequest) : Except Error Unit :=
  if !session.state.canRun then .error (.invalidState session.state "run")
  else if !session.boundsFit request then .error (.invalidArgument Reason.wideBounds)
  else
    match session.machine.memory.check request.start 1 .exec with
    | .ok () => .ok ()
    | .error _ =>
      .error (.invalidState session.state
        "run from a start address that is not mapped executable")

def landed (session : Session W E) (flight : Flight W E) : Session W E :=
  { session with machine := flight.cpu.machine, engine := flight.engine }

def stopped (session : Session W E) (reason : StopReason) : Session W E :=
  { session with lastStop := some reason, state := .stopped }

def faulted (session : Session W E) (cause : Error) : Session W E :=
  { session with
    lastStop := some (.fault cause.faultKind)
    lastError := some cause
    state := .faulted }

/-- Runs the guest. A run that is refused changes nothing; one that fails leaves the session
faulted. -/
def run (host : Host W) (engine : Engine W E) (request : RunRequest) :
    Attempt (Session W E) StopReason := do
  Attempt.ofExcept ((← get).checkRun request)
  modify fun session => { session with machine := session.machine.clearStop }
  onMachine (Machine.setPc request.start)
  modify fun session => { session with lastStop := none, lastError := none, state := .running }
  let session ← get
  let flight : Flight W E := ⟨Cpu.ofMachine session.machine, session.engine⟩
  match Flight.drive host engine request session.machine.world
      (request.fuel host.patience) flight with
  | .ok reason flight =>
    set ((session.landed flight).stopped reason)
    return reason
  | .error (.error cause) flight =>
    set ((session.landed flight).faulted cause)
    Attempt.fail cause
  | .error (.abort cause) flight =>
    set (session.landed flight)
    Attempt.abort cause

end Session

end GuestMachine
