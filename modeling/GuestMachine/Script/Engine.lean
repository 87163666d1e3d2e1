import GuestMachine.Script.Hook

/-!
How scripted engines behave. An engine has no state of its own: what it does at a step depends
on the program counter alone.
-/

namespace GuestMachine.Script

open EngineProgram

abbrev StepProgram (α : Type) : Type :=
  EngineProgram Stage Unit α

/-- Works an operand out. An engine has no arguments. -/
def compute (operand : Operand) : StepProgram UInt64 :=
  ofCallback (evaluate [] operand)

def changeStage (update : Stage → Stage) : StepProgram Unit :=
  ofCallback (CallbackProgram.modifyWorld update)

def execute : CpuAction → StepProgram Reading
  | .arch => return .arch (← ask CpuOp.arch)
  | .mode => return .mode (← ask CpuOp.mode)
  | .pc => return .word (← EngineProgram.pc)
  | .setPc value => do
    let value ← compute value
    setPc value
    return .unit
  | .advance distance => do
    let pc ← EngineProgram.pc
    setPc (pc + distance)
    return .unit
  | .readRegister id => return .word (← readRegister id)
  | .writeRegister id value => do
    let value ← compute value
    writeRegister id value
    return .unit
  | .haltRequested => return .flag (← ask CpuOp.haltRequested)
  | .fetch address size => do
    let address ← compute address
    return .bytes (← fetch address size)
  | .readMemory address size => do
    let address ← compute address
    return .bytes (← readMemory address size)
  | .writeMemory address bytes => do
    let address ← compute address
    writeMemory address bytes
    return .unit
  | .readUInt address size => do
    let address ← compute address
    return .word (← readUInt address size)
  | .writeUInt address value size => do
    let address ← compute address
    let value ← compute value
    writeUInt address value size
    return .unit
  | .enterBlock address size => do
    let address ← compute address
    enterBlock address size
    return .unit
  | .enterInstruction address size insn => do
    let address ← compute address
    enterInstruction address size insn
    return .unit
  | .portIn port size => return .word (← portIn port size)
  | .portOut port size value => do
    let value ← compute value
    portOut port size value
    return .unit
  | .interrupt number => do
    interrupt number
    return .unit
  | .notify event => return .dispatched (← notify event)
  | .fault => return .fault (← ask CpuOp.fault)
  | .takeFault => return .fault (← ask CpuOp.takeFault)
  | .sleep milliseconds => do
    changeStage fun stage => stage.sleep milliseconds
    return .unit
  | .machine action => ofCallback (carryOut [] action)
  | .fail cause => throw cause
  | .halt => return .unit

/-- Carries out actions in turn until one of them halts the guest or fails. -/
def runActions : List EngineAction → StepProgram StepOutcome
  | [] => return .retired
  | entry :: rest => do
    let result ← outcome (execute entry.action)
    if !entry.quiet then changeStage fun stage => stage.log (.performed entry.action result)
    match result, entry.action with
    | .error cause, _ => if entry.lenient then runActions rest else throw cause
    | .ok _, .halt => return .halted
    | .ok _, _ => runActions rest

/-- One step: the actions at the program counter, if there are any. -/
def EngineScript.step (script : EngineScript) : StepProgram StepOutcome := do
  let pc ← EngineProgram.pc
  if !script.quiet then changeStage fun stage => stage.log (.stepped pc)
  match script.code.lookup pc with
  | none => throw (.invalidInstruction pc)
  | some actions => runActions actions

def EngineScript.toEngine (script : EngineScript) : Engine Stage Unit where
  supports arch mode := script.supported.all fun pairs => pairs.contains (arch, mode)
  layout _ _ := script.layout
  begin := discard (runActions script.opening)
  step := script.step

end GuestMachine.Script
