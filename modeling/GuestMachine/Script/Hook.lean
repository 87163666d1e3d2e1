import GuestMachine.Machine.Callback
import GuestMachine.Script.Stage

/-!
How scripted callbacks behave. A call is traced with its arguments, every action with its
result; an action that fails ends the call, unless it may fail.
-/

namespace GuestMachine.Script

open CallbackProgram

/-- Arguments of a callback that are words, by name. -/
def argumentWords : (shape : HookShape) → shape.Args → List (String × UInt64)
  | .code, entry => [("address", entry.address), ("size", UInt64.ofNat entry.size)]
  | .memoryAccess, access | .memoryFault, access =>
    [("address", access.address), ("size", UInt64.ofNat access.size), ("value", access.value)]
  | .portIn, access => [("port", UInt64.ofNat access.port), ("size", UInt64.ofNat access.size)]
  | .portOut, access =>
    [("port", UInt64.ofNat access.port), ("size", UInt64.ofNat access.size),
      ("value", access.value)]
  | .interrupt, number => [("number", UInt64.ofNat number)]

def evaluate (args : List (String × UInt64)) (operand : Operand) : CallbackProgram Stage UInt64 := do
  let word ←
    match operand.source with
    | .word value => pure value
    | .register id => readRegister id
    | .argument name => pure ((args.lookup name).getD 0)
  let masked := match operand.mask with
    | some mask => word &&& mask
    | none => word
  return masked + operand.addend

def enlistRole (script : HookScript MachineAction) : CallbackProgram Stage HookCallback := do
  let stage ← ask MachineOp.world
  let (callback, stage) := stage.enlist script
  ask (MachineOp.setWorld stage)
  return callback

def carryOut (args : List (String × UInt64)) :
    MachineAction → CallbackProgram Stage Reading
  | .arch => return .arch (← ask MachineOp.arch)
  | .mode => return .mode (← ask MachineOp.mode)
  | .mapMemory base size perms => do
    let base ← evaluate args base
    return .region (← mapMemory base size perms)
  | .unmapMemory base size => do
    let base ← evaluate args base
    unmapMemory base size
    return .unit
  | .protectMemory base size perms => do
    let base ← evaluate args base
    protectMemory base size perms
    return .unit
  | .readMemory address size => do
    let address ← evaluate args address
    return .bytes (← readMemory address size)
  | .writeMemory address bytes => do
    let address ← evaluate args address
    writeMemory address bytes
    return .unit
  | .loadMemory address bytes => do
    let address ← evaluate args address
    loadMemory address bytes
    return .unit
  | .regions => return .regions (← ask MachineOp.regions)
  | .readRegister id => return .word (← readRegister id)
  | .writeRegister id value => do
    let value ← evaluate args value
    writeRegister id value
    return .unit
  | .pc => return .word (← pc)
  | .addHook kind range script => do
    let callback ← enlistRole script
    return .handle (← addHook kind range callback)
  | .addInstructionHook range insn script => do
    let callback ← enlistRole script
    return .handle (← addInstructionHook range insn callback)
  | .removeHook handle => do
    removeHook handle
    return .unit
  | .stop => do
    ask MachineOp.stop
    return .unit
  | .stopRequested => return .flag (← ask MachineOp.stopRequested)
  | .dispatch event => return .dispatched (← dispatch event)
  | .fail cause => throw cause

/-- Carries out an action of a callback and traces its result. -/
def act (tag : String) (args : List (String × UInt64)) (guarded : Guarded MachineAction) :
    CallbackProgram Stage Unit := do
  let result ← outcome (carryOut args guarded.action)
  modifyWorld fun stage => stage.log (.acted tag guarded.action result)
  match result with
  | .ok _ => return
  | .error cause => if guarded.lenient then return else throw cause

def Turn.answer (args : List (String × UInt64)) (turn : Turn MachineAction) :
    (shape : HookShape) → CallbackProgram Stage shape.Reply
  | .code => return ()
  | .memoryAccess => return ()
  | .memoryFault => return turn.resolves
  | .portIn => evaluate args turn.value
  | .portOut => return ()
  | .interrupt => return ()

/-- Answer of a callback that has no turn. -/
def defaultReply : (shape : HookShape) → shape.Reply
  | .code => ()
  | .memoryAccess => ()
  | .memoryFault => false
  | .portIn => 0
  | .portOut => ()
  | .interrupt => ()

/-- One call of the callback in a cell. A cell that is not enlisted answers at once. -/
def playRole (callback : HookCallback) (args : callback.shape.Args) :
    CallbackProgram Stage callback.shape.Reply := do
  let stage ← ask MachineOp.world
  match stage.roles[callback.cell]? with
  | none => return defaultReply callback.shape
  | some role =>
    let tag := role.script.tag
    ask (MachineOp.setWorld ((stage.countCall callback.cell).log (.called tag callback.shape args)))
    let turns := role.script.turns
    match turns[min role.calls (turns.length - 1)]? with
    | none => return defaultReply callback.shape
    | some turn =>
      let words := argumentWords callback.shape args
      turn.actions.forM (act tag words)
      turn.answer words callback.shape

/-- The host of scripted guests. Storage can be had for less than 2^48 bytes, an instruction takes
a microsecond on top of the time an engine sleeps, and the bounds on nesting and on steps are
wide. -/
def host : Host Stage where
  respond callback args := (playRole callback args).run
  allocates _ size := size < 1 <<< 48
  elapsed began present retired := present.clock - began.clock + retired / 1000
  nesting := 1 <<< 16
  patience := 1 <<< 32

end GuestMachine.Script
