import GuestMachine.Machine.Basic

/-!
Dispatch of events to hooks. The hooks to run are looked up before the first one runs, so hooks
that are added or removed by a callback matter to later events only. A callback may dispatch
events of its own; one that is called while it is still running breaks the run off.
-/

namespace GuestMachine.Machine

variable {W : Type}

/-- Performs an operation, with a given way to dispatch events. Failures are answered as
values, so that the program that asked decides what comes of them. -/
def perform (host : Host W) (dispatch : Event → Attempt (Machine W) DispatchResult) :
    (op : MachineOp W) → Effect (Machine W) op.Answer
  | .arch => return (← get).arch
  | .mode => return (← get).mode
  | .mapMemory base size perms => Attempt.outcome (mapMemory host base size perms)
  | .unmapMemory base size => Attempt.outcome (unmapMemory base size)
  | .protectMemory base size perms => Attempt.outcome (protectMemory base size perms)
  | .readMemory address size => Attempt.outcome (readMemory address size)
  | .writeMemory address bytes => Attempt.outcome (writeMemory address bytes)
  | .loadMemory address bytes => Attempt.outcome (loadMemory address bytes)
  | .regions => return (← get).memory.infos
  | .readRegister id => Attempt.outcome (readRegister id)
  | .writeRegister id value => Attempt.outcome (writeRegister id value)
  | .pc => Attempt.outcome pc
  | .addHook kind range callback => Attempt.outcome (addHook kind range callback)
  | .addInstructionHook range insn callback => Attempt.outcome (addInstructionHook range insn callback)
  | .removeHook handle => Attempt.outcome (removeHook handle)
  | .stop => modify requestStop
  | .stopRequested => return (← get).stopRequested
  | .dispatch event => Attempt.outcome (dispatch event)
  | .world => return (← get).world
  | .setWorld world => modify fun machine => { machine with world := world }

/-- Calls a callback, which counts as running until it has answered. -/
def invoke (host : Host W) (perform : (op : MachineOp W) → Effect (Machine W) op.Answer)
    (callback : HookCallback) (args : callback.shape.Args) :
    Attempt (Machine W) callback.shape.Reply := do
  if callback ∈ (← get).running then Attempt.abort .reentry
  else
    modify fun machine => { machine with running := callback :: machine.running }
    let answer ← ((host.respond callback args).run perform : Effect (Machine W) _)
    modify fun machine => { machine with running := machine.running.erase callback }
    Attempt.ofExcept answer

/-- Hands an event to hooks in turn. The first failure ends the delivery, as does an answer that
settles the event; an access to unmapped memory that nothing settles is a fault. -/
def deliver (invoke : (callback : HookCallback) → callback.shape.Args →
      Attempt (Machine W) callback.shape.Reply) (event : Event) :
    List (HookHandle × HookCallback) → DispatchResult → Attempt (Machine W) DispatchResult
  | [], result =>
    match event with
    | .memoryUnmapped access address size _ => Attempt.fail (.unmappedAccess access address size)
    | _ => return result
  | (handle, callback) :: rest, result =>
    match event.args? callback.shape with
    | none => deliver invoke event rest result
    | some args => do
      match ← Attempt.outcome (invoke callback args) with
      | .error cause => Attempt.fail (.hook handle cause)
      | .ok reply =>
        if callback.shape.settles reply then return .resolved
        else deliver invoke event rest (event.resultAfter callback.shape reply result)

/-- Dispatches an event while at most `depth` dispatches are open. -/
def dispatch (host : Host W) : (depth : Nat) → Event → Attempt (Machine W) DispatchResult
  | 0, _ => Attempt.abort .exhausted
  | depth + 1, event => do
    let hooks := (← get).hooks.lookup event.kind event.key event.insn
    deliver (invoke host (perform host (dispatch host depth))) event hooks event.initialResult

end GuestMachine.Machine
