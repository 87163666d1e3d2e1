import GuestMachine.Session.Run

/-!
The operations of a session as data, so that a history of a session is a list.
-/

namespace GuestMachine

/-- An operation that the host can ask of a session. -/
inductive HostCall (W : Type) where
  | configure
  | mapMemory (base size : UInt64) (perms : Permissions)
  | unmapMemory (base size : UInt64)
  | protectMemory (base size : UInt64) (perms : Permissions)
  | readMemory (address : UInt64) (size : Nat)
  | writeMemory (address : UInt64) (bytes : ByteArray)
  | loadMemory (address : UInt64) (bytes : ByteArray)
  | regions
  | readRegister (id : RegId)
  | writeRegister (id : RegId) (value : UInt64)
  | registerNamed (name : String)
  | addHook (kind : EventKind) (range : AddressRange) (callback : HookCallback)
  | addInstructionHook (range : AddressRange) (insn : InsnId) (callback : HookCallback)
  | removeHook (handle : HookHandle)
  | stop
  | stopThrough (handle : StopHandle)
  | setWorld (world : W)
  | saveContext
  | restoreContext (context : Context)
  | run (request : RunRequest)
  | close

@[reducible] def HostCall.Answer {W : Type} : HostCall W → Type
  | configure => Unit
  | mapMemory .. => RegionId
  | unmapMemory .. => Unit
  | protectMemory .. => Unit
  | readMemory .. => ByteArray
  | writeMemory .. => Unit
  | loadMemory .. => Unit
  | regions => List RegionInfo
  | readRegister _ => UInt64
  | writeRegister .. => Unit
  | registerNamed _ => Option RegId
  | addHook .. => HookHandle
  | addInstructionHook .. => HookHandle
  | removeHook _ => Unit
  | stop => Unit
  | stopThrough _ => Unit
  | setWorld _ => Unit
  | saveContext => Context
  | restoreContext _ => Unit
  | run _ => StopReason
  | close => Unit

namespace Session

variable {W E : Type}

def perform (host : Host W) (engine : Engine W E) :
    (call : HostCall W) → Attempt (Session W E) call.Answer
  | .configure => configure
  | .mapMemory base size perms => mapMemory host base size perms
  | .unmapMemory base size => unmapMemory base size
  | .protectMemory base size perms => protectMemory base size perms
  | .readMemory address size => readMemory address size
  | .writeMemory address bytes => writeMemory address bytes
  | .loadMemory address bytes => loadMemory address bytes
  | .regions => regions
  | .readRegister id => readRegister id
  | .writeRegister id value => writeRegister id value
  | .registerNamed name => registerNamed? name
  | .addHook kind range callback => addHook kind range callback
  | .addInstructionHook range insn callback => addInstructionHook range insn callback
  | .removeHook handle => removeHook handle
  | .stop => stop.toAttempt
  | .stopThrough handle => (stopThrough handle).toAttempt
  | .setWorld world => (setWorld world).toAttempt
  | .saveContext => saveContext
  | .restoreContext context => restoreContext context
  | .run request => run host engine request
  | .close => close

end Session

end GuestMachine
