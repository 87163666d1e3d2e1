import GuestMachine.Hook.Call
import GuestMachine.Machine.Basic
import GuestMachine.Memory.Call
import GuestMachine.Register.Call

/-!
What can be done to a machine as data, so that a history of a machine is a list. Whoever does it,
the host, a callback or an engine, it is one of these deeds. Reading is none.
-/

namespace GuestMachine

/-- A single thing done to a machine. One that fails leaves the machine alone. -/
inductive Deed (W : Type) where
  | memory (call : MemoryCall)
  | writeRegister (id : RegId) (value : UInt64)
  | restoreRegisters (values : List (RegId × UInt64))
  | register (kind : EventKind) (range : AddressRange) (insn : Option InsnId)
    (callback : HookCallback)
  | unregister (handle : HookHandle)
  | clearHooks
  | requestStop (handle : StopHandle)
  | clearStop
  | setWorld (world : W)
  /-- A callback begins to run. -/
  | enter (callback : HookCallback)
  /-- A callback has answered. -/
  | leave (callback : HookCallback)

namespace Deed

variable {W : Type}

/-- The operation on memory, if the deed is one. -/
def memoryCall? : Deed W → Option MemoryCall
  | memory call => some call
  | _ => none

def memoryCalls (deeds : List (Deed W)) : List MemoryCall :=
  deeds.filterMap memoryCall?

/-- The operation on the hook table, if the deed is one. -/
def hookCall? : Deed W → Option HookCall
  | register kind range insn callback => some (.register kind range insn callback)
  | unregister handle => some (.unregister handle)
  | clearHooks => some .clear
  | _ => none

def hookCalls (deeds : List (Deed W)) : List HookCall :=
  deeds.filterMap hookCall?

/-- The operation on the registers, if the deed is one. -/
def registerCall? : Deed W → Option RegisterCall
  | writeRegister id value => some (.write id value)
  | restoreRegisters values => some (.restore values)
  | _ => none

def registerCalls (deeds : List (Deed W)) : List RegisterCall :=
  deeds.filterMap registerCall?

end Deed

namespace Machine

variable {W : Type}

/-- The machine behind a deed. -/
def after (machine : Machine W) : Deed W → Machine W
  | .memory call => { machine with memory := machine.memory.after call }
  | .writeRegister id value =>
    { machine with
      registers := (machine.registers.write id value).toOption.getD machine.registers }
  | .restoreRegisters values =>
    { machine with
      registers := (machine.registers.restore values).toOption.getD machine.registers }
  | .register kind range insn callback =>
    { machine with
      hooks := ((machine.hooks.register kind range insn callback).map Prod.snd).toOption.getD
        machine.hooks }
  | .unregister handle =>
    { machine with hooks := (machine.hooks.unregister handle).toOption.getD machine.hooks }
  | .clearHooks => { machine with hooks := machine.hooks.clear }
  | .requestStop handle => { machine with stops := machine.stops.request handle }
  | .clearStop => machine.clearStop
  | .setWorld world => { machine with world := world }
  | .enter callback => { machine with running := callback :: machine.running }
  | .leave callback => { machine with running := machine.running.erase callback }

def replay (machine : Machine W) (deeds : List (Deed W)) : Machine W :=
  deeds.foldl after machine

end Machine

end GuestMachine
