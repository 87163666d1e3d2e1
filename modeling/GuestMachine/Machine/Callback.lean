import GuestMachine.Machine.Basic

/-!
Programs of callbacks: the operations of a machine, each failing when it does, to be put
together with `do`.
-/

namespace GuestMachine

/-- A program on a machine that may fail. -/
abbrev CallbackProgram (W α : Type) : Type :=
  ExceptT Error (Program (MachineOp W) MachineOp.Answer) α

namespace CallbackProgram

variable {W α : Type}

/-- Asks an operation that does not fail. -/
def ask (op : MachineOp W) : CallbackProgram W op.Answer :=
  ExceptT.lift (Program.call op)

/-- Fails if the answer of a program is an error. -/
def demand (program : MachineProgram W (Except Error α)) : CallbackProgram W α :=
  ExceptT.mk program

def outcome (program : CallbackProgram W α) : CallbackProgram W (Except Error α) :=
  ExceptT.lift program.run

/-! The operations of a machine, each failing when it does. -/

def mapMemory (base size : UInt64) (perms : Permissions) : CallbackProgram W RegionId :=
  demand (Program.call (MachineOp.mapMemory base size perms))

def unmapMemory (base size : UInt64) : CallbackProgram W Unit :=
  demand (Program.call (MachineOp.unmapMemory base size))

def protectMemory (base size : UInt64) (perms : Permissions) : CallbackProgram W Unit :=
  demand (Program.call (MachineOp.protectMemory base size perms))

def readMemory (address : UInt64) (size : Nat) : CallbackProgram W ByteArray :=
  demand (Program.call (MachineOp.readMemory address size))

def writeMemory (address : UInt64) (bytes : ByteArray) : CallbackProgram W Unit :=
  demand (Program.call (MachineOp.writeMemory address bytes))

def loadMemory (address : UInt64) (bytes : ByteArray) : CallbackProgram W Unit :=
  demand (Program.call (MachineOp.loadMemory address bytes))

def readRegister (id : RegId) : CallbackProgram W UInt64 :=
  demand (Program.call (MachineOp.readRegister id))

def writeRegister (id : RegId) (value : UInt64) : CallbackProgram W Unit :=
  demand (Program.call (MachineOp.writeRegister id value))

def pc : CallbackProgram W UInt64 :=
  demand (Program.call MachineOp.pc)

def addHook (kind : EventKind) (range : AddressRange) (callback : HookCallback) :
    CallbackProgram W HookHandle :=
  demand (Program.call (MachineOp.addHook kind range callback))

def addInstructionHook (range : AddressRange) (insn : InsnId) (callback : HookCallback) :
    CallbackProgram W HookHandle :=
  demand (Program.call (MachineOp.addInstructionHook range insn callback))

def removeHook (handle : HookHandle) : CallbackProgram W Unit :=
  demand (Program.call (MachineOp.removeHook handle))

def dispatch (event : Event) : CallbackProgram W DispatchResult :=
  demand (Program.call (MachineOp.dispatch event))

def modifyWorld (update : W → W) : CallbackProgram W Unit := do
  let world ← ask MachineOp.world
  ask (MachineOp.setWorld (update world))

end CallbackProgram

end GuestMachine
