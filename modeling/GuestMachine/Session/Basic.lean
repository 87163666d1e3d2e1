import GuestMachine.Context
import GuestMachine.Engine.Basic
import GuestMachine.Run

/-!
A session: one guest machine, the state of the engine that drives it, and its lifecycle. The
host sets the machine up through the session. Every operation on the guest is refused once the
session is closed, and the first change to memory or hooks configures a new session.
-/

namespace GuestMachine

/-- A guest machine under the control of its host. -/
structure Session (W E : Type) where
  machine : Machine W
  engine : E
  state : Lifecycle
  lastStop : Option StopReason
  lastError : Option Error

namespace Session

variable {W E α ε : Type}

/-- A new session, if the engine supports the guest and its layout is well formed. -/
def create (engine : Engine W E) (initial : E) (world : W) (arch : Arch) (mode : Mode) :
    Except Error (Session W E) := do
  if !engine.supports arch mode then throw (.unsupportedArch arch mode)
  let registers ← RegisterBank.ofLayout (engine.layout arch mode)
  let (stopHandle, stops) := StopBoard.empty.create
  return {
    machine := {
      arch := arch
      mode := mode
      memory := MemoryMap.empty
      registers := registers
      hooks := HookTable.empty
      stops := stops
      stopHandle := stopHandle
      running := []
      world := world }
    engine := initial
    state := .created
    lastStop := none
    lastError := none }

def onMachine (x : EStateM ε (Machine W) α) : EStateM ε (Session W E) α :=
  within Session.machine (fun session machine => { session with machine := machine }) x

/-- Fails if the session is closed. -/
def requireOpen (operation : String) : Attempt (Session W E) Unit := do
  let session ← get
  if session.state.isOpen then return
  else Attempt.fail (.invalidState session.state operation)

/-- The session after a change to memory or hooks: configured if it was new. -/
def touched (session : Session W E) : Session W E :=
  if session.state = .created then { session with state := .configured } else session

/-- A change to memory or hooks. -/
def mutate (operation : String) (x : Attempt (Machine W) α) : Attempt (Session W E) α := do
  requireOpen operation
  let answer ← onMachine x
  modify touched
  return answer

/-- An operation that leaves the lifecycle alone. -/
def inspect (operation : String) (x : Attempt (Machine W) α) : Attempt (Session W E) α := do
  requireOpen operation
  onMachine x

/-- Marks a new session as configured. -/
def configure : Attempt (Session W E) Unit := do
  let session ← get
  match session.state with
  | .created => set { session with state := .configured }
  | .configured => return
  | state => Attempt.fail (.invalidState state "configure")

def mapMemory (host : Host W) (base size : UInt64) (perms : Permissions) :
    Attempt (Session W E) RegionId :=
  mutate "map memory" (Machine.mapMemory host base size perms)

def unmapMemory (base size : UInt64) : Attempt (Session W E) Unit :=
  mutate "unmap memory" (Machine.unmapMemory base size)

def protectMemory (base size : UInt64) (perms : Permissions) : Attempt (Session W E) Unit :=
  mutate "protect memory" (Machine.protectMemory base size perms)

def readMemory (address : UInt64) (size : Nat) : Attempt (Session W E) ByteArray :=
  inspect "read memory" (Machine.readMemory address size)

def writeMemory (address : UInt64) (bytes : ByteArray) : Attempt (Session W E) Unit :=
  mutate "write memory" (Machine.writeMemory address bytes)

/-- Loads code or data into mapped memory whatever its permissions. -/
def loadMemory (address : UInt64) (bytes : ByteArray) : Attempt (Session W E) Unit :=
  mutate "load memory" (Machine.loadMemory address bytes)

def regions : Attempt (Session W E) (List RegionInfo) := do
  requireOpen "list memory regions"
  return (← get).machine.memory.infos

def readRegister (id : RegId) : Attempt (Session W E) UInt64 :=
  inspect "read a register" (Machine.readRegister id)

def writeRegister (id : RegId) (value : UInt64) : Attempt (Session W E) Unit :=
  inspect "write a register" (Machine.writeRegister id value)

def registerNamed? (name : String) : Attempt (Session W E) (Option RegId) := do
  requireOpen "look up a register"
  return (← get).machine.registers.idOf? name

def addHook (kind : EventKind) (range : AddressRange) (callback : HookCallback) :
    Attempt (Session W E) HookHandle :=
  mutate "add a hook" (Machine.addHook kind range callback)

def addInstructionHook (range : AddressRange) (insn : InsnId) (callback : HookCallback) :
    Attempt (Session W E) HookHandle :=
  mutate "add a hook" (Machine.addInstructionHook range insn callback)

def removeHook (handle : HookHandle) : Attempt (Session W E) Unit :=
  mutate "remove a hook" (Machine.removeHook handle)

/-- Requests the current run to stop. Works in every state. -/
def stop : Effect (Session W E) Unit :=
  onMachine (modify Machine.requestStop)

def stopHandle (session : Session W E) : StopHandle :=
  session.machine.stopHandle.clone

def stopThrough (handle : StopHandle) : Effect (Session W E) Unit :=
  onMachine (modify fun machine => { machine with stops := machine.stops.request handle })

def stopSeen (session : Session W E) (handle : StopHandle) : Bool :=
  session.machine.stops.isRequested handle

/-- Changes the state that the host shares with callbacks and engines. Works in every state. -/
def setWorld (world : W) : Effect (Session W E) Unit :=
  onMachine (modify fun machine => { machine with world := world })

def saveContext : Attempt (Session W E) Context := do
  requireOpen "save a context"
  let machine := (← get).machine
  return ⟨machine.arch, machine.mode, machine.registers.snapshot⟩

/-- Restores saved register values. The context must be of the same family and mode. -/
def restoreContext (context : Context) : Attempt (Session W E) Unit := do
  requireOpen "restore a context"
  let session ← get
  if context.arch = session.machine.arch ∧ context.mode = session.machine.mode then
    let registers ← Attempt.ofExcept (session.machine.registers.restore context.values)
    set { session with machine := { session.machine with registers := registers } }
  else Attempt.fail (.invalidArgument Reason.foreignContext)

/-- Releases memory and hooks. No later operation on the guest is accepted. -/
def close : Attempt (Session W E) Unit := do
  requireOpen "close"
  modify fun session => { session with
    machine := { session.machine with
      memory := session.machine.memory.clear
      hooks := session.machine.hooks.clear }
    state := .closed }

end Session

end GuestMachine
