import GuestMachine.Script.Action
import GuestMachine.Session.Basic

/-!
The world of scripted callbacks and engines: the callbacks enlisted so far with the number of
their calls, what has been traced, and the time that has gone by.
-/

namespace GuestMachine.Script

inductive Reading where
  | unit
  | arch (arch : Arch)
  | mode (mode : Mode)
  | region (id : RegionId)
  | regions (infos : List RegionInfo)
  | bytes (bytes : ByteArray)
  | word (value : UInt64)
  | handle (handle : HookHandle)
  | flag (value : Bool)
  | dispatched (result : DispatchResult)
  | fault (cause : Option Error)

inductive Entry where
  /-- A callback was called. -/
  | called (tag : String) (shape : HookShape) (args : shape.Args)
  /-- A callback carried out an action. -/
  | acted (tag : String) (action : MachineAction) (result : Except Error Reading)
  /-- An engine began a step. -/
  | stepped (pc : UInt64)
  /-- An engine carried out an action. -/
  | performed (action : CpuAction) (result : Except Error Reading)

/-- A callback with the number of its calls. -/
structure Role where
  script : HookScript MachineAction
  calls : Nat

/-- State shared among scripts. The trace holds its latest entry first. -/
structure Stage where
  roles : List Role
  trace : List Entry
  clock : Nat

namespace Stage

/-- Nobody enlisted, nothing traced, at time zero. -/
def empty : Stage := ⟨[], [], 0⟩

/-- Enlists a callback under a new cell. -/
def enlist (stage : Stage) (script : HookScript MachineAction) : HookCallback × Stage :=
  (⟨script.shape, stage.roles.length⟩, { stage with roles := stage.roles ++ [⟨script, 0⟩] })

def log (stage : Stage) (entry : Entry) : Stage :=
  { stage with trace := entry :: stage.trace }

def countCall (stage : Stage) (cell : Nat) : Stage :=
  { stage with roles := stage.roles.modify cell fun role => { role with calls := role.calls + 1 } }

def sleep (stage : Stage) (milliseconds : Nat) : Stage :=
  { stage with clock := stage.clock + milliseconds }

end Stage

variable {E : Type}

/-- Takes the trace of a session, earliest entry first. -/
def drain : Effect (Session Stage E) (List Entry) := do
  let stage := (← get).machine.world
  Session.setWorld { stage with trace := [] }
  return stage.trace.reverse

def enlist (script : HookScript MachineAction) : Effect (Session Stage E) HookCallback := do
  let (callback, stage) := (← get).machine.world.enlist script
  Session.setWorld stage
  return callback

end GuestMachine.Script
