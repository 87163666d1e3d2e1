import GuestMachine.Machine.Deed
import GuestMachine.Machine.Dispatch
import GuestMachine.Proofs.Computation

/-!
Accounts of what computations do to a machine: the deeds, in turn, that make the machine in which
a computation ends out of the one in which it starts, however it ends. An account is put together
as the computation is, so it lists what is done in the order in which it is done, and what is true
behind each part of the list is true at each point of the computation.
-/

namespace GuestMachine

namespace Machine

variable {W : Type}

@[simp] theorem replay_nil (machine : Machine W) : machine.replay [] = machine := rfl

@[simp] theorem replay_append (machine : Machine W) (earlier later : List (Deed W)) :
    machine.replay (earlier ++ later) = (machine.replay earlier).replay later :=
  List.foldl_append

/-- A part of the machine is what the operations on it have made of it, if each deed that is such
an operation changes it so and no other one does. -/
theorem part_replay {P C : Type} (part : Machine W → P) (call? : Deed W → Option C)
    (after : P → C → P)
    (step : ∀ machine deed, part (machine.after deed) =
      match call? deed with
      | some call => after (part machine) call
      | none => part machine) (machine : Machine W) (deeds : List (Deed W)) :
    part (machine.replay deeds) = (deeds.filterMap call?).foldl after (part machine) := by
  induction deeds generalizing machine with
  | nil => rfl
  | cons deed rest ih =>
    have here := step machine deed
    refine (ih (machine.after deed)).trans ?_
    cases asked : call? deed <;> simp [asked, here]

/-- Memory is what the operations on it have made of it. -/
theorem memory_replay (machine : Machine W) (deeds : List (Deed W)) :
    (machine.replay deeds).memory = machine.memory.replay (Deed.memoryCalls deeds) :=
  part_replay memory Deed.memoryCall? MemoryMap.after (fun _ deed => by cases deed <;> rfl) _ deeds

/-- The table of hooks is what the operations on it have made of it. -/
theorem hooks_replay (machine : Machine W) (deeds : List (Deed W)) :
    (machine.replay deeds).hooks = machine.hooks.replay (Deed.hookCalls deeds) :=
  part_replay hooks Deed.hookCall? HookTable.after (fun _ deed => by cases deed <;> rfl) _ deeds

/-- The registers are what the operations on them have made of them. -/
theorem registers_replay (machine : Machine W) (deeds : List (Deed W)) :
    (machine.replay deeds).registers = machine.registers.replay (Deed.registerCalls deeds) :=
  part_replay registers Deed.registerCall? RegisterBank.after (fun _ deed => by cases deed <;> rfl)
    _ deeds

/-- What no deed changes, no history changes. -/
theorem eq_replay {α : Type} (look : Machine W → α)
    (same : ∀ machine deed, look (machine.after deed) = look machine) (machine : Machine W)
    (deeds : List (Deed W)) : look (machine.replay deeds) = look machine := by
  induction deeds generalizing machine with
  | nil => rfl
  | cons deed rest ih => exact (ih (machine.after deed)).trans (same machine deed)

theorem arch_replay (machine : Machine W) (deeds : List (Deed W)) :
    (machine.replay deeds).arch = machine.arch :=
  eq_replay arch (fun _ deed => by cases deed <;> rfl) machine deeds

theorem mode_replay (machine : Machine W) (deeds : List (Deed W)) :
    (machine.replay deeds).mode = machine.mode :=
  eq_replay mode (fun _ deed => by cases deed <;> rfl) machine deeds

end Machine

/-- An account of a computation that works on a machine as part of its state: what is done to the
machine from a given state on. -/
structure Account {S W ε α : Type} (part : S → Machine W) (x : EStateM ε S α) where
  deeds : S → List (Deed W)
  replays : ∀ s, part (finalState (x s)) = (part s).replay (deeds s)

namespace Account

variable {S T W ε α β : Type} {part : S → Machine W}

def silent {x : EStateM ε S α} (same : ∀ s, part (finalState (x s)) = part s) :
    Account part x where
  deeds _ := []
  replays := same

def single {x : EStateM ε S α} (deed : S → Deed W)
    (does : ∀ s, part (finalState (x s)) = (part s).after (deed s)) : Account part x where
  deeds s := [deed s]
  replays := does

def ofEq {x y : EStateM ε S α} (account : Account part x) (same : y = x) : Account part y where
  deeds := account.deeds
  replays := by
    subst same
    exact account.replays

def pure (a : α) : Account part (Pure.pure a : EStateM ε S α) :=
  silent fun _ => rfl

def get : Account part (MonadState.get : EStateM ε S S) :=
  silent fun _ => rfl

def fail (cause : Error) : Account part (Attempt.fail cause : Attempt S α) :=
  silent fun _ => rfl

def abort (cause : Abort) : Account part (Attempt.abort cause : Attempt S α) :=
  silent fun _ => rfl

def ofExcept (result : Except Error α) : Account part (Attempt.ofExcept result : Attempt S α) :=
  silent fun _ => by cases result <;> rfl

/-- First one thing is done and then the other, unless the first fails. -/
def bind {x : EStateM ε S α} {f : α → EStateM ε S β} (first : Account part x)
    (next : ∀ a, Account part (f a)) : Account part (x >>= f) where
  deeds s := first.deeds s ++
    match x s with
    | .ok a t => (next a).deeds t
    | .error _ _ => []
  replays s := by
    have begins := first.replays s
    rw [bind_apply, Machine.replay_append, ← begins]
    cases x s with
    | ok a t => exact (next a).replays t
    | error e t => rfl

/-- A computation that looks at the state first, taken as a whole. -/
def ofGet {f : S → EStateM ε S α} (deeds : S → List (Deed W))
    (replays : ∀ s, part (finalState (f s s)) = (part s).replay (deeds s)) :
    Account part (MonadState.get >>= f) where
  deeds := deeds
  replays s := by
    rw [bind_apply]
    exact replays s

def outcome {x : Attempt S α} (account : Account part x) : Account part (Attempt.outcome x) where
  deeds := account.deeds
  replays s := by
    rw [← account.replays s, outcome_apply]
    rcases x s with _ | ⟨_ | _, _⟩ <;> rfl

def lift {x : Effect S α} (account : Account part x) :
    Account part (liftM x : Attempt S α) where
  deeds := account.deeds
  replays s := by
    rw [← account.replays s, lift_apply]
    cases x s <;> rfl

def discard {x : EStateM ε S α} (account : Account part x) :
    Account part (Functor.discard x) where
  deeds := account.deeds
  replays s := by
    rw [← account.replays s, discard_apply]
    cases x s <;> rfl

def ite {c : Prop} [Decidable c] {x y : EStateM ε S α} (yes : Account part x)
    (no : Account part y) : Account part (if c then x else y) where
  deeds s := if c then yes.deeds s else no.deeds s
  replays s := by
    split
    · exact yes.replays s
    · exact no.replays s

/-- A computation on a part of the state does to the machine what it does in that part. -/
def within {inner : S → T} {withInner : S → T → S} {part : T → Machine W}
    (there : ∀ s t, inner (withInner s t) = t) {x : EStateM ε T α} (account : Account part x) :
    Account (fun s => part (inner s)) (GuestMachine.within inner withInner x) where
  deeds s := account.deeds (inner s)
  replays s := by
    rw [← account.replays (inner s), within_apply]
    cases x (inner s) <;> simp [there]

/-- A program does what its operations do. -/
def run {Op : Type} {Answer : Op → Type} {perform : (op : Op) → EStateM ε S (Answer op)}
    (step : ∀ op, Account part (perform op)) :
    (program : Program Op Answer α) → Account part (program.run perform)
  | .done a => pure a
  | .ask op next => (step op).bind fun answer => run step (next answer)

end Account

namespace Machine

variable {W : Type} {host : Host W}

/-! Operations that do not dispatch. -/

def modifyMemory.account {update : MemoryMap → Except Error MemoryMap} (call : MemoryCall)
    (same : ∀ memory : MemoryMap, memory.attempt call = update memory) :
    Account id (modifyMemory update : Attempt (Machine W) Unit) :=
  .single (fun _ => .memory call) fun machine => by
    cases done : update machine.memory <;>
      simp [modifyMemory, done, after, MemoryMap.after, same, Except.toOption]

def mapMemory.account (host : Host W) (base size : UInt64) (perms : Permissions) :
    Account id (mapMemory host base size perms) :=
  .single
    (fun machine => .memory (.map base size perms (host.allocates machine.world size.toNat)))
    fun machine => by
      have same : machine.memory.attempt
          (.map base size perms (host.allocates machine.world size.toNat)) =
            (machine.memory.map (host.allocates machine.world) base size perms).map Prod.snd := rfl
      cases done : machine.memory.map (host.allocates machine.world) base size perms <;>
        simp [mapMemory, done, after, MemoryMap.after, same, Except.map, Except.toOption]

def unmapMemory.account (base size : UInt64) :
    Account id (unmapMemory base size : Attempt (Machine W) Unit) :=
  modifyMemory.account (.unmap base size) fun _ => rfl

def protectMemory.account (base size : UInt64) (perms : Permissions) :
    Account id (protectMemory base size perms : Attempt (Machine W) Unit) :=
  modifyMemory.account (.protect base size perms) fun _ => rfl

def writeMemory.account (address : UInt64) (bytes : ByteArray) :
    Account id (writeMemory address bytes : Attempt (Machine W) Unit) :=
  modifyMemory.account (.write address bytes) fun _ => rfl

def loadMemory.account (address : UInt64) (bytes : ByteArray) :
    Account id (loadMemory address bytes : Attempt (Machine W) Unit) :=
  modifyMemory.account (.load address bytes) fun _ => rfl

def readMemory.account (address : UInt64) (size : Nat) :
    Account id (readMemory address size : Attempt (Machine W) ByteArray) :=
  .bind .get fun machine => .ofExcept (machine.memory.read address size)

def readRegister.account (regId : RegId) :
    Account id (readRegister regId : Attempt (Machine W) UInt64) :=
  .bind .get fun machine => .ofExcept (machine.registers.read regId)

def writeRegister.account (regId : RegId) (value : UInt64) :
    Account id (writeRegister regId value : Attempt (Machine W) Unit) :=
  .single (fun _ => .writeRegister regId value) fun machine => by
    cases done : machine.registers.write regId value <;>
      simp [writeRegister, done, after, Except.toOption]

def pc.account : Account id (pc : Attempt (Machine W) UInt64) :=
  .bind .get fun machine => readRegister.account machine.registers.pc

def setPc.account (value : UInt64) : Account id (setPc value : Attempt (Machine W) Unit) :=
  .bind .get fun machine => writeRegister.account machine.registers.pc value

def register.account (kind : EventKind) (range : AddressRange) (insn : Option InsnId)
    (callback : HookCallback) :
    Account id (register kind range insn callback : Attempt (Machine W) HookHandle) :=
  .single (fun _ => .register kind range insn callback) fun machine => by
    cases done : machine.hooks.register kind range insn callback <;>
      simp [register, done, after, Except.map, Except.toOption]

def removeHook.account (handle : HookHandle) :
    Account id (removeHook handle : Attempt (Machine W) Unit) :=
  .single (fun _ => .unregister handle) fun machine => by
    cases done : machine.hooks.unregister handle <;>
      simp [removeHook, done, after, Except.toOption]

/-! Dispatch. -/

def perform.account {dispatch : Event → Attempt (Machine W) DispatchResult} (host : Host W)
    (dispatches : ∀ event, Account id (dispatch event)) :
    (op : MachineOp W) → Account id (perform host dispatch op)
  | .arch => .bind .get fun machine => .pure machine.arch
  | .mode => .bind .get fun machine => .pure machine.mode
  | .mapMemory base size perms => (mapMemory.account host base size perms).outcome
  | .unmapMemory base size => (unmapMemory.account base size).outcome
  | .protectMemory base size perms => (protectMemory.account base size perms).outcome
  | .readMemory address size => (readMemory.account address size).outcome
  | .writeMemory address bytes => (writeMemory.account address bytes).outcome
  | .loadMemory address bytes => (loadMemory.account address bytes).outcome
  | .regions => .bind .get fun machine => .pure machine.memory.infos
  | .readRegister regId => (readRegister.account regId).outcome
  | .writeRegister regId value => (writeRegister.account regId value).outcome
  | .pc => pc.account.outcome
  | .addHook kind range callback => (register.account kind range none callback).outcome
  | .addInstructionHook range insn callback =>
    (register.account .instructionEnter range (some insn) callback).outcome
  | .removeHook handle => (removeHook.account handle).outcome
  | .stop => .single (fun machine => .requestStop machine.stopHandle) fun _ => rfl
  | .stopRequested => .bind .get fun machine => .pure machine.stopRequested
  | .dispatch event => (dispatches event).outcome
  | .world => .bind .get fun machine => .pure machine.world
  | .setWorld world => .single (fun _ => .setWorld world) fun _ => rfl

def invoke.account {perform : (op : MachineOp W) → Effect (Machine W) op.Answer} (host : Host W)
    (performs : ∀ op, Account id (perform op)) (callback : HookCallback)
    (args : callback.shape.Args) : Account id (invoke host perform callback args) :=
  .bind .get fun _ => .ite (.abort .reentry) <|
    .bind (.single (fun _ => .enter callback) fun _ => rfl) fun _ =>
    .bind (Account.run performs (host.respond callback args)).lift fun answer =>
    .bind (.single (fun _ => .leave callback) fun _ => rfl) fun _ => .ofExcept answer

def deliver.account {invoke : (callback : HookCallback) → callback.shape.Args →
      Attempt (Machine W) callback.shape.Reply}
    (invokes : ∀ callback args, Account id (invoke callback args)) (event : Event) :
    (hooks : List (HookHandle × HookCallback)) → (result : DispatchResult) →
      Account id (deliver invoke event hooks result)
  | [], _ => .silent fun _ => by cases event <;> rfl
  | (handle, callback) :: rest, result =>
    match handed : event.args? callback.shape with
    | none => (deliver.account invokes event rest result).ofEq (by rw [deliver, handed])
    | some args =>
      have goesOn : Account id (do
          match ← Attempt.outcome (invoke callback args) with
          | .error cause => Attempt.fail (.hook handle cause)
          | .ok reply =>
            if callback.shape.settles reply then return .resolved
            else deliver invoke event rest (event.resultAfter callback.shape reply result)
          : Attempt (Machine W) DispatchResult) :=
        .bind (invokes callback args).outcome.lift fun answer =>
          match answer with
          | .error cause => .fail _
          | .ok reply => .ite (.pure _) (deliver.account invokes event rest _)
      goesOn.ofEq <| by
        rewrite [deliver, handed]
        rfl

def dispatch.account (host : Host W) :
    (depth : Nat) → (event : Event) → Account id (dispatch host depth event)
  | 0, _ => .abort .exhausted
  | depth + 1, event =>
    .bind .get fun _ => deliver.account
      (invoke.account host (perform.account host (dispatch.account host depth))) event _ _

end Machine

end GuestMachine
