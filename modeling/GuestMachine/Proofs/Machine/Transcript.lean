import GuestMachine.Proofs.Machine.Account

/-!
Transcripts of what computations let others see: which callbacks are called, in turn, for which
hooks and with which arguments, and each step that the engine is called for. A transcript is kept
beside an account and is put together as the account is; it calls the callbacks that the account
has entered, in the same order.
-/

namespace GuestMachine

/-- What can be seen of a run. -/
inductive Note where
  /-- The engine is called for a step, with these registers. -/
  | stepped (registers : RegisterBank)
  /-- The callback of a hook is called. -/
  | called (handle : HookHandle) (callback : HookCallback) (args : callback.shape.Args)

namespace Note

/-- The callback that is called, if one is. -/
def callback? : Note → Option HookCallback
  | stepped _ => none
  | called _ callback _ => some callback

def callbacks (notes : List Note) : List HookCallback :=
  notes.filterMap callback?

@[simp] theorem callbacks_nil : callbacks [] = [] := rfl

@[simp] theorem callbacks_stepped (registers : RegisterBank) (rest : List Note) :
    callbacks (stepped registers :: rest) = callbacks rest := rfl

@[simp] theorem callbacks_called (handle : HookHandle) (callback : HookCallback)
    (args : callback.shape.Args) (rest : List Note) :
    callbacks (called handle callback args :: rest) = callback :: callbacks rest := rfl

@[simp] theorem callbacks_append (earlier later : List Note) :
    callbacks (earlier ++ later) = callbacks earlier ++ callbacks later :=
  List.filterMap_append

end Note

namespace Deed

variable {W : Type}

/-- The callback that begins to run, if the deed is that. -/
def entered? : Deed W → Option HookCallback
  | enter callback => some callback
  | _ => none

def entered (deeds : List (Deed W)) : List HookCallback :=
  deeds.filterMap entered?

@[simp] theorem entered_nil : entered ([] : List (Deed W)) = [] := rfl

@[simp] theorem entered_append (earlier later : List (Deed W)) :
    entered (earlier ++ later) = entered earlier ++ entered later :=
  List.filterMap_append

end Deed

/-- A transcript of a computation with an account: what can be seen of it from a given state on. -/
structure Transcript {S W ε α : Type} {part : S → Machine W} {x : EStateM ε S α}
    (account : Account part x) where
  notes : S → List Note
  calls : ∀ s, Note.callbacks (notes s) = Deed.entered (account.deeds s)

namespace Transcript

variable {S T W ε α β : Type} {part : S → Machine W}

def empty {x : EStateM ε S α} {account : Account part x}
    (none : ∀ s, Deed.entered (account.deeds s) = []) : Transcript account where
  notes _ := []
  calls s := (none s).symm

def single {x : EStateM ε S α} {account : Account part x} (note : Note)
    (calls : ∀ s, Note.callbacks [note] = Deed.entered (account.deeds s)) :
    Transcript account where
  notes _ := [note]
  calls := calls

def bind {x : EStateM ε S α} {f : α → EStateM ε S β} {first : Account part x}
    {next : ∀ a, Account part (f a)} (begins : Transcript first)
    (goesOn : ∀ a, Transcript (next a)) : Transcript (first.bind next) where
  notes s := begins.notes s ++
    match x s with
    | .ok a t => (goesOn a).notes t
    | .error _ _ => []
  calls s := by
    simp only [Account.bind, Note.callbacks_append, Deed.entered_append, begins.calls]
    cases x s with
    | ok a t => exact congrArg _ ((goesOn a).calls t)
    | error e t => rfl

/-- A note that calls no callback is taken first. -/
def after {x : EStateM ε S α} {account : Account part x} (transcript : Transcript account)
    (note : Note) (calm : note.callback? = none) : Transcript account where
  notes s := note :: transcript.notes s
  calls s := by
    rw [← transcript.calls s, Note.callbacks, List.filterMap_cons, calm]
    rfl

def outcome {x : Attempt S α} {account : Account part x} (transcript : Transcript account) :
    Transcript account.outcome :=
  ⟨transcript.notes, transcript.calls⟩

def lift {x : Effect S α} {account : Account part x} (transcript : Transcript account) :
    Transcript account.lift :=
  ⟨transcript.notes, transcript.calls⟩

def discard {x : EStateM ε S α} {account : Account part x} (transcript : Transcript account) :
    Transcript account.discard :=
  ⟨transcript.notes, transcript.calls⟩

def ite {c : Prop} [Decidable c] {x y : EStateM ε S α} {yes : Account part x}
    {no : Account part y} (holds : Transcript yes) (fails : Transcript no) :
    Transcript (Account.ite (c := c) yes no) where
  notes s := if c then holds.notes s else fails.notes s
  calls s := by
    simp only [Account.ite]
    split
    · exact holds.calls s
    · exact fails.calls s

def within {inner : S → T} {withInner : S → T → S} {part : T → Machine W}
    {there : ∀ s t, inner (withInner s t) = t} {x : EStateM ε T α} {account : Account part x}
    (transcript : Transcript account) : Transcript (account.within there) :=
  ⟨fun s => transcript.notes (inner s), fun s => transcript.calls (inner s)⟩

/-- What can be seen of a program is what can be seen of its operations. -/
def run {Op : Type} {Answer : Op → Type} {perform : (op : Op) → EStateM ε S (Answer op)}
    {step : ∀ op, Account part (perform op)} (steps : ∀ op, Transcript (step op)) :
    (program : Program Op Answer α) → Transcript (Account.run step program)
  | .done _ => empty fun _ => rfl
  | .ask op next => (steps op).bind fun answer => run steps (next answer)

end Transcript

namespace Machine

variable {W : Type} {host : Host W}

def perform.transcript {dispatch : Event → Attempt (Machine W) DispatchResult} (host : Host W)
    {dispatches : ∀ event, Account id (dispatch event)}
    (seen : ∀ event, Transcript (dispatches event)) :
    (op : MachineOp W) → Transcript (perform.account host dispatches op)
  | .dispatch event => (seen event).outcome
  | .arch | .mode | .mapMemory .. | .unmapMemory .. | .protectMemory .. | .readMemory ..
  | .writeMemory .. | .loadMemory .. | .regions | .readRegister _ | .writeRegister .. | .pc
  | .addHook .. | .addInstructionHook .. | .removeHook _ | .stop | .stopRequested | .world
  | .setWorld _ => .empty fun _ => rfl

/-- A call is noted where the callback begins to run; one that is still running is not called. -/
def invoke.transcript {perform : (op : MachineOp W) → Effect (Machine W) op.Answer} (host : Host W)
    {performs : ∀ op, Account id (perform op)} (seen : ∀ op, Transcript (performs op))
    (handle : HookHandle) (callback : HookCallback) (args : callback.shape.Args) :
    Transcript (invoke.account host performs callback args) :=
  .bind (.empty fun _ => rfl) fun _ => .ite (.empty fun _ => rfl) <|
    .bind (.single (.called handle callback args) fun _ => rfl) fun _ =>
    .bind (Transcript.run seen (host.respond callback args)).lift fun _ =>
    .bind (.empty fun _ => rfl) fun _ => .empty fun _ => rfl

section Delivery

variable {invoke : (callback : HookCallback) → callback.shape.Args →
    Attempt (Machine W) callback.shape.Reply}
  {invokes : ∀ callback args, Account id (invoke callback args)} {event : Event}

theorem deeds_deliver_of_none {handle : HookHandle} {callback : HookCallback}
    {rest : List (HookHandle × HookCallback)} (handed : event.args? callback.shape = none)
    (result : DispatchResult) (machine : Machine W) :
    (deliver.account invokes event ((handle, callback) :: rest) result).deeds machine =
      (deliver.account invokes event rest result).deeds machine := by
  simp only [deliver.account]
  split
  · rfl
  next args found => simp [handed] at found

theorem deeds_deliver_of_some {handle : HookHandle} {callback : HookCallback}
    {rest : List (HookHandle × HookCallback)} {args : callback.shape.Args}
    (handed : event.args? callback.shape = some args) (result : DispatchResult)
    (machine : Machine W) :
    (deliver.account invokes event ((handle, callback) :: rest) result).deeds machine =
      (invokes callback args).deeds machine ++
        match invoke callback args machine with
        | .ok reply after =>
          if callback.shape.settles reply then []
          else (deliver.account invokes event rest
            (event.resultAfter callback.shape reply result)).deeds after
        | .error _ _ => [] := by
  simp only [deliver.account]
  split
  next missed => simp [handed] at missed
  next found given =>
    obtain rfl := Option.some.inj (handed.symm.trans given)
    refine congrArg ((invokes callback args).deeds machine ++ ·) ?_
    rw [lift_apply, outcome_apply]
    rcases invoke callback args machine with ⟨reply, after⟩ | ⟨_ | _, after⟩ <;> rfl

/-- What can be seen of a delivery, given what can be seen of each call. -/
def notesOfDelivery
    (seen : HookHandle → ∀ callback args, Transcript (invokes callback args)) (event : Event) :
    List (HookHandle × HookCallback) → DispatchResult → Machine W → List Note
  | [], _, _ => []
  | (handle, callback) :: rest, result, machine =>
    match event.args? callback.shape with
    | none => notesOfDelivery seen event rest result machine
    | some args =>
      (seen handle callback args).notes machine ++
        match invoke callback args machine with
        | .ok reply after =>
          if callback.shape.settles reply then []
          else notesOfDelivery seen event rest
            (event.resultAfter callback.shape reply result) after
        | .error _ _ => []

theorem notesOfDelivery_skip
    (seen : HookHandle → ∀ callback args, Transcript (invokes callback args)) {handle : HookHandle}
    {callback : HookCallback} (handed : event.args? callback.shape = none)
    (rest : List (HookHandle × HookCallback)) (result : DispatchResult) (machine : Machine W) :
    notesOfDelivery seen event ((handle, callback) :: rest) result machine =
      notesOfDelivery seen event rest result machine := by
  rw [notesOfDelivery, handed]

theorem notesOfDelivery_cons
    (seen : HookHandle → ∀ callback args, Transcript (invokes callback args)) {handle : HookHandle}
    {callback : HookCallback} {args : callback.shape.Args}
    (handed : event.args? callback.shape = some args) (rest : List (HookHandle × HookCallback))
    (result : DispatchResult) (machine : Machine W) :
    notesOfDelivery seen event ((handle, callback) :: rest) result machine =
      (seen handle callback args).notes machine ++
        match invoke callback args machine with
        | .ok reply after =>
          if callback.shape.settles reply then []
          else notesOfDelivery seen event rest
            (event.resultAfter callback.shape reply result) after
        | .error _ _ => [] := by
  rw [notesOfDelivery, handed]

def deliver.transcript (seen : HookHandle → ∀ callback args, Transcript (invokes callback args))
    (event : Event) (hooks : List (HookHandle × HookCallback)) (result : DispatchResult) :
    Transcript (deliver.account invokes event hooks result) where
  notes := notesOfDelivery seen event hooks result
  calls machine := by
    induction hooks generalizing result machine with
    | nil => rfl
    | cons hook rest ih =>
      obtain ⟨handle, callback⟩ := hook
      rw [notesOfDelivery]
      split
      next skipped => rw [deeds_deliver_of_none skipped, ih]
      next args handed =>
        rw [deeds_deliver_of_some handed, Note.callbacks_append, Deed.entered_append,
          (seen handle callback args).calls]
        refine congrArg _ ?_
        cases invoke callback args machine with
        | error failure after => rfl
        | ok reply after =>
          dsimp only
          split
          · rfl
          · exact ih _ after

end Delivery

def dispatch.transcript (host : Host W) :
    (depth : Nat) → (event : Event) → Transcript (dispatch.account host depth event)
  | 0, _ => .empty fun _ => rfl
  | depth + 1, event =>
    .bind (.empty fun _ => rfl) fun _ => deliver.transcript
      (invoke.transcript host (perform.transcript host (dispatch.transcript host depth))) event _ _

end Machine

end GuestMachine
