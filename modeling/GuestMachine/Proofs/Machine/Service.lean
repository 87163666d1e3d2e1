import GuestMachine.Proofs.Hook.History
import GuestMachine.Proofs.Machine.Evolution

/-!
Every hook that is looked up for an event is called. Delivery passes over a hook whose callback has
nothing it could be handed; to show that none ever is, delivery is changed to do anything whatever
about such a hook, and comes to the same in every table that registrations and removals lead to,
also in dispatches that callbacks make.
-/

namespace GuestMachine

/-- From every state of an invariant the second computation comes to what the first one does, in a
state of the invariant again. -/
def AgreesFrom {S ε α : Type} (invariant : S → Prop) (x y : EStateM ε S α) : Prop :=
  ∀ s, invariant s → y s = x s ∧ invariant (finalState (x s))

namespace AgreesFrom

variable {S ε α β : Type} {invariant : S → Prop}

theorem refl {x : EStateM ε S α} (keeps : ∀ s, invariant s → invariant (finalState (x s))) :
    AgreesFrom invariant x x :=
  fun s holds => ⟨rfl, keeps s holds⟩

theorem bind {x y : EStateM ε S α} {f g : α → EStateM ε S β} (first : AgreesFrom invariant x y)
    (next : ∀ a, AgreesFrom invariant (f a) (g a)) : AgreesFrom invariant (x >>= f) (y >>= g) := by
  intro s holds
  obtain ⟨same, kept⟩ := first s holds
  rw [bind_apply, bind_apply, same]
  cases ran : x s with
  | ok a t =>
    rw [ran] at kept
    exact next a t kept
  | error e t =>
    rw [ran] at kept
    exact ⟨rfl, kept⟩

/-- A computation that goes on from the state it starts in, if that is one of the invariant. -/
theorem get_bind {f g : S → EStateM ε S β}
    (next : ∀ s, invariant s → AgreesFrom invariant (f s) (g s)) :
    AgreesFrom invariant (get >>= f) (get >>= g) :=
  fun s holds => next s holds s holds

theorem outcome {x y : Attempt S α} (agrees : AgreesFrom invariant x y) :
    AgreesFrom invariant (Attempt.outcome x) (Attempt.outcome y) := by
  intro s holds
  obtain ⟨same, kept⟩ := agrees s holds
  rw [outcome_apply, outcome_apply, same]
  rcases ran : x s with ⟨a, t⟩ | ⟨_ | _, t⟩ <;> rw [ran] at kept <;> exact ⟨rfl, kept⟩

theorem lift {x y : Effect S α} (agrees : AgreesFrom invariant x y) :
    AgreesFrom invariant (liftM x : Attempt S α) (liftM y : Attempt S α) := by
  intro s holds
  obtain ⟨same, kept⟩ := agrees s holds
  rw [lift_apply, lift_apply, same]
  rcases ran : x s with ⟨a, t⟩ | ⟨e, t⟩ <;> rw [ran] at kept <;> exact ⟨rfl, kept⟩

theorem run {Op : Type} {Answer : Op → Type} {perform other : (op : Op) → EStateM ε S (Answer op)}
    (step : ∀ op, AgreesFrom invariant (perform op) (other op)) (program : Program Op Answer α) :
    AgreesFrom invariant (program.run perform) (program.run other) := by
  induction program with
  | done a => exact refl fun _ holds => holds
  | ask op next ih => exact (step op).bind ih

end AgreesFrom

namespace Machine

variable {W : Type}

/-- What is done about a hook that an event has been looked up for and cannot be handed to. -/
abbrev Miss (W : Type) : Type :=
  Event → HookHandle → HookCallback → Attempt (Machine W) Unit

/-- Hands an event to hooks in turn, as `deliver` does, and does something about each hook that it
would pass over. -/
def deliverOr (miss : Miss W) (invoke : (callback : HookCallback) → callback.shape.Args →
      Attempt (Machine W) callback.shape.Reply) (event : Event) :
    List (HookHandle × HookCallback) → DispatchResult → Attempt (Machine W) DispatchResult
  | [], result => deliver invoke event [] result
  | (handle, callback) :: rest, result =>
    match event.args? callback.shape with
    | none => do
      miss event handle callback
      deliverOr miss invoke event rest result
    | some args => do
      match ← Attempt.outcome (invoke callback args) with
      | .error cause => Attempt.fail (.hook handle cause)
      | .ok reply =>
        if callback.shape.settles reply then return .resolved
        else deliverOr miss invoke event rest (event.resultAfter callback.shape reply result)

/-- Dispatches an event, as `dispatch` does, with something done about each hook that it would pass
over, here and in the dispatches that callbacks make. -/
def dispatchOr (miss : Miss W) (host : Host W) :
    (depth : Nat) → Event → Attempt (Machine W) DispatchResult
  | 0, _ => Attempt.abort .exhausted
  | depth + 1, event => do
    let hooks := (← get).hooks.lookup event.kind event.key event.insn
    deliverOr miss (invoke host (perform host (dispatchOr miss host depth))) event hooks
      event.initialResult

theorem deliverOr_pass (invoke : (callback : HookCallback) → callback.shape.Args →
      Attempt (Machine W) callback.shape.Reply) (event : Event)
    (hooks : List (HookHandle × HookCallback)) (result : DispatchResult) :
    deliverOr (fun _ _ _ => pure ()) invoke event hooks result =
      deliver invoke event hooks result := by
  induction hooks generalizing result with
  | nil => rfl
  | cons hook rest ih =>
    obtain ⟨handle, callback⟩ := hook
    cases handed : event.args? callback.shape with
    | none => simp only [deliverOr, deliver, handed, ih, pure_bind]
    | some args =>
      rw [deliverOr, deliver]
      simp only [handed]
      refine bind_congr fun answer => ?_
      cases answer with
      | error cause => rfl
      | ok reply =>
        dsimp only
        rw [ih]

/-- If nothing is done about them, hooks are passed over as ever, whatever the table. -/
theorem dispatchOr_pass (host : Host W) (depth : Nat) :
    dispatchOr (fun _ _ _ => pure ()) host depth = dispatch host depth := by
  induction depth with
  | zero => rfl
  | succ depth ih =>
    funext event
    rw [dispatchOr, dispatch, ih]
    simp only [deliverOr_pass]

/-- Whether the hooks of the machine are well formed. -/
def Hooked (machine : Machine W) : Prop :=
  machine.hooks.WellFormed

variable {host : Host W} {miss : Miss W}

theorem Evolves.hooked {machine left : Machine W} (evolves : Evolves host machine left)
    (hooked : machine.Hooked) : left.Hooked :=
  evolves.keeps (fun _ _ => Change.hooks) hooked

/-- Operations agree if the dispatch that they may ask for does. -/
theorem perform_agreesFrom {dispatch other : Event → Attempt (Machine W) DispatchResult}
    (keeps : ∀ event, Keeps (Evolves host) (dispatch event))
    (agree : ∀ event, AgreesFrom Hooked (dispatch event) (other event)) (op : MachineOp W) :
    AgreesFrom Hooked (perform host dispatch op) (perform host other op) := by
  have refl : AgreesFrom Hooked (perform host dispatch op) (perform host dispatch op) :=
    .refl fun machine => (keeps_perform keeps op machine).hooked
  cases op with
  | dispatch event => exact (agree event).outcome
  | _ => exact refl

theorem invoke_agreesFrom {perform other : (op : MachineOp W) → Effect (Machine W) op.Answer}
    (agree : ∀ op, AgreesFrom Hooked (perform op) (other op)) (callback : HookCallback)
    (args : callback.shape.Args) :
    AgreesFrom Hooked (invoke host perform callback args) (invoke host other callback args) := by
  refine .get_bind fun machine _ => ?_
  split
  · exact .refl fun _ hooked => hooked
  · have works := (AgreesFrom.run agree (host.respond callback args)).lift
    refine (AgreesFrom.refl fun _ hooked => hooked).bind fun _ => works.bind fun answer => ?_
    refine (AgreesFrom.refl fun _ hooked => hooked).bind fun _ => .refl fun left hooked => ?_
    cases answer <;> exact hooked

/-- Hooks that can all be handed the event are all called. -/
theorem deliverOr_agreesFrom {invoke other : (callback : HookCallback) → callback.shape.Args →
      Attempt (Machine W) callback.shape.Reply}
    (agree : ∀ callback args, AgreesFrom Hooked (invoke callback args) (other callback args))
    {event : Event} {hooks : List (HookHandle × HookCallback)}
    (handed : ∀ hook ∈ hooks, ∃ args, event.args? hook.2.shape = some args)
    (result : DispatchResult) :
    AgreesFrom Hooked (deliver invoke event hooks result)
      (deliverOr miss other event hooks result) := by
  induction hooks generalizing result with
  | nil => cases event <;> exact .refl fun _ hooked => hooked
  | cons hook rest ih =>
    obtain ⟨args, here⟩ := handed hook List.mem_cons_self
    have later := ih fun hook member => handed hook (List.mem_cons_of_mem _ member)
    rw [deliver, deliverOr]
    simp only [here]
    refine (agree hook.2 args).outcome.lift.bind fun answer => ?_
    cases answer with
    | error cause => exact .refl fun _ hooked => hooked
    | ok reply =>
      dsimp only
      split
      · exact .refl fun _ hooked => hooked
      · exact later _

/-- What is done about hooks that cannot be handed an event never shows. Operations keep the table
well formed, so the dispatches that callbacks make start from such a table too. -/
theorem dispatchOr_agreesFrom (miss : Miss W) (host : Host W) (depth : Nat) (event : Event) :
    AgreesFrom Hooked (dispatch host depth event) (dispatchOr miss host depth event) := by
  induction depth generalizing event with
  | zero => exact .refl fun _ hooked => hooked
  | succ depth ih =>
    refine .get_bind fun machine hooked => deliverOr_agreesFrom (fun callback args => ?_) ?_ _
    · exact invoke_agreesFrom (perform_agreesFrom (keeps_dispatch host depth) ih) callback args
    · exact fun _ listed => HookTable.WellFormed.exists_args hooked listed

end Machine

namespace HookTable

/-- How the hooks of a table serve the events that they are looked up for. -/
structure ServiceLaw (table : HookTable) : Prop where
  /-- A hook that is looked up for an event can be handed it. -/
  handed : ∀ event : Event, ∀ hook ∈ table.lookup event.kind event.key event.insn,
    ∃ args, event.args? hook.2.shape = some args
  /-- So what a dispatch would do about one that cannot be does not matter. -/
  unmissed : ∀ (W : Type) (miss : Machine.Miss W) (host : Host W) (depth : Nat) (event : Event)
    (machine : Machine W), machine.hooks = table →
      Machine.dispatchOr miss host depth event machine = Machine.dispatch host depth event machine
  /-- Only hooks for entered instructions are filtered. -/
  filtered : ∀ hook ∈ table.hooks, hook.insn ≠ none → hook.kind = .instructionEnter
  /-- A filtered hook listens only for instructions that are entered with its identifier. -/
  matched : ∀ hook ∈ table.hooks, hook.insn ≠ none → ∀ event : Event,
    hook.ListensTo event.kind event.key event.insn →
      ∃ address size, event = .instructionEnter address size hook.insn

theorem WellFormed.serviceLaw {table : HookTable} (formed : table.WellFormed) :
    table.ServiceLaw := by
  have filtered : ∀ hook ∈ table.hooks, hook.insn ≠ none → hook.kind = .instructionEnter :=
    fun hook listed some => formed.filtered hook listed (Option.isSome_iff_ne_none.mpr some)
  refine ⟨fun event hook => formed.exists_args, fun W miss host depth event machine same => ?_,
    filtered, fun hook listed some event listens => ?_⟩
  · have hooked : machine.hooks.WellFormed := same ▸ formed
    exact (Machine.dispatchOr_agreesFrom miss host depth event machine hooked).1
  · obtain ⟨kind, -, insn⟩ := listens
    rw [filtered hook listed some] at kind
    cases event with
    | instructionEnter address size entered =>
      exact ⟨address, size, by rw [insn.resolve_left some]; rfl⟩
    | memoryUnmapped access => cases access <;> contradiction
    | _ => contradiction

/-- Dispatches do nothing about hooks that an event cannot be handed to, and in the tables that
registrations and removals lead to there are none. -/
theorem service_law (calls : List HookCall) :
    (∀ (W : Type) (host : Host W) (depth : Nat),
      Machine.dispatchOr (fun _ _ _ => pure ()) host depth = Machine.dispatch host depth) ∧
      (empty.replay calls).ServiceLaw :=
  ⟨fun _ => Machine.dispatchOr_pass, (wellFormed_empty.replay calls).serviceLaw⟩

end HookTable

end GuestMachine
