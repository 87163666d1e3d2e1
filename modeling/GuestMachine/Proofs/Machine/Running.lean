import GuestMachine.Proofs.Machine.Account

/-!
The callbacks that run. A callback counts as running from where it is called to where it has
answered, whatever it answers. So however a computation comes back, with a value or with an error,
the callbacks that run are those that ran before it; only one that is broken off leaves others.
-/

namespace GuestMachine

/-- Whether a failure is a break. -/
def Failure.Breaks : Failure → Prop
  | .error _ => False
  | .abort _ => True

/-- Every abort is a break. -/
def Abort.Breaks (_ : Abort) : Prop :=
  True

namespace Deed

variable {W : Type}

/-- Whether the deed is none that a call of a callback begins or ends with. -/
def isCalm : Deed W → Bool
  | enter _ | leave _ => false
  | _ => true

end Deed

/-- Behind calm deeds the callbacks that run are the same. -/
theorem Machine.running_replay {W : Type} (machine : Machine W) {deeds : List (Deed W)}
    (calm : deeds.all Deed.isCalm = true) : (machine.replay deeds).running = machine.running := by
  induction deeds generalizing machine with
  | nil => rfl
  | cons deed rest ih =>
    obtain ⟨here, later⟩ := Bool.and_eq_true_iff.mp calm
    refine (ih (machine.after deed) later).trans ?_
    cases deed with
    | enter | leave => contradiction
    | _ => rfl

/-- A computation that is not broken off leaves the callbacks that run as they were. -/
def Settles {S W ε α : Type} (breaks : ε → Prop) (part : S → Machine W) (x : EStateM ε S α) :
    Prop :=
  ∀ s, (part (finalState (x s))).running = (part s).running ∨ ∃ e t, x s = .error e t ∧ breaks e

namespace Settles

variable {S T W ε α β : Type} {breaks : ε → Prop} {part : S → Machine W}

/-- A computation that calls no callback settles. -/
theorem of_calm {x : EStateM ε S α} (account : Account part x)
    (calm : ∀ s, (account.deeds s).all Deed.isCalm = true) : Settles breaks part x := by
  intro s
  rw [account.replays s]
  exact .inl (Machine.running_replay _ (calm s))

theorem bind {x : EStateM ε S α} {f : α → EStateM ε S β} (first : Settles breaks part x)
    (next : ∀ a, Settles breaks part (f a)) : Settles breaks part (x >>= f) := by
  intro s
  rw [bind_apply]
  have begins := first s
  cases ran : x s with
  | error e t =>
    rw [ran] at begins
    rcases begins with same | ⟨other, left, same, broken⟩
    · exact .inl same
    · obtain ⟨rfl, rfl⟩ := EStateM.Result.error.inj same
      exact .inr ⟨e, t, rfl, broken⟩
  | ok a t =>
    rw [ran] at begins
    rcases begins with same | ⟨_, _, same, _⟩
    · have ends := next a t
      rwa [show (part t).running = (part s).running from same] at ends
    · contradiction

theorem outcome {x : Attempt S α} (settles : Settles Failure.Breaks part x) :
    Settles Abort.Breaks part (Attempt.outcome x) := by
  intro s
  rw [outcome_apply]
  have ends := settles s
  rcases ran : x s with ⟨a, t⟩ | ⟨_ | cause, t⟩
  · rw [ran] at ends
    exact .inl (ends.resolve_right (by simp))
  · rw [ran] at ends
    refine .inl (ends.resolve_right ?_)
    rintro ⟨failure, left, same, broken⟩
    obtain ⟨rfl, -⟩ := EStateM.Result.error.inj same
    exact broken
  · exact .inr ⟨cause, t, rfl, trivial⟩

theorem lift {x : Effect S α} (settles : Settles Abort.Breaks part x) :
    Settles Failure.Breaks part (liftM x : Attempt S α) := by
  intro s
  rw [lift_apply]
  have ends := settles s
  cases ran : x s with
  | ok a t =>
    rw [ran] at ends
    exact .inl (ends.resolve_right (by simp))
  | error cause t => exact .inr ⟨.abort cause, t, rfl, trivial⟩

theorem discard {x : EStateM ε S α} (settles : Settles breaks part x) :
    Settles breaks part (Functor.discard x) :=
  settles.bind fun _ => of_calm (.pure _) fun _ => rfl

theorem within {inner : S → T} {withInner : S → T → S} {part : T → Machine W}
    (there : ∀ s t, inner (withInner s t) = t) {x : EStateM ε T α}
    (settles : Settles breaks part x) :
    Settles breaks (fun s => part (inner s)) (GuestMachine.within inner withInner x) := by
  intro s
  rw [within_apply]
  have ends := settles (inner s)
  cases ran : x (inner s) with
  | ok a t =>
    rw [ran] at ends
    simpa [there] using ends
  | error e t =>
    rw [ran] at ends
    simpa [there] using ends

theorem run {Op : Type} {Answer : Op → Type} {perform : (op : Op) → EStateM ε S (Answer op)}
    (step : ∀ op, Settles breaks part (perform op)) (program : Program Op Answer α) :
    Settles breaks part (program.run perform) := by
  induction program with
  | done a => exact of_calm (.pure a) fun _ => rfl
  | ask op next ih => exact (step op).bind ih

end Settles

namespace Machine

variable {W : Type}

theorem perform_settles (host : Host W) {dispatch : Event → Attempt (Machine W) DispatchResult}
    (accounts : ∀ event, Account id (dispatch event))
    (dispatches : ∀ event, Settles Failure.Breaks id (dispatch event)) (op : MachineOp W) :
    Settles Abort.Breaks id (perform host dispatch op) := by
  cases op with
  | dispatch event => exact (dispatches event).outcome
  | _ => exact .of_calm (perform.account host accounts _) fun _ => rfl

/-- A callback that has been called no longer runs once it has answered. -/
theorem invoke_settles (host : Host W)
    {perform : (op : MachineOp W) → Effect (Machine W) op.Answer}
    (performs : ∀ op, Settles Abort.Breaks id (perform op)) (callback : HookCallback)
    (args : callback.shape.Args) :
    Settles Failure.Breaks id (invoke host perform callback args) := by
  intro machine
  simp only [invoke, bind_apply, get_apply]
  split
  · exact .inl rfl
  · have works := Settles.run performs (host.respond callback args)
      { machine with running := callback :: machine.running }
    simp only [bind_apply, modify_apply, lift_apply]
    cases ran : (host.respond callback args).run perform
      { machine with running := callback :: machine.running } with
    | error cause left => exact .inr ⟨_, left, rfl, trivial⟩
    | ok answer left =>
      rw [ran] at works
      have same : left.running = callback :: machine.running := works.resolve_right (by simp)
      refine .inl ?_
      cases answer <;> simp [same]

theorem deliver_settles {invoke : (callback : HookCallback) → callback.shape.Args →
      Attempt (Machine W) callback.shape.Reply}
    (invokes : ∀ callback args, Settles Failure.Breaks id (invoke callback args)) (event : Event)
    (hooks : List (HookHandle × HookCallback)) (result : DispatchResult) :
    Settles Failure.Breaks id (deliver invoke event hooks result) := by
  induction hooks generalizing result with
  | nil => cases event <;> exact fun machine => .inl rfl
  | cons hook rest ih =>
    obtain ⟨handle, callback⟩ := hook
    rw [deliver]
    split
    · exact ih result
    next args _ =>
      refine (invokes callback args).outcome.lift.bind fun answer => ?_
      cases answer with
      | error cause => exact .of_calm (.fail _) fun _ => rfl
      | ok reply =>
        dsimp only
        split
        · exact .of_calm (.pure _) fun _ => rfl
        · exact ih _

/-- However a dispatch returns, the callbacks that run are those that ran before it. -/
theorem dispatch_settles (host : Host W) (depth : Nat) (event : Event) :
    Settles Failure.Breaks id (dispatch host depth event) := by
  induction depth generalizing event with
  | zero => exact fun machine => .inl rfl
  | succ depth ih =>
    refine Settles.bind (.of_calm .get fun _ => rfl) fun machine => ?_
    exact deliver_settles (fun callback args =>
      invoke_settles host (perform_settles host (dispatch.account host depth) ih) callback args)
      event _ _

end Machine

end GuestMachine
