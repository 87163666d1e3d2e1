import GuestMachine.Machine.Dispatch
import GuestMachine.Proofs.Computation

/-!
The bound on nested dispatches. It decides whether a dispatch is broken off as exhausted and
nothing else: one that is not comes to the same under every larger bound. So no bound shows in
what a dispatch does with callbacks that nest finitely deep.
-/

namespace GuestMachine

variable {S ε α β : Type}

/-- The second computation comes to what the first one does, unless the first ends with `e`. -/
def AgreesUnless (e : ε) (x y : EStateM ε S α) : Prop :=
  ∀ s, (∃ t, x s = .error e t) ∨ y s = x s

namespace AgreesUnless

theorem refl (e : ε) (x : EStateM ε S α) : AgreesUnless e x x :=
  fun _ => .inr rfl

theorem trans {e : ε} {x y z : EStateM ε S α} (first : AgreesUnless e x y)
    (second : AgreesUnless e y z) : AgreesUnless e x z := by
  intro s
  rcases first s with ends | same
  · exact .inl ends
  · rw [← same]
    exact second s

theorem bind {e : ε} {x y : EStateM ε S α} {f g : α → EStateM ε S β}
    (first : AgreesUnless e x y) (next : ∀ a, AgreesUnless e (f a) (g a)) :
    AgreesUnless e (x >>= f) (y >>= g) := by
  intro s
  rw [bind_apply, bind_apply]
  rcases first s with ⟨t, ends⟩ | same
  · exact .inl ⟨t, by rw [ends]⟩
  · rw [same]
    cases x s with
    | ok a t => exact next a t
    | error other t => exact .inr rfl

theorem outcome {x y : Attempt S α} (agrees : AgreesUnless (.abort .exhausted) x y) :
    AgreesUnless .exhausted (Attempt.outcome x) (Attempt.outcome y) := by
  intro s
  rw [outcome_apply, outcome_apply]
  rcases agrees s with ⟨t, ends⟩ | same
  · exact .inl ⟨t, by rw [ends]⟩
  · exact .inr (by rw [same])

theorem lift {x y : Effect S α} (agrees : AgreesUnless .exhausted x y) :
    AgreesUnless (.abort .exhausted) (liftM x : Attempt S α) (liftM y : Attempt S α) := by
  intro s
  rw [lift_apply, lift_apply]
  rcases agrees s with ⟨t, ends⟩ | same
  · exact .inl ⟨t, by rw [ends]⟩
  · exact .inr (by rw [same])

/-- Programs agree if the ways to perform their operations do. -/
theorem run {Op : Type} {Answer : Op → Type} {e : ε}
    {perform other : (op : Op) → EStateM ε S (Answer op)}
    (step : ∀ op, AgreesUnless e (perform op) (other op)) (program : Program Op Answer α) :
    AgreesUnless e (program.run perform) (program.run other) := by
  induction program with
  | done a => exact refl e _
  | ask op next ih => exact (step op).bind ih

/-- A bound for want of which a computation did not end with `e` does not show. -/
theorem eq_of_le {e : ε} {x : Nat → EStateM ε S α} (step : ∀ n, AgreesUnless e (x n) (x (n + 1)))
    {m n : Nat} (le : m ≤ n) {s : S} (enough : ∀ t, x m s ≠ .error e t) : x n s = x m s := by
  have agrees : AgreesUnless e (x m) (x n) := by
    induction le with
    | refl => exact refl e _
    | step _ ih => exact ih.trans (step _)
  rcases agrees s with ⟨t, ends⟩ | same
  · exact absurd ends (enough t)
  · exact same

end AgreesUnless

namespace Machine

variable {W : Type}

theorem perform_agrees (host : Host W) {dispatch other : Event → Attempt (Machine W) DispatchResult}
    (agree : ∀ event, AgreesUnless (.abort .exhausted) (dispatch event) (other event))
    (op : MachineOp W) :
    AgreesUnless .exhausted (perform host dispatch op) (perform host other op) := by
  cases op with
  | dispatch event => exact (agree event).outcome
  | _ => exact AgreesUnless.refl _ _

theorem invoke_agrees (host : Host W)
    {perform other : (op : MachineOp W) → Effect (Machine W) op.Answer}
    (agree : ∀ op, AgreesUnless .exhausted (perform op) (other op)) (callback : HookCallback)
    (args : callback.shape.Args) :
    AgreesUnless (.abort .exhausted) (invoke host perform callback args)
      (invoke host other callback args) := by
  refine (AgreesUnless.refl _ _).bind fun machine => ?_
  split
  · exact AgreesUnless.refl _ _
  · have works := (AgreesUnless.run agree (host.respond callback args)).lift
    exact (AgreesUnless.refl _ _).bind fun _ => works.bind fun _ => AgreesUnless.refl _ _

theorem deliver_agrees {invoke other : (callback : HookCallback) → callback.shape.Args →
      Attempt (Machine W) callback.shape.Reply}
    (agree : ∀ callback args,
      AgreesUnless (.abort .exhausted) (invoke callback args) (other callback args))
    (event : Event) (hooks : List (HookHandle × HookCallback)) (result : DispatchResult) :
    AgreesUnless (.abort .exhausted) (deliver invoke event hooks result)
      (deliver other event hooks result) := by
  induction hooks generalizing result with
  | nil => exact AgreesUnless.refl _ _
  | cons hook rest ih =>
    obtain ⟨handle, callback⟩ := hook
    simp only [deliver]
    split
    · exact ih result
    next args _ =>
      refine (agree callback args).outcome.lift.bind fun answer => ?_
      cases answer with
      | error cause => exact AgreesUnless.refl _ _
      | ok reply =>
        dsimp only
        split
        · exact AgreesUnless.refl _ _
        · exact ih _

/-- Room for one more dispatch does not show. -/
theorem dispatch_agrees_succ (host : Host W) (depth : Nat) (event : Event) :
    AgreesUnless (.abort .exhausted) (dispatch host depth event)
      (dispatch host (depth + 1) event) := by
  induction depth generalizing event with
  | zero => exact fun machine => .inl ⟨machine, rfl⟩
  | succ depth ih =>
    refine (AgreesUnless.refl _ _).bind fun machine => ?_
    exact deliver_agrees
      (fun callback args => invoke_agrees host (perform_agrees host ih) callback args)
      event _ _

/-- A dispatch that is not broken off as exhausted comes to the same under every larger bound. -/
theorem dispatch_eq_of_le (host : Host W) {depth deeper : Nat} (le : depth ≤ deeper)
    (event : Event) (machine : Machine W)
    (enough : ∀ left, dispatch host depth event machine ≠ .error (.abort .exhausted) left) :
    dispatch host deeper event machine = dispatch host depth event machine :=
  AgreesUnless.eq_of_le (fun depth => dispatch_agrees_succ host depth event) le enough

end Machine

end GuestMachine
