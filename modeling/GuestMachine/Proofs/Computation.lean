import GuestMachine.Outcome
import GuestMachine.Program
import Mathlib.Order.Defs.Unbundled

/-!
Computations evaluated at a state, and relations that hold between the state in which a
computation starts and the one in which it ends, however it ends.
-/

namespace GuestMachine

variable {S T ε α β : Type}

/-! Evaluation. Every equation takes one construct off a computation applied to a state. -/

section Evaluation

@[simp] theorem pure_apply (a : α) (s : S) : (pure a : EStateM ε S α) s = .ok a s := rfl

@[simp] theorem get_apply (s : S) : (get : EStateM ε S S) s = .ok s s := rfl

@[simp] theorem set_apply (s t : S) : (set t : EStateM ε S PUnit) s = .ok ⟨⟩ t := rfl

@[simp] theorem modify_apply (f : S → S) (s : S) :
    (modify f : EStateM ε S PUnit) s = .ok ⟨⟩ (f s) := rfl

@[simp] theorem bind_apply (x : EStateM ε S α) (f : α → EStateM ε S β) (s : S) :
    (x >>= f) s = match x s with
      | .ok a s => f a s
      | .error e s => .error e s := by
  cases h : x s <;> simp [Bind.bind, EStateM.bind, h]

@[simp] theorem map_apply (x : EStateM ε S α) (f : α → β) (s : S) :
    (f <$> x) s = match x s with
      | .ok a s => .ok (f a) s
      | .error e s => .error e s := by
  cases h : x s <;> simp [Functor.map, EStateM.map, h]

@[simp] theorem discard_apply (x : EStateM ε S α) (s : S) :
    (discard x) s = match x s with
      | .ok _ s => .ok ⟨⟩ s
      | .error e s => .error e s :=
  map_apply x (fun _ => PUnit.unit) s

@[simp] theorem lift_apply (x : Effect S α) (s : S) :
    (liftM x : Attempt S α) s = match x s with
      | .ok a s => .ok a s
      | .error cause s => .error (.abort cause) s := by
  cases h : x s <;> simp [liftM, monadLift, MonadLift.monadLift, Effect.toAttempt, h]

@[simp] theorem fail_apply (cause : Error) (s : S) :
    (Attempt.fail cause : Attempt S α) s = .error (.error cause) s := rfl

@[simp] theorem abort_apply (cause : Abort) (s : S) :
    (Attempt.abort cause : Attempt S α) s = .error (.abort cause) s := rfl

@[simp] theorem ofExcept_ok (a : α) : (Attempt.ofExcept (.ok a) : Attempt S α) = pure a := rfl

@[simp] theorem ofExcept_error (cause : Error) :
    (Attempt.ofExcept (.error cause) : Attempt S α) = Attempt.fail cause := rfl

theorem outcome_apply (x : Attempt S α) (s : S) :
    Attempt.outcome x s = match x s with
      | .ok a s => .ok (.ok a) s
      | .error (.error cause) s => .ok (.error cause) s
      | .error (.abort cause) s => .error cause s := rfl

theorem within_apply (part : S → T) (withPart : S → T → S) (x : EStateM ε T α) (s : S) :
    within part withPart x s = match x (part s) with
      | .ok a t => .ok a (withPart s t)
      | .error e t => .error e (withPart s t) := by
  cases h : x (part s) <;> simp [within, h]

end Evaluation

/-- State in which a computation ended. -/
def finalState : EStateM.Result ε S α → S
  | .ok _ s => s
  | .error _ s => s

@[simp] theorem finalState_ok (a : α) (s : S) :
    finalState (.ok a s : EStateM.Result ε S α) = s := rfl

@[simp] theorem finalState_error (e : ε) (s : S) :
    finalState (.error e s : EStateM.Result ε S α) = s := rfl

/-- What a computation answered or failed with. -/
def answerOf : EStateM.Result ε S α → Except ε α
  | .ok a _ => .ok a
  | .error e _ => .error e

theorem eq_ok_of_answerOf {result : EStateM.Result ε S α} {a : α}
    (answered : answerOf result = .ok a) : result = .ok a (finalState result) := by
  cases result with
  | ok b s => rw [Except.ok.inj answered, finalState_ok]
  | error e s => contradiction

theorem eq_error_of_answerOf {result : EStateM.Result ε S α} {e : ε}
    (failed : answerOf result = .error e) : result = .error e (finalState result) := by
  cases result with
  | ok a s => contradiction
  | error f s => rw [Except.error.inj failed, finalState_error]

/-- An update made as a whole, or not at all if it fails. -/
def Attempt.wholly (update : S → Except Error S) : Attempt S Unit := fun s =>
  match update s with
  | .ok t => .ok () t
  | .error cause => .error (.error cause) s

/-- The computation leads from a state only to states related to it. -/
def Keeps (R : S → S → Prop) (x : EStateM ε S α) : Prop :=
  ∀ s, R s (finalState (x s))

namespace Keeps

variable {R : S → S → Prop}

theorem of_ok {x : EStateM ε S α} (keeps : Keeps R x) {s t : S} {a : α} (h : x s = .ok a t) :
    R s t := by
  have := keeps s
  rwa [h] at this

theorem of_error {x : EStateM ε S α} (keeps : Keeps R x) {s t : S} {e : ε}
    (h : x s = .error e t) : R s t := by
  have := keeps s
  rwa [h] at this

theorem update {f : S → S} (h : ∀ s, R s (f s)) :
    Keeps R (modify f : EStateM ε S PUnit) := h

theorem outcome {x : Attempt S α} (keeps : Keeps R x) : Keeps R (Attempt.outcome x) := by
  intro s
  rw [outcome_apply]
  cases h : x s with
  | ok a t => exact keeps.of_ok h
  | error failure t => cases failure <;> exact keeps.of_error h

theorem lift {x : Effect S α} (keeps : Keeps R x) : Keeps R (liftM x : Attempt S α) := by
  intro s
  rw [lift_apply]
  cases h : x s with
  | ok a t => exact keeps.of_ok h
  | error cause t => exact keeps.of_error h

theorem discard {x : EStateM ε S α} (keeps : Keeps R x) : Keeps R (Functor.discard x) := by
  intro s
  rw [discard_apply]
  cases h : x s with
  | ok a t => exact keeps.of_ok h
  | error e t => exact keeps.of_error h

variable [IsPreorder S R]

theorem pure (a : α) : Keeps R (Pure.pure a : EStateM ε S α) :=
  fun s => Std.Refl.refl s

theorem get : Keeps R (MonadState.get : EStateM ε S S) :=
  fun s => Std.Refl.refl s

theorem fail (cause : Error) : Keeps R (Attempt.fail cause : Attempt S α) :=
  fun s => Std.Refl.refl s

theorem abort (cause : Abort) : Keeps R (Attempt.abort cause : Attempt S α) :=
  fun s => Std.Refl.refl s

theorem ofExcept (result : Except Error α) : Keeps R (Attempt.ofExcept result : Attempt S α) := by
  cases result with
  | ok a => exact pure a
  | error cause => exact fail cause

theorem bind {x : EStateM ε S α} {f : α → EStateM ε S β} (first : Keeps R x)
    (next : ∀ a, Keeps R (f a)) : Keeps R (x >>= f) := by
  intro s
  rw [bind_apply]
  cases h : x s with
  | ok a t => exact IsTrans.trans _ _ _ (first.of_ok h) (next a t)
  | error e t => exact first.of_error h

/-- A program whose operations all lead along a relation leads along it. -/
theorem run {Op : Type} {Answer : Op → Type} {perform : (op : Op) → EStateM ε S (Answer op)}
    (step : ∀ op, Keeps R (perform op)) (program : Program Op Answer α) :
    Keeps R (program.run perform) := by
  induction program with
  | done a => exact pure a
  | ask op next ih => exact (step op).bind ih

end Keeps

/-- The attempt is never broken off: it succeeds or fails with an error. -/
def Unbroken (x : Attempt S α) : Prop :=
  ∀ s cause t, x s ≠ .error (.abort cause) t

namespace Unbroken

theorem pure (a : α) : Unbroken (Pure.pure a : Attempt S α) := by
  simp [Unbroken]

theorem get : Unbroken (MonadState.get : Attempt S S) := by
  simp [Unbroken]

theorem set (s : S) : Unbroken (MonadStateOf.set s : Attempt S PUnit) := by
  simp [Unbroken]

theorem modify (f : S → S) : Unbroken (modify f : Attempt S PUnit) := by
  simp [Unbroken]

theorem ofExcept (result : Except Error α) : Unbroken (Attempt.ofExcept result : Attempt S α) := by
  cases result <;> simp [Unbroken]

theorem bind {x : Attempt S α} {f : α → Attempt S β} (first : Unbroken x)
    (next : ∀ a, Unbroken (f a)) : Unbroken (x >>= f) := by
  intro s cause t
  rw [bind_apply]
  cases h : x s with
  | ok a after => exact next a after cause t
  | error failure after =>
    intro broken
    obtain ⟨rfl, rfl⟩ := EStateM.Result.error.inj broken
    exact first s cause after h

/-- Its outcome is always there. -/
theorem exists_outcome {x : Attempt S α} (unbroken : Unbroken x) (s : S) :
    ∃ result t, Attempt.outcome x s = .ok result t := by
  rw [outcome_apply]
  cases h : x s with
  | ok a t => exact ⟨_, t, rfl⟩
  | error failure t =>
    cases failure with
    | error cause => exact ⟨_, t, rfl⟩
    | abort cause => exact absurd h (unbroken s cause t)

end Unbroken

/-- What every step of a fold keeps holds of what the fold comes to. -/
theorem foldlM_keeps {P : β → Prop} {step : β → α → Except ε β}
    (keeps : ∀ b a next, step b a = .ok next → P b → P next) {items : List α} {start final : β}
    (done : items.foldlM step start = .ok final) (holds : P start) : P final := by
  induction items generalizing start with
  | nil =>
    obtain rfl := Except.ok.inj done
    exact holds
  | cons item rest ih =>
    rw [List.foldlM_cons] at done
    cases stepped : step start item with
    | error cause => simp [stepped, Bind.bind, Except.bind] at done
    | ok next =>
      simp only [stepped, Bind.bind, Except.bind] at done
      exact ih done (keeps start item next stepped holds)

end GuestMachine
