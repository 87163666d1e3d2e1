import GuestMachine.Proofs.Computation

/-!
The trail of a program: the operations that it asked and got answered, one after another. What
stands behind a moment of the trail is the trail of a program too, namely of what was left of the
first one, so what holds from some moment on can be shown by following that program.
-/

namespace GuestMachine

/-- An operation that was answered: the state before it, the answer and the state after it. -/
structure Moment (Op : Type) (Answer : Op → Type) (S : Type) where
  before : S
  op : Op
  answer : Answer op
  after : S

namespace Program

variable {Op : Type} {Answer : Op → Type} {S ε α : Type}

/-- Whether every operation that a program can ask is an allowed one. -/
def Only (allowed : Op → Prop) : Program Op Answer α → Prop
  | done _ => True
  | ask op next => allowed op ∧ ∀ answer, (next answer).Only allowed

/-- The operations that are answered when the program runs, up to one that is not. -/
def trail (perform : (op : Op) → EStateM ε S (Answer op)) :
    Program Op Answer α → S → List (Moment Op Answer S)
  | done _, _ => []
  | ask op next, before =>
    match perform op before with
    | .ok answer after => ⟨before, op, answer, after⟩ :: (next answer).trail perform after
    | .error _ _ => []

variable {allowed : Op → Prop} {perform : (op : Op) → EStateM ε S (Answer op)}

theorem only_true (program : Program Op Answer α) : program.Only fun _ => True := by
  induction program with
  | done a => trivial
  | ask op next ih => exact ⟨trivial, ih⟩

/-- Behind each moment of its trail, a program goes on as what is left of it. -/
theorem exists_rest_of_trail_eq {program : Program Op Answer α} {start : S}
    {earlier later : List (Moment Op Answer S)} {moment : Moment Op Answer S}
    (only : program.Only allowed)
    (split : program.trail perform start = earlier ++ moment :: later) :
    ∃ rest : Program Op Answer α, rest.Only allowed ∧ rest.trail perform moment.after = later ∧
      rest.run perform moment.after = program.run perform start := by
  induction program generalizing start earlier with
  | done a => simp [trail] at split
  | ask op next ih =>
    cases asked : perform op start with
    | error e after => simp [trail, asked] at split
    | ok answer after =>
      have goes : (ask op next).run perform start = (next answer).run perform after := by
        simp [run, asked]
      simp only [trail, asked] at split
      cases earlier with
      | nil =>
        obtain ⟨rfl, rfl⟩ := List.cons.inj split
        exact ⟨next answer, only.2 answer, rfl, goes.symm⟩
      | cons first earlier =>
        obtain ⟨-, split⟩ := List.cons.inj split
        obtain ⟨rest, restOnly, behind, same⟩ := ih answer (only.2 answer) split
        exact ⟨rest, restOnly, behind, same.trans goes.symm⟩

/-- What every operation leads along, the moments of a trail lie on. -/
theorem keeps_trail {R : S → S → Prop} [IsPreorder S R] (step : ∀ op, Keeps R (perform op))
    (program : Program Op Answer α) (start : S) :
    ∀ moment ∈ program.trail perform start, R start moment.after := by
  induction program generalizing start with
  | done a => simp [trail]
  | ask op next ih =>
    cases asked : perform op start with
    | error e after => simp [trail, asked]
    | ok answer after =>
      have first : R start after := (step op).of_ok asked
      simp only [trail, asked, List.mem_cons]
      rintro moment (rfl | member)
      · exact first
      · exact IsTrans.trans _ _ _ first (ih answer after moment member)

/-- If every allowed operation is answered in every state of an invariant, keeps the invariant
and does as it should, then so does a program of such operations, at every moment and in the
end. -/
theorem trail_of_invariant {invariant : S → Prop} {should : Moment Op Answer S → Prop}
    (step : ∀ op, allowed op → ∀ before, invariant before → ∃ answer after,
      perform op before = .ok answer after ∧ invariant after ∧ should ⟨before, op, answer, after⟩)
    (program : Program Op Answer α) (only : program.Only allowed) {start : S}
    (holds : invariant start) :
    (∀ moment ∈ program.trail perform start, should moment) ∧
      ∃ a final, program.run perform start = .ok a final ∧ invariant final := by
  induction program generalizing start with
  | done a => exact ⟨by simp [trail], a, start, rfl, holds⟩
  | ask op next ih =>
    obtain ⟨answer, after, asked, kept, done⟩ := step op only.1 start holds
    obtain ⟨moments, a, final, ran, ends⟩ := ih answer (only.2 answer) kept
    refine ⟨?_, a, final, ?_, ends⟩
    · simp only [trail, asked, List.mem_cons]
      rintro moment (rfl | member)
      · exact done
      · exact moments moment member
    · simp [run, asked, ran]

end Program

end GuestMachine
