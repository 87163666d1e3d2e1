/-!
Programs over an interface. A program either ends with a value or asks one operation of the
interface and goes on with the answer. Callbacks and engines are programs, so what they may do
is exactly what the interface offers.
-/

namespace GuestMachine

/-- Finite programs that ask operations `Op`, each answered in its type, and end with an `α`. -/
inductive Program (Op : Type) (Answer : Op → Type) (α : Type) where
  | done (value : α)
  | ask (op : Op) (next : Answer op → Program Op Answer α)

namespace Program

variable {Op : Type} {Answer : Op → Type} {α β : Type}

def bind : Program Op Answer α → (α → Program Op Answer β) → Program Op Answer β
  | done a, f => f a
  | ask op next, f => ask op fun answer => (next answer).bind f

instance : Monad (Program Op Answer) where
  pure := done
  bind := bind

theorem bind_done (p : Program Op Answer α) : p.bind done = p := by
  induction p with
  | done a => rfl
  | ask op next ih => exact congrArg (ask op) (funext ih)

theorem bind_assoc {γ : Type} (p : Program Op Answer α) (f : α → Program Op Answer β)
    (g : β → Program Op Answer γ) : (p.bind f).bind g = p.bind fun a => (f a).bind g := by
  induction p with
  | done a => rfl
  | ask op next ih => exact congrArg (ask op) (funext ih)

instance : LawfulMonad (Program Op Answer) :=
  LawfulMonad.mk' _ bind_done (fun _ _ => rfl) bind_assoc

def call (op : Op) : Program Op Answer (Answer op) :=
  ask op done

/-- Runs a program in a monad that knows how to perform each operation. -/
def run {m : Type → Type} [Monad m] (perform : (op : Op) → m (Answer op)) :
    Program Op Answer α → m α
  | done a => pure a
  | ask op next => do
    let answer ← perform op
    (next answer).run perform

/-- Running one program after another runs both. -/
theorem run_bind {m : Type → Type} [Monad m] [LawfulMonad m]
    (perform : (op : Op) → m (Answer op)) (p : Program Op Answer α)
    (f : α → Program Op Answer β) :
    (p >>= f).run perform = p.run perform >>= fun a => (f a).run perform := by
  induction p with
  | done a => exact (pure_bind a fun a => (f a).run perform).symm
  | ask op next ih =>
    have later : ∀ answer, ((next answer).bind f).run perform =
        (next answer).run perform >>= fun a => (f a).run perform := ih
    simp only [Bind.bind, bind, run] at later ⊢
    simp only [later]
    exact (LawfulMonad.bind_assoc _ _ _).symm

end Program

end GuestMachine
