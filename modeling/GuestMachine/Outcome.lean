import GuestMachine.Error

/-!
Computations over a state and the ways they end. An attempt may fail with an error, which its
caller can look at and go on from; either kind may be aborted, from which nothing goes on. The
state reached is kept in every case.
-/

namespace GuestMachine

/-- Why a computation was broken off. -/
inductive Abort where
  /-- A callback was called while it was still running. -/
  | reentry
  /-- The bound on nested dispatches or on instructions was used up. -/
  | exhausted
  deriving DecidableEq, Repr

inductive Failure where
  | error (cause : Error)
  | abort (cause : Abort)
  deriving DecidableEq, Repr

/-- A computation over states `S` whose errors, if any, are part of its value. -/
abbrev Effect (S α : Type) : Type := EStateM Abort S α

/-- A computation over states `S` that may fail. -/
abbrev Attempt (S α : Type) : Type := EStateM Failure S α

variable {S T α ε : Type}

/-- Runs an attempt and answers its error as a value. -/
def Attempt.outcome (x : Attempt S α) : Effect S (Except Error α) := fun s =>
  match x s with
  | .ok a s => .ok (.ok a) s
  | .error (.error cause) s => .ok (.error cause) s
  | .error (.abort cause) s => .error cause s

/-- An effect as an attempt that fails only by being aborted. -/
def Effect.toAttempt (x : Effect S α) : Attempt S α := fun s =>
  match x s with
  | .ok a s => .ok a s
  | .error cause s => .error (.abort cause) s

instance : MonadLift (EStateM Abort S) (EStateM Failure S) where
  monadLift := Effect.toAttempt

def Attempt.fail (cause : Error) : Attempt S α := fun s =>
  .error (.error cause) s

def Attempt.abort (cause : Abort) : Attempt S α := fun s =>
  .error (.abort cause) s

/-- Fails if the given result is an error. -/
def Attempt.ofExcept : Except Error α → Attempt S α
  | .ok a => pure a
  | .error cause => Attempt.fail cause

def within (part : S → T) (withPart : S → T → S) (x : EStateM ε T α) : EStateM ε S α := fun s =>
  match x (part s) with
  | .ok a t => .ok a (withPart s t)
  | .error e t => .error e (withPart s t)

end GuestMachine
