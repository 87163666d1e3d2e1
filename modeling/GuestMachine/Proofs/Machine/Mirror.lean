import GuestMachine.Proofs.Machine.Transcript

/-!
Computations that mirror each other: from states that stand side by side they come back alike, in
states side by side, and with the notes of one hook left out the same is to be seen of both. One
that mirrors another may know more hooks; as long as the other one calls for no change of hooks
that would go through, the two stay side by side.
-/

namespace GuestMachine

namespace Program

variable {Op : Type} {Answer : Op → Type} {α : Type}

/-- Programs that ask alike and go on alike after answers that agree. What is asked alike, and
which answers agree then, is for `Asks` to say. -/
inductive Alike (Asks : (op other : Op) → (Answer op → Answer other → Prop) → Prop) :
    Program Op Answer α → Program Op Answer α → Prop
  | done (a : α) : Alike Asks (.done a) (.done a)
  | ask {op other : Op} {agree : Answer op → Answer other → Prop}
      {next : Answer op → Program Op Answer α} {later : Answer other → Program Op Answer α}
      (asks : Asks op other agree) (goesOn : ∀ a b, agree a b → Alike Asks (next a) (later b)) :
      Alike Asks (.ask op next) (.ask other later)

/-- Where only equal answers agree, every program asks like itself. -/
theorem Alike.refl {Asks : (op other : Op) → (Answer op → Answer other → Prop) → Prop}
    (asks : ∀ op, ∃ agree, Asks op op agree ∧ ∀ a b, agree a b → a = b)
    (program : Program Op Answer α) : Alike Asks program program := by
  induction program with
  | done a => exact .done a
  | ask op next ih =>
    obtain ⟨agree, asked, same⟩ := asks op
    refine .ask asked fun a b agrees => ?_
    obtain rfl := same a b agrees
    exact ih a

end Program

/-- Computations that have come back alike: with values that agree, or with the same failure. -/
inductive Matches {S ε α β : Type} (beside : S → S → Prop) (agree : α → β → Prop) :
    EStateM.Result ε S α → EStateM.Result ε S β → Prop
  | ok {a : α} {b : β} {s t : S} (agrees : agree a b) (ends : beside s t) :
      Matches beside agree (.ok a s) (.ok b t)
  | error (e : ε) {s t : S} (ends : beside s t) : Matches beside agree (.error e s) (.error e t)

namespace Matches

variable {S T ε α β : Type} {beside : S → S → Prop} {s t : S}

theorem ofExcept (result : Except Error α) (ends : beside s t) :
    Matches beside Eq (Attempt.ofExcept result s) (Attempt.ofExcept result t) := by
  cases result with
  | ok a => exact .ok rfl ends
  | error cause => exact .error _ ends

theorem discard {agree : α → β → Prop} {x : EStateM ε S α} {y : EStateM ε S β}
    (alike : Matches beside agree (x s) (y t)) :
    Matches beside Eq ((Functor.discard x) s) ((Functor.discard y) t) := by
  rw [discard_apply, discard_apply]
  generalize x s = result at alike ⊢
  generalize y t = answer at alike ⊢
  cases alike with
  | ok agrees ends => exact .ok rfl ends
  | error e ends => exact .error e ends

theorem outcome {x y : Attempt S α} (alike : Matches beside Eq (x s) (y t)) :
    Matches beside Eq (Attempt.outcome x s) (Attempt.outcome y t) := by
  rw [outcome_apply, outcome_apply]
  generalize x s = result at alike ⊢
  generalize y t = answer at alike ⊢
  cases alike with
  | ok agrees ends => exact .ok (congrArg Except.ok agrees) ends
  | error failure ends =>
    cases failure with
    | error cause => exact .ok rfl ends
    | abort cause => exact Matches.error cause ends

theorem lift {agree : α → β → Prop} {x : Effect S α} {y : Effect S β}
    (alike : Matches beside agree (x s) (y t)) :
    Matches beside agree ((liftM x : Attempt S α) s) ((liftM y : Attempt S β) t) := by
  rw [lift_apply, lift_apply]
  generalize x s = result at alike ⊢
  generalize y t = answer at alike ⊢
  cases alike with
  | ok agrees ends => exact .ok agrees ends
  | error cause ends => exact .error (Failure.abort cause) ends

/-- Computations on a part of the state come back alike if they do so in that part. -/
theorem within {agree : α → β → Prop} {inner : S → T} {withInner : S → T → S}
    {besideIn : T → T → Prop} {x : EStateM ε T α} {y : EStateM ε T β}
    (alike : Matches besideIn agree (x (inner s)) (y (inner t)))
    (leaves : ∀ s' t', besideIn s' t' → beside (withInner s s') (withInner t t')) :
    Matches beside agree (GuestMachine.within inner withInner x s)
      (GuestMachine.within inner withInner y t) := by
  rw [within_apply, within_apply]
  generalize x (inner s) = result at alike ⊢
  generalize y (inner t) = answer at alike ⊢
  cases alike with
  | ok agrees ends => exact .ok agrees (leaves _ _ ends)
  | error e ends => exact .error e (leaves _ _ ends)

end Matches

/-- Whether a table refuses each of the calls. -/
def HookTable.RefusesAll (table : HookTable) (calls : List HookCall) : Prop :=
  ∀ call ∈ calls, ∀ changed, table.attempt call ≠ .ok changed

theorem HookTable.refusesAll_nil (table : HookTable) : table.RefusesAll [] :=
  List.forall_mem_nil _

theorem HookTable.refusesAll_append {table : HookTable} {earlier later : List HookCall} :
    table.RefusesAll (earlier ++ later) ↔ table.RefusesAll earlier ∧ table.RefusesAll later :=
  List.forall_mem_append

theorem Deed.hookCalls_append {W : Type} (earlier later : List (Deed W)) :
    hookCalls (earlier ++ later) = hookCalls earlier ++ hookCalls later :=
  List.filterMap_append

namespace Note

/-- Whether the note is of a hook other than the given one. -/
def isOther (handle : HookHandle) : Note → Bool
  | stepped _ => true
  | called other _ _ => other != handle

/-- The notes without the calls for one hook. -/
def others (handle : HookHandle) (notes : List Note) : List Note :=
  notes.filter (isOther handle)

@[simp] theorem others_nil (handle : HookHandle) : others handle [] = [] := rfl

@[simp] theorem others_append (handle : HookHandle) (earlier later : List Note) :
    others handle (earlier ++ later) = others handle earlier ++ others handle later :=
  List.filter_append earlier later

theorem others_called {handle other : HookHandle} (ne : other ≠ handle) (callback : HookCallback)
    (args : callback.shape.Args) (rest : List Note) :
    others handle (called other callback args :: rest) =
      called other callback args :: others handle rest :=
  List.filter_cons_of_pos (bne_iff_ne.mpr ne)

end Note

/-- The second computation mirrors the first, in the presence of a hook that the first one does not
know: where the table that has the hook refuses all that the first one asks of its table. -/
def Mirrors {S W ε α β : Type} {part : S → Machine W} (table : HookTable) (handle : HookHandle)
    (beside : S → S → Prop) (agree : α → β → Prop) {x : EStateM ε S α} {y : EStateM ε S β}
    {account : Account part x} {other : Account part y} (plain : Transcript account)
    (watched : Transcript other) : Prop :=
  ∀ s t, beside s t → table.RefusesAll (Deed.hookCalls (account.deeds s)) →
    Matches beside agree (x s) (y t) ∧ Note.others handle (watched.notes t) = plain.notes s

namespace Mirrors

variable {S T W ε α β γ δ : Type} {part : S → Machine W} {table : HookTable} {handle : HookHandle}
  {beside : S → S → Prop} {agree : α → β → Prop}

/-- Computations of which nothing is to be seen mirror each other if they come back alike. -/
theorem quiet {x : EStateM ε S α} {y : EStateM ε S β} {account : Account part x}
    {other : Account part y} {plain : Transcript account} {watched : Transcript other}
    (unseen : ∀ s, plain.notes s = []) (unseenToo : ∀ t, watched.notes t = [])
    (alike : ∀ s t, beside s t → table.RefusesAll (Deed.hookCalls (account.deeds s)) →
      Matches beside agree (x s) (y t)) :
    Mirrors table handle beside agree plain watched := by
  intro s t starts steady
  rw [unseen, unseenToo]
  exact ⟨alike s t starts steady, rfl⟩

theorem get {account other : Account part (MonadState.get : EStateM ε S S)}
    {plain : Transcript account} {watched : Transcript other} (unseen : ∀ s, plain.notes s = [])
    (unseenToo : ∀ t, watched.notes t = []) :
    Mirrors table handle beside beside plain watched :=
  quiet unseen unseenToo fun _ _ starts _ => .ok starts starts

variable {x : EStateM ε S α} {y : EStateM ε S β} {account : Account part x}
  {other : Account part y} {plain : Transcript account} {watched : Transcript other}

/-- One note, of another hook, is taken of both. -/
theorem single {note : Note} (kept : note.isOther handle = true) {calls callsToo}
    (alike : ∀ s t, beside s t → Matches beside agree (x s) (y t)) :
    Mirrors table handle beside agree
      (Transcript.single note calls : Transcript account)
      (Transcript.single note callsToo : Transcript other) :=
  fun s t starts _ => ⟨alike s t starts, List.filter_cons_of_pos kept⟩

theorem bind {f : α → EStateM ε S γ} {g : β → EStateM ε S δ} {agreeNext : γ → δ → Prop}
    {next : ∀ a, Account part (f a)} {otherNext : ∀ b, Account part (g b)}
    {plainNext : ∀ a, Transcript (next a)} {watchedNext : ∀ b, Transcript (otherNext b)}
    (first : Mirrors table handle beside agree plain watched)
    (goesOn : ∀ a b, agree a b →
      Mirrors table handle beside agreeNext (plainNext a) (watchedNext b)) :
    Mirrors table handle beside agreeNext (plain.bind plainNext) (watched.bind watchedNext) := by
  intro s t starts steady
  rw [Account.bind, Deed.hookCalls_append] at steady
  obtain ⟨steadyFirst, steadyNext⟩ := HookTable.refusesAll_append.mp steady
  obtain ⟨alike, seen⟩ := first s t starts steadyFirst
  simp only [bind_apply, Transcript.bind, Note.others_append, seen]
  generalize x s = result at alike steadyNext ⊢
  generalize y t = answer at alike ⊢
  cases alike with
  | error e ends => exact ⟨.error e ends, rfl⟩
  | ok agrees ends =>
    obtain ⟨alikeNext, seenNext⟩ := goesOn _ _ agrees _ _ ends steadyNext
    exact ⟨alikeNext, congrArg _ seenNext⟩

/-- A note that is of no hook is taken of both. -/
theorem after (mirrors : Mirrors table handle beside agree plain watched)
    {registers : RegisterBank} {calm calmToo} :
    Mirrors table handle beside agree (plain.after (.stepped registers) calm)
      (watched.after (.stepped registers) calmToo) := by
  intro s t starts steady
  obtain ⟨alike, seen⟩ := mirrors s t starts steady
  refine ⟨alike, ?_⟩
  simp only [Transcript.after, ← seen]
  rfl

theorem ite {c d : Prop} [Decidable c] [Decidable d] (same : c ↔ d) {x' : EStateM ε S α}
    {y' : EStateM ε S β} {account' : Account part x'} {other' : Account part y'}
    {plain' : Transcript account'} {watched' : Transcript other'}
    (holds : c → Mirrors table handle beside agree plain watched)
    (fails : ¬c → Mirrors table handle beside agree plain' watched') :
    Mirrors table handle beside agree (Transcript.ite (c := c) plain plain')
      (Transcript.ite (c := d) watched watched') := by
  intro s t starts steady
  by_cases h : c
  · simp only [Account.ite, Transcript.ite, if_pos h, if_pos (same.mp h)] at steady ⊢
    exact holds h s t starts steady
  · simp only [Account.ite, Transcript.ite, if_neg h, if_neg (mt same.mpr h)] at steady ⊢
    exact fails h s t starts steady

theorem discard (mirrors : Mirrors table handle beside agree plain watched) :
    Mirrors table handle beside Eq plain.discard watched.discard :=
  fun s t starts steady =>
    have ⟨alike, seen⟩ := mirrors s t starts steady
    ⟨alike.discard, seen⟩

/-- Computations on a part of the state mirror each other if they do so in that part. -/
theorem within {inner : S → T} {withInner : S → T → S} {partIn : T → Machine W}
    {besideIn : T → T → Prop} {x : EStateM ε T α} {y : EStateM ε T β} {account : Account partIn x}
    {other : Account partIn y} {plain : Transcript account} {watched : Transcript other}
    {there : ∀ s t, inner (withInner s t) = t}
    (mirrors : Mirrors table handle besideIn agree plain watched)
    (enters : ∀ s t, beside s t → besideIn (inner s) (inner t))
    (leaves : ∀ s t, beside s t → ∀ s' t', besideIn s' t' →
      beside (withInner s s') (withInner t t')) :
    Mirrors table handle beside agree (plain.within : Transcript (account.within there))
      (watched.within : Transcript (other.within there)) :=
  fun s t starts steady =>
    have ⟨alike, seen⟩ := mirrors _ _ (enters s t starts) steady
    ⟨alike.within (leaves s t starts), seen⟩

/-- Programs that ask alike mirror each other if operations asked alike do. -/
theorem run {Op : Type} {Answer : Op → Type} {perform other : (op : Op) → EStateM ε S (Answer op)}
    {step : ∀ op, Account part (perform op)} {otherStep : ∀ op, Account part (other op)}
    {plain : ∀ op, Transcript (step op)} {watched : ∀ op, Transcript (otherStep op)}
    {Asks : (op other : Op) → (Answer op → Answer other → Prop) → Prop}
    (steps : ∀ op other agree, Asks op other agree →
      Mirrors table handle beside agree (plain op) (watched other))
    {program later : Program Op Answer α} (alike : Program.Alike Asks program later) :
    Mirrors table handle beside Eq (Transcript.run plain program)
      (Transcript.run watched later) := by
  induction alike with
  | done a =>
    exact quiet (fun _ => rfl) (fun _ => rfl) fun _ _ starts _ => .ok rfl starts
  | ask asks goesOn ih => exact (steps _ _ _ asks).bind ih

end Mirrors

section Attempts

variable {S W α β : Type} {part : S → Machine W} {table : HookTable} {handle : HookHandle}
  {beside : S → S → Prop}

theorem Mirrors.outcome {x y : Attempt S α} {account : Account part x} {other : Account part y}
    {plain : Transcript account} {watched : Transcript other}
    (mirrors : Mirrors table handle beside Eq plain watched) :
    Mirrors table handle beside Eq plain.outcome watched.outcome :=
  fun s t starts steady =>
    have ⟨alike, seen⟩ := mirrors s t starts steady
    ⟨alike.outcome, seen⟩

theorem Mirrors.lift {agree : α → β → Prop} {x : Effect S α} {y : Effect S β}
    {account : Account part x} {other : Account part y} {plain : Transcript account}
    {watched : Transcript other} (mirrors : Mirrors table handle beside agree plain watched) :
    Mirrors table handle beside agree plain.lift watched.lift :=
  fun s t starts steady =>
    have ⟨alike, seen⟩ := mirrors s t starts steady
    ⟨alike.lift, seen⟩

end Attempts

end GuestMachine
