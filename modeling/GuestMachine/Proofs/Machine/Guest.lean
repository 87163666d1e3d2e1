import GuestMachine.Proofs.Machine.Transcript

/-!
What callbacks can do to a machine. They can do much of what a host can, but they cannot forget a
requested stop, restore registers together, or release memory and hooks. So an account of what
they do lists none of these deeds.
-/

namespace GuestMachine

/-- Whether callbacks and engines can do it. -/
def Deed.IsGuest {W : Type} : Deed W → Prop
  | clearStop | restoreRegisters _ | clearHooks | memory .clear => False
  | _ => True

/-- Every deed that an account lists is an allowed one. -/
def Account.Only {S W ε α : Type} {part : S → Machine W} {x : EStateM ε S α}
    (allowed : Deed W → Prop) (account : Account part x) : Prop :=
  ∀ s, ∀ deed ∈ account.deeds s, allowed deed

namespace Account.Only

variable {S T W ε α β : Type} {part : S → Machine W} {allowed : Deed W → Prop}

theorem of_nil {x : EStateM ε S α} {account : Account part x}
    (none : ∀ s, account.deeds s = []) : account.Only allowed := by
  intro s deed listed
  simp [none s] at listed

theorem of_singleton {x : EStateM ε S α} {account : Account part x}
    (single : ∀ s, ∃ deed, account.deeds s = [deed] ∧ allowed deed) : account.Only allowed := by
  intro s deed listed
  obtain ⟨own, same, holds⟩ := single s
  rw [same, List.mem_singleton] at listed
  rwa [listed]

theorem bind {x : EStateM ε S α} {f : α → EStateM ε S β} {first : Account part x}
    {next : ∀ a, Account part (f a)} (begins : first.Only allowed)
    (goesOn : ∀ a, (next a).Only allowed) : (first.bind next).Only allowed := by
  intro s deed listed
  rcases List.mem_append.mp listed with early | late
  · exact begins s deed early
  · cases ran : x s with
    | ok a t =>
      rw [ran] at late
      exact goesOn a t deed late
    | error e t => simp [ran] at late

theorem ite {c : Prop} [Decidable c] {x y : EStateM ε S α} {yes : Account part x}
    {no : Account part y} (holds : yes.Only allowed) (fails : no.Only allowed) :
    (Account.ite (c := c) yes no).Only allowed := by
  intro s
  simp only [Account.ite]
  split
  · exact holds s
  · exact fails s

theorem run {Op : Type} {Answer : Op → Type} {perform : (op : Op) → EStateM ε S (Answer op)}
    {step : ∀ op, Account part (perform op)} (steps : ∀ op, (step op).Only allowed)
    (program : Program Op Answer α) : (Account.run step program).Only allowed := by
  induction program with
  | done a => exact of_nil fun _ => rfl
  | ask op next ih => exact (steps op).bind ih

end Account.Only

namespace Machine

variable {W : Type}

theorem perform_guest (host : Host W) {dispatch : Event → Attempt (Machine W) DispatchResult}
    {dispatches : ∀ event, Account id (dispatch event)}
    (seen : ∀ event, (dispatches event).Only Deed.IsGuest) (op : MachineOp W) :
    (perform.account host dispatches op).Only Deed.IsGuest := by
  cases op with
  | dispatch event => exact seen event
  | mapMemory | unmapMemory | protectMemory | writeMemory | loadMemory | writeRegister | addHook
  | addInstructionHook | removeHook | stop | setWorld =>
    exact .of_singleton fun _ => ⟨_, rfl, trivial⟩
  | arch | mode | readMemory | regions | readRegister | pc | stopRequested | world =>
    exact .of_nil fun _ => rfl

theorem invoke_guest (host : Host W) {perform : (op : MachineOp W) → Effect (Machine W) op.Answer}
    {performs : ∀ op, Account id (perform op)} (seen : ∀ op, (performs op).Only Deed.IsGuest)
    (callback : HookCallback) (args : callback.shape.Args) :
    (invoke.account host performs callback args).Only Deed.IsGuest := by
  have works : (Account.run performs (host.respond callback args)).lift.Only Deed.IsGuest :=
    Account.Only.run seen _
  refine .bind (.of_nil fun _ => rfl) fun _ => .ite (.of_nil fun _ => rfl) ?_
  refine .bind (.of_singleton fun _ => ⟨_, rfl, trivial⟩) fun _ => works.bind fun answer => ?_
  exact .bind (.of_singleton fun _ => ⟨_, rfl, trivial⟩) fun _ => .of_nil fun _ => rfl

theorem deliver_guest {invoke : (callback : HookCallback) → callback.shape.Args →
      Attempt (Machine W) callback.shape.Reply}
    {invokes : ∀ callback args, Account id (invoke callback args)}
    (seen : ∀ callback args, (invokes callback args).Only Deed.IsGuest) (event : Event)
    (hooks : List (HookHandle × HookCallback)) (result : DispatchResult) :
    (deliver.account invokes event hooks result).Only Deed.IsGuest := by
  induction hooks generalizing result with
  | nil => exact .of_nil fun _ => rfl
  | cons hook rest ih =>
    obtain ⟨handle, callback⟩ := hook
    intro machine deed listed
    cases handed : event.args? callback.shape with
    | none =>
      rw [deeds_deliver_of_none handed] at listed
      exact ih result machine deed listed
    | some args =>
      rw [deeds_deliver_of_some handed] at listed
      rcases List.mem_append.mp listed with early | late
      · exact seen callback args machine deed early
      · cases called : invoke callback args machine with
        | error failure after => simp [called] at late
        | ok reply after =>
          simp only [called] at late
          split at late
          · simp at late
          · exact ih _ after deed late

/-- However deep callbacks dispatch events of their own, they do only what callbacks can. -/
theorem dispatch_guest (host : Host W) (depth : Nat) (event : Event) :
    (dispatch.account host depth event).Only Deed.IsGuest := by
  induction depth generalizing event with
  | zero => exact .of_nil fun _ => rfl
  | succ depth ih =>
    exact .bind (.of_nil fun _ => rfl) fun _ =>
      deliver_guest (invoke_guest host (perform_guest host ih)) event _ _

end Machine

end GuestMachine
