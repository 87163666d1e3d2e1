import GuestMachine.Proofs.Machine.Depth
import GuestMachine.Proofs.Machine.Dispatch
import GuestMachine.Proofs.Machine.Onlooker

/-!
Dispatch beside a hook that only looks on. The hook stands last in the table, so it runs behind
the others or, where an earlier one fails or settles the fault, not at all; and as it settles
nothing, an event comes to the same with it as without it, however deep callbacks nest.
-/

namespace GuestMachine.Onlooker

variable {W V : Type} {onlooker : Onlooker W V} {host : Host W} {machine watched : Machine W}

section Call

variable {α : Type} {dispatch : Event → Attempt (Machine W) DispatchResult}
  {accounts : ∀ event, Account id (dispatch event)}

/-- A program that has no room to dispatch, and is not broken off for that, does the same where
there is room. -/
theorem run_of_undispatched (dispatch : Event → Attempt (Machine W) DispatchResult)
    {program : MachineProgram W α}
    {result : EStateM.Result Abort (Machine W) α}
    (ran : program.run (Machine.perform host (Machine.dispatch host 0)) machine = result)
    (room : ∀ left, result ≠ .error .exhausted left) :
    program.run (Machine.perform host dispatch) machine = result := by
  have agrees : ∀ op, AgreesUnless .exhausted
      (Machine.perform host (Machine.dispatch host 0) op) (Machine.perform host dispatch op) :=
    Machine.perform_agrees host fun event machine => .inl ⟨machine, rfl⟩
  rcases AgreesUnless.run agrees program machine with ⟨left, exhausted⟩ | same
  · exact absurd (ran.symm.trans exhausted) (room left)
  · exact same.trans ran

/-- Nothing is to be seen of such a program. -/
theorem notes_run_of_undispatched (seen : ∀ event, Transcript (accounts event))
    {program : MachineProgram W α} {result : EStateM.Result Abort (Machine W) α}
    (ran : program.run (Machine.perform host (Machine.dispatch host 0)) machine = result)
    (room : ∀ left, result ≠ .error .exhausted left) :
    (Transcript.run (Machine.perform.transcript host seen) program).notes machine = [] := by
  induction program generalizing machine with
  | done a => rfl
  | ask op next ih =>
    cases op with
    | dispatch event => exact absurd ran.symm (room machine)
    | _ =>
      simp only [Program.run, bind_apply] at ran
      simp only [Transcript.run, Transcript.bind]
      generalize performed : Machine.perform host (Machine.dispatch host 0) _ machine = step at ran
      have same : Machine.perform host dispatch _ machine = step := performed
      rw [same]
      cases step with
      | ok answer left => exact ih answer ran
      | error cause left => rfl

/-- Called where it does not run already, the callback that looks on answers without settling
anything, and nothing but its call is to be seen. -/
theorem invoke_of_passive
    (passive : host.Passive onlooker.view onlooker.origin onlooker.hook.callback)
    (kin : onlooker.origin.Kin machine) (idle : onlooker.hook.callback ∉ machine.running)
    (seen : ∀ event, Transcript (accounts event)) (handle : HookHandle)
    (args : onlooker.hook.callback.shape.Args) :
    ∃ reply world,
      Machine.invoke host (Machine.perform host dispatch) onlooker.hook.callback args machine =
          .ok reply { machine with world := world } ∧
        onlooker.view world = onlooker.view machine.world ∧
        onlooker.hook.callback.shape.settles reply = false ∧
        (Machine.invoke.transcript host (Machine.perform.transcript host seen) handle
          onlooker.hook.callback args).notes machine =
            [.called handle onlooker.hook.callback args] := by
  obtain ⟨reply, world, ran, sight, settles⟩ := passive args _
    (kin.withRunning (onlooker.hook.callback :: machine.running))
  have works := run_of_undispatched dispatch ran (by simp)
  have unseen := notes_run_of_undispatched seen ran (by simp)
  refine ⟨reply, world, ?_, sight, settles, ?_⟩
  · simp [Machine.invoke, idle, works]
  · simp [Machine.invoke.transcript, Transcript.bind, Transcript.empty, Transcript.ite,
      Transcript.single, Transcript.lift, idle, unseen, works]

end Call

section Dispatch

variable (blind : host.Blind onlooker.view onlooker.hook.callback)
  (passive : host.Passive onlooker.view onlooker.origin onlooker.hook.callback)

include blind

/-- Operations asked alike come to the same beside the hook, if the dispatches that they may ask
do. -/
theorem perform_mirrors {dispatch : Event → Attempt (Machine W) DispatchResult}
    {accounts : ∀ event, Account id (dispatch event)} {seen : ∀ event, Transcript (accounts event)}
    (dispatches : ∀ event, onlooker.Mirrors onlooker.Beside Eq (seen event) (seen event))
    {op other : MachineOp W} {agree : op.Answer → other.Answer → Prop}
    (asks : MachineOp.Asks onlooker.view op other agree) :
    onlooker.Mirrors onlooker.Beside agree (Machine.perform.transcript host seen op)
      (Machine.perform.transcript host seen other) := by
  cases asks with
  | world =>
    exact .quiet (fun _ => rfl) (fun _ => rfl) fun _ _ beside _ => .ok beside.sight.symm beside
  | setWorld sight =>
    exact .quiet (fun _ => rfl) (fun _ => rfl) fun _ _ beside _ =>
      .ok rfl (beside.withWorlds sight.symm)
  | same op seesNoWorld =>
    cases op with
    | dispatch event => exact (dispatches event).outcome
    | world => exact absurd rfl seesNoWorld
    | _ =>
      exact .quiet (fun _ => rfl) (fun _ => rfl) fun machine watched beside steady =>
        beside.perform blind accounts seesNoWorld (by simp) steady

/-- A callback that is not the one that looks on does the same beside it. -/
theorem invoke_mirrors_of_ne {perform : (op : MachineOp W) → Effect (Machine W) op.Answer}
    {performs : ∀ op, Account id (perform op)} {seen : ∀ op, Transcript (performs op)}
    (steps : ∀ op other agree, MachineOp.Asks onlooker.view op other agree →
      onlooker.Mirrors onlooker.Beside agree (seen op) (seen other))
    {handle : HookHandle} (otherHook : handle ≠ onlooker.hook.handle) {callback : HookCallback}
    (ne : callback ≠ onlooker.hook.callback) (args : callback.shape.Args) :
    onlooker.Mirrors onlooker.Beside Eq (Machine.invoke.transcript host seen handle callback args)
      (Machine.invoke.transcript host seen handle callback args) := by
  have kept : (Note.called handle callback args).isOther onlooker.hook.handle = true :=
    bne_iff_ne.mpr otherHook
  refine .bind (.get (fun _ => rfl) fun _ => rfl) fun machine watched beside => ?_
  have runs : callback ∈ machine.running ↔ callback ∈ watched.running := by
    rw [beside.running_eq]
  refine .ite runs (fun _ => ?_) fun _ => ?_
  · exact .quiet (fun _ => rfl) (fun _ => rfl) fun _ _ beside _ => .error _ beside
  · refine .bind (.single kept fun machine watched beside => .ok rfl ?_) fun _ _ _ => ?_
    · exact beside.withRunning (callback :: ·) (by simp [ne.symm, beside.idle])
    refine .bind (Mirrors.run steps (blind.respond callback ne args)).lift fun answer _ same => ?_
    obtain rfl := same
    refine .bind (.quiet (fun _ => rfl) (fun _ => rfl) fun machine watched beside _ =>
      .ok rfl ?_) fun _ _ _ => ?_
    · exact beside.withRunning (·.erase callback) fun listed =>
        beside.idle (List.mem_of_mem_erase listed)
    exact .quiet (fun _ => rfl) (fun _ => rfl) fun _ _ beside _ => .ofExcept answer beside

include passive

omit blind in
/-- Registered under another handle, the callback that looks on answers the same beside itself. -/
theorem invoke_mirrors_self {dispatch : Event → Attempt (Machine W) DispatchResult}
    {accounts : ∀ event, Account id (dispatch event)} (seen : ∀ event, Transcript (accounts event))
    {handle : HookHandle} (otherHook : handle ≠ onlooker.hook.handle)
    (args : onlooker.hook.callback.shape.Args) :
    onlooker.Mirrors onlooker.Beside Eq
      (Machine.invoke.transcript host (Machine.perform.transcript host seen) handle
        onlooker.hook.callback args)
      (Machine.invoke.transcript host (Machine.perform.transcript host seen) handle
        onlooker.hook.callback args) := by
  intro machine watched beside _
  obtain ⟨reply, world, ran, sight, settles, noted⟩ :=
    invoke_of_passive passive beside.kin beside.idle seen handle args
  obtain ⟨replyToo, worldToo, ranToo, sightToo, settlesToo, notedToo⟩ :=
    invoke_of_passive passive beside.watchedKin (beside.running_eq ▸ beside.idle) seen handle args
  rw [ran, ranToo, noted, notedToo]
  have sights := sightToo.trans (beside.sight.trans sight.symm)
  exact ⟨.ok (onlooker.reply_unique settles settlesToo) (beside.withWorlds sights),
    Note.others_called otherHook _ _ []⟩

/-- Every callback that is called for another hook does the same beside the one that looks on. -/
theorem invoke_mirrors {dispatch : Event → Attempt (Machine W) DispatchResult}
    {accounts : ∀ event, Account id (dispatch event)} {seen : ∀ event, Transcript (accounts event)}
    (dispatches : ∀ event, onlooker.Mirrors onlooker.Beside Eq (seen event) (seen event))
    {handle : HookHandle} (otherHook : handle ≠ onlooker.hook.handle) (callback : HookCallback)
    (args : callback.shape.Args) :
    onlooker.Mirrors onlooker.Beside Eq
      (Machine.invoke.transcript host (Machine.perform.transcript host seen) handle callback args)
      (Machine.invoke.transcript host (Machine.perform.transcript host seen) handle callback
        args) := by
  rcases eq_or_ne callback onlooker.hook.callback with rfl | ne
  · exact invoke_mirrors_self passive seen otherHook args
  · refine invoke_mirrors_of_ne blind (fun _ _ _ asks => ?_) otherHook ne args
    exact perform_mirrors blind dispatches asks

section Delivery

variable {dispatch : Event → Attempt (Machine W) DispatchResult}
  {accounts : ∀ event, Account id (dispatch event)} (seen : ∀ event, Transcript (accounts event))

abbrev delivery (host : Host W) (event : Event) (hooks : List (HookHandle × HookCallback))
    (result : DispatchResult) :=
  Machine.deliver.transcript
    (Machine.invoke.transcript host (Machine.perform.transcript host seen)) event hooks result

omit blind passive in
theorem Beside.deliver_nil (beside : onlooker.Beside machine watched)
    (invoke : (callback : HookCallback) → callback.shape.Args →
      Attempt (Machine W) callback.shape.Reply) (event : Event) (result : DispatchResult) :
    Matches onlooker.Beside Eq (Machine.deliver invoke event [] result machine)
      (Machine.deliver invoke event [] result watched) := by
  cases event with
  | memoryUnmapped => exact .error _ beside
  | _ => exact .ok rfl beside

omit blind in
/-- Handing an event to the hook that looks on comes to the same as handing it to none. -/
theorem delivery_mirrors_last (event : Event) (result : DispatchResult) :
    onlooker.Mirrors onlooker.Beside Eq (delivery seen host event [] result)
      (delivery seen host event [(onlooker.hook.handle, onlooker.hook.callback)] result) := by
  intro machine watched beside _
  simp only [delivery, Machine.deliver.transcript]
  cases handed : event.args? onlooker.hook.callback.shape with
  | none =>
    rw [Machine.deliver_skip handed, Machine.notesOfDelivery_skip _ handed]
    exact ⟨beside.deliver_nil _ event result, rfl⟩
  | some args =>
    obtain ⟨reply, world, ran, sight, settles, noted⟩ :=
      invoke_of_passive passive beside.watchedKin (beside.running_eq ▸ beside.idle) seen
        onlooker.hook.handle args
    have ends : onlooker.Beside machine { watched with world := world } :=
      beside.withWorlds (sight.trans beside.sight)
    rw [Machine.deliver_cons handed, Machine.notesOfDelivery_cons _ handed, ran, noted]
    simp only [settles, onlooker.resultAfter_eq, Bool.false_eq_true, if_false]
    refine ⟨ends.deliver_nil _ event result, ?_⟩
    simp [Machine.notesOfDelivery, Note.others, Note.isOther]

/-- Handing an event to hooks comes to the same with the hook that looks on behind them. -/
theorem delivery_mirrors
    (dispatches : ∀ event, onlooker.Mirrors onlooker.Beside Eq (seen event) (seen event))
    {hooks : List (HookHandle × HookCallback)}
    (otherHooks : ∀ entry ∈ hooks, entry.1 ≠ onlooker.hook.handle)
    {extra : List (HookHandle × HookCallback)} (event : Event) (result : DispatchResult)
    (last : ∀ result, onlooker.Mirrors onlooker.Beside Eq (delivery seen host event [] result)
      (delivery seen host event extra result)) :
    onlooker.Mirrors onlooker.Beside Eq (delivery seen host event hooks result)
      (delivery seen host event (hooks ++ extra) result) := by
  induction hooks generalizing result with
  | nil => exact last result
  | cons hook rest ih =>
    obtain ⟨handle, callback⟩ := hook
    obtain ⟨otherHook, othersRest⟩ := List.forall_mem_cons.mp otherHooks
    intro machine watched beside steady
    simp only [delivery, Machine.deliver.transcript, List.cons_append]
    cases handed : event.args? callback.shape with
    | none =>
      rw [Machine.deeds_deliver_of_none handed] at steady
      rw [Machine.deliver_skip handed, Machine.deliver_skip handed,
        Machine.notesOfDelivery_skip _ handed, Machine.notesOfDelivery_skip _ handed]
      exact ih othersRest result machine watched beside steady
    | some args =>
      rw [Machine.deeds_deliver_of_some handed, Deed.hookCalls_append,
        HookTable.refusesAll_append] at steady
      obtain ⟨steadyCall, steadyRest⟩ := steady
      obtain ⟨alike, noted⟩ := invoke_mirrors blind passive dispatches otherHook callback args
        machine watched beside steadyCall
      rw [Machine.deliver_cons handed, Machine.deliver_cons handed,
        Machine.notesOfDelivery_cons _ handed, Machine.notesOfDelivery_cons _ handed,
        Note.others_append, noted]
      generalize Machine.invoke host _ callback args machine = called at alike steadyRest ⊢
      generalize Machine.invoke host _ callback args watched = calledToo at alike ⊢
      cases alike with
      | error failure ends =>
        cases failure with
        | error cause => exact ⟨.error _ ends, by simp⟩
        | abort cause => exact ⟨.error _ ends, by simp⟩
      | @ok reply _ _ _ same ends =>
        obtain rfl := same
        dsimp only at steadyRest ⊢
        by_cases settles : callback.shape.settles reply = true
        · simp only [if_pos settles]
          exact ⟨.ok rfl ends, by simp⟩
        · simp only [if_neg settles] at steadyRest ⊢
          obtain ⟨alikeRest, notedRest⟩ := ih othersRest _ _ _ ends steadyRest
          exact ⟨alikeRest, congrArg _ notedRest⟩

end Delivery

/-- A dispatch comes to the same beside the hook, however deep callbacks nest. -/
theorem dispatch_mirrors (depth : Nat) (event : Event) :
    onlooker.Mirrors onlooker.Beside Eq (Machine.dispatch.transcript host depth event)
      (Machine.dispatch.transcript host depth event) := by
  induction depth generalizing event with
  | zero => exact .quiet (fun _ => rfl) (fun _ => rfl) fun _ _ beside _ => .error _ beside
  | succ depth ih =>
    refine .bind (.get (fun _ => rfl) fun _ => rfl) fun machine watched beside => ?_
    have looked := onlooker.lookup_table event.kind event.key event.insn
    rw [← beside.hooks, ← beside.hooks_watched] at looked
    rw [looked]
    refine delivery_mirrors blind passive _ ih (fun entry listed => ?_) event _ fun result => ?_
    · rw [beside.hooks] at listed
      exact onlooker.handle_ne listed
    · by_cases listens : onlooker.hook.listensTo event.kind event.key event.insn = true
      · rw [if_pos listens]
        exact delivery_mirrors_last passive _ event result
      · rw [if_neg listens]
        exact .quiet (fun _ => rfl) (fun _ => rfl) fun _ _ beside _ =>
          beside.deliver_nil _ event result

end Dispatch

end GuestMachine.Onlooker
