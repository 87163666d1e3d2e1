import GuestMachine.Proofs.Cpu.Silence
import GuestMachine.Proofs.Machine.Dispatch
import GuestMachine.Proofs.Machine.Running

/-!
Nests of dispatches. A callback may dispatch events of its own, whose callbacks may do so again.
At every callback that a dispatch comes to, the callbacks that count as running are those called
further up and not answered yet; the dispatch is broken off where it comes to one of these, and
nowhere else. However it returns, those that count as running are the ones before it.
-/

namespace GuestMachine

namespace Program

variable {Op : Type} {Answer : Op → Type} {S ε α : Type}

/-- Whether a program, run from a state, comes to ask an operation in another one. -/
inductive Asks (perform : (op : Op) → EStateM ε S (Answer op)) :
    Program Op Answer α → S → Op → S → Prop
  | now (op : Op) (next : Answer op → Program Op Answer α) (s : S) :
      Asks perform (.ask op next) s op s
  | later {op other : Op} {next : Answer op → Program Op Answer α} {answer : Answer op}
      {s t u : S} (answered : perform op s = .ok answer t)
      (asks : Asks perform (next answer) t other u) : Asks perform (.ask op next) s other u

variable {perform : (op : Op) → EStateM ε S (Answer op)} {program : Program Op Answer α}
  {op : Op} {s t u : S} {e : ε}

/-- A program fails where an operation that it comes to ask does. -/
theorem Asks.run_eq_error (asks : program.Asks perform s op t) (fails : perform op t = .error e u) :
    program.run perform s = .error e u := by
  induction asks with
  | now => simp [run, fails]
  | later answered _ ih => simp [run, answered, ih fails]

/-- A program fails nowhere else. -/
theorem exists_asks_of_run_eq_error (failed : program.run perform s = .error e u) :
    ∃ op t, program.Asks perform s op t ∧ perform op t = .error e u := by
  induction program generalizing s with
  | done a => simp [run] at failed
  | ask op next ih =>
    cases asked : perform op s with
    | error other t =>
      simp only [run, bind_apply, asked] at failed
      obtain ⟨rfl, rfl⟩ := EStateM.Result.error.inj failed
      exact ⟨op, s, .now op next s, asked⟩
    | ok answer t =>
      simp only [run, bind_apply, asked] at failed
      obtain ⟨later, inner, asks, fails⟩ := ih answer failed
      exact ⟨later, inner, .later asked asks, fails⟩

/-- What answered operations keep holds where a program comes to ask the next one. -/
theorem Asks.keeps {P : S → Prop} (asks : program.Asks perform s op t)
    (step : ∀ op s answer t, perform op s = .ok answer t → P s → P t) (start : P s) : P t := by
  induction asks with
  | now => exact start
  | later answered _ ih => exact ih (step _ _ _ _ answered start)

end Program

namespace Machine

variable {W : Type}

/-- Calls a callback in a dispatch that may open `depth` more below it. -/
abbrev call (host : Host W) (depth : Nat) :
    (callback : HookCallback) → callback.shape.Args → Attempt (Machine W) callback.shape.Reply :=
  invoke host (perform host (dispatch host depth))

/-- Hooks that an event is handed to, in turn, unless one of them ends its dispatch. -/
def recipients (machine : Machine W) (event : Event) : List (HookHandle × HookCallback) :=
  (machine.hooks.lookup event.kind event.key event.insn).filter fun hook =>
    (event.args? hook.2.shape).isSome

/-- Whether a dispatch comes to a callback, about to call it on a machine. The callbacks of the
nest have been called by the dispatch and have not answered, the last one first. -/
inductive Reaches (host : Host W) :
    (depth : Nat) → Event → Machine W → (nest : List HookCallback) → HookCallback → Machine W → Prop
  | matched {depth : Nat} {event : Event} {machine left : Machine W} {visits : List Visit}
      {handle : HookHandle} {callback : HookCallback} {rest : List (HookHandle × HookCallback)}
      (split : machine.recipients event = visits.map Visit.hook ++ (handle, callback) :: rest)
      (ran : Visits (call host depth) event machine visits left) :
      Reaches host (depth + 1) event machine [] callback left
  | nested {depth : Nat} {event inside : Event} {machine left inner last : Machine W}
      {visits : List Visit} {handle : HookHandle} {callback target : HookCallback}
      {args : callback.shape.Args} {rest : List (HookHandle × HookCallback)}
      {nest : List HookCallback}
      (split : machine.recipients event = visits.map Visit.hook ++ (handle, callback) :: rest)
      (ran : Visits (call host depth) event machine visits left)
      (handed : event.args? callback.shape = some args) (idle : callback ∉ left.running)
      (asks : (host.respond callback args).Asks (perform host (dispatch host depth))
        { left with running := callback :: left.running } (.dispatch inside) inner)
      (deeper : Reaches host depth inside inner nest target last) :
      Reaches host (depth + 1) event machine (nest ++ [callback]) target last

variable {host : Host W} {depth : Nat} {event : Event} {machine left : Machine W}
  {callback : HookCallback}

/-! Single calls. -/

theorem call_of_running (running : callback ∈ machine.running) (args : callback.shape.Args) :
    call host depth callback args machine = .error (.abort .reentry) machine := by
  simp [call, invoke, running]

theorem call_of_idle (idle : callback ∉ machine.running) (args : callback.shape.Args) :
    call host depth callback args machine =
      match (host.respond callback args).run (perform host (dispatch host depth))
        { machine with running := callback :: machine.running } with
      | .ok answer left =>
        Attempt.ofExcept answer { left with running := left.running.erase callback }
      | .error cause left => .error (.abort cause) left := by
  simp only [call, invoke, bind_apply, get_apply, if_neg idle, modify_apply, lift_apply]
  cases (host.respond callback args).run (perform host (dispatch host depth))
    { machine with running := callback :: machine.running } <;> rfl

theorem perform_running {op : MachineOp W} {answer : op.Answer}
    (answered : perform host (dispatch host depth) op machine = .ok answer left) :
    left.running = machine.running := by
  have settles := perform_settles host (dispatch.account host depth) (dispatch_settles host depth)
    op machine
  rw [answered] at settles
  exact settles.resolve_right (by simp)

/-- Hooks that have run leave the callbacks that count as running. -/
theorem Visits.running {visits : List Visit}
    (ran : Visits (call host depth) event machine visits left) : left.running = machine.running := by
  induction ran with
  | none => rfl
  | @next machine after left visit rest handed answers passes later ih =>
    have settles := invoke_settles host
      (perform_settles host (dispatch.account host depth) (dispatch_settles host depth))
      visit.callback visit.args machine
    rw [show invoke host (perform host (dispatch host depth)) visit.callback visit.args machine =
      .ok visit.reply after from answers] at settles
    exact ih.trans (settles.resolve_right (by simp))

/-- Where a callback comes to ask an operation, it counts as running besides those before it. -/
theorem running_of_asks {args : callback.shape.Args} {op : MachineOp W} {inner : Machine W}
    (asks : (host.respond callback args).Asks (perform host (dispatch host depth))
      { machine with running := callback :: machine.running } op inner) :
    inner.running = callback :: machine.running :=
  asks.keeps (P := fun inner => inner.running = callback :: machine.running)
    (fun _ _ _ _ answered same => (perform_running answered).trans same) rfl

/-! Dispatches. -/

/-- Hooks that cannot be handed the event are passed over. -/
theorem deliver_filter
    {invoke : (callback : HookCallback) → callback.shape.Args →
      Attempt (Machine W) callback.shape.Reply}
    (hooks : List (HookHandle × HookCallback)) (result : DispatchResult) :
    deliver invoke event (hooks.filter fun hook => (event.args? hook.2.shape).isSome) result =
      deliver invoke event hooks result := by
  induction hooks generalizing result with
  | nil => rfl
  | cons hook rest ih =>
    obtain ⟨handle, callback⟩ := hook
    cases handed : event.args? callback.shape with
    | none => rw [List.filter_cons_of_neg (by simp [handed]), deliver_skip handed, ih]
    | some args =>
      rw [List.filter_cons_of_pos (by simp [handed]), deliver, deliver]
      simp only [handed, ih]

theorem exists_args_of_mem_recipients {hook : HookHandle × HookCallback}
    (listed : hook ∈ machine.recipients event) : ∃ args, event.args? hook.2.shape = some args :=
  Option.isSome_iff_exists.mp (List.mem_filter.mp listed).2

theorem dispatch_succ (host : Host W) (depth : Nat) (event : Event) (machine : Machine W) :
    dispatch host (depth + 1) event machine =
      deliver (call host depth) event (machine.recipients event) event.initialResult machine := by
  rw [recipients, deliver_filter]
  rfl

theorem delivery_dispatch (host : Host W) (depth : Nat) (event : Event) (machine : Machine W) :
    Delivery (call host depth) event machine (machine.recipients event)
      (dispatch host (depth + 1) event machine) := by
  rw [dispatch_succ]
  refine delivery_deliver machine _ fun hook listed => ?_
  obtain ⟨args, handed⟩ := exists_args_of_mem_recipients listed
  exact ⟨args, Event.args?_eq_some_iff.mp handed⟩

theorem outcome_eq_error_iff {S α : Type} {x : Attempt S α} {s t : S} {cause : Abort} :
    Attempt.outcome x s = .error cause t ↔ x s = .error (.abort cause) t := by
  rw [outcome_apply]
  rcases x s with ⟨a, u⟩ | ⟨_ | _, u⟩ <;> simp

/-- Only an operation that dispatches is broken off. -/
theorem exists_dispatch_of_perform_eq_error {op : MachineOp W} {cause : Abort}
    (broken : perform host (dispatch host depth) op machine = .error cause left) :
    ∃ event, op = .dispatch event ∧
      dispatch host depth event machine = .error (.abort cause) left := by
  by_cases dispatches : ∃ event, op = .dispatch event
  · obtain ⟨event, rfl⟩ := dispatches
    exact ⟨event, rfl, outcome_eq_error_iff.mp broken⟩
  · obtain ⟨answer, after, answered⟩ := exists_perform_of_not_dispatch
      (fun event same => dispatches ⟨event, same⟩) host (dispatch host depth) machine
    rw [answered] at broken
    contradiction

/-- Where a callback is broken off, a dispatch that it asks for is. -/
theorem exists_asks_dispatch {args : callback.shape.Args} {cause : Abort}
    (broken : (host.respond callback args).run (perform host (dispatch host depth)) machine =
      .error cause left) :
    ∃ inside inner, (host.respond callback args).Asks (perform host (dispatch host depth)) machine
      (.dispatch inside) inner ∧ dispatch host depth inside inner = .error (.abort cause) left := by
  obtain ⟨op, inner, asks, fails⟩ := Program.exists_asks_of_run_eq_error broken
  obtain ⟨inside, rfl, dispatched⟩ := exists_dispatch_of_perform_eq_error fails
  exact ⟨inside, inner, asks, dispatched⟩

/-- The callbacks that count as running are those called further up and not answered yet. -/
theorem Reaches.running {nest : List HookCallback}
    (reaches : Reaches host depth event machine nest callback left) :
    left.running = nest ++ machine.running := by
  induction reaches with
  | matched split ran => exact ran.running
  | nested split ran handed idle asks deeper ih =>
    rw [ih, running_of_asks asks, ran.running, List.append_assoc, List.singleton_append]

/-- A dispatch that comes to a callback that is still running is broken off there. -/
theorem Reaches.dispatch_eq {nest : List HookCallback}
    (reaches : Reaches host depth event machine nest callback left)
    (running : callback ∈ left.running) :
    dispatch host depth event machine = .error (.abort .reentry) left := by
  induction reaches with
  | matched split ran =>
    obtain ⟨args, handed⟩ := exists_args_of_mem_recipients (split ▸ List.mem_append_cons_self)
    have hands := Event.args?_eq_some_iff.mp handed
    rw [dispatch_succ]
    exact (Delivery.brokenOff split ran hands (call_of_running running args)).deliver_eq
  | nested split ran handed idle asks deeper ih =>
    have broken := asks.run_eq_error (outcome_eq_error_iff.mpr (ih running))
    have hands := Event.args?_eq_some_iff.mp handed
    rw [dispatch_succ]
    refine (Delivery.brokenOff split ran hands ?_).deliver_eq
    rw [call_of_idle idle, broken]

/-- A dispatch is broken off where it comes to a callback that is still running, or where one that
it calls dispatches an event and that is. -/
theorem exists_call_of_abort {cause : Abort}
    (broken : dispatch host (depth + 1) event machine = .error (.abort cause) left) :
    ∃ (visits : List Visit) (between : Machine W) (handle : HookHandle) (callback : HookCallback)
      (args : callback.shape.Args) (rest : List (HookHandle × HookCallback)),
      machine.recipients event = visits.map Visit.hook ++ (handle, callback) :: rest ∧
        Visits (call host depth) event machine visits between ∧
        event.args? callback.shape = some args ∧
        (callback ∈ between.running ∧ cause = .reentry ∧ left = between ∨
          callback ∉ between.running ∧ ∃ inside inner,
            (host.respond callback args).Asks (perform host (dispatch host depth))
              { between with running := callback :: between.running } (.dispatch inside) inner ∧
            dispatch host depth inside inner = .error (.abort cause) left) := by
  have delivery := delivery_dispatch host depth event machine
  rw [broken] at delivery
  cases delivery with
  | @brokenOff visits between _ handle callback rest args _ split ran hands breaks =>
    refine ⟨visits, between, handle, callback, args, rest, split, ran, hands.args?_eq, ?_⟩
    by_cases running : callback ∈ between.running
    · rw [call_of_running running] at breaks
      obtain ⟨same, rfl⟩ := EStateM.Result.error.inj breaks
      exact .inl ⟨running, (Failure.abort.inj same).symm, rfl⟩
    · rw [call_of_idle running] at breaks
      cases works : (host.respond callback args).run (perform host (dispatch host depth))
          { between with running := callback :: between.running } with
      | ok answer after => rw [works] at breaks; cases answer <;> simp at breaks
      | error other after =>
        rw [works] at breaks
        obtain ⟨same, rfl⟩ := EStateM.Result.error.inj breaks
        obtain rfl := Failure.abort.inj same
        exact .inr ⟨running, exists_asks_dispatch works⟩

/-- A dispatch that is broken off for a callback called again has come to one that is still
running. A callback breaks off only through a dispatch of its own, with less room below it. -/
theorem exists_reaches_of_reentry
    (broken : dispatch host depth event machine = .error (.abort .reentry) left) :
    ∃ nest callback, Reaches host depth event machine nest callback left ∧
      callback ∈ left.running := by
  induction depth generalizing event machine with
  | zero => simp [dispatch] at broken
  | succ depth ih =>
    obtain ⟨visits, between, handle, callback, args, rest, split, ran, handed,
      ⟨running, -, rfl⟩ | ⟨idle, inside, inner, asks, insideBroken⟩⟩ := exists_call_of_abort broken
    · exact ⟨[], callback, .matched split ran, running⟩
    · obtain ⟨nest, target, deeper, still⟩ := ih insideBroken
      exact ⟨_, target, .nested split ran handed idle asks deeper, still⟩

/-- A dispatch that runs out of room has as many callbacks open as there was room for. -/
theorem exists_nest_of_exhausted
    (broken : dispatch host depth event machine = .error (.abort .exhausted) left) :
    ∃ nest : List HookCallback, nest.length = depth ∧ left.running = nest ++ machine.running := by
  induction depth generalizing event machine with
  | zero =>
    obtain ⟨-, rfl⟩ := EStateM.Result.error.inj broken
    exact ⟨[], rfl, rfl⟩
  | succ depth ih =>
    obtain ⟨visits, between, handle, callback, args, rest, split, ran, handed,
      ⟨-, other, -⟩ | ⟨idle, inside, inner, asks, insideBroken⟩⟩ := exists_call_of_abort broken
    · contradiction
    · obtain ⟨nest, rfl, running⟩ := ih insideBroken
      refine ⟨nest ++ [callback], List.length_append, ?_⟩
      rw [running, running_of_asks asks, ran.running, List.append_assoc, List.singleton_append]

/-- Behind a hook that fails or settles the event no other one is called, so the dispatch returns
whatever callbacks are still running. -/
theorem dispatch_of_ending {visits : List Visit} {handle : HookHandle}
    {args : callback.shape.Args} {rest : List (HookHandle × HookCallback)}
    (split : machine.recipients event = visits.map Visit.hook ++ (handle, callback) :: rest)
    (ran : Visits (call host depth) event machine visits left)
    (handed : event.args? callback.shape = some args) {after : Machine W} :
    (∀ cause, call host depth callback args left = .error (.error cause) after →
      dispatch host (depth + 1) event machine = .error (.error (.hook handle cause)) after) ∧
    ∀ reply, call host depth callback args left = .ok reply after →
      callback.shape.settles reply = true →
        dispatch host (depth + 1) event machine = .ok .resolved after := by
  rw [dispatch_succ, split, ran.deliver_append, deliver_cons handed]
  refine ⟨fun cause fails => ?_, fun reply answers settles => ?_⟩
  · rw [fails]
  · simp only [answers, settles, if_true]

/-- What becomes of a dispatch and of the callbacks that count as running. -/
structure NestLaw (host : Host W) (depth : Nat) (event : Event) (machine : Machine W) : Prop where
  /-- It is broken off exactly where it comes to a callback that is still running further up. -/
  breaks : ∀ left, dispatch host depth event machine = .error (.abort .reentry) left ↔
    ∃ nest callback, Reaches host depth event machine nest callback left ∧
      callback ∈ nest ++ machine.running
  /-- Those further up, and no others, count as running at each callback that it comes to. -/
  marked : ∀ nest callback left, Reaches host depth event machine nest callback left →
    left.running = nest ++ machine.running
  /-- One that runs out of room has as many callbacks open as there was room for. -/
  overruns : ∀ left, dispatch host depth event machine = .error (.abort .exhausted) left →
    ∃ nest : List HookCallback, nest.length = depth ∧ left.running = nest ++ machine.running
  /-- A hook that fails or settles the event keeps it from coming to those behind. -/
  ended : ∀ below, depth = below + 1 → ∀ visits handle callback args rest left after,
    machine.recipients event = visits.map Visit.hook ++ (handle, callback) :: rest →
    Visits (call host below) event machine visits left →
    event.args? callback.shape = some args →
      (∀ cause, call host below callback args left = .error (.error cause) after →
        dispatch host depth event machine = .error (.error (.hook handle cause)) after) ∧
      ∀ reply, call host below callback args left = .ok reply after →
        callback.shape.settles reply = true →
          dispatch host depth event machine = .ok .resolved after
  /-- Once it has returned, those count as running that did before. -/
  restored : ∀ left, ((∃ result, dispatch host depth event machine = .ok result left) ∨
      ∃ cause, dispatch host depth event machine = .error (.error cause) left) →
    left.running = machine.running

theorem nestLaw (host : Host W) (depth : Nat) (event : Event) (machine : Machine W) :
    NestLaw host depth event machine where
  breaks left := by
    constructor
    · intro broken
      obtain ⟨nest, callback, reaches, running⟩ := exists_reaches_of_reentry broken
      exact ⟨nest, callback, reaches, reaches.running ▸ running⟩
    · rintro ⟨nest, callback, reaches, running⟩
      exact reaches.dispatch_eq (reaches.running ▸ running)
  marked nest callback left reaches := reaches.running
  overruns left := exists_nest_of_exhausted
  ended := by
    rintro below rfl visits handle callback args rest left after split ran handed
    exact dispatch_of_ending split ran handed
  restored left returns := by
    have settles := dispatch_settles host depth event machine
    rcases returns with ⟨result, returned⟩ | ⟨cause, returned⟩
    · rw [returned] at settles
      exact settles.resolve_right (by simp)
    · rw [returned] at settles
      refine settles.resolve_right ?_
      rintro ⟨failure, after, same, broken⟩
      obtain ⟨rfl, -⟩ := EStateM.Result.error.inj same
      exact broken

end Machine

/-- No callback ever comes to dispatch an event itself. -/
def Host.NeverDispatches {W : Type} (host : Host W) : Prop :=
  ∀ depth callback args machine event inner,
    ¬(host.respond callback args).Asks (Machine.perform host (Machine.dispatch host depth)) machine
      (.dispatch event) inner

/-- If callbacks do not dispatch, an event raised while none of them runs is not broken off, once
there is room for its own dispatch. -/
theorem Host.NeverDispatches.dispatch_ne {W : Type} {host : Host W} (never : host.NeverDispatches)
    {depth : Nat} {event : Event} {machine left : Machine W} {cause : Abort}
    (still : machine.running = []) :
    Machine.dispatch host (depth + 1) event machine ≠ .error (.abort cause) left := by
  intro broken
  obtain ⟨visits, between, handle, callback, args, rest, split, ran, handed,
    ⟨running, -⟩ | ⟨idle, inside, inner, asks, -⟩⟩ := Machine.exists_call_of_abort broken
  · rw [ran.running, still] at running
    exact List.not_mem_nil running
  · exact never _ _ _ _ _ _ asks

end GuestMachine
