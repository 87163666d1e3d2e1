import GuestMachine.Proofs.Hook.Event
import GuestMachine.Proofs.Machine.Evolution
import Mathlib.Algebra.Group.Nat.Defs
import Mathlib.Data.List.Basic

/-!
What a dispatch does. The hooks listed when it begins run in their order, each on the machine that
the one before it left, until one of them fails or settles the event. What later becomes of the
table of hooks does not matter, and an event that no hook settles comes to what its kind says.
-/

namespace GuestMachine

/-! The width of a port. -/

theorem portMask_toNat (size : Nat) : (portMask size).toNat = 2 ^ (8 * min size 8) - 1 := by
  unfold portMask
  split
  next wide => rw [Nat.min_eq_right wide]; rfl
  next narrow =>
    have width : 2 ^ (8 * size) ≤ 2 ^ 64 := Nat.pow_le_pow_right (by omega) (by omega)
    have positive : 0 < 2 ^ (8 * size) := Nat.two_pow_pos _
    rw [Nat.one_shiftLeft, Nat.min_eq_left (by omega),
      UInt64.toNat_ofNat_of_lt' (by simp only [UInt64.size]; omega)]

theorem and_portMask_toNat (value : UInt64) (size : Nat) :
    (value &&& portMask size).toNat = value.toNat % 2 ^ (8 * min size 8) := by
  rw [UInt64.toNat_and, portMask_toNat, Nat.and_two_pow_sub_one_eq_mod]

/-- A hook that ran for an event: which one, what it was handed and what it answered. -/
structure Visit where
  handle : HookHandle
  callback : HookCallback
  args : callback.shape.Args
  reply : callback.shape.Reply

namespace Visit

def hook (visit : Visit) : HookHandle × HookCallback :=
  (visit.handle, visit.callback)

/-- Value that the hook gave for a port; zero if ports are not what it reads. -/
def value : Visit → UInt64
  | ⟨_, ⟨.portIn, _⟩, _, value⟩ => value
  | _ => 0

end Visit

/-- What an event comes to once hooks have run for it and none has settled it. A port reads the
last value given, cut to the width of the access. -/
def Event.unsettled (visits : List Visit) : Event → Except Error DispatchResult
  | memoryUnmapped access address size _ => .error (.unmappedAccess access address size)
  | portIn _ _ size =>
    let last := (visits.getLast?.map Visit.value).getD 0
    .ok (.value (UInt64.ofNat (last.toNat % 2 ^ (8 * min size 8))))
  | _ => .ok .proceed

namespace Machine

variable {W : Type}
  (call : (callback : HookCallback) → callback.shape.Args →
    Attempt (Machine W) callback.shape.Reply)
  (event : Event)

/-- Hooks that ran one after another, each on the machine that the one before it left. Each was
handed the event, and none settled it. -/
inductive Visits : Machine W → List Visit → Machine W → Prop
  | none (machine : Machine W) : Visits machine [] machine
  | next {machine after left : Machine W} {visit : Visit} {rest : List Visit}
      (handed : event.Hands visit.callback.shape visit.args)
      (answers : call visit.callback visit.args machine = .ok visit.reply after)
      (passes : visit.callback.shape.settles visit.reply = false)
      (later : Visits after rest left) : Visits machine (visit :: rest) left

/-- How an event fares with the hooks listed for it. All of them run and none settles it, or those
up to one that settles it, up to one that fails, or up to one that is broken off. -/
inductive Delivery (machine : Machine W) (listed : List (HookHandle × HookCallback)) :
    EStateM.Result Failure (Machine W) DispatchResult → Prop
  | passed {visits : List Visit} {left : Machine W} {result : DispatchResult}
      (split : listed = visits.map Visit.hook) (ran : Visits call event machine visits left)
      (comes : event.unsettled visits = .ok result) : Delivery machine listed (.ok result left)
  | refused {visits : List Visit} {left : Machine W} {cause : Error}
      (split : listed = visits.map Visit.hook) (ran : Visits call event machine visits left)
      (comes : event.unsettled visits = .error cause) :
      Delivery machine listed (.error (.error cause) left)
  | settled {visits : List Visit} {left after : Machine W} {handle : HookHandle} {cell : Nat}
      {rest : List (HookHandle × HookCallback)} {access : MemoryAccess}
      (split : listed = visits.map Visit.hook ++ (handle, ⟨.memoryFault, cell⟩) :: rest)
      (ran : Visits call event machine visits left)
      (raised : event = .memoryUnmapped access.kind access.address access.size access.value)
      (answers : call ⟨.memoryFault, cell⟩ access left = .ok true after) :
      Delivery machine listed (.ok .resolved after)
  | failed {visits : List Visit} {left after : Machine W} {handle : HookHandle}
      {callback : HookCallback} {rest : List (HookHandle × HookCallback)}
      {args : callback.shape.Args} {cause : Error}
      (split : listed = visits.map Visit.hook ++ (handle, callback) :: rest)
      (ran : Visits call event machine visits left)
      (handed : event.Hands callback.shape args)
      (fails : call callback args left = .error (.error cause) after) :
      Delivery machine listed (.error (.error (.hook handle cause)) after)
  | brokenOff {visits : List Visit} {left after : Machine W} {handle : HookHandle}
      {callback : HookCallback} {rest : List (HookHandle × HookCallback)}
      {args : callback.shape.Args} {cause : Abort}
      (split : listed = visits.map Visit.hook ++ (handle, callback) :: rest)
      (ran : Visits call event machine visits left)
      (handed : event.Hands callback.shape args)
      (breaks : call callback args left = .error (.abort cause) after) :
      Delivery machine listed (.error (.abort cause) after)

variable {call event}

/-- A hook that the event cannot be handed to is passed over. -/
theorem deliver_skip {handle : HookHandle} {callback : HookCallback}
    (handed : event.args? callback.shape = none) (rest : List (HookHandle × HookCallback))
    (result : DispatchResult) :
    deliver call event ((handle, callback) :: rest) result = deliver call event rest result := by
  rw [deliver, handed]

theorem deliver_cons {handle : HookHandle} {callback : HookCallback} {args : callback.shape.Args}
    (handed : event.args? callback.shape = some args) (rest : List (HookHandle × HookCallback))
    (result : DispatchResult) (machine : Machine W) :
    deliver call event ((handle, callback) :: rest) result machine =
      match call callback args machine with
      | .ok reply after =>
        if callback.shape.settles reply then .ok .resolved after
        else deliver call event rest (event.resultAfter callback.shape reply result) after
      | .error (.error cause) after => .error (.error (.hook handle cause)) after
      | .error (.abort cause) after => .error (.abort cause) after := by
  rw [deliver, handed]
  simp only [bind_apply, lift_apply, outcome_apply]
  cases call callback args machine with
  | ok reply after =>
    dsimp only
    split <;> rfl
  | error failure after => cases failure <;> rfl

/-- Result so far after hooks have run. -/
def resultAfterVisits (event : Event) (visits : List Visit) (result : DispatchResult) :
    DispatchResult :=
  visits.foldl
    (fun result visit => event.resultAfter visit.callback.shape visit.reply result) result

/-- Delivery goes on behind the hooks that have run. -/
theorem Visits.deliver_append {machine left : Machine W} {visits : List Visit}
    (ran : Visits call event machine visits left) (rest : List (HookHandle × HookCallback))
    (result : DispatchResult) :
    deliver call event (visits.map Visit.hook ++ rest) result machine =
      deliver call event rest (resultAfterVisits event visits result) left := by
  induction ran generalizing result with
  | none machine => rfl
  | next handed answers passes later ih =>
    rw [List.map_cons, List.cons_append, Visit.hook, deliver_cons handed.args?_eq, answers]
    simp only [passes, Bool.false_eq_true, if_false]
    exact ih _

theorem Visits.handed {machine left : Machine W} {visits : List Visit}
    (ran : Visits call event machine visits left) :
    ∀ visit ∈ visits, event.Hands visit.callback.shape visit.args := by
  induction ran with
  | none machine => simp
  | next handed answers passes later ih =>
    intro visit member
    rcases List.mem_cons.mp member with rfl | member
    · exact handed
    · exact ih visit member

/-- Only a port keeps something of the answers, and that is the last of them. -/
theorem deliver_nil {visits : List Visit}
    (handed : ∀ visit ∈ visits, event.Hands visit.callback.shape visit.args)
    (left : Machine W) :
    deliver call event [] (resultAfterVisits event visits event.initialResult) left =
      match event.unsettled visits with
      | .ok result => .ok result left
      | .error cause => .error (.error cause) left := by
  have other (plain : ∀ shape reply result, event.resultAfter shape reply result = result) :
      resultAfterVisits event visits event.initialResult = event.initialResult := by
    exact List.foldl_fixed' (fun visit => plain _ _ _) visits
  cases event with
  | memoryUnmapped => rfl
  | portIn address port size =>
    rcases List.eq_nil_or_concat visits with rfl | ⟨earlier, last, rfl⟩
    · rfl
    · have fits := handed last (by simp)
      obtain ⟨handle, ⟨shape, cell⟩, args, reply⟩ := last
      cases fits
      have cut : reply &&& portMask size = UInt64.ofNat (reply.toNat % 2 ^ (8 * min size 8)) := by
        rw [← and_portMask_toNat, UInt64.ofNat_toNat]
      simp [deliver, resultAfterVisits, Event.resultAfter, Event.unsettled, Visit.value, cut]
  | _ =>
    rw [other fun shape reply result => rfl]
    rfl

/-- The hooks of a list that run and pass the event on are its first ones, up to one that does
not, if there is such a one. -/
theorem exists_visits (machine : Machine W) (listed : List (HookHandle × HookCallback))
    (served : ∀ hook ∈ listed, ∃ args, event.Hands hook.2.shape args) :
    ∃ visits rest left, listed = visits.map Visit.hook ++ rest ∧
      Visits call event machine visits left ∧
      (rest = [] ∨ ∃ handle callback args later, rest = (handle, callback) :: later ∧
        event.Hands callback.shape args ∧
        ∀ reply after, call callback args left = .ok reply after →
          callback.shape.settles reply = true) := by
  induction listed generalizing machine with
  | nil => exact ⟨[], [], machine, rfl, .none machine, .inl rfl⟩
  | cons hook rest ih =>
    obtain ⟨handle, callback⟩ := hook
    obtain ⟨args, handed⟩ := served (handle, callback) (by simp)
    by_cases passes : ∃ reply after, call callback args machine = .ok reply after ∧
        callback.shape.settles reply = false
    · obtain ⟨reply, after, answers, passes⟩ := passes
      obtain ⟨visits, later, left, split, ran, stops⟩ :=
        ih after fun hook member => served hook (by simp [member])
      refine ⟨⟨handle, callback, args, reply⟩ :: visits, later, left, ?_, ?_, stops⟩
      · rw [split]
        rfl
      · exact .next handed answers passes ran
    · refine ⟨[], _, machine, rfl, .none machine,
        .inr ⟨handle, callback, args, rest, rfl, handed, ?_⟩⟩
      intro reply after answers
      by_contra other
      exact passes ⟨reply, after, answers, by simpa using other⟩

theorem delivery_deliver (machine : Machine W) (listed : List (HookHandle × HookCallback))
    (served : ∀ hook ∈ listed, ∃ args, event.Hands hook.2.shape args) :
    Delivery call event machine listed
      (deliver call event listed event.initialResult machine) := by
  obtain ⟨visits, rest, left, rfl, ran, stops⟩ := exists_visits machine listed served
  rw [ran.deliver_append]
  rcases stops with rfl | ⟨handle, callback, args, later, rfl, handed, stops⟩
  · rw [deliver_nil ran.handed]
    cases comes : event.unsettled visits with
    | ok result => exact .passed (List.append_nil _) ran comes
    | error cause => exact .refused (List.append_nil _) ran comes
  · rw [deliver_cons handed.args?_eq]
    cases answer : call callback args left with
    | ok reply after =>
      have settles := stops reply after answer
      simp only [settles, if_true]
      obtain ⟨shape, cell⟩ := callback
      cases shape <;> try contradiction
      have resolved : reply = true := settles
      exact .settled rfl ran handed.eq_memoryUnmapped (resolved ▸ answer)
    | error failure after =>
      cases failure with
      | error cause => exact .failed rfl ran handed answer
      | abort cause => exact .brokenOff rfl ran handed answer

/-- Nothing but what a delivery may come to is what it comes to. -/
theorem Delivery.deliver_eq {machine : Machine W} {listed : List (HookHandle × HookCallback)}
    {result : EStateM.Result Failure (Machine W) DispatchResult}
    (delivery : Delivery call event machine listed result) :
    deliver call event listed event.initialResult machine = result := by
  cases delivery with
  | passed split ran comes =>
    rw [split, ← List.append_nil (List.map _ _), ran.deliver_append, deliver_nil ran.handed, comes]
  | refused split ran comes =>
    rw [split, ← List.append_nil (List.map _ _), ran.deliver_append, deliver_nil ran.handed, comes]
  | settled split ran raised answers =>
    subst raised
    rw [split, ran.deliver_append, deliver_cons rfl, answers]
    rfl
  | failed split ran handed fails =>
    rw [split, ran.deliver_append, deliver_cons handed.args?_eq, fails]
  | brokenOff split ran handed breaks =>
    rw [split, ran.deliver_append, deliver_cons handed.args?_eq, breaks]

/-- A dispatch goes to the hooks that the event is for, as the table lists them when it begins, in
their order of registration and so each at most once. It comes to exactly what their delivery
does. -/
theorem dispatch_eq_iff_delivery (host : Host W) (depth : Nat) (event : Event)
    (machine : Machine W) (formed : machine.hooks.WellFormed) :
    let hearing := machine.hooks.hooks.filter fun hook => decide (hook.Hears event)
    (hearing.Pairwise fun a b => a.handle.number < b.handle.number) ∧
    ∀ result, dispatch host (depth + 1) event machine = result ↔
      Delivery (invoke host (perform host (dispatch host depth))) event machine
        (hearing.map fun hook => (hook.handle, hook.callback)) result := by
  intro hearing
  have looked : machine.hooks.lookup event.kind event.key event.insn =
      hearing.map fun hook => (hook.handle, hook.callback) :=
    machine.hooks.lookup_eq_hearing event
  refine ⟨formed.ascending.sublist List.filter_sublist, fun result => ⟨?_, fun delivery => ?_⟩⟩
  · rintro rfl
    rw [← looked]
    exact delivery_deliver machine _ fun hook => formed.exists_hands
  · rw [← looked] at delivery
    exact delivery.deliver_eq

/-- Both of two hooks for a block are handed it, though each takes the other away and requests a
stop. A missed write is handed to a hook that declines and to one that resolves it, not to the one
behind. Of two hooks for a port, each handed the port, the second gives the value, cut to the byte
that is read. The first of two hooks for an interrupt is handed its number and fails. -/
theorem deliveries_noted :
    let hooks : HookTable := ⟨[
      ⟨⟨1⟩, .memoryWriteUnmapped, .all, none, ⟨.memoryFault, 0⟩⟩,
      ⟨⟨2⟩, .memoryReadUnmapped, .all, none, ⟨.memoryFault, 1⟩⟩,
      ⟨⟨3⟩, .memoryWriteUnmapped, ⟨0x5000, 0x5FFF⟩, none, ⟨.memoryFault, 1⟩⟩,
      ⟨⟨4⟩, .memoryWriteUnmapped, .all, none, ⟨.memoryFault, 2⟩⟩,
      ⟨⟨5⟩, .portIn, .all, none, ⟨.portIn, 0x1234⟩⟩,
      ⟨⟨6⟩, .portIn, .all, none, ⟨.portIn, 0x5678⟩⟩,
      ⟨⟨7⟩, .interrupt, .all, none, ⟨.interrupt, 9⟩⟩,
      ⟨⟨8⟩, .interrupt, .all, none, ⟨.interrupt, 8⟩⟩,
      ⟨⟨9⟩, .blockEnter, .single 0x1000, none, ⟨.code, 10⟩⟩,
      ⟨⟨10⟩, .blockEnter, .all, none, ⟨.code, 9⟩⟩], 11⟩
    let machine := fresh [] MemoryMap.empty hooks
    let call := invoke Host.noting (perform Host.noting (dispatch Host.noting 0))
    let block : CodeEntry := ⟨0x1000, 4⟩
    let missed : MemoryAccess := ⟨.write, 0x5004, 4, 0xBEEF⟩
    let port : PortRead := ⟨0x60, 1⟩
    hooks.WellFormed ∧
      Delivery call (.blockEnter 0x1000 4) machine
        [(⟨9⟩, ⟨.code, 10⟩), (⟨10⟩, ⟨.code, 9⟩)]
        (.ok .proceed { machine with
          hooks := ⟨hooks.hooks.take 8, 11⟩
          stops := ⟨[true]⟩
          world := [⟨⟨.code, 10⟩, block⟩, ⟨⟨.code, 9⟩, block⟩] }) ∧
      Delivery call (.memoryUnmapped .write 0x5004 4 0xBEEF) machine
        [(⟨1⟩, ⟨.memoryFault, 0⟩), (⟨3⟩, ⟨.memoryFault, 1⟩), (⟨4⟩, ⟨.memoryFault, 2⟩)]
        (.ok .resolved { machine with
          world := [⟨⟨.memoryFault, 0⟩, missed⟩, ⟨⟨.memoryFault, 1⟩, missed⟩] }) ∧
      Delivery call (.portIn 0x1000 0x60 1) machine
        [(⟨5⟩, ⟨.portIn, 0x1234⟩), (⟨6⟩, ⟨.portIn, 0x5678⟩)]
        (.ok (.value 0x78) { machine with
          world := [⟨⟨.portIn, 0x1234⟩, port⟩, ⟨⟨.portIn, 0x5678⟩, port⟩] }) ∧
      Delivery call (.interrupt 0x1000 0x80) machine
        [(⟨7⟩, ⟨.interrupt, 9⟩), (⟨8⟩, ⟨.interrupt, 8⟩)]
        (.error (.error (.hook ⟨7⟩ (.unknownRegister ⟨9⟩))) { machine with
          world := [⟨⟨.interrupt, 9⟩, (0x80 : Nat)⟩] }) := by
  intro hooks machine call block missed port
  have formed : hooks.WellFormed := ⟨by decide, by decide, by decide, by decide⟩
  have comes (event : Event) := (dispatch_eq_iff_delivery Host.noting 0 event machine formed).2
  exact ⟨formed, (comes _ _).mp rfl, (comes _ _).mp rfl, (comes _ _).mp rfl, (comes _ _).mp rfl⟩

end Machine

end GuestMachine
