import GuestMachine.Engine.Tiny
import GuestMachine.Proofs.Hook.History
import GuestMachine.Proofs.Memory.Identity
import GuestMachine.Proofs.Register.History
import GuestMachine.Proofs.Session.Reachable
import GuestMachine.Proofs.Session.Run

/-!
Histories of sessions. The machine that a history of host calls leads to is what all the deeds
in it make of the new machine, and each point of the history, be it between two calls or amid a
run, is behind some of these deeds. So what holds of every history of memory, of hooks or of
registers holds there.
-/

namespace GuestMachine.Session

variable {W E : Type}

/-- The session behind a history, whether its calls succeed, fail or are broken off. -/
def after (host : Host W) (engine : Engine W E) (session : Session W E)
    (calls : List (HostCall W)) : Session W E :=
  calls.foldl (fun session call => finalState (perform host engine call session)) session

/-- Everything that is done to the machine in a history, by anyone. -/
def deeds (host : Host W) (engine : Engine W E) :
    Session W E → List (HostCall W) → List (Deed W)
  | _, [] => []
  | session, call :: rest =>
    (perform.account host engine call).deeds session ++
      deeds host engine (finalState (perform host engine call session)) rest

variable {host : Host W} {engine : Engine W E} {session : Session W E}

@[simp] theorem after_nil : session.after host engine [] = session := rfl

theorem after_append (earlier later : List (HostCall W)) :
    session.after host engine (earlier ++ later) =
      (session.after host engine earlier).after host engine later :=
  List.foldl_append

theorem after_concat (earlier : List (HostCall W)) (call : HostCall W) :
    session.after host engine (earlier ++ [call]) =
      finalState (perform host engine call (session.after host engine earlier)) :=
  after_append earlier [call]

theorem reachable_after (reached : Reachable host engine session) (calls : List (HostCall W)) :
    Reachable host engine (session.after host engine calls) := by
  induction calls using List.reverseRecOn with
  | nil => exact reached
  | append_singleton earlier call ih =>
    rw [after_concat]
    exact ih.asked call

/-- The machine is what the deeds of the history have made of it. -/
theorem machine_after (host : Host W) (engine : Engine W E) (session : Session W E)
    (calls : List (HostCall W)) :
    (session.after host engine calls).machine =
      session.machine.replay (session.deeds host engine calls) := by
  induction calls generalizing session with
  | nil => rfl
  | cons call rest ih =>
    calc (session.after host engine (call :: rest)).machine
        = (finalState (perform host engine call session)).machine.replay
            (deeds host engine (finalState (perform host engine call session)) rest) := ih _
      _ = session.machine.replay (session.deeds host engine (call :: rest)) := by
        rw [(perform.account host engine call).replays session, deeds, Machine.replay_append]

variable {initial : E} {world : W} {arch : Arch} {mode : Mode}

/-- At every point of every history, the table of regions is laid out in order and without
overlaps, and its regions are numbered by the calls that mapped them. -/
theorem region_table_law (host : Host W)
    (opened : create engine initial world arch mode = .ok session) (calls : List (HostCall W)) :
    let deeds := session.deeds host engine calls
    (session.after host engine calls).machine = session.machine.replay deeds ∧
    ∀ past, past <+: deeds →
      let table := (session.machine.replay past).memory
      let history := Deed.memoryCalls past
      table = MemoryMap.empty.replay history ∧ table.Laid ∧ MemoryMap.Numbered history := by
  intro deeds
  refine ⟨machine_after host engine session calls, fun past _ => ?_⟩
  intro table history
  obtain ⟨registers, -, rfl⟩ := create_eq_ok opened
  have same : table = MemoryMap.empty.replay history := Machine.memory_replay _ past
  refine ⟨same, ?_, MemoryMap.numbered history⟩
  rw [same]
  exact (MemoryMap.wellFormed_empty.replay history).laid

/-- A region that takes the place of another one gets a number of its own. -/
theorem region_table_law_of_two_maps :
    ∃ session : Session Unit Unit, create .idle () () .riscv .empty = .ok session ∧
      let calls : List (HostCall Unit) := [.mapMemory 0x1000 1 .all,
        .unmapMemory 0x1000 1, .mapMemory 0x1000 2 .all]
      let table := (session.after Host.obliging .idle calls).machine.memory
      table.Laid ∧ table.infos.map (fun info => info.id.number) = [1] := by
  have opened : create .idle () () .riscv .empty = .ok (_ : Session Unit Unit) := rfl
  refine ⟨_, opened, ?_⟩
  intro calls table
  obtain ⟨same, points⟩ := region_table_law Host.obliging opened calls
  obtain ⟨-, laid, -⟩ := points _ (List.prefix_refl _)
  rw [← same] at laid
  exact ⟨laid, rfl⟩

/-- Every table of hooks follows from its history, and at every point of every history of a session
its table of hooks is what the calls of the host, of callbacks and of the engine have made of an
empty one. -/
theorem hook_table_law (host : Host W)
    (opened : create engine initial world arch mode = .ok session) (calls : List (HostCall W)) :
    let deeds := session.deeds host engine calls
    (session.after host engine calls).machine = session.machine.replay deeds ∧
    (∀ past, past <+: deeds →
      (session.machine.replay past).hooks = HookTable.empty.replay (Deed.hookCalls past)) ∧
    ∀ history : List HookCall, (HookTable.empty.replay history).FollowsHistory history := by
  intro deeds
  refine ⟨machine_after host engine session calls, fun past _ => ?_, HookTable.followsHistory⟩
  obtain ⟨registers, -, rfl⟩ := create_eq_ok opened
  exact Machine.hooks_replay _ past

/-- A hook that takes the place of another one gets a handle of its own. -/
theorem hook_table_law_of_two_hooks :
    ∃ session : Session Unit Unit, create .idle () () .riscv .empty = .ok session ∧
      let calls : List (HostCall Unit) := [.addHook .blockEnter .all ⟨.code, 0⟩,
        .removeHook ⟨1⟩, .addHook .blockEnter .all ⟨.code, 0⟩]
      let table := (session.after Host.obliging .idle calls).machine.hooks
      table.hooks.map (fun hook => hook.handle.number) = [2] ∧
        table.unregister ⟨1⟩ = .error (.unknownHandle ⟨1⟩) := by
  have opened : create .idle () () .riscv .empty = .ok (_ : Session Unit Unit) := rfl
  refine ⟨_, opened, ?_⟩
  intro calls table
  obtain ⟨same, points, follows⟩ := hook_table_law Host.obliging opened calls
  have history := points _ (List.prefix_refl _)
  rw [← same] at history
  have gone := (follows _).gone [.register .blockEnter .all none ⟨.code, 0⟩] (.unregister ⟨1⟩)
    [.register .blockEnter .all none ⟨.code, 0⟩] rfl ⟨1⟩ (by decide) (by decide)
  refine ⟨rfl, ?_⟩
  rw [← gone.2.1]
  exact congrArg (HookTable.unregister · ⟨1⟩) history

/-- Every bank of registers follows from its history, and at every point of every history of a
session its bank is what the calls of the host, the starts of runs, callbacks and the engine have
made of the bank of its layout. -/
theorem register_bank_law (host : Host W)
    (opened : create engine initial world arch mode = .ok session) (calls : List (HostCall W)) :
    let deeds := session.deeds host engine calls
    let fresh := session.machine.registers
    RegisterBank.ofLayout (engine.layout arch mode) = .ok fresh ∧
    (session.after host engine calls).machine = session.machine.replay deeds ∧
    (∀ past, past <+: deeds →
      (session.machine.replay past).registers = fresh.replay (Deed.registerCalls past)) ∧
    ∀ layout bank, RegisterBank.ofLayout layout = .ok bank →
      ∀ history : List RegisterCall, (bank.replay history).FollowsHistory layout history := by
  intro deeds fresh
  refine ⟨?_, machine_after host engine session calls, fun past _ => ?_, fun layout bank made =>
    RegisterBank.followsHistory made⟩
  · obtain ⟨registers, declared, rfl⟩ := create_eq_ok opened
    exact declared
  · exact Machine.registers_replay session.machine past

/-- A wide value is cut to its register, and of two values restored for a register the last one
stays. -/
theorem register_bank_law_of_wide_value :
    ∃ session : Session Unit Tiny.State,
      create Tiny.engine ⟨false, 0⟩ () .x86 .bits32 = .ok session ∧
      let calls : List (HostCall Unit) := [.writeRegister Tiny.eax 0x100000005,
        .restoreContext ⟨.x86, .bits32, [(Tiny.ecx, 1), (Tiny.ecx, 2)]⟩]
      let bank := (session.after Host.obliging Tiny.engine calls).machine.registers
      bank.read Tiny.eax = .ok 5 ∧ bank.read Tiny.ecx = .ok 2 := by
  have opened : create Tiny.engine ⟨false, 0⟩ () .x86 .bits32 =
    .ok (_ : Session Unit Tiny.State) := rfl
  refine ⟨_, opened, ?_⟩
  intro calls bank
  obtain ⟨made, same, points, follows⟩ := register_bank_law Host.obliging opened calls
  have history := points _ (List.prefix_refl _)
  rw [← same] at history
  have law := follows _ _ made [.write Tiny.eax 0x100000005,
    .restore [(Tiny.ecx, 1), (Tiny.ecx, 2)]]
  obtain ⟨wide, eax, cut⟩ := law.reads ⟨Tiny.eax, "eax", 32⟩ (by decide)
  obtain ⟨last, ecx, kept⟩ := law.reads ⟨Tiny.ecx, "ecx", 32⟩ (by decide)
  obtain rfl : wide = 5 := UInt64.toNat.inj (cut.trans (by decide))
  obtain rfl : last = 2 := UInt64.toNat.inj (kept.trans (by decide))
  exact ⟨(congrArg (RegisterBank.read · Tiny.eax) history).trans eax,
    (congrArg (RegisterBank.read · Tiny.ecx) history).trans ecx⟩

end GuestMachine.Session
