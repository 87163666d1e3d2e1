import GuestMachine.Proofs.Machine.Evolution
import GuestMachine.Proofs.Memory.History
import GuestMachine.Proofs.Register.Layout
import GuestMachine.Proofs.Session.Account

/-!
Reachable sessions. The machine of a new session is well formed, and whatever is done to a machine
keeps it so. As every call of the host has an account of what it does, all that a host can come to
is well formed, whatever engine and callbacks do during runs.
-/

namespace GuestMachine

/-- What holds of the old value and of every new one holds of what is kept. -/
theorem holds_getD {α : Type} {P : α → Prop} {result : Except Error α} {old : α} (kept : P old)
    (made : ∀ new, result = .ok new → P new) : P (result.toOption.getD old) := by
  cases result with
  | ok new => exact made new rfl
  | error cause => exact kept

namespace Machine.WellFormed

variable {W : Type} {machine : Machine W}

/-- Every deed keeps the machine well formed, also one that fails. -/
theorem after (formed : machine.WellFormed) (deed : Deed W) :
    (machine.after deed).WellFormed := by
  obtain ⟨memory, registers, hooks, flagged⟩ := formed
  cases deed with
  | memory call => exact ⟨memory.replay [call], registers, hooks, flagged⟩
  | writeRegister id value =>
    exact ⟨memory, holds_getD registers fun _ => registers.write, hooks, flagged⟩
  | restoreRegisters values =>
    exact ⟨memory, holds_getD registers fun _ => registers.restore, hooks, flagged⟩
  | register kind range insn callback =>
    refine ⟨memory, registers, holds_getD hooks fun longer made => ?_, flagged⟩
    obtain ⟨answer, done, rfl⟩ := MemoryMap.map_eq_ok_iff.mp made
    exact hooks.register done
  | unregister handle =>
    exact ⟨memory, registers, holds_getD hooks fun _ => hooks.unregister, flagged⟩
  | clearHooks => exact ⟨memory, registers, hooks.clear, flagged⟩
  | requestStop handle =>
    exact ⟨memory, registers, hooks, by simpa [Machine.after, StopBoard.request] using flagged⟩
  | clearStop =>
    exact ⟨memory, registers, hooks,
      by simpa [Machine.after, clearStop, StopBoard.clear] using flagged⟩
  | setWorld | enter | leave => exact ⟨memory, registers, hooks, flagged⟩

theorem replay (formed : machine.WellFormed) (deeds : List (Deed W)) :
    (machine.replay deeds).WellFormed := by
  induction deeds generalizing machine with
  | nil => exact formed
  | cons deed rest ih => exact ih (formed.after deed)

end Machine.WellFormed

namespace Session

variable {W E : Type} {host : Host W} {engine : Engine W E} {session : Session W E}

/-- The sessions that a host can come to, by operations that succeed, fail or are broken off. -/
inductive Reachable (host : Host W) (engine : Engine W E) : Session W E → Prop
  | created {initial : E} {world : W} {arch : Arch} {mode : Mode} {session : Session W E}
      (done : create engine initial world arch mode = .ok session) :
      Reachable host engine session
  | asked {session : Session W E} (reached : Reachable host engine session) (call : HostCall W) :
      Reachable host engine (finalState (perform host engine call session))

/-- A new session, with a bank of registers that the engine's layout describes. -/
theorem create_eq_ok {initial : E} {world : W} {arch : Arch} {mode : Mode}
    (opened : create engine initial world arch mode = .ok session) :
    ∃ registers, RegisterBank.ofLayout (engine.layout arch mode) = .ok registers ∧
      session = {
        machine := {
          arch := arch, mode := mode, memory := .empty, registers := registers, hooks := .empty
          stops := ⟨[false]⟩, stopHandle := ⟨0⟩, running := [], world := world }
        engine := initial, state := .created, lastStop := none, lastError := none } := by
  unfold create at opened
  cases supported : engine.supports arch mode with
  | false => simp [supported, throw, throwThe, MonadExceptOf.throw, bind, Except.bind] at opened
  | true =>
    cases declared : RegisterBank.ofLayout (engine.layout arch mode) with
    | error cause => simp [supported, declared, bind, Except.bind] at opened
    | ok registers =>
      simp only [supported, declared, bind, Except.bind, pure, Except.pure] at opened
      exact ⟨registers, rfl, (Except.ok.inj opened).symm⟩

theorem wellFormed_create {initial : E} {world : W} {arch : Arch} {mode : Mode}
    (done : create engine initial world arch mode = .ok session) : session.machine.WellFormed := by
  obtain ⟨registers, declared, rfl⟩ := create_eq_ok done
  exact ⟨MemoryMap.wellFormed_empty, RegisterBank.wellFormed_ofLayout declared,
    HookTable.wellFormed_empty, Nat.zero_lt_one⟩

/-- The machine of every session that a host can come to is well formed. -/
theorem Reachable.wellFormed (reached : Reachable host engine session) :
    session.machine.WellFormed := by
  induction reached with
  | created done => exact wellFormed_create done
  | @asked session reached call ih =>
    rw [(perform.account host engine call).replays session]
    exact ih.replay _

end Session

end GuestMachine
