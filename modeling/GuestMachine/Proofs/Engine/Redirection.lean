import GuestMachine.Proofs.Engine.Program
import GuestMachine.Proofs.Session.Admission
import GuestMachine.Proofs.Session.Context

/-!
What becomes of a program counter that callbacks of the tiny engine write in the course of a step.
The engine looks at it once, when the instruction has been announced. A callback that has moved it
by then ends the step, and execution goes on where it points. What is written later on, by a
callback for an operand, for data, for a port or for an interrupt, is lost: the engine writes the
program counter itself at the end of the step.
-/

namespace GuestMachine

/-! The program counter of a bank. -/

namespace RegisterBank

variable {bank : RegisterBank}

/-- The program counter reads what was stored in it last. -/
theorem WellFormed.read_pc_storeEach (formed : bank.WellFormed)
    {entries : List (RegId × UInt64)} {value : UInt64}
    (last : lastFor bank.pc entries = some value) :
    ∃ held, (bank.storeEach entries).read bank.pc = .ok held ∧
      held.toNat = value.toNat % 2 ^ bank.pcBits := by
  obtain ⟨slot, found⟩ := Option.isSome_iff_exists.mp formed.hasPc
  have mask : bank.pcMask = slot.spec.mask := by
    rw [pcMask, spec?, found]
    rfl
  have reads := read_storeEach_of_lastFor found last
  rw [← mask] at reads
  exact ⟨_, reads, formed.and_pcMask_toNat value⟩

end RegisterBank

namespace Tiny

open EngineProgram Flight

variable {W : Type} {host : Host W}

/-! The two parts of a step. -/

/-- Fetches the opcode and announces the instruction, and the block if one begins here. -/
def announce (pc : UInt64) : EngineProgram W State Instruction := do
  let code ← fetch pc 1
  let opcode := byteAt code 0
  match Instruction.ofOpcode? opcode with
  | none => throw (.invalidInstruction pc)
  | some instruction =>
    if (← get).blockPending then
      modify fun state => { state with blockPending := false }
      enterBlock pc 0
    enterInstruction pc instruction.size (some ⟨opcode.toNat⟩)
    return instruction

/-- Executes an announced instruction, unless the program counter has been moved. -/
def proceed (pc : UInt64) (instruction : Instruction) : EngineProgram W State StepOutcome := do
  let current ← EngineProgram.pc
  if current ≠ pc then
    modify fun state => { state with blockPending := true }
    return .retired
  let operands ← fetch (pc + 1) (instruction.size - 1)
  let (next, outcome) ← execute operands (pc + UInt64.ofNat instruction.size) instruction
  setPc next
  modify fun state => { state with executed := state.executed + 1 }
  return outcome

theorem step_eq : (step : EngineProgram W State StepOutcome) =
    EngineProgram.pc >>= fun pc => announce pc >>= proceed pc := by
  simp only [step, announce, bind_assoc]
  congr
  funext pc
  congr
  funext code
  cases Instruction.ofOpcode? (byteAt code 0) with
  | none => rfl
  | some instruction =>
    simp only [bind_assoc]
    congr
    funext state
    split <;> simp only [bind_assoc, pure_bind] <;> rfl

/-- Where an instruction can lead, given the address behind it. -/
def Instruction.LeadsTo (next target : UInt64) : Instruction → Prop
  | .jmp => ∃ byte, target = next + displacement byte
  | _ => target = next

theorem yields_execute (operands : ByteArray) (next : UInt64) (instruction : Instruction) :
    Yields (execute operands next instruction : EngineProgram W State _)
      fun result => instruction.LeadsTo next result.1 := by
  cases instruction with
  | nop | hlt => exact .pure rfl
  | jmp => exact .bind fun _ => .pure ⟨_, rfl⟩
  | int => exact .bind fun _ => .pure rfl
  | incEcx | decEdx | input | output | storeEcx | loadEcx =>
    exact .bind fun _ => .bind fun _ => .pure rfl

/-- An announced instruction that retires leaves everything alone if the program counter has been
moved. Otherwise the program counter is written last. -/
theorem proceed_cases {pc current : UInt64} {instruction : Instruction}
    {outcome : StepOutcome} {flight next : Flight W State}
    (returns : Returns host (proceed pc instruction) flight (.ok outcome) next)
    (reads : flight.cpu.machine.registers.read flight.cpu.machine.registers.pc = .ok current) :
    (current ≠ pc → next.cpu = flight.cpu) ∧
    (current = pc → ∃ target entries,
      instruction.LeadsTo (pc + UInt64.ofNat instruction.size) target ∧
      next.cpu.machine.registers = flight.cpu.machine.registers.storeEach
        (entries ++ [(flight.cpu.machine.registers.pc, target)])) := by
  obtain ⟨found, here, looked, rest⟩ := returns.of_bind
  obtain ⟨rfl, same⟩ := looked.of_pc
  obtain rfl := Except.ok.inj (same.symm.trans reads)
  constructor
  · intro moved
    rw [if_pos moved] at rest
    obtain ⟨_, marked, modified, ended⟩ := rest.of_bind
    obtain ⟨-, rfl⟩ := returns_pure.mp ended
    exact modified.of_modify
  · rintro rfl
    rw [if_neg (not_not_intro rfl)] at rest
    obtain ⟨operands, fetched, took, rest⟩ := rest.of_bind
    obtain ⟨result, executed, carried, rest⟩ := rest.of_bind
    obtain ⟨_, written, wrote, rest⟩ := rest.of_bind
    obtain ⟨_, counted, modified, rest⟩ := rest.of_bind
    obtain ⟨-, rfl⟩ := returns_pure.mp rest
    have stored := wrote.of_setPc
    rw [carried.registers_eq, took.registers_eq, ← RegisterBank.storeEach_append,
      RegisterBank.pc_storeEach, ← modified.of_modify] at stored
    exact ⟨result.1, _, yields_execute _ _ _ host fetched executed result carried,
      stored.trans (RegisterBank.storeEach_concat _ _ (_, result.1)).symm⟩

/-! The law. -/

/-- The registers of a guest of the engine, at every boundary of a run. -/
theorem registers_of_boundary {session : Session W State} {request : RunRequest} {k : Nat}
    {flight : Flight W State} (reached : Session.Reachable host engine session)
    (boundary : Boundary host engine (session.takeoff request) k flight) :
    flight.cpu.machine.registers.WellFormed ∧ flight.cpu.machine.registers.pc = eip ∧
      flight.cpu.machine.registers.pcBits = 32 := by
  obtain ⟨fresh, declared, same⟩ := reached.exists_ofLayout
  have layout : flight.cpu.machine.registers.layout = fresh.layout :=
    (boundary.evolves.layout.trans (RegisterBank.layout_store ..)).trans same
  have made : RegisterBank.ofLayout Tiny.layout = .ok fresh := declared
  obtain rfl := Except.ok.inj made
  refine ⟨boundary.registers (reached.wellFormed.registers.store _ request.start),
    congrArg Prod.fst layout, ?_⟩
  rw [RegisterBank.pcBits_eq_of_layout_eq layout]
  rfl

/-- Whether the program counter reads an address. -/
def PcReads (flight : Flight W State) (address : Nat) : Prop :=
  ∃ pc, flight.cpu.machine.registers.read eip = .ok pc ∧ pc.toNat = address

/-- Where a step that retires leaves the program counter, given where it was and the instruction
announced there. -/
structure Moves (host : Host W) (pc : UInt64) (instruction : Instruction)
    (flight next : Flight W State) : Prop where
  /-- Where callbacks have moved the program counter by the time the instruction is announced,
  execution goes on there, and nothing else is done in the step. -/
  redirected : ∀ p, lastFor eip (Deed.written (deedsOf host (announce pc) flight)) = some p →
    p.toNat % 2 ^ 32 ≠ pc.toNat →
      PcReads next (p.toNat % 2 ^ 32) ∧
        next.cpu.machine = flight.cpu.machine.replay (deedsOf host (announce pc) flight)
  /-- Otherwise the instruction decides, whatever callbacks write after that. -/
  overwritten : (∀ p, lastFor eip (Deed.written (deedsOf host (announce pc) flight)) = some p →
    p.toNat % 2 ^ 32 = pc.toNat) →
      ∃ target, instruction.LeadsTo (pc + UInt64.ofNat instruction.size) target ∧
        PcReads next (target.toNat % 2 ^ 32)

/-- In every run of the engine, whatever the hooks, a step that retires goes on where the callbacks
called until its instruction was announced have left the program counter, if they have moved it;
otherwise it goes on where the instruction leads, and what later callbacks write there is lost. -/
theorem redirection_law {session : Session W State} {request : RunRequest} {k : Nat}
    {flight next : Flight W State} (reached : Session.Reachable host engine session)
    (boundary : Boundary host engine (session.takeoff request) k flight)
    (returns : Returns host step flight (.ok .retired) next) :
    ∃ pc instruction announced, flight.cpu.machine.registers.read eip = .ok pc ∧
      Returns host (announce pc) flight (.ok instruction) announced ∧
      Moves host pc instruction flight next := by
  obtain ⟨formed, pcId, bits⟩ := registers_of_boundary reached boundary
  rw [step_eq] at returns
  obtain ⟨pc, _, looked, rest⟩ := returns.of_bind
  obtain ⟨rfl, reads⟩ := looked.of_pc
  obtain ⟨instruction, announced, said, rest⟩ := rest.of_bind
  rw [pcId] at reads
  have left := said.registers_eq
  have pcLeft : announced.cpu.machine.registers.pc = eip := by
    rw [left, RegisterBank.pc_storeEach, pcId]
  have stored {entries : List (RegId × UInt64)} {value : UInt64}
      (last : lastFor eip entries = some value) : ∃ held,
        (flight.cpu.machine.registers.storeEach entries).read eip = .ok held ∧
          held.toNat = value.toNat % 2 ^ 32 := by
    rw [← bits, ← pcId]
    exact formed.read_pc_storeEach (pcId ▸ last)
  refine ⟨pc, instruction, announced, reads, said, fun p last moved => ?_, fun unmoved => ?_⟩
  · obtain ⟨held, readsNow, cut⟩ := stored last
    rw [← left] at readsNow
    have elsewhere : held ≠ pc := by
      rintro rfl
      exact moved cut.symm
    have same := (proceed_cases rest (pcLeft ▸ readsNow)).1 elsewhere
    rw [PcReads, same]
    exact ⟨⟨held, readsNow, cut⟩, said.machine_eq⟩
  · have readsNow : announced.cpu.machine.registers.read eip = .ok pc := by
      cases last : lastFor eip (Deed.written (deedsOf host (announce pc) flight)) with
      | none => rwa [left, RegisterBank.read_storeEach_of_none last]
      | some p =>
        obtain ⟨held, readsNow, cut⟩ := stored last
        obtain rfl : held = pc := UInt64.toNat_inj.mp (cut.trans (unmoved p last))
        rwa [left]
    obtain ⟨target, entries, leads, written⟩ := (proceed_cases rest (pcLeft ▸ readsNow)).2 rfl
    rw [left, RegisterBank.pc_storeEach, pcId, ← RegisterBank.storeEach_append] at written
    refine ⟨target, leads, ?_⟩
    rw [PcReads, written]
    exact stored (by rw [← List.append_assoc, lastFor_concat, if_pos rfl])

/-- A host whose callbacks move the program counter to the address they carry. -/
def diverting : Host Unit where
  respond
    | ⟨.memoryFault, cell⟩, _ =>
      .ask (.writeRegister eip (UInt64.ofNat cell)) fun _ => .done (.ok false)
    | ⟨.portIn, cell⟩, _ => .ask (.writeRegister eip (UInt64.ofNat cell)) fun _ => .done (.ok 0)
    | ⟨.code, cell⟩, _ | ⟨.memoryAccess, cell⟩, _ | ⟨.portOut, cell⟩, _ | ⟨.interrupt, cell⟩, _ =>
      .ask (.writeRegister eip (UInt64.ofNat cell)) fun _ => .done (.ok ())
  allocates _ _ := true
  elapsed _ _ _ := 0
  nesting := 8
  patience := 100

def opened : Session Unit State where
  machine :=
    { arch := .x86
      mode := .bits32
      memory := .empty
      registers := ⟨eip, Tiny.layout.registers.map fun spec => ⟨spec, 0⟩⟩
      hooks := .empty
      stops := ⟨[false]⟩
      stopHandle := ⟨0⟩
      running := []
      world := () }
  engine := .initial
  state := .created
  lastStop := none
  lastError := none

/-- A session with two bytes of code and one hook. -/
def hooked (code : ByteArray) (kind : EventKind) (callback : HookCallback) : Session Unit State :=
  opened.after diverting engine
    [.mapMemory 0x1000 2 .all, .loadMemory 0x1000 code, .addHook kind .all callback]

theorem reachable_hooked (code : ByteArray) (kind : EventKind) (callback : HookCallback) :
    Session.Reachable diverting engine (hooked code kind callback) := by
  have created : Session.create engine .initial () .x86 .bits32 = .ok opened := rfl
  exact Session.reachable_after (.created created) _

/-- A run of the session that comes to its first instruction. -/
def begun (code : ByteArray) (kind : EventKind) (callback : HookCallback) : Flight Unit State :=
  let start := (hooked code kind callback).takeoff (.unbounded 0x1000)
  { start with engine := { start.engine with blockPending := true } }

theorem boundary_begun (code : ByteArray) (kind : EventKind) (callback : HookCallback) :
    Boundary diverting engine ((hooked code kind callback).takeoff (.unbounded 0x1000)) 0
      (begun code kind callback) :=
  .begun rfl rfl

/-- A hook on blocks moves the program counter to an address that is too wide for it. -/
theorem redirection_law_of_wide_address :
    let code : ByteArray := ⟨#[0x90, 0x90]⟩
    let callback : HookCallback := ⟨.code, 0x700002000⟩
    let session := hooked code .blockEnter callback
    let flight := begun code .blockEnter callback
    Session.Reachable diverting engine session ∧
      Boundary diverting engine (session.takeoff (.unbounded 0x1000)) 0 flight ∧
      ∃ next, Returns diverting step flight (.ok .retired) next ∧ PcReads next 0x2000 := by
  intro code callback session flight
  have reached := reachable_hooked code .blockEnter callback
  have boundary := boundary_begun code .blockEnter callback
  have retires : (returned? diverting step flight).map Prod.fst = some .retired := by
    decide +kernel
  obtain ⟨⟨_, next⟩, found, rfl⟩ := Option.map_eq_some_iff.mp retires
  have returns := returns_of_returned? found
  obtain ⟨pc, instruction, announced, reads, -, moves⟩ := redirection_law reached boundary returns
  have start : flight.cpu.machine.registers.read eip = .ok 0x1000 := by decide +kernel
  obtain rfl := Except.ok.inj (start.symm.trans reads)
  have last : lastFor eip (Deed.written (deedsOf diverting (announce 0x1000) flight)) =
    some 0x700002000 := by decide +kernel
  exact ⟨reached, boundary, next, returns, (moves.redirected _ last (by decide)).1⟩

/-- A hook on interrupts moves the program counter, and the engine moves it on from where it was
all the same. -/
theorem interrupt_does_not_redirect :
    let code : ByteArray := ⟨#[0xCD, 0x80]⟩
    let callback : HookCallback := ⟨.interrupt, 0x2000⟩
    let session := hooked code .interrupt callback
    let flight := begun code .interrupt callback
    Session.Reachable diverting engine session ∧
      Boundary diverting engine (session.takeoff (.unbounded 0x1000)) 0 flight ∧
      Deed.written (deedsOf diverting step flight) = [(eip, 0x2000), (eip, 0x1002)] ∧
      ∃ next, Returns diverting step flight (.ok .retired) next ∧ PcReads next 0x1002 := by
  intro code callback session flight
  have goesOn : (returned? diverting step flight).map (fun (outcome, next) =>
      (outcome, (next.cpu.machine.registers.read eip).toOption)) =
        some (.retired, some 0x1002) := by
    decide +kernel
  obtain ⟨⟨_, next⟩, found, same⟩ := Option.map_eq_some_iff.mp goesOn
  obtain ⟨rfl, reads⟩ := Prod.mk.inj same
  refine ⟨reachable_hooked .., boundary_begun .., by decide +kernel, next,
    returns_of_returned? found, 0x1002, ?_, rfl⟩
  cases read : next.cpu.machine.registers.read eip <;> simp_all [Except.toOption]

end Tiny

end GuestMachine
