import GuestMachine.Engine.Tiny
import GuestMachine.Proofs.Register.History
import GuestMachine.Proofs.Session.Reachable
import GuestMachine.Proofs.Session.Run

/-!
How runs are let in. The state is looked at first, then whether the bounds fit the program counter,
and at last whether the start is mapped executable. So a run that is let in begins exactly at its
start, and as the program counter never reads more than its width, no other address can be taken
for the end of the run.
-/

namespace GuestMachine

namespace RegisterBank

/-! The width of the program counter. -/

variable {bank other : RegisterBank} {value : UInt64}

def pcBits (bank : RegisterBank) : Nat :=
  ((bank.spec? bank.pc).map RegisterSpec.bits).getD 0

theorem pcBits_eq_of_layout_eq (same : other.layout = bank.layout) :
    other.pcBits = bank.pcBits := by
  have pc : other.pc = bank.pc := congrArg Prod.fst same
  rw [pcBits, pcBits, pc, spec?_eq_of_layout_eq same]

namespace WellFormed

theorem exists_pcSpec (formed : bank.WellFormed) :
    ∃ spec, bank.spec? bank.pc = some spec ∧ 0 < spec.bits ∧ spec.bits ≤ 64 := by
  obtain ⟨slot, found⟩ := Option.isSome_iff_exists.mp formed.hasPc
  exact ⟨slot.spec, by rw [spec?, found]; rfl, formed.widths slot (List.mem_of_find?_eq_some found)⟩

theorem pcBits_bounds (formed : bank.WellFormed) : 0 < bank.pcBits ∧ bank.pcBits ≤ 64 := by
  obtain ⟨spec, found, widths⟩ := formed.exists_pcSpec
  simpa [pcBits, found] using widths

theorem and_pcMask_toNat (formed : bank.WellFormed) (value : UInt64) :
    (value &&& bank.pcMask).toNat = value.toNat % 2 ^ bank.pcBits := by
  obtain ⟨spec, found, -, narrow⟩ := formed.exists_pcSpec
  simp only [pcMask, pcBits, found, Option.map_some, Option.getD_some]
  exact RegisterSpec.and_mask_toNat narrow value

/-- A value is not changed by the mask of the program counter exactly if it fits. -/
theorem and_pcMask_eq_self_iff (formed : bank.WellFormed) :
    value &&& bank.pcMask = value ↔ value.toNat < 2 ^ bank.pcBits := by
  rw [← UInt64.toNat_inj, formed.and_pcMask_toNat]
  exact Nat.mod_eq_iff_lt (Nat.ne_of_gt (Nat.two_pow_pos _))

/-- A value has no bit outside the program counter exactly if it fits. -/
theorem and_not_pcMask_eq_zero_iff (formed : bank.WellFormed) :
    value &&& ~~~bank.pcMask = 0 ↔ value.toNat < 2 ^ bank.pcBits := by
  rw [← formed.and_pcMask_eq_self_iff]
  constructor
  · exact and_eq_self_of_and_not_eq_zero
  · intro inside
    rw [← inside, UInt64.and_assoc, UInt64.and_not_self, UInt64.and_zero]

/-- What the program counter reads fits it. -/
theorem lt_of_read_pc (formed : bank.WellFormed) (found : bank.read bank.pc = .ok value) :
    value.toNat < 2 ^ bank.pcBits :=
  formed.and_pcMask_eq_self_iff.mp (formed.and_pcMask_of_read found)

end WellFormed

theorem read_store_of_ne {id written : RegId} (distinct : id ≠ written) :
    (bank.store written value).read id = bank.read id := by
  rw [read, read, slotOf?_store]
  cases found : slotOf? bank.slots id with
  | none => rfl
  | some slot =>
    have named : slot.spec.id = id := by simpa using List.find?_some found
    simp [named, distinct]

end RegisterBank

/-- Whether the bounds of a run fit so many bits. -/
structure RunRequest.Fits (request : RunRequest) (bits : Nat) : Prop where
  start : request.start.toNat < 2 ^ bits
  stopAt : ∀ stopAt, request.stopAt = some stopAt → stopAt.toNat < 2 ^ bits

namespace Session

variable {W E : Type} {host : Host W} {engine : Engine W E} {session : Session W E}
  {request : RunRequest}

/-- The flight with which a run begins, or what it is refused with. -/
def departure (session : Session W E) (request : RunRequest) : Except Error (Flight W E) :=
  (session.checkRun request).map fun _ => session.takeoff request

/-- A run that is refused changes nothing, and one that is let in comes to how its flight lands. -/
theorem run_eq_departure (host : Host W) (engine : Engine W E)
    (formed : session.machine.registers.WellFormed) :
    run host engine request session =
      match session.departure request with
      | .error cause => .error (.error cause) session
      | .ok flight => landing (Flight.drive host engine request session.machine.world
          (request.fuel host.patience) flight) := by
  cases accepted : session.checkRun request with
  | error cause => rw [run_of_refused host engine accepted, departure, accepted, Except.map]
  | ok => rw [run_eq_landing host engine accepted formed, departure, accepted, Except.map]

/-! What is looked at. -/

theorem canRun_iff {state : Lifecycle} :
    state.canRun = true ↔ state = .configured ∨ state = .stopped := by
  cases state <;> simp [Lifecycle.canRun]

theorem boundsFit_iff (formed : session.machine.registers.WellFormed) :
    session.boundsFit request = true ↔ request.Fits session.machine.registers.pcBits := by
  have each (address : UInt64) : (address &&& ~~~session.machine.registers.pcMask == 0) = true ↔
      address.toNat < 2 ^ session.machine.registers.pcBits := by
    rw [beq_iff_eq, formed.and_not_pcMask_eq_zero_iff]
  simp only [boundsFit, Bool.and_eq_true, each, Option.all_eq_true]
  constructor
  · rintro ⟨start, stopAt⟩
    exact ⟨start, stopAt⟩
  · rintro ⟨start, stopAt⟩
    exact ⟨start, stopAt⟩

/-- How a run is refused, by what is the matter first. -/
structure Refusals (session : Session W E) (request : RunRequest) : Prop where
  state : session.state ≠ .configured → session.state ≠ .stopped →
    session.departure request = .error (.invalidState session.state "run")
  bounds : session.state = .configured ∨ session.state = .stopped →
    ¬request.Fits session.machine.registers.pcBits →
      session.departure request = .error (.invalidArgument Reason.wideBounds)
  start : session.state = .configured ∨ session.state = .stopped →
    request.Fits session.machine.registers.pcBits →
      ¬session.machine.memory.Grants (some .exec) request.start.toNat →
        session.departure request = .error (.invalidState session.state
          "run from a start address that is not mapped executable")

theorem refusals (formed : session.machine.WellFormed) (request : RunRequest) :
    session.Refusals request := by
  refine ⟨fun notConfigured notStopped => ?_, fun ready wide => ?_,
    fun ready fits notGranted => ?_⟩
  · have refused : session.state.canRun = false := by
      simpa [← Bool.not_eq_true, canRun_iff] using ⟨notConfigured, notStopped⟩
    simp [departure, checkRun, refused, Except.map]
  · have canRun := canRun_iff.mpr ready
    have refused : session.boundsFit request = false := by
      simpa [← Bool.not_eq_true, boundsFit_iff formed.registers] using wide
    simp [departure, checkRun, canRun, refused, Except.map]
  · have canRun := canRun_iff.mpr ready
    have fit := (boundsFit_iff formed.registers).mpr fits
    have decided := formed.memory.check_decides request.start 1 .exec
    rw [← MemoryMap.covers_one, ← decided.ok_iff_covers] at notGranted
    cases checked : session.machine.memory.check request.start 1 .exec with
    | ok => exact absurd ⟨_, checked⟩ notGranted
    | error cause => simp [departure, checkRun, canRun, fit, checked, Except.map]

/-! Where a run begins. -/

/-- How a run begins: exactly at its start, which is executable, with no stop requested and no
fault latched, and with everything else as the session has it. -/
structure DepartsWith (session : Session W E) (request : RunRequest) (flight : Flight W E) :
    Prop where
  samePc : flight.cpu.machine.registers.pc = session.machine.registers.pc
  pc : flight.cpu.machine.registers.read session.machine.registers.pc = .ok request.start
  executable : flight.cpu.machine.memory.Grants (some .exec) request.start.toNat
  quiet : flight.cpu.machine.stopRequested = false
  calm : flight.cpu.fault = none
  specs : ∀ id, flight.cpu.machine.registers.spec? id = session.machine.registers.spec? id
  others : ∀ id, id ≠ session.machine.registers.pc →
    flight.cpu.machine.registers.read id = session.machine.registers.read id
  memory : flight.cpu.machine.memory = session.machine.memory
  hooks : flight.cpu.machine.hooks = session.machine.hooks
  engine : flight.engine = session.engine

theorem departure_eq_ok_iff {flight : Flight W E} :
    session.departure request = .ok flight ↔
      session.checkRun request = .ok () ∧ session.takeoff request = flight := by
  cases accepted : session.checkRun request <;> simp [departure, accepted, Except.map]

/-- A run is let in exactly if the state allows it, the bounds fit the program counter and the
start is mapped executable. -/
theorem exists_departure_iff (formed : session.machine.WellFormed) :
    (∃ flight, session.departure request = .ok flight) ↔
      (session.state = .configured ∨ session.state = .stopped) ∧
        request.Fits session.machine.registers.pcBits ∧
        session.machine.memory.Grants (some .exec) request.start.toNat := by
  simp only [departure_eq_ok_iff, exists_and_left, exists_eq', and_true,
    checkRun_eq_ok_iff formed.memory, canRun_iff, boundsFit_iff formed.registers]

theorem departsWith {flight : Flight W E} (formed : session.machine.WellFormed)
    (departs : session.departure request = .ok flight) : session.DepartsWith request flight := by
  obtain ⟨accepted, rfl⟩ := departure_eq_ok_iff.mp departs
  obtain ⟨quiet, pc⟩ := takeoff_ready accepted formed.registers
  have layout : (session.takeoff request).cpu.machine.registers.layout =
      session.machine.registers.layout := RegisterBank.layout_store ..
  exact {
    samePc := rfl
    pc := pc
    executable := ((checkRun_eq_ok_iff formed.memory).mp accepted).2.2
    quiet := quiet
    calm := rfl
    specs := RegisterBank.spec?_eq_of_layout_eq layout
    others := fun id other => RegisterBank.read_store_of_ne other
    memory := rfl
    hooks := rfl
    engine := rfl }

/-! Where a run may end. -/

/-- What a boundary sees of the program counter: all of it, so that nothing but the end itself is
taken for the end. -/
structure SeesPc (host : Host W) (session : Session W E) (request : RunRequest) (k : Nat)
    (flight : Flight W E) (pc : UInt64) : Prop where
  reads : flight.cpu.machine.registers.read flight.cpu.machine.registers.pc = .ok pc
  fits : pc.toNat < 2 ^ session.machine.registers.pcBits
  /-- Comparing the bits of the program counter compares all bits. -/
  lossless : ∀ stopAt, request.stopAt = some stopAt →
    (stopAt.toNat % 2 ^ session.machine.registers.pcBits =
      pc.toNat % 2 ^ session.machine.registers.pcBits ↔ stopAt = pc)
  completes : Flight.boundaryStop host request session.machine.world k flight.cpu =
      .ok (some .completed) ↔
    flight.cpu.machine.stopRequested = false ∧ request.stopAt = some pc

/-- A boundary is where a run completes if no stop is requested there and the program counter
reads its end. -/
theorem boundaryStop_eq_completed_iff {cpu : Cpu W} {began : W} {k : Nat} {pc : UInt64}
    (reads : cpu.machine.registers.read cpu.machine.registers.pc = .ok pc) :
    Flight.boundaryStop host request began k cpu = .ok (some .completed) ↔
      cpu.machine.stopRequested = false ∧ request.stopAt = some pc := by
  rw [Flight.boundaryStop, reads]
  cases cpu.machine.stopRequested with
  | true => simp
  | false =>
    by_cases ends : request.stopAt = some pc
    · simp [ends]
    · simp only [ends]
      split_ifs <;> simp

theorem exists_seesPc {start flight : Flight W E} {k : Nat} (formed : session.machine.WellFormed)
    (departs : session.departure request = .ok start)
    (reached : Flight.Boundary host engine start k flight) :
    ∃ pc, SeesPc host session request k flight pc := by
  have departing := departsWith formed departs
  obtain ⟨accepted, rfl⟩ := departure_eq_ok_iff.mp departs
  have layout : flight.cpu.machine.registers.layout = session.machine.registers.layout :=
    reached.evolves.layout.trans (RegisterBank.layout_store ..)
  have here : flight.cpu.machine.registers.WellFormed :=
    reached.registers (formed.registers.store _ request.start)
  obtain ⟨pc, reads⟩ := here.exists_read_pc
  have fits := here.lt_of_read_pc reads
  rw [RegisterBank.pcBits_eq_of_layout_eq layout] at fits
  have bounds := ((exists_departure_iff formed).mp ⟨_, departs⟩).2.1
  refine ⟨pc, reads, fits, fun stopAt ends => ?_, boundaryStop_eq_completed_iff reads⟩
  rw [Nat.mod_eq_of_lt (bounds.stopAt stopAt ends), Nat.mod_eq_of_lt fits, UInt64.toNat_inj]

/-- A run completes at the first boundary where the program counter reads its end, unless it has
stopped by then or is asked to there. -/
theorem run_of_pc_eq_stopAt {start flight : Flight W E} {k : Nat} {pc : UInt64}
    (formed : session.machine.WellFormed) (departs : session.departure request = .ok start)
    (arrives : Flight.Arrives host engine request session.machine.world start k flight)
    (looked : k < request.fuel host.patience)
    (sees : SeesPc host session request k flight pc)
    (quiet : flight.cpu.machine.stopRequested = false) (ends : request.stopAt = some pc) :
    run host engine request session = landing (.ok .completed flight) := by
  obtain ⟨accepted, rfl⟩ := departure_eq_ok_iff.mp departs
  have here : flight.cpu.machine.registers.WellFormed :=
    arrives.1.registers (formed.registers.store _ request.start)
  have stops := (Flight.boundaryStop_eq_some_iff here).mp (sees.completes.mpr ⟨quiet, ends⟩)
  exact (run_eq_iff host engine accepted formed.registers _).mpr
    ⟨_, .stopped arrives looked stops, rfl⟩

/-- How a run completes: at a boundary where the program counter reads its end, or with a step that
halts the guest. -/
inductive Completes (host : Host W) (engine : Engine W E) (session : Session W E)
    (request : RunRequest) (start : Flight W E) : Flight W E → Prop
  | atEnd {k : Nat} {flight : Flight W E} {pc : UInt64}
      (arrives : Flight.Arrives host engine request session.machine.world start k flight)
      (sees : SeesPc host session request k flight pc) (ends : request.stopAt = some pc) :
      Completes host engine session request start flight
  | halted {k : Nat} {flight left : Flight W E}
      (arrives : Flight.Arrives host engine request session.machine.world start k flight)
      (returns : Flight.Returns host engine.step flight (.ok .halted) left) :
      Completes host engine session request start left

theorem completes_of_run {start : Flight W E} {left : Session W E}
    (formed : session.machine.WellFormed) (departs : session.departure request = .ok start)
    (ran : run host engine request session = .ok .completed left) :
    ∃ flight, Completes host engine session request start flight ∧
      landing (.ok .completed flight) = .ok .completed left := by
  obtain ⟨accepted, taken⟩ := departure_eq_ok_iff.mp departs
  obtain ⟨ending, ends, lands⟩ := (run_eq_iff host engine accepted formed.registers _).mp ran
  rw [taken] at ends
  cases ends with
  | @stopped k flight reason arrives looked stops =>
    obtain ⟨rfl, -⟩ := EStateM.Result.ok.inj lands
    obtain ⟨pc, sees⟩ := exists_seesPc formed departs arrives.1
    obtain ⟨value, reads, ends⟩ := stops.holds
    obtain rfl := Except.ok.inj (sees.reads.symm.trans reads)
    exact ⟨flight, .atEnd arrives sees ends, lands⟩
  | @halted k flight landed arrives looked goesOn returns calm =>
    exact ⟨landed, .halted arrives returns, lands⟩
  | _ => contradiction

/-! The law. -/

/-- A session lets a run in exactly if its state allows it, both bounds fit the program counter and
the start is mapped executable; otherwise the first of these that fails is the error, and nothing
changes. A run that is let in begins exactly at its start and finds everything else as the session
has it. At every boundary its end is compared with all of the program counter, so where it has not
stopped before, it completes there exactly if the program counter reads the end and no stop is
requested. -/
theorem run_admission_law (reached : Reachable host engine session) (request : RunRequest) :
    let bits := session.machine.registers.pcBits
    (0 < bits ∧ bits ≤ 64) ∧
    (run host engine request session =
      match session.departure request with
      | .error cause => .error (.error cause) session
      | .ok start => landing (Flight.drive host engine request session.machine.world
          (request.fuel host.patience) start)) ∧
    ((∃ start, session.departure request = .ok start) ↔
      (session.state = .configured ∨ session.state = .stopped) ∧ request.Fits bits ∧
        session.machine.memory.Grants (some .exec) request.start.toNat) ∧
    session.Refusals request ∧
    ∀ start, session.departure request = .ok start →
      session.DepartsWith request start ∧
      (∀ k flight, Flight.Boundary host engine start k flight →
        ∃ pc, SeesPc host session request k flight pc) ∧
      (∀ k flight pc, Flight.Arrives host engine request session.machine.world start k flight →
        k < request.fuel host.patience → SeesPc host session request k flight pc →
          flight.cpu.machine.stopRequested = false → request.stopAt = some pc →
            run host engine request session = landing (.ok .completed flight)) ∧
      ∀ left, run host engine request session = .ok .completed left →
        ∃ flight, Completes host engine session request start flight ∧
          landing (.ok .completed flight) = .ok .completed left := by
  intro bits
  have formed := reached.wellFormed
  refine ⟨formed.registers.pcBits_bounds, run_eq_departure host engine formed.registers,
    exists_departure_iff formed, refusals formed request, fun start departs =>
    ⟨departsWith formed departs, fun k flight => exists_seesPc formed departs,
      fun k flight pc arrives looked => run_of_pc_eq_stopAt formed departs arrives looked,
      fun left => completes_of_run formed departs⟩⟩

/-- An address that a narrow program counter would take for a mapped one is refused, and that one
is let in. -/
theorem run_admission_law_of_narrow_pc :
    ∃ session : Session Unit Tiny.State, Reachable Host.obliging Tiny.engine session ∧
      run Host.obliging Tiny.engine (.unbounded 0x100001000) session =
        .error (.error (.invalidArgument Reason.wideBounds)) session ∧
      ∃ start, session.departure (.unbounded 0x1000) = .ok start := by
  have opened : create Tiny.engine .initial () .x86 .bits32 =
    .ok (_ : Session Unit Tiny.State) := rfl
  have reached : Reachable Host.obliging Tiny.engine _ :=
    (Reachable.created opened).asked (.mapMemory 0x1000 1 .all)
  obtain ⟨-, refuses, -, refusals, -⟩ := run_admission_law reached (.unbounded 0x100001000)
  obtain ⟨-, -, admits, -, -⟩ := run_admission_law reached (.unbounded 0x1000)
  have wide := refusals.bounds (.inl rfl) fun fits => absurd fits.start (by decide)
  rw [wide] at refuses
  have fits : (RunRequest.unbounded 0x1000).Fits 32 :=
    ⟨by decide, by simp [RunRequest.unbounded]⟩
  refine ⟨_, reached, refuses, admits.mpr ⟨.inl rfl, fits, ?_⟩⟩
  exact ⟨⟨0x1000, ⟨0⟩, .all, ⟨#[0]⟩⟩, List.mem_singleton_self _,
    ⟨Nat.le_refl _, Nat.lt_succ_self _⟩, by decide⟩

end Session

end GuestMachine
