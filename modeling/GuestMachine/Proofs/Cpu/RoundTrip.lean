import GuestMachine.Proofs.Cpu.Access
import GuestMachine.Proofs.Cpu.Silence
import GuestMachine.Proofs.Machine.Account
import GuestMachine.Proofs.Memory.Access
import GuestMachine.Proofs.Mode.Integer

/-!
Integers written to guest memory and read back. The hooks that trace a write run before the bytes
move and those that trace a read before the bytes are taken, so as long as they leave memory alone
the bytes read are those written, through however many regions the range runs.
-/

namespace GuestMachine

variable {W : Type} {host : Host W}

namespace Machine

variable {machine left : Machine W} {event : Event} {result : DispatchResult}

/-- Hooks cannot change the mode. -/
theorem mode_of_dispatch {depth : Nat}
    (dispatched : dispatch host depth event machine = .ok result left) :
    left.mode = machine.mode := by
  have replays := (dispatch.account host depth event).replays machine
  rw [dispatched] at replays
  exact (congrArg Machine.mode replays).trans (mode_replay machine _)

theorem exists_dispatch_of_raiseAll (raised : raiseAll host [event] machine = .ok () left) :
    ∃ result, dispatch host host.nesting event machine = .ok result left := by
  simp only [raiseAll, bind_apply, discard_apply, pure_apply] at raised
  cases dispatched : dispatch host host.nesting event machine with
  | error failure other => simp [dispatched] at raised
  | ok result other =>
    rw [dispatched] at raised
    obtain ⟨-, rfl⟩ := EStateM.Result.ok.inj raised
    exact ⟨result, rfl⟩

/-- Whether an event that a machine raises leaves all that is mapped as it is, if its hooks
succeed. -/
def SparesMemory (host : Host W) (machine : Machine W) (event : Event) : Prop :=
  ∀ result left, dispatch host host.nesting event machine = .ok result left →
    left.memory.regions = machine.memory.regions

end Machine

namespace GuestAccess

variable {access : GuestAccess} {machine : Machine W}

/-- An allowed access raises the event that traces it and no other one. -/
theorem course_of_allowed (host : Host W) (formed : machine.memory.WellFormed)
    (allowed : access.Allowed machine.memory) :
    access.Course host ⟨machine, none⟩ [] (access.traceEvent? machine.mode).toList where
  announced unmapped := absurd allowed unmapped.not_allowed
  silent _ := rfl
  traced _ _ _ := rfl
  untraced none := absurd ⟨machine, rfl, allowed⟩ none
  ends := by
    obtain ⟨closing, traced, -, ends⟩ := ends_settle host access machine.mode formed
    obtain rfl := traced allowed
    rw [perform_of_not_unmapped host formed fun unmapped => unmapped.not_allowed allowed]
    exact ends

/-- An access that goes through behind hooks that leave memory alone was allowed at first. -/
theorem allowed_of_spared {cpu after : Cpu W} {answer : access.Answer} (calm : cpu.fault = none)
    (formed : cpu.machine.memory.WellFormed)
    (spares : ∀ event, cpu.machine.SparesMemory host event)
    (done : access.perform host cpu = .ok answer after) : access.Allowed cpu.machine.memory := by
  obtain ⟨machine, _⟩ := cpu
  obtain rfl := calm
  by_contra refused
  have settled (left : Machine W) (same : left.memory.regions = machine.memory.regions)
      (formedLeft : left.memory.WellFormed) :
      access.settle host machine.mode left ≠ .ok answer after := by
    intro goes
    obtain ⟨closing, -, untraced, ends⟩ := ends_settle host access machine.mode formedLeft
    have still : ¬access.Allowed left.memory := fun allowed =>
      refused (allowed.of_regions_eq same.symm)
    rw [untraced still, goes] at ends
    cases ends with
    | granted allowed => exact still allowed
  by_cases unmapped : access.Unmapped machine.memory
  · rw [perform_of_unmapped host formed unmapped] at done
    cases raised : Machine.raiseAll host [access.unmappedEvent machine.mode] machine with
    | error failure left => cases failure <;> simp [raised] at done
    | ok _ left =>
      rw [raised] at done
      obtain ⟨result, dispatched⟩ := Machine.exists_dispatch_of_raiseAll raised
      exact settled left (spares _ result left dispatched)
        (Machine.wellFormed_of_raiseAll formed raised) done
  · rw [perform_of_not_unmapped host formed unmapped] at done
    exact settled machine rfl formed done

end GuestAccess

namespace Cpu

variable {cpu after : Cpu W} {address value : UInt64} {size : Nat}

abbrev spelling (cpu : Cpu W) (value : UInt64) (size : Nat) : ByteArray :=
  cpu.machine.mode.encodeUInt value size

theorem calm_of_writeUInt (written : writeUInt host address value size cpu = .ok () after) :
    cpu.fault = none := by
  cases latched : cpu.fault with
  | none => rfl
  | some fault => simp [writeUInt, writeMemory_of_latched latched] at written

/-- An integer is written as its spelling is. -/
theorem perform_of_writeUInt (written : writeUInt host address value size cpu = .ok () after) :
    (GuestAccess.write address (cpu.spelling value size)).perform host cpu = .ok () after := by
  simp only [writeUInt, bind_apply, get_apply] at written
  exact written

/-- A write that goes through leaves its bytes in memory as the hooks have left it. -/
theorem exists_store_of_course {opening closing : List Event}
    (course : (GuestAccess.write address (cpu.spelling value size)).Course host cpu opening closing)
    (written : writeUInt host address value size cpu = .ok () after) :
    ∃ left, Machine.raiseAll host (opening ++ closing) cpu.machine = .ok () left ∧ ∃ memory,
      left.memory.writeWith (some .write) address (cpu.spelling value size) = .ok memory ∧
        after = ⟨{ left with memory := memory }, none⟩ := by
  have ends := course.ends
  rw [perform_of_writeUInt written] at ends
  cases raised : Machine.raiseAll host (opening ++ closing) cpu.machine with
  | error failure left => rw [raised] at ends; cases ends
  | ok _ left =>
    rw [raised] at ends
    cases ends with
    | @granted _ answer memory allowed made =>
      refine ⟨left, rfl, memory, ?_, rfl⟩
      simp only [GuestAccess.touch] at made
      cases stored : left.memory.writeWith (some .write) address (cpu.spelling value size) with
      | error cause => simp [stored, Except.map] at made
      | ok other =>
        rw [stored] at made
        obtain ⟨-, rfl⟩ := Prod.mk.inj (Except.ok.inj made)
        rfl

/-- Behind a write the bytes of its range are those of the spelling. -/
theorem byteAt?_of_writeUInt (formed : cpu.machine.memory.WellFormed)
    (written : writeUInt host address value size cpu = .ok () after) {i : Nat}
    (small : i < min size 8) :
    after.machine.memory.byteAt? (address.toNat + i) =
      (cpu.spelling value size).data.toList[i]? := by
  obtain ⟨opening, closing, course⟩ := GuestAccess.exists_course host
    (.write address (cpu.spelling value size)) cpu (calm_of_writeUInt written) formed
  obtain ⟨left, raised, memory, stored, rfl⟩ := exists_store_of_course course written
  have formedLeft := Machine.wellFormed_of_raiseAll formed raised
  have length : (cpu.spelling value size).size = min size 8 := Mode.size_encodeUInt _ value size
  have effect := (formedLeft.writeWith_effect stored).2.2 (address.toNat + i)
  rw [if_pos (by omega), Nat.add_sub_cancel_left, Bytes.getElem?_eq_toList] at effect
  exact effect

/-- What is read is what memory spells, if the hooks that trace the read leave it alone. -/
theorem readUInt_of_spelled {machine left : Machine W} {result : DispatchResult}
    (formed : machine.memory.WellFormed)
    (readable : machine.memory.Covers (some .read) address.toNat size)
    (dispatched : Machine.dispatch host host.nesting (.memoryRead address size) machine =
      .ok result left) (same : left.memory.regions = machine.memory.regions)
    (spelled : ∀ i < min size 8, machine.memory.byteAt? (address.toNat + i) =
      (machine.mode.encodeUInt value size).data.toList[i]?) :
    readUInt host address size ⟨machine, none⟩ =
      .ok (UInt64.ofNat (value.toNat % 256 ^ min size 8)) ⟨left, none⟩ := by
  have formedLeft : left.memory.WellFormed := formed.of_frames_eq (by rw [same])
  obtain ⟨bytes, read⟩ := (formedLeft.readWith_decides (some .read) address size).ok_iff_covers.mpr
    (readable.of_regions_eq same)
  have contents := formedLeft.getElem?_readWith read
  have digits : bytes.data.toList.take 8 = (machine.mode.encodeUInt value size).data.toList := by
    refine List.ext_getElem? fun i => ?_
    rw [List.getElem?_take, ← Bytes.getElem?_eq_toList, contents i]
    by_cases small : i < min size 8
    · rw [if_pos (by omega), if_pos (by omega), MemoryMap.byteAt?_of_regions_eq same,
        spelled i small]
    · rw [List.getElem?_eq_none (by rw [Mode.length_encodeUInt]; omega)]
      split_ifs <;> first | rfl | omega
  have goes : readMemory host address size ⟨machine, none⟩ = .ok bytes ⟨left, none⟩ := by
    have checked : machine.memory.check address size .read = .ok () :=
      (formed.check_decides address size .read).ok_iff_covers.mpr readable |>.choose_spec
    simp only [readMemory, bind_apply, discard_apply, get_apply, require_apply, checked,
      AccessKind.required, accessResult_apply, notify_of_calm, dispatched, read]
  rw [readUInt, bind_apply, goes]
  simp only [bind_apply, get_apply, pure_apply, Machine.mode_of_dispatch dispatched,
    Mode.decodeUInt_of_take_eq digits]

/-- What an integer that is written comes to, given that hooks leave memory alone. -/
structure RoundTrip (host : Host W) (address value : UInt64) (size : Nat) (cpu after : Cpu W) :
    Prop where
  /-- As many low bytes of it as were written are read back. -/
  reads : ∃ left, readUInt host address size after =
    .ok (UInt64.ofNat (value.toNat % 256 ^ min size 8)) left
  /-- The write raises one event, which shows that number and how many bytes it takes. -/
  raises : (GuestAccess.write address (cpu.machine.mode.encodeUInt value size)).Course host cpu []
    [.memoryWrite address (min size 8) (UInt64.ofNat (value.toNat % 256 ^ min size 8))]
  /-- Regions stay the same but for the bytes of the range. -/
  regions : after.machine.memory.infos = cpu.machine.memory.infos
  outside : ∀ x, ¬(address.toNat ≤ x ∧ x < address.toNat + min size 8) →
    after.machine.memory.byteAt? x = cpu.machine.memory.byteAt? x
  /-- The lowest byte comes first, or last in big-endian order. -/
  stores : ∀ i < min size 8, after.machine.memory.byteAt? (address.toNat + i) =
    some (UInt8.ofNat (value.toNat /
      256 ^ (if cpu.machine.mode.isBigEndian then min size 8 - 1 - i else i)))
  /-- A processor of the other byte order stores the same bytes in reverse. -/
  reversed : ∀ other left : Cpu W, other.machine.memory.WellFormed →
    other.machine.mode.isBigEndian ≠ cpu.machine.mode.isBigEndian →
    writeUInt host address value size other = .ok () left →
      ∀ i < min size 8, left.machine.memory.byteAt? (address.toNat + i) =
        after.machine.memory.byteAt? (address.toNat + (min size 8 - 1 - i))

/-- An integer that is written to memory is read back, cut to the bytes that were written, if hooks
neither change memory nor fail. -/
theorem uint_round_trip (formed : cpu.machine.memory.WellFormed)
    (spares : ∀ event, cpu.machine.SparesMemory host event)
    (written : writeUInt host address value size cpu = .ok () after)
    (readable : cpu.machine.memory.Covers (some .read) address.toNat size)
    (passes : ∃ result left, Machine.dispatch host host.nesting (.memoryRead address size)
      after.machine = .ok result left ∧ left.memory.regions = after.machine.memory.regions) :
    RoundTrip host address value size cpu after := by
  have calm := calm_of_writeUInt written
  have allowed := GuestAccess.allowed_of_spared calm formed spares (perform_of_writeUInt written)
  have spelled := fun i => byteAt?_of_writeUInt (i := i) formed written
  obtain ⟨machine, _⟩ := cpu
  obtain rfl := calm
  have course := GuestAccess.course_of_allowed host formed allowed
  simp only [GuestAccess.traceEvent?, Mode.size_encodeUInt, Mode.decodeUInt_encodeUInt,
    Option.toList_some] at course
  obtain ⟨behind, raised, memory, stored, rfl⟩ := exists_store_of_course course written
  obtain ⟨_, dispatched⟩ := Machine.exists_dispatch_of_raiseAll raised
  have same : behind.memory.regions = machine.memory.regions := spares _ _ _ dispatched
  have mode : behind.mode = machine.mode := Machine.mode_of_dispatch dispatched
  have formedBehind := Machine.wellFormed_of_raiseAll formed raised
  have effect := formedBehind.writeWith_effect stored
  obtain ⟨result, left, traced, kept⟩ := passes
  refine ⟨⟨⟨left, none⟩, ?_⟩, course, ?_, fun x beyond => ?_, fun i small => ?_, ?_⟩
  · have readableBehind : memory.Covers (some .read) address.toNat size :=
      (readable.of_regions_eq same).of_frames_eq (formedBehind.writeWith_frames stored).2
    refine readUInt_of_spelled (formedBehind.writeWith stored) readableBehind traced kept ?_
    rw [mode]
    exact spelled
  · rw [effect.1, MemoryMap.infos, MemoryMap.infos, same]
  · have length : ((⟨machine, none⟩ : Cpu W).spelling value size).size = min size 8 :=
      Mode.size_encodeUInt _ value size
    rw [effect.2.2 x, length, if_neg beyond, MemoryMap.byteAt?_of_regions_eq same]
  · rw [spelled i small, Mode.getElem?_encodeUInt _ value small]
  · intro other otherLeft formedOther differ writtenOther i small
    rw [byteAt?_of_writeUInt formedOther writtenOther small, spelled _ (by omega),
      Mode.encodeUInt_of_isBigEndian_ne differ, List.getElem?_reverse]
    all_goals
      rw [Mode.length_encodeUInt]
    exact small

/-- A big-endian processor with two regions that touch and a hook that traces writes. -/
def adjoining : Cpu Unit :=
  .ofMachine {
    Machine.fresh () (MemoryMap.empty.replay [.map 0x1000 2 .all true, .map 0x1002 2 .all true])
      ⟨[⟨⟨1⟩, .memoryWrite, .all, none, ⟨.memoryAccess, 0⟩⟩], 2⟩ with
    mode := .bigEndian }

theorem sparesMemory_adjoining (event : Event) :
    adjoining.machine.SparesMemory Host.obliging event := by
  intro result left dispatched
  cases event with
  | memoryUnmapped access => cases access <;> cases dispatched
  | _ => cases dispatched; rfl

theorem exists_writeUInt_adjoining :
    ∃ after, writeUInt Host.obliging 0x1000 0x11223344 4 adjoining = .ok () after := by
  have goes : (match writeUInt Host.obliging 0x1000 0x11223344 4 adjoining with
    | .ok _ _ => true
    | .error _ _ => false) = true := by decide +kernel
  cases written : writeUInt Host.obliging 0x1000 0x11223344 4 adjoining with
  | ok _ after => exact ⟨after, rfl⟩
  | error failure after =>
    rw [written] at goes
    contradiction

/-- An integer that is written across the border of two regions is read back. -/
theorem uint_round_trip_across_regions :
    ∃ after, writeUInt Host.obliging 0x1000 0x11223344 4 adjoining = .ok () after ∧
      RoundTrip Host.obliging 0x1000 0x11223344 4 adjoining after := by
  obtain ⟨after, written⟩ := exists_writeUInt_adjoining
  have formed : adjoining.machine.memory.WellFormed := MemoryMap.wellFormed_empty.replay _
  have readable : adjoining.machine.memory.Covers (some .read) 0x1000 4 := by
    refine (formed.check_decides 0x1000 4 .read).ok_iff_covers.mp ⟨(), ?_⟩
    decide +kernel
  have allowed := GuestAccess.allowed_of_spared rfl formed sparesMemory_adjoining
    (perform_of_writeUInt written)
  have course := GuestAccess.course_of_allowed Host.obliging formed allowed
  obtain ⟨left, raised, memory, stored, rfl⟩ := exists_store_of_course course written
  cases raised
  exact ⟨_, written, uint_round_trip formed sparesMemory_adjoining written readable
    ⟨_, _, rfl, rfl⟩⟩

end Cpu

end GuestMachine
