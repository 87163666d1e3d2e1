import GuestMachine.Proofs.Memory.History

/-!
The law of accesses to memory that any history leads to. An access goes through exactly if every
byte of its range has an address, is mapped and grants what is asked for; otherwise it names the
lowest byte of which this fails. What is read are the bytes of the range, and a write replaces
these and nothing else, or nothing at all.
-/

namespace GuestMachine

namespace MemoryMap

/-- What the result of an access to a range says about the bytes of the range. -/
structure AccessLaw {α : Type} (table : MemoryMap) (needed : Option Permissions)
    (address : UInt64) (size : Nat) (result : Except Error α) : Prop where
  succeeds_iff : (∃ a, result = .ok a) ↔
    ∀ i < size, address.toNat + i < UInt64.size ∧
      ∃ region ∈ table.regions, region.Holds (address.toNat + i) ∧
        needed.all region.perms.grants = true
  empty : size = 0 → ∃ a, result = .ok a
  fails : ∀ cause, result = .error cause →
    ∃ refused : UInt64, table.FirstRefused needed address.toNat size refused.toNat ∧
      ((¬table.Mapped refused.toNat ∧ cause = .unmappedMemory refused) ∨
        (table.Mapped refused.toNat ∧ cause = .permissionDenied refused))

variable {table : MemoryMap} {needed : Option Permissions} {address : UInt64} {size : Nat}

/-- What is granted has an address, for regions end below the top of the address space. -/
theorem WellFormed.covers_iff (formed : table.WellFormed) {first : Nat} :
    table.Covers needed first size ↔
      ∀ i < size, first + i < UInt64.size ∧ table.Grants needed (first + i) := by
  refine ⟨fun covers i small => ⟨?_, covers i small⟩, fun all i small => (all i small).2⟩
  obtain ⟨region, member, holds, -⟩ := covers i small
  exact Nat.lt_trans holds.2 (formed.fits region member)

theorem WellFormed.accessLaw {α : Type} (formed : table.WellFormed) {result : Except Error α}
    (decided : table.Decides needed address.toNat size result) :
    table.AccessLaw needed address size result where
  succeeds_iff := decided.ok_iff_covers.trans formed.covers_iff
  empty := by
    rintro rfl
    exact decided.ok_iff_covers.mpr covers_zero
  fails := by
    rintro cause rfl
    cases decided with
    | unmapped first free => exact ⟨_, first, .inl ⟨free, rfl⟩⟩
    | denied first mapped => exact ⟨_, first, .inr ⟨mapped, rfl⟩⟩

/-- As many bytes are read as were asked for. -/
theorem WellFormed.size_readWith (formed : table.WellFormed) {bytes : ByteArray}
    (done : table.readWith needed address size = .ok bytes) : bytes.size = size := by
  have decided := formed.readWith_decides needed address size
  rw [done] at decided
  have covers := decided.ok_iff_covers.mp ⟨bytes, rfl⟩
  have contents := formed.getElem?_readWith done
  apply Nat.le_antisymm
  · have beyond := contents size
    rw [if_neg (Nat.lt_irrefl size)] at beyond
    exact Array.getElem?_eq_none_iff.mp beyond
  · by_contra short
    have missing := contents bytes.size
    rw [if_pos (by omega), getElem?_neg bytes _ (Nat.lt_irrefl _)] at missing
    obtain ⟨region, member, holds, -⟩ := covers bytes.size (by omega)
    exact byteAt?_eq_none_iff.mp missing.symm ⟨region, member, holds⟩

/-- What a write leaves: the same regions, and the same bytes but for those written. -/
theorem WellFormed.writeWith_effect (formed : table.WellFormed) {bytes : ByteArray}
    {written : MemoryMap} (done : table.writeWith needed address bytes = .ok written) :
    written.infos = table.infos ∧ written.nextId = table.nextId ∧
      ∀ x, written.byteAt? x =
        if address.toNat ≤ x ∧ x < address.toNat + bytes.size then bytes[x - address.toNat]?
        else table.byteAt? x := by
  obtain ⟨nextId, frames⟩ := formed.writeWith_frames done
  have infos := congrArg (List.map Prod.fst) frames
  simp only [List.map_map] at infos
  exact ⟨infos, nextId, formed.byteAt?_writeWith done⟩

/-- A write that fails has been refused by the walk over its range, so no byte has moved. -/
theorem walk_eq_error_of_writeWith {bytes : ByteArray} {cause : Error}
    (failed : table.writeWith needed address bytes = .error cause) :
    table.walk needed address bytes.size = .error cause := by
  rw [writeWith_eq_map_walk] at failed
  cases walked : table.walk needed address bytes.size with
  | ok chunks =>
    rw [walked] at failed
    contradiction
  | error other =>
    rw [walked] at failed
    exact congrArg Except.error (Except.error.inj failed)

/-- In every memory that calls lead to, accesses are decided byte by byte, reads give the bytes
of their range, writes and loads replace these and nothing else, and those that fail are refused
before a byte has moved. -/
theorem access_law (calls : List MemoryCall) (address : UInt64) :
    let table := MemoryMap.empty.replay calls
    (∀ size needed,
      table.AccessLaw (some needed) address size (table.check address size needed)) ∧
    (∀ size, table.AccessLaw (some .read) address size (table.read address size)) ∧
    (∀ bytes, table.AccessLaw (some .write) address bytes.size (table.write address bytes)) ∧
    (∀ bytes, table.AccessLaw none address bytes.size (table.load address bytes)) ∧
    (∀ size bytes, table.read address size = .ok bytes →
      bytes.size = size ∧ ∀ i < size, bytes[i]? = table.byteAt? (address.toNat + i)) ∧
    (∀ bytes call needed, call = .write address bytes ∧ needed = some Permissions.write ∨
        call = .load address bytes ∧ needed = none →
      (∀ written, table.attempt call = .ok written →
        written.infos = table.infos ∧ written.nextId = table.nextId ∧
        ∀ x, written.byteAt? x =
          if address.toNat ≤ x ∧ x < address.toNat + bytes.size then bytes[x - address.toNat]?
          else table.byteAt? x) ∧
      ∀ cause, table.attempt call = .error cause →
        table.walk needed address bytes.size = .error cause ∧ table.after call = table) := by
  intro table
  have formed : table.WellFormed := wellFormed_empty.replay calls
  refine ⟨fun size needed => formed.accessLaw (formed.check_decides address size needed),
    fun size => formed.accessLaw (formed.readWith_decides _ address size),
    fun bytes => formed.accessLaw (formed.writeWith_decides _ address bytes),
    fun bytes => formed.accessLaw (formed.writeWith_decides _ address bytes), ?_, ?_⟩
  · intro size bytes done
    refine ⟨formed.size_readWith done, fun i small => ?_⟩
    rw [formed.getElem?_readWith done, if_pos small]
  · rintro bytes call needed (⟨rfl, rfl⟩ | ⟨rfl, rfl⟩)
    · exact ⟨fun written done => formed.writeWith_effect done, fun cause failed =>
        ⟨walk_eq_error_of_writeWith failed, after_of_error failed⟩⟩
    · exact ⟨fun written done => formed.writeWith_effect done, fun cause failed =>
        ⟨walk_eq_error_of_writeWith failed, after_of_error failed⟩⟩

end MemoryMap

end GuestMachine
