import GuestMachine.Memory.Access
import GuestMachine.Proofs.Memory.Layout
import Mathlib.Algebra.GroupWithZero.Nat

/-!
What decides an access to memory, byte by byte. A range is granted when a region that grants what
is asked for holds each of its bytes. Otherwise the lowest byte of which this fails tells the
cause: it is unmapped, or mapped without the permission. The walk over regions, which takes a
region at a time, decides the same.
-/

namespace GuestMachine

namespace MemoryMap

/-- Whether a region holds an address. -/
def Mapped (table : MemoryMap) (address : Nat) : Prop :=
  ∃ region ∈ table.regions, region.Holds address

/-- Whether a region holds an address and grants what is asked for, if anything is. -/
def Grants (table : MemoryMap) (needed : Option Permissions) (address : Nat) : Prop :=
  ∃ region ∈ table.regions, region.Holds address ∧ needed.all region.perms.grants

/-- Whether every byte of a range is granted. -/
def Covers (table : MemoryMap) (needed : Option Permissions) (address size : Nat) : Prop :=
  ∀ i < size, table.Grants needed (address + i)

/-- The lowest byte of a range that is not granted. -/
structure FirstRefused (table : MemoryMap) (needed : Option Permissions)
    (address size refused : Nat) : Prop where
  above : address ≤ refused
  below : refused < address + size
  before : ∀ lower, address ≤ lower → lower < refused → table.Grants needed lower
  here : ¬table.Grants needed refused

/-- The result of an operation on a range that goes through exactly if the range is granted, and
otherwise names its lowest byte that is not. -/
inductive Decides {α : Type} (table : MemoryMap) (needed : Option Permissions)
    (address size : Nat) : Except Error α → Prop
  | granted {a : α} (covers : table.Covers needed address size) :
      Decides table needed address size (.ok a)
  | unmapped {refused : UInt64} (first : table.FirstRefused needed address size refused.toNat)
      (free : ¬table.Mapped refused.toNat) :
      Decides table needed address size (.error (.unmappedMemory refused))
  | denied {refused : UInt64} (first : table.FirstRefused needed address size refused.toNat)
      (mapped : table.Mapped refused.toNat) :
      Decides table needed address size (.error (.permissionDenied refused))

variable {table : MemoryMap} {needed : Option Permissions} {address size refused : Nat}
  {α β : Type}

theorem covers_zero : table.Covers needed address 0 :=
  fun i small => absurd small (Nat.not_lt_zero i)

theorem covers_one : table.Covers needed address 1 ↔ table.Grants needed address := by
  simp [Covers]

/-- A range is granted if its first `count` bytes and the rest are. -/
theorem covers_append {count : Nat} (fits : count ≤ size)
    (first : table.Covers needed address count)
    (rest : table.Covers needed (address + count) (size - count)) :
    table.Covers needed address size := by
  intro i small
  by_cases early : i < count
  · exact first i early
  · have later := rest (i - count) (by omega)
    rwa [show address + count + (i - count) = address + i by omega] at later

/-- What is granted depends on the bases, lengths and permissions of regions only. -/
theorem Covers.of_frames_eq {other : MemoryMap} (covers : table.Covers needed address size)
    (same : other.regions.map (fun region => (region.info, region.size)) =
      table.regions.map fun region => (region.info, region.size)) :
    other.Covers needed address size := by
  intro i small
  obtain ⟨region, member, holds, grants⟩ := covers i small
  obtain ⟨twin, listed, info, length⟩ := exists_twin_of_frames_eq same member
  have base : twin.base = region.base := congrArg RegionInfo.base info
  have perms : twin.perms = region.perms := congrArg RegionInfo.perms info
  exact ⟨twin, listed, by rwa [Region.Holds, base, length], by rwa [perms]⟩

theorem Covers.of_regions_eq {other : MemoryMap} (covers : table.Covers needed address size)
    (same : other.regions = table.regions) : other.Covers needed address size :=
  covers.of_frames_eq (by rw [same])

namespace FirstRefused

theorem not_covers (first : table.FirstRefused needed address size refused) :
    ¬table.Covers needed address size := by
  intro covers
  have above := first.above
  have below := first.below
  have granted := covers (refused - address) (by omega)
  rw [show address + (refused - address) = refused by omega] at granted
  exact first.here granted

/-- There is only one lowest byte that is not granted. -/
theorem unique {other : Nat} (first : table.FirstRefused needed address size refused)
    (second : table.FirstRefused needed address size other) : refused = other := by
  rcases Nat.lt_trichotomy refused other with less | same | greater
  · exact absurd (second.before refused first.above less) first.here
  · exact same
  · exact absurd (first.before other second.above greater) second.here

/-- Bytes granted in front of a range do not change the first one that is not. -/
theorem extend {count : Nat} (fits : count ≤ size)
    (front : table.Covers needed address count)
    (first : table.FirstRefused needed (address + count) (size - count) refused) :
    table.FirstRefused needed address size refused := by
  have above := first.above
  have below := first.below
  refine ⟨by omega, by omega, fun lower low high => ?_, first.here⟩
  by_cases early : lower < address + count
  · have granted := front (lower - address) (by omega)
    rwa [show address + (lower - address) = lower by omega] at granted
  · exact first.before lower (by omega) high

end FirstRefused

namespace Decides

theorem map {result : Except Error α} (decided : table.Decides needed address size result)
    (f : α → β) : table.Decides needed address size (result.map f) := by
  cases decided with
  | granted covers => exact .granted covers
  | unmapped first free => exact .unmapped first free
  | denied first mapped => exact .denied first mapped

theorem ok_iff_covers {result : Except Error α}
    (decided : table.Decides needed address size result) :
    (∃ a, result = .ok a) ↔ table.Covers needed address size := by
  cases decided with
  | granted covers => exact ⟨fun _ => covers, fun _ => ⟨_, rfl⟩⟩
  | unmapped first free => simpa using first.not_covers
  | denied first mapped => simpa using first.not_covers

end Decides

/-! The walk. -/

/-- A region that grants what is asked for grants its bytes from the cursor on. -/
theorem WellFormed.covers_part (formed : table.WellFormed) {cursor : UInt64} {region : Region}
    (found : table.containing? cursor = some region) (granted : needed.all region.perms.grants)
    {count : Nat} (fits : count ≤ region.size - region.offset cursor) :
    table.Covers needed cursor.toNat count := by
  obtain ⟨member, low, high⟩ := formed.containing?_eq_some_iff.mp found
  intro i small
  simp only [Region.offset] at fits
  exact ⟨region, member, ⟨by omega, by omega⟩, granted⟩

/-- The end of a region is as far from the cursor as the bytes it has left. -/
theorem WellFormed.endAddr_eq_cursor_add (formed : table.WellFormed) {cursor : UInt64}
    {region : Region} (found : table.containing? cursor = some region) :
    region.endAddr.toNat = cursor.toNat + (region.size - region.offset cursor) := by
  obtain ⟨member, low, high⟩ := formed.containing?_eq_some_iff.mp found
  rw [formed.endAddr_toNat member]
  simp only [Region.offset]
  omega

/-- The walk takes one region at a time and decides byte by byte. It goes on at the end of a region,
which is the next byte only if bytes are left. -/
theorem WellFormed.walk_decides (formed : table.WellFormed) (needed : Option Permissions)
    (cursor : UInt64) (remaining : Nat) :
    table.Decides needed cursor.toNat remaining (table.walk needed cursor remaining) := by
  fun_induction table.walk needed cursor remaining with
  | case1 cursor => exact .granted covers_zero
  | case2 cursor remaining more missing =>
    have free := formed.containing?_eq_none_iff.mp missing
    have unmapped : ¬table.Mapped cursor.toNat :=
      fun ⟨region, member, holds⟩ => free region member holds
    have refused : ¬table.Grants needed cursor.toNat :=
      fun ⟨region, member, holds, _⟩ => free region member holds
    exact .unmapped ⟨Nat.le_refl _, by omega, fun _ _ _ => by omega, refused⟩ unmapped
  | case3 cursor remaining more region found granted offset count rest walked ih =>
    have front := formed.covers_part found granted (Nat.min_le_left _ remaining)
    rw [walked] at ih
    cases ih with
    | granted covers =>
      refine .granted (covers_append (Nat.min_le_right _ _) front ?_)
      by_cases last : remaining ≤ region.size - offset
      · rw [Nat.min_eq_right last, Nat.sub_self]
        exact covers_zero
      · have full : count = region.size - offset := Nat.min_eq_left (by omega)
        have start : cursor.toNat + count = region.endAddr.toNat := by
          rw [formed.endAddr_eq_cursor_add found, full]
        change table.Covers needed (cursor.toNat + count) (remaining - count)
        exact start ▸ covers
  | case4 cursor remaining more region found granted offset count cause walked ih =>
    have front := formed.covers_part found granted (Nat.min_le_left _ remaining)
    rw [walked] at ih
    have left : ¬remaining ≤ region.size - offset := by
      intro last
      have full : count = remaining := Nat.min_eq_right last
      rw [full, Nat.sub_self, walk, if_pos rfl] at walked
      contradiction
    have full : count = region.size - offset := Nat.min_eq_left (by omega)
    rw [formed.endAddr_eq_cursor_add found, ← full] at ih
    cases ih with
    | unmapped first free => exact .unmapped (first.extend (Nat.min_le_right _ _) front) free
    | denied first mapped => exact .denied (first.extend (Nat.min_le_right _ _) front) mapped
  | case5 cursor remaining more region found refused =>
    obtain ⟨member, holds⟩ := formed.containing?_eq_some_iff.mp found
    have denied : ¬table.Grants needed cursor.toNat := by
      rintro ⟨other, listed, inside, grants⟩
      rw [formed.eq_of_holds listed member inside holds] at grants
      exact refused grants
    exact .denied ⟨Nat.le_refl _, by omega, fun _ _ _ => by omega, denied⟩
      ⟨region, member, holds⟩

/-! The operations that walk. -/

theorem WellFormed.check_decides (formed : table.WellFormed) (address : UInt64) (size : Nat)
    (needed : Permissions) :
    table.Decides (some needed) address.toNat size (table.check address size needed) :=
  (formed.walk_decides (some needed) address size).map _

theorem WellFormed.readWith_decides (formed : table.WellFormed) (needed : Option Permissions)
    (address : UInt64) (size : Nat) :
    table.Decides needed address.toNat size (table.readWith needed address size) :=
  (formed.walk_decides needed address size).map _

/-- The end of a region is where the bytes it has left from a cursor on end. -/
theorem cursor_add_eq_endAddr {cursor : UInt64} {region : Region}
    (found : table.containing? cursor = some region) :
    cursor + UInt64.ofNat (region.size - region.offset cursor) = region.endAddr := by
  obtain ⟨below, inside⟩ := Option.filter_eq_some_iff.mp found
  have low := base_le_of_atOrBelow? below
  have high : region.offset cursor < region.size := by simpa using inside
  have top := cursor.toNat_lt
  simp only [Region.offset] at high ⊢
  apply UInt64.toNat_inj.mp
  simp only [Region.endAddr, UInt64.toNat_add, UInt64.toNat_ofNat']
  omega

/-- Once the walk has gone through a range, a copy to it takes the same parts. -/
theorem span_eq_of_walk (cursor : UInt64) (remaining : Nat) :
    ∀ chunks, table.walk needed cursor remaining = .ok chunks →
      table.span cursor remaining = .ok chunks := by
  fun_induction table.walk needed cursor remaining with
  | case1 cursor =>
    intro chunks walked
    rw [span, if_pos rfl]
    exact walked
  | case2 => simp
  | case3 cursor remaining more region found granted offset count rest walkedRest ih =>
    intro chunks walked
    obtain ⟨below, inside⟩ := Option.filter_eq_some_iff.mp found
    have inside : offset < region.size := by simpa using inside
    have later : table.span (cursor + UInt64.ofNat count) (remaining - count) = .ok rest := by
      by_cases last : remaining ≤ region.size - offset
      · have full : count = remaining := Nat.min_eq_right last
        rw [full, Nat.sub_self, walk, if_pos rfl] at walkedRest
        rw [full, Nat.sub_self, span, if_pos rfl]
        exact walkedRest
      · have full : count = region.size - offset := Nat.min_eq_left (by omega)
        rw [full, cursor_add_eq_endAddr found, ← full]
        exact ih rest walkedRest
    have some_byte : count ≠ 0 := by omega
    rw [← walked, span, if_neg more]
    simp only [below, show min (region.size - region.offset cursor) remaining = count from rfl]
    rw [if_neg some_byte, later]
  | case4 => simp
  | case5 => simp

/-- The parts that a walk goes through lie inside regions of the table. -/
theorem WellFormed.walk_inside (formed : table.WellFormed) (cursor : UInt64) (remaining : Nat) :
    ∀ chunks, table.walk needed cursor remaining = .ok chunks →
      (∀ chunk ∈ chunks, chunk.region ∈ table.regions ∧
        chunk.offset + chunk.count ≤ chunk.region.size) ∧
      (chunks.map Chunk.count).sum = remaining := by
  fun_induction table.walk needed cursor remaining with
  | case1 cursor =>
    rintro chunks ⟨⟩
    exact ⟨fun chunk listed => absurd listed (List.not_mem_nil), rfl⟩
  | case2 => simp
  | case3 cursor remaining more region found granted offset count rest walkedRest ih =>
    rintro chunks ⟨⟩
    obtain ⟨insideRest, sumRest⟩ := ih rest walkedRest
    obtain ⟨member, low, high⟩ := formed.containing?_eq_some_iff.mp found
    have here : offset + count ≤ region.size := by
      have : offset = cursor.toNat - region.base.toNat := rfl
      omega
    refine ⟨fun chunk listed => ?_, ?_⟩
    · rcases List.mem_cons.mp listed with rfl | later
      · exact ⟨member, here⟩
      · exact insideRest chunk later
    · simp only [List.map_cons, List.sum_cons, sumRest]
      omega
  | case4 => simp
  | case5 => simp

/-- A region after one part of a copy, which it takes if the part lies in it. -/
def patch (source : ByteArray) (chunk : Chunk) (start : Nat) (region : Region) : Region :=
  if region.base = chunk.region.base then
    { region with bytes := Bytes.overwrite region.bytes chunk.offset source start chunk.count }
  else region

theorem fill_cons (source : ByteArray) (chunk : Chunk) (rest : List Chunk) (start : Nat)
    (regions : List Region) :
    fill source (chunk :: rest) start regions =
      fill source rest (start + chunk.count) (regions.map (patch source chunk start)) := rfl

/-- A part of a copy that lies inside a region leaves it alone but for its bytes. -/
theorem patch_frame {source : ByteArray} {chunk : Chunk} {start : Nat} {region : Region}
    (inside : region.base = chunk.region.base → chunk.offset + chunk.count ≤ region.size)
    (enough : start + chunk.count ≤ source.size) :
    (patch source chunk start region).info = region.info ∧
      (patch source chunk start region).size = region.size := by
  unfold patch
  split_ifs with same
  · have kept := Bytes.size_overwrite (inside same) enough
    simp only [Region.info, Region.size, kept, and_self]
  · exact ⟨rfl, rfl⟩

theorem map_patch_frames {source : ByteArray} {chunk : Chunk} {start : Nat}
    {regions : List Region}
    (inside : ∀ region ∈ regions, region.base = chunk.region.base →
      chunk.offset + chunk.count ≤ region.size)
    (enough : start + chunk.count ≤ source.size) :
    (regions.map (patch source chunk start)).map (fun region => (region.info, region.size)) =
      regions.map fun region => (region.info, region.size) := by
  rw [List.map_map]
  refine List.map_congr_left fun region member => ?_
  obtain ⟨info, size⟩ := patch_frame (inside region member) enough
  exact Prod.ext info size

/-- A copy inside regions leaves all of them alone but for their bytes. -/
theorem fill_frames (source : ByteArray) (chunks : List Chunk) (start : Nat)
    (regions : List Region)
    (inside : ∀ chunk ∈ chunks, ∀ region ∈ regions, region.base = chunk.region.base →
      chunk.offset + chunk.count ≤ region.size)
    (enough : start + (chunks.map Chunk.count).sum ≤ source.size) :
    (fill source chunks start regions).map (fun region => (region.info, region.size)) =
      regions.map fun region => (region.info, region.size) := by
  induction chunks generalizing start regions with
  | nil => rfl
  | cons chunk rest ih =>
    simp only [List.map_cons, List.sum_cons] at enough
    have room : start + chunk.count ≤ source.size := by omega
    have kept := map_patch_frames (inside chunk (by simp)) room
    rw [fill_cons, ih, kept]
    · intro other listed region member same
      obtain ⟨old, oldMember, info, size⟩ := exists_twin_of_frames_eq kept.symm member
      have base : old.base = region.base := congrArg RegionInfo.base info
      rw [← size]
      exact inside other (by simp [listed]) old oldMember (base.trans same)
    · omega

/-- A write copies to the parts that the walk has gone through, and fails only if the walk does,
before a byte has changed. -/
theorem writeWith_eq_map_walk (table : MemoryMap) (needed : Option Permissions)
    (address : UInt64) (bytes : ByteArray) :
    table.writeWith needed address bytes =
      (table.walk needed address bytes.size).map fun chunks =>
        { table with regions := fill bytes chunks 0 table.regions } := by
  unfold writeWith
  cases walked : table.walk needed address bytes.size with
  | error cause => rfl
  | ok chunks =>
    simp only [span_eq_of_walk address bytes.size chunks walked]
    rfl

theorem WellFormed.writeWith_decides (formed : table.WellFormed) (needed : Option Permissions)
    (address : UInt64) (bytes : ByteArray) :
    table.Decides needed address.toNat bytes.size (table.writeWith needed address bytes) := by
  rw [writeWith_eq_map_walk]
  exact (formed.walk_decides needed address bytes.size).map _

/-- A write leaves the regions alone but for their bytes. -/
theorem WellFormed.writeWith_frames (formed : table.WellFormed) {address : UInt64}
    {bytes : ByteArray} {written : MemoryMap}
    (done : table.writeWith needed address bytes = .ok written) :
    written.nextId = table.nextId ∧
      written.regions.map (fun region => (region.info, region.size)) =
        table.regions.map fun region => (region.info, region.size) := by
  rw [writeWith_eq_map_walk] at done
  cases walked : table.walk needed address bytes.size with
  | error cause =>
    rw [walked] at done
    contradiction
  | ok chunks =>
    obtain ⟨inside, total⟩ := formed.walk_inside address bytes.size chunks walked
    rw [walked] at done
    obtain rfl := Except.ok.inj done
    refine ⟨rfl, fill_frames bytes chunks 0 table.regions ?_ (by omega)⟩
    intro chunk listed region member same
    rw [formed.eq_of_base_eq member (inside chunk listed).1 same]
    exact (inside chunk listed).2

/-- Writing keeps the layout. -/
theorem WellFormed.writeWith (formed : table.WellFormed) {address : UInt64} {bytes : ByteArray}
    {written : MemoryMap} (done : table.writeWith needed address bytes = .ok written) :
    written.WellFormed :=
  formed.of_frames_eq (formed.writeWith_frames done).2

end MemoryMap

end GuestMachine
