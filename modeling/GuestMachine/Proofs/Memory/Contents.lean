import GuestMachine.Proofs.Memory.Coverage

/-!
What memory holds. A read of a range gives the byte at each of its addresses, and a write replaces
these bytes and nothing else, through however many regions the range runs.
-/

namespace GuestMachine

namespace Bytes

/-- A byte of a block as one of a list. -/
theorem getElem?_eq_toList (bytes : ByteArray) (i : Nat) : bytes[i]? = bytes.data.toList[i]? :=
  Array.getElem?_toList.symm

theorem getElem?_append (a b : ByteArray) (i : Nat) :
    (a ++ b)[i]? = if i < a.size then a[i]? else b[i - a.size]? := by
  change (a ++ b).data[i]? = _
  rw [ByteArray.data_append, Array.getElem?_append]
  rfl

theorem getElem?_extract (block : ByteArray) (start stop i : Nat) :
    (block.extract start stop)[i]? =
      if i < min stop block.size - start then block[start + i]? else none := by
  change (block.extract start stop).data[i]? = _
  rw [ByteArray.data_extract, Array.getElem?_extract]
  rfl

theorem getElem?_zeros {size i : Nat} (small : i < size) : (zeros size)[i]? = some 0 := by
  change (Array.replicate size (0 : UInt8))[i]? = some 0
  simp [small]

/-- Overwriting replaces the bytes of its range and no others. -/
theorem getElem?_overwrite {block source : ByteArray} {offset start count : Nat}
    (inside : offset + count ≤ block.size) (enough : start + count ≤ source.size) (i : Nat) :
    (overwrite block offset source start count)[i]? =
      if offset ≤ i ∧ i < offset + count then source[start + (i - offset)]? else block[i]? := by
  change (block.data.extract 0 offset ++ source.data.extract start (start + count) ++
    block.data.extract (offset + min count (source.data.size - start)))[i]? =
    if _ then source.data[start + (i - offset)]? else block.data[i]?
  simp only [ByteArray.size] at inside enough
  have front : (block.data.extract 0 offset).size = offset := by
    rw [Array.size_extract]
    omega
  have middle : (source.data.extract start (start + count)).size = count := by
    rw [Array.size_extract]
    omega
  have taken : min count (source.data.size - start) = count := by omega
  rw [taken, Array.getElem?_append, Array.getElem?_append, Array.size_append, front, middle]
  simp only [Array.getElem?_extract, Nat.min_self]
  rcases Nat.lt_or_ge i offset with before | from_offset
  · rw [if_pos (by omega), if_pos before, if_pos (by omega), if_neg (by omega), Nat.zero_add]
  · by_cases after : i < offset + count
    · rw [if_pos after, if_neg (by omega), if_pos (by omega), if_pos ⟨from_offset, after⟩]
    · have outside : ¬(offset ≤ i ∧ i < offset + count) := by omega
      rw [if_neg after, if_neg outside]
      by_cases beyond : i < block.data.size
      · rw [if_pos (by omega), Nat.add_sub_cancel' (by omega)]
      · rw [if_neg (by omega), Array.getElem?_eq_none (by omega)]

end Bytes

namespace Region

/-- The byte that a region holds at an address. -/
def byteAt? (region : Region) (address : Nat) : Option UInt8 :=
  if region.base.toNat ≤ address then region.bytes[address - region.base.toNat]? else none

theorem byteAt?_eq_none_iff {region : Region} {address : Nat} :
    region.byteAt? address = none ↔ ¬region.Holds address := by
  have out : region.bytes[address - region.base.toNat]? = none ↔
      region.size ≤ address - region.base.toNat := Array.getElem?_eq_none_iff
  unfold byteAt? Holds
  split_ifs with low
  · rw [out]
    omega
  · simp [low]

theorem byteAt?_of_holds {region : Region} {address : Nat} (holds : region.Holds address) :
    region.byteAt? address = region.bytes[address - region.base.toNat]? :=
  if_pos holds.1

end Region

namespace MemoryMap

/-- The byte that memory holds at an address. Addresses are numbers, so that none wraps. -/
def byteAt? (table : MemoryMap) (address : Nat) : Option UInt8 :=
  table.regions.findSome? fun region => region.byteAt? address

variable {table : MemoryMap}

/-- Memory holds a byte exactly where something is mapped. -/
theorem byteAt?_eq_none_iff {address : Nat} :
    table.byteAt? address = none ↔ ¬table.Mapped address := by
  simp [byteAt?, Mapped, Region.byteAt?_eq_none_iff]

theorem byteAt?_of_regions_eq {other : MemoryMap} {address : Nat}
    (same : other.regions = table.regions) : other.byteAt? address = table.byteAt? address := by
  rw [byteAt?, byteAt?, same]

/-- The byte at an address is that of the region that holds it. -/
theorem WellFormed.byteAt?_of_holds (formed : table.WellFormed) {region : Region}
    (member : region ∈ table.regions) {address : Nat} (holds : region.Holds address) :
    table.byteAt? address = region.byteAt? address := by
  cases found : table.byteAt? address with
  | none => exact absurd ⟨region, member, holds⟩ (byteAt?_eq_none_iff.mp found)
  | some byte =>
    obtain ⟨other, listed, here⟩ := List.exists_of_findSome?_eq_some found
    have inside : other.Holds address := by
      by_contra outside
      rw [Region.byteAt?_eq_none_iff.mpr outside] at here
      contradiction
    rw [← formed.eq_of_holds listed member inside holds, here]

/-! Parts of regions. -/

/-- Whether parts lie inside regions of the table, one behind another from an address on. -/
def Tiles (table : MemoryMap) : Nat → List Chunk → Prop
  | _, [] => True
  | address, chunk :: rest =>
    (∃ region ∈ table.regions, region.base = chunk.region.base ∧
      chunk.offset + chunk.count ≤ region.size) ∧
    chunk.region.base.toNat + chunk.offset = address ∧
    table.Tiles (address + chunk.count) rest

/-- The parts that a walk goes through lie one behind another. -/
theorem WellFormed.tiles_of_walk (formed : table.WellFormed) {needed : Option Permissions}
    (cursor : UInt64) (remaining : Nat) :
    ∀ chunks, table.walk needed cursor remaining = .ok chunks →
      table.Tiles cursor.toNat chunks := by
  fun_induction table.walk needed cursor remaining with
  | case1 cursor =>
    rintro chunks ⟨⟩
    trivial
  | case2 => simp
  | case3 cursor remaining more region found granted offset count rest walkedRest ih =>
    rintro chunks ⟨⟩
    obtain ⟨member, low, high⟩ := formed.containing?_eq_some_iff.mp found
    have at_offset : offset = cursor.toNat - region.base.toNat := rfl
    have inside : offset + count ≤ region.size := by omega
    have starts : region.base.toNat + offset = cursor.toNat := by omega
    refine ⟨⟨region, member, rfl, inside⟩, starts, ?_⟩
    by_cases last : remaining ≤ region.size - offset
    · have full : count = remaining := Nat.min_eq_right last
      rw [full, Nat.sub_self, walk, if_pos rfl] at walkedRest
      obtain rfl := Except.ok.inj walkedRest
      trivial
    · have full : count = region.size - offset := Nat.min_eq_left (by omega)
      have start : cursor.toNat + count = region.endAddr.toNat := by
        rw [formed.endAddr_eq_cursor_add found, full]
      exact start ▸ ih rest walkedRest
  | case4 => simp
  | case5 => simp

/-- A part of a region holds the bytes at the addresses that it covers. -/
theorem WellFormed.getElem?_bytes (formed : table.WellFormed) {chunk : Chunk}
    (member : chunk.region ∈ table.regions)
    (fits : chunk.offset + chunk.count ≤ chunk.region.size) {i : Nat} (small : i < chunk.count) :
    chunk.bytes[i]? = table.byteAt? (chunk.region.base.toNat + chunk.offset + i) := by
  have holds : chunk.region.Holds (chunk.region.base.toNat + chunk.offset + i) :=
    ⟨by omega, by omega⟩
  have at_offset : chunk.region.base.toNat + chunk.offset + i - chunk.region.base.toNat =
    chunk.offset + i := by omega
  rw [formed.byteAt?_of_holds member holds, Region.byteAt?_of_holds holds, at_offset, Chunk.bytes,
    Bytes.getElem?_extract, if_pos]
  simp only [Region.size] at fits
  omega

/-- Putting parts together gives the byte at each address that they cover. -/
theorem WellFormed.getElem?_foldl_bytes (formed : table.WellFormed) {address : Nat}
    {chunks : List Chunk} (tiles : table.Tiles address chunks)
    (listed : ∀ chunk ∈ chunks, chunk.region ∈ table.regions) (read : ByteArray) (i : Nat) :
    (chunks.foldl (fun bytes chunk => bytes ++ chunk.bytes) read)[i]? =
      if i < read.size then read[i]?
      else if i - read.size < (chunks.map Chunk.count).sum then
        table.byteAt? (address + (i - read.size))
      else none := by
  induction chunks generalizing address read with
  | nil =>
    simp only [List.foldl_nil, List.map_nil, List.sum_nil, Nat.not_lt_zero, if_false]
    split_ifs with early
    · rfl
    · exact Array.getElem?_eq_none (Nat.le_of_not_lt early)
  | cons chunk rest ih =>
    obtain ⟨⟨twin, member, base, fits⟩, starts, tilesRest⟩ := tiles
    have chosen := listed chunk (by simp)
    obtain rfl := formed.eq_of_base_eq member chosen base
    have size : chunk.bytes.size = chunk.count := by
      simp only [Region.size] at fits
      simp only [Chunk.bytes, ByteArray.size_extract]
      omega
    rw [List.foldl_cons, ih tilesRest fun other later => listed other (by simp [later])]
    simp only [Bytes.getElem?_append, ByteArray.size_append, size, List.map_cons, List.sum_cons]
    by_cases early : i < read.size
    · rw [if_pos (by omega), if_pos early, if_pos early]
    · rw [if_neg early, if_neg early]
      by_cases here : i < read.size + chunk.count
      · rw [if_pos here, if_pos (by omega), formed.getElem?_bytes chosen fits (by omega), starts]
      · have elsewhere : i - (read.size + chunk.count) = i - read.size - chunk.count := by omega
        have same : address + chunk.count + (i - read.size - chunk.count) =
          address + (i - read.size) := by omega
        rw [if_neg here, elsewhere, same]
        simp only [show i - read.size - chunk.count < (rest.map Chunk.count).sum ↔
          i - read.size < chunk.count + (rest.map Chunk.count).sum by omega]

/-- A read gives as many bytes as asked for, each the one at its address. -/
theorem WellFormed.getElem?_readWith (formed : table.WellFormed) {needed : Option Permissions}
    {address : UInt64} {size : Nat} {bytes : ByteArray}
    (done : table.readWith needed address size = .ok bytes) (i : Nat) :
    bytes[i]? = if i < size then table.byteAt? (address.toNat + i) else none := by
  unfold readWith at done
  cases walked : table.walk needed address size with
  | error cause =>
    rw [walked] at done
    contradiction
  | ok chunks =>
    obtain ⟨inside, total⟩ := formed.walk_inside address size chunks walked
    have tiles := formed.tiles_of_walk address size chunks walked
    rw [walked] at done
    obtain rfl := Except.ok.inj done
    have listed (chunk : Chunk) (member : chunk ∈ chunks) := (inside chunk member).1
    simpa [total] using formed.getElem?_foldl_bytes tiles listed ByteArray.empty i

/-! Copies. -/

theorem Tiles.of_frames_eq {other : MemoryMap} {address : Nat} {chunks : List Chunk}
    (tiles : table.Tiles address chunks)
    (same : other.regions.map (fun region => (region.info, region.size)) =
      table.regions.map fun region => (region.info, region.size)) :
    other.Tiles address chunks := by
  induction chunks generalizing address with
  | nil => trivial
  | cons chunk rest ih =>
    obtain ⟨⟨region, member, base, fits⟩, starts, tilesRest⟩ := tiles
    obtain ⟨twin, listed, info, size⟩ := exists_twin_of_frames_eq same member
    have sameBase : twin.base = region.base := congrArg RegionInfo.base info
    exact ⟨⟨twin, listed, sameBase.trans base, size ▸ fits⟩, starts, ih tilesRest⟩

theorem byteAt?_patch {source : ByteArray} {chunk : Chunk} {start : Nat} {region : Region}
    (inside : region.base = chunk.region.base → chunk.offset + chunk.count ≤ region.size)
    (enough : start + chunk.count ≤ source.size) (address : Nat) :
    let first := chunk.region.base.toNat + chunk.offset
    (patch source chunk start region).byteAt? address =
      if region.base = chunk.region.base ∧ first ≤ address ∧ address < first + chunk.count then
        source[start + (address - first)]?
      else region.byteAt? address := by
  intro first
  unfold patch
  by_cases same : region.base = chunk.region.base
  · have covers : first ≤ address ∧ address < first + chunk.count ↔
        region.base.toNat ≤ address ∧ chunk.offset ≤ address - region.base.toNat ∧
          address - region.base.toNat < chunk.offset + chunk.count := by
      simp only [first, same]
      omega
    have from_first : address - region.base.toNat - chunk.offset = address - first := by
      simp only [first, same]
      omega
    rw [if_pos same]
    simp only [same, true_and, covers, Region.byteAt?]
    by_cases low : chunk.region.base.toNat ≤ address
    · rw [same] at from_first
      simp only [low, true_and, if_true, Bytes.getElem?_overwrite (inside same) enough, from_first]
    · simp only [low, false_and, if_false]
  · rw [if_neg same, if_neg fun covered => same covered.1]

theorem holds_patch_iff {source : ByteArray} {chunk : Chunk} {start : Nat} {region : Region}
    (inside : region.base = chunk.region.base → chunk.offset + chunk.count ≤ region.size)
    (enough : start + chunk.count ≤ source.size) (address : Nat) :
    (patch source chunk start region).Holds address ↔ region.Holds address := by
  obtain ⟨info, size⟩ := patch_frame inside enough
  have base : (patch source chunk start region).base = region.base := congrArg RegionInfo.base info
  simp only [Region.Holds, base, size]

/-- One part of a copy replaces the bytes at the addresses that it covers and no others. -/
theorem WellFormed.byteAt?_map_patch (formed : table.WellFormed) {source : ByteArray}
    {chunk : Chunk} {start : Nat} {host : Region} (member : host ∈ table.regions)
    (base : host.base = chunk.region.base)
    (inside : ∀ region ∈ table.regions, region.base = chunk.region.base →
      chunk.offset + chunk.count ≤ region.size)
    (enough : start + chunk.count ≤ source.size) (address : Nat) :
    let first := chunk.region.base.toNat + chunk.offset
    (⟨table.regions.map (patch source chunk start), table.nextId⟩ : MemoryMap).byteAt? address =
      if first ≤ address ∧ address < first + chunk.count then source[start + (address - first)]?
      else table.byteAt? address := by
  intro first
  generalize patching : (⟨table.regions.map (patch source chunk start), table.nextId⟩ :
    MemoryMap) = patched
  have patchedRegions : patched.regions = table.regions.map (patch source chunk start) := by
    rw [← patching]
  have formedAfter : patched.WellFormed :=
    formed.of_frames_eq (patchedRegions ▸ map_patch_frames inside enough)
  have covered (here : first ≤ address ∧ address < first + chunk.count) : host.Holds address := by
    have fits := inside host member base
    simp only [first, ← base] at here
    exact ⟨by omega, by omega⟩
  by_cases mapped : table.Mapped address
  · obtain ⟨region, listed, holds⟩ := mapped
    have owner (here : first ≤ address ∧ address < first + chunk.count) :
        region.base = chunk.region.base := by
      rw [formed.eq_of_holds listed member holds (covered here), base]
    have taken : patch source chunk start region ∈ patched.regions :=
      patchedRegions ▸ List.mem_map_of_mem listed
    have holdsAfter := (holds_patch_iff (inside region listed) enough address).mpr holds
    rw [formedAfter.byteAt?_of_holds taken holdsAfter, formed.byteAt?_of_holds listed holds,
      byteAt?_patch (inside region listed) enough]
    exact if_congr ⟨And.right, fun here => ⟨owner here, here⟩⟩ rfl rfl
  · have free : ¬patched.Mapped address := by
      rintro ⟨taken, listed, holds⟩
      rw [patchedRegions] at listed
      obtain ⟨region, old, rfl⟩ := List.mem_map.mp listed
      exact mapped ⟨region, old, (holds_patch_iff (inside region old) enough address).mp holds⟩
    rw [byteAt?_eq_none_iff.mpr free, if_neg fun here => mapped ⟨host, member, covered here⟩,
      byteAt?_eq_none_iff.mpr mapped]

/-- A copy through parts that lie one behind another replaces the bytes that they cover. -/
theorem WellFormed.byteAt?_fill (formed : table.WellFormed) {source : ByteArray} {first : Nat}
    {chunks : List Chunk} (tiles : table.Tiles first chunks) {start : Nat}
    (enough : start + (chunks.map Chunk.count).sum ≤ source.size) (address : Nat) :
    (⟨fill source chunks start table.regions, table.nextId⟩ : MemoryMap).byteAt? address =
      if first ≤ address ∧ address < first + (chunks.map Chunk.count).sum then
        source[start + (address - first)]?
      else table.byteAt? address := by
  induction chunks generalizing table first start with
  | nil =>
    rw [if_neg (by simp only [List.map_nil, List.sum_nil]; omega)]
    rfl
  | cons chunk rest ih =>
    simp only [List.map_cons, List.sum_cons] at enough ⊢
    obtain ⟨⟨host, member, base, fits⟩, rfl, tilesRest⟩ := tiles
    have inside (region : Region) (listed : region ∈ table.regions)
        (same : region.base = chunk.region.base) : chunk.offset + chunk.count ≤ region.size := by
      rw [formed.eq_of_base_eq listed member (same.trans base.symm)]
      exact fits
    have room : start + chunk.count ≤ source.size := by omega
    have frames := map_patch_frames inside room
    have patched := formed.byteAt?_map_patch member base inside room address
    have tilesAfter : (⟨table.regions.map (patch source chunk start), table.nextId⟩ :
      MemoryMap).Tiles _ rest := tilesRest.of_frames_eq frames
    have later := ih (formed.of_frames_eq frames) tilesAfter
      (show start + chunk.count + _ ≤ source.size by omega)
    rw [fill_cons, later, patched]
    generalize chunk.region.base.toNat + chunk.offset = first
    by_cases here : first ≤ address ∧ address < first + chunk.count
    · rw [if_neg (by omega), if_pos here, if_pos (by omega)]
    · rw [if_neg here]
      by_cases behind : first + chunk.count ≤ address ∧
          address < first + chunk.count + (rest.map Chunk.count).sum
      · have same : start + chunk.count + (address - (first + chunk.count)) =
          start + (address - first) := by omega
        rw [if_pos behind, if_pos (by omega), same]
      · rw [if_neg behind, if_neg (by omega)]

/-- A write replaces the bytes of its range and no others. -/
theorem WellFormed.byteAt?_writeWith (formed : table.WellFormed) {needed : Option Permissions}
    {start : UInt64} {bytes : ByteArray} {written : MemoryMap}
    (done : table.writeWith needed start bytes = .ok written) (address : Nat) :
    written.byteAt? address =
      if start.toNat ≤ address ∧ address < start.toNat + bytes.size then
        bytes[address - start.toNat]?
      else table.byteAt? address := by
  rw [writeWith_eq_map_walk] at done
  cases walked : table.walk needed start bytes.size with
  | error cause =>
    rw [walked] at done
    contradiction
  | ok chunks =>
    obtain ⟨-, total⟩ := formed.walk_inside start bytes.size chunks walked
    have tiles := formed.tiles_of_walk start bytes.size chunks walked
    rw [walked] at done
    obtain rfl := Except.ok.inj done
    simpa [total] using formed.byteAt?_fill tiles (show 0 + _ ≤ bytes.size by omega) address

end MemoryMap

end GuestMachine
