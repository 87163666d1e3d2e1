import GuestMachine.Proofs.Memory.History

/-!
Operations on memory with strict arithmetic, which traps at a sum that does not fit in a word, at a
difference below zero, at a slice that runs out of its block and at a round of a loop that takes no
byte. The loops are cut into rounds, and a copy stores its bytes in the table itself, part by part.
On every table that calls lead to nothing traps, and the operations come to what they come to on
numbers without bounds.
-/

namespace GuestMachine

/-- Why strict arithmetic traps. -/
inductive Trap where
  | overflow
  | underflow
  /-- A slice runs out of its block. -/
  | outOfRange
  /-- Bytes are stored over fewer or more than they are. -/
  | mismatch
  /-- A round of a loop takes no byte. -/
  | stalled
  deriving DecidableEq, Repr

abbrev Strict (α : Type) : Type := Except Trap α

namespace Strict

def add (a b : Nat) : Strict Nat :=
  if a + b < UInt64.size then .ok (a + b) else .error .overflow

def sub (a b : Nat) : Strict Nat :=
  if b ≤ a then .ok (a - b) else .error .underflow

/-- The bytes of a block from `start` up to `stop`. -/
def slice (block : ByteArray) (start stop : Nat) : Strict ByteArray :=
  if start ≤ stop ∧ stop ≤ block.size then .ok (block.extract start stop) else .error .outOfRange

/-- A block with the bytes of `source` in place of its own from `start` up to `stop`. -/
def store (block : ByteArray) (start stop : Nat) (source : ByteArray) : Strict ByteArray :=
  if start ≤ stop ∧ stop ≤ block.size then
    if source.size = stop - start then .ok (Bytes.overwrite block start source 0 source.size)
    else .error .mismatch
  else .error .outOfRange

variable {α β : Type} {a b start count offset : Nat} {block source : ByteArray}

@[simp] theorem ok_bind (a : α) (f : α → Strict β) : (Except.ok a >>= f : Strict β) = f a := rfl

@[simp] theorem pure_eq_ok (a : α) : (pure a : Strict α) = .ok a := rfl

theorem add_eq_ok (fits : a + b < UInt64.size) : add a b = .ok (a + b) :=
  if_pos fits

theorem sub_eq_ok (order : b ≤ a) : sub a b = .ok (a - b) :=
  if_pos order

theorem slice_eq_ok (fits : start + count ≤ block.size) :
    slice block start (start + count) = .ok (block.extract start (start + count)) :=
  if_pos ⟨Nat.le_add_right start count, fits⟩

/-- Storing a slice overwrites with part of the block that it was taken from. -/
theorem store_eq_ok (inside : offset + count ≤ block.size) (enough : start + count ≤ source.size) :
    store block offset (offset + count) (source.extract start (start + count)) =
      .ok (Bytes.overwrite block offset source start count) := by
  have length : (source.extract start (start + count)).size = count := by
    rw [ByteArray.size_extract]
    omega
  rw [store, if_pos ⟨Nat.le_add_right offset count, inside⟩, length, if_pos (by omega)]
  congr 1
  apply ByteArray.ext
  simp only [ByteArray.size] at enough
  have taken : min (start + (0 + count)) (start + count) = start + count := by omega
  have behind : min count (min (start + count) source.data.size - start - 0) =
      min count (source.data.size - start) := by omega
  simp only [Bytes.overwrite, ByteArray.copySlice, ByteArray.data_extract, Array.extract_extract,
    Array.size_extract, Nat.add_zero, taken, behind]

end Strict

/-- Where a part of a region lies. -/
structure Place where
  base : UInt64
  offset : Nat
  count : Nat
  deriving DecidableEq, Repr

def Chunk.place (chunk : Chunk) : Place :=
  ⟨chunk.region.base, chunk.offset, chunk.count⟩

namespace MemoryMap

/-! Lookups and the walk. -/

/-- The region that covers an address, by the distance from the last base at or below it. -/
def strictContaining? (table : MemoryMap) (address : UInt64) : Strict (Option Region) :=
  match table.atOrBelow? address with
  | none => return none
  | some region => do
    let distance ← Strict.sub address.toNat region.base.toNat
    return if distance < region.size then some region else none

/-- Whether a range meets a region, by the end of the last one that starts below its own end. -/
def strictOverlaps (table : MemoryMap) (base stop : UInt64) : Strict Bool :=
  match table.below? stop with
  | none => return false
  | some other => do
    let reached ← Strict.add other.base.toNat other.size
    return decide (base.toNat < reached)

/-- One round of the walk: the part that it takes, where the next one begins, and how many bytes
are left for it. -/
def walkRound (table : MemoryMap) (needed : Option Permissions) (cursor : UInt64)
    (remaining : Nat) : Strict (Except Error (Chunk × UInt64 × Nat)) := do
  match ← table.strictContaining? cursor with
  | none => return .error (.unmappedMemory cursor)
  | some region =>
    if needed.all region.perms.grants then
      let offset ← Strict.sub cursor.toNat region.base.toNat
      let room ← Strict.sub region.size offset
      let count := min room remaining
      let left ← Strict.sub remaining count
      let next ← Strict.add region.base.toNat region.size
      return .ok (⟨region, offset, count⟩, UInt64.ofNat next, left)
    else return .error (.permissionDenied cursor)

/-- The walk, round by round. Each one takes at least a byte. -/
def strictWalk (table : MemoryMap) (needed : Option Permissions) (cursor : UInt64)
    (remaining : Nat) : Strict (Except Error (List Chunk)) :=
  if remaining = 0 then .ok (.ok [])
  else
    match table.walkRound needed cursor remaining with
    | .error trap => .error trap
    | .ok (.error cause) => .ok (.error cause)
    | .ok (.ok (chunk, next, left)) =>
      if left < remaining then
        (table.strictWalk needed next left).map fun rest => rest.map (chunk :: ·)
      else .error .stalled
termination_by remaining

/-- Bytes of a range, one slice of a region's storage after another. -/
def strictReadWith (table : MemoryMap) (needed : Option Permissions) (address : UInt64)
    (size : Nat) : Strict (Except Error ByteArray) := do
  match ← table.strictWalk needed address size with
  | .error cause => return .error cause
  | .ok chunks =>
    let bytes ← chunks.foldlM (fun bytes chunk => do
      let stop ← Strict.add chunk.offset chunk.count
      let slice ← Strict.slice chunk.region.bytes chunk.offset stop
      return bytes ++ slice) ByteArray.empty
    return .ok bytes

/-! The copy. -/

/-- The table with other bytes in the region at a base. -/
def withBytes (table : MemoryMap) (base : UInt64) (bytes : ByteArray) : MemoryMap :=
  { table with regions := table.regions.map fun region =>
      if region.base = base then { region with bytes := bytes } else region }

/-- One round of a copy of what is left of `bytes` behind the first `written`: the part that it
takes, where the next one begins, how many bytes are written and the table with them. The part is
the rest of the last region that starts at or below the cursor, whether it reaches the cursor or
not. The cursor may wrap: at the top of the address space no byte is left to be written. -/
def copyRound (bytes : ByteArray) (cursor : UInt64) (written : Nat) (table : MemoryMap) :
    Strict (Except Error (Place × UInt64 × Nat × MemoryMap)) :=
  match table.atOrBelow? cursor with
  | none => return .error (.unmappedMemory cursor)
  | some region => do
    let offset ← Strict.sub cursor.toNat region.base.toNat
    let room ← Strict.sub region.size offset
    let left ← Strict.sub bytes.size written
    let count := min room left
    let stop ← Strict.add offset count
    let total ← Strict.add written count
    let source ← Strict.slice bytes written total
    let stored ← Strict.store region.bytes offset stop source
    return .ok (⟨region.base, offset, count⟩, cursor + UInt64.ofNat count, total,
      table.withBytes region.base stored)

/-- The copy, round by round, with the places that it has been to. Each round takes at least a
byte; if one fails, the bytes that are stored stay. -/
def strictCopy (bytes : ByteArray) (cursor : UInt64) (written : Nat) (table : MemoryMap) :
    Strict (Except Error (List Place) × MemoryMap) :=
  if bytes.size ≤ written then .ok (.ok [], table)
  else
    match copyRound bytes cursor written table with
    | .error trap => .error trap
    | .ok (.error cause) => .ok (.error cause, table)
    | .ok (.ok (place, next, total, stored)) =>
      if written < total then
        (strictCopy bytes next total stored).map fun (rest, final) =>
          (rest.map (place :: ·), final)
      else .error .stalled
termination_by bytes.size - written

/-- Looks at the whole range and then copies. -/
def strictWriteWith (table : MemoryMap) (needed : Option Permissions) (address : UInt64)
    (bytes : ByteArray) : Strict (Except Error Unit × MemoryMap) := do
  match ← table.strictWalk needed address bytes.size with
  | .error cause => return (.error cause, table)
  | .ok _ =>
    let (places, final) ← strictCopy bytes address 0 table
    return (places.map fun _ => (), final)

variable {table other patched : MemoryMap} {needed : Option Permissions} {region : Region}
  {address cursor : UInt64}

/-! Lookups. -/

theorem strictContaining?_eq (table : MemoryMap) (address : UInt64) :
    table.strictContaining? address = .ok (table.containing? address) := by
  unfold strictContaining? containing?
  cases below : table.atOrBelow? address with
  | none => rfl
  | some region =>
    simp only [Strict.sub_eq_ok (base_le_of_atOrBelow? below), Strict.ok_bind, Option.filter,
      decide_eq_true_eq]
    rfl

theorem WellFormed.strictOverlaps_eq (formed : table.WellFormed) (base stop : UInt64) :
    table.strictOverlaps base stop = .ok (table.overlaps base stop) := by
  unfold strictOverlaps overlaps
  cases below : table.below? stop with
  | none => rfl
  | some last =>
    have member := (List.mem_filter.mp (List.mem_of_getLast? below)).1
    simp only [Strict.add_eq_ok (formed.fits last member), Strict.ok_bind, Strict.pure_eq_ok,
      UInt64.lt_iff_toNat_lt, formed.endAddr_toNat member]

/-- The overlap test traps at a region that ends at the top of the address space. -/
example : strictOverlaps ⟨[⟨0xFFFFFFFFFFFFFFFE, ⟨0⟩, .all, Bytes.zeros 2⟩], 1⟩ 0
    0xFFFFFFFFFFFFFFFF = .error .overflow := by
  rfl

/-! The walk. -/

theorem walkRound_of_missing {remaining : Nat} (missing : table.containing? cursor = none) :
    table.walkRound needed cursor remaining = .ok (.error (.unmappedMemory cursor)) := by
  simp only [walkRound, strictContaining?_eq, missing, Strict.ok_bind, Strict.pure_eq_ok]

theorem walkRound_of_refused {remaining : Nat} (found : table.containing? cursor = some region)
    (refused : ¬needed.all region.perms.grants) :
    table.walkRound needed cursor remaining = .ok (.error (.permissionDenied cursor)) := by
  simp only [walkRound, strictContaining?_eq, found, if_neg refused, Strict.ok_bind,
    Strict.pure_eq_ok]

theorem WellFormed.walkRound_of_granted (formed : table.WellFormed) {remaining : Nat}
    (found : table.containing? cursor = some region)
    (granted : needed.all region.perms.grants) :
    let offset := region.offset cursor
    let count := min (region.size - offset) remaining
    table.walkRound needed cursor remaining =
      .ok (.ok (⟨region, offset, count⟩, region.endAddr, remaining - count)) := by
  obtain ⟨member, low, high⟩ := formed.containing?_eq_some_iff.mp found
  have inside : cursor.toNat - region.base.toNat ≤ region.size := by omega
  have next : UInt64.ofNat (region.base.toNat + region.size) = region.endAddr := by
    rw [← formed.endAddr_toNat member, UInt64.ofNat_toNat]
  simp only [walkRound, strictContaining?_eq, found, if_pos granted, Strict.sub_eq_ok low,
    Strict.sub_eq_ok inside, Strict.sub_eq_ok (Nat.min_le_right _ remaining),
    Strict.add_eq_ok (formed.fits region member), next, Strict.ok_bind, Strict.pure_eq_ok]
  rfl

/-! The loop of the walk. -/

/-- A round that finds a region takes a byte at least, and the walk goes on behind it. -/
theorem WellFormed.strictWalk_of_granted (formed : table.WellFormed) {remaining : Nat}
    (more : remaining ≠ 0) (found : table.containing? cursor = some region)
    (granted : needed.all region.perms.grants) :
    let offset := region.offset cursor
    let count := min (region.size - offset) remaining
    table.strictWalk needed cursor remaining =
      (table.strictWalk needed region.endAddr (remaining - count)).map
        fun rest => rest.map (⟨region, offset, count⟩ :: ·) := by
  intro offset count
  have taken : remaining - count < remaining := by
    have := offset_lt_of_containing found
    omega
  rw [strictWalk, if_neg more, formed.walkRound_of_granted found granted]
  simp only
  rw [if_pos taken]

theorem WellFormed.strictWalk_eq (formed : table.WellFormed) (needed : Option Permissions)
    (cursor : UInt64) (remaining : Nat) :
    table.strictWalk needed cursor remaining = .ok (table.walk needed cursor remaining) := by
  fun_induction table.walk needed cursor remaining with
  | case1 cursor => rw [strictWalk, if_pos rfl]
  | case2 cursor remaining more missing =>
    rw [strictWalk, if_neg more, walkRound_of_missing missing]
  | case3 cursor remaining more region found granted offset count rest walked ih
  | case4 cursor remaining more region found granted offset count cause walked ih =>
    rw [formed.strictWalk_of_granted more found granted, ih, walked]
    rfl
  | case5 cursor remaining more region found refused =>
    rw [strictWalk, if_neg more, walkRound_of_refused found refused]

/-- Parts that lie inside regions of the table are put together without a trap. -/
theorem WellFormed.foldlM_slices_eq (formed : table.WellFormed) (chunks : List Chunk)
    (inside : ∀ chunk ∈ chunks, chunk.region ∈ table.regions ∧
      chunk.offset + chunk.count ≤ chunk.region.size) (read : ByteArray) :
    chunks.foldlM (fun bytes chunk => do
      let stop ← Strict.add chunk.offset chunk.count
      let slice ← Strict.slice chunk.region.bytes chunk.offset stop
      return bytes ++ slice) read =
      (.ok (chunks.foldl (fun bytes chunk => bytes ++ chunk.bytes) read) : Strict ByteArray) := by
  induction chunks generalizing read with
  | nil => rfl
  | cons chunk rest ih =>
    obtain ⟨member, fits⟩ := inside chunk List.mem_cons_self
    have word : chunk.offset + chunk.count < UInt64.size := by
      have := formed.fits chunk.region member
      omega
    rw [List.foldlM_cons, Strict.add_eq_ok word, Strict.ok_bind, Strict.slice_eq_ok fits]
    exact ih (fun other later => inside other (List.mem_cons_of_mem chunk later)) _

theorem WellFormed.strictReadWith_eq (formed : table.WellFormed) (needed : Option Permissions)
    (address : UInt64) (size : Nat) :
    table.strictReadWith needed address size = .ok (table.readWith needed address size) := by
  rw [strictReadWith, readWith, formed.strictWalk_eq, Strict.ok_bind]
  cases walked : table.walk needed address size with
  | error cause => rfl
  | ok chunks =>
    obtain ⟨inside, -⟩ := formed.walk_inside address size chunks walked
    simp only [formed.foldlM_slices_eq chunks inside, Strict.ok_bind]
    rfl

/-! The copy. -/

/-- Bytes stored in a region are a patch of it, for no other region has its base. -/
theorem WellFormed.withBytes_overwrite (formed : table.WellFormed)
    (member : region ∈ table.regions) (source : ByteArray) (offset start count : Nat) :
    table.withBytes region.base (Bytes.overwrite region.bytes offset source start count) =
      { table with regions := table.regions.map (patch source ⟨region, offset, count⟩ start) } := by
  rw [withBytes, MemoryMap.mk.injEq]
  refine ⟨List.map_congr_left fun listed among => ?_, rfl⟩
  unfold patch
  split_ifs with same
  · rw [formed.eq_of_base_eq among member same]
  · rfl

/-- A round that begins inside a region takes what the walk would take there. -/
theorem WellFormed.copyRound_of_containing (formed : table.WellFormed) {bytes : ByteArray}
    {written : Nat} (word : bytes.size < UInt64.size) (early : written < bytes.size)
    (found : table.containing? cursor = some region) :
    let offset := region.offset cursor
    let count := min (region.size - offset) (bytes.size - written)
    copyRound bytes cursor written table =
      .ok (.ok (⟨region.base, offset, count⟩, cursor + UInt64.ofNat count, written + count,
        { table with
          regions := table.regions.map (patch bytes ⟨region, offset, count⟩ written) })) := by
  intro offset count
  obtain ⟨member, low, high⟩ := formed.containing?_eq_some_iff.mp found
  have below : table.atOrBelow? cursor = some region := (Option.filter_eq_some_iff.mp found).1
  have fits := formed.fits region member
  have at_offset : offset = cursor.toNat - region.base.toNat := rfl
  have inside : offset + count ≤ region.bytes.size := by
    have : region.bytes.size = region.size := rfl
    omega
  have enough : written + count ≤ bytes.size := by omega
  simp only [copyRound, below, Strict.sub_eq_ok low, ← at_offset, Strict.ok_bind,
    Strict.sub_eq_ok (show offset ≤ region.size by omega),
    Strict.sub_eq_ok (Nat.le_of_lt early)]
  change (Strict.add offset count >>= _) = _
  rw [Strict.add_eq_ok (show offset + count < UInt64.size by omega), Strict.ok_bind,
    Strict.add_eq_ok (show written + count < UInt64.size by omega), Strict.ok_bind,
    Strict.slice_eq_ok enough, Strict.ok_bind, Strict.store_eq_ok inside enough, Strict.ok_bind,
    formed.withBytes_overwrite member, Strict.pure_eq_ok]

/-- A copy that no walk went before traps behind the end of a region. -/
example : copyRound ⟨#[7]⟩ 2 0 ⟨[⟨0, ⟨0⟩, .all, Bytes.zeros 1⟩], 1⟩ = .error .underflow := by
  rfl

/-- The regions of tables that differ in bytes only lie in the same places. -/
theorem WellFormed.exists_twin_of_containing (formed : table.WellFormed)
    (same : other.regions.map (fun region => (region.info, region.size)) =
      table.regions.map fun region => (region.info, region.size))
    (found : table.containing? cursor = some region) :
    ∃ twin, other.containing? cursor = some twin ∧ twin.base = region.base ∧
      twin.size = region.size := by
  have formedOther : other.WellFormed := formed.of_frames_eq same
  obtain ⟨member, holds⟩ := formed.containing?_eq_some_iff.mp found
  obtain ⟨twin, listed, info, size⟩ := exists_twin_of_frames_eq same member
  have base : twin.base = region.base := congrArg RegionInfo.base info
  refine ⟨twin, formedOther.containing?_eq_some_iff.mpr ⟨listed, ?_⟩, base, size⟩
  rwa [Region.Holds, base, size]

/-- The same round in a table of which earlier rounds have changed the bytes. It changes no more
than these. -/
theorem WellFormed.copyRound_of_frames (formed : table.WellFormed) {bytes : ByteArray}
    {written : Nat} (word : bytes.size < UInt64.size) (early : written < bytes.size)
    (found : table.containing? cursor = some region)
    (same : patched.regions.map (fun region => (region.info, region.size)) =
      table.regions.map fun region => (region.info, region.size)) :
    let offset := region.offset cursor
    let count := min (region.size - offset) (bytes.size - written)
    ∃ stored : MemoryMap,
      copyRound bytes cursor written patched =
        .ok (.ok (⟨region.base, offset, count⟩, cursor + UInt64.ofNat count, written + count,
          stored)) ∧
      stored = { patched with
        regions := patched.regions.map (patch bytes ⟨region, offset, count⟩ written) } ∧
      stored.regions.map (fun region => (region.info, region.size)) =
        table.regions.map fun region => (region.info, region.size) := by
  intro offset count
  have formedPatched : patched.WellFormed := formed.of_frames_eq same
  obtain ⟨twin, foundTwin, base, size⟩ := formed.exists_twin_of_containing same found
  have at_offset : twin.offset cursor = offset := by
    simp only [Region.offset, base]
    rfl
  have patches : patch bytes ⟨twin, offset, count⟩ written =
      patch bytes ⟨region, offset, count⟩ written := by
    funext listed
    simp only [patch, base]
  have round := formedPatched.copyRound_of_containing word early foundTwin
  simp only [at_offset, size, base] at round
  refine ⟨_, round, by rw [← patches], ?_⟩
  have inside : offset < region.size := offset_lt_of_containing found
  have fits (listed : Region) (among : listed ∈ patched.regions)
      (here : listed.base = twin.base) : offset + count ≤ listed.size := by
    have member := (formedPatched.containing?_eq_some_iff.mp foundTwin).1
    rw [formedPatched.eq_of_base_eq among member here, size]
    omega
  exact (map_patch_frames fits (show written + count ≤ bytes.size by omega)).trans same

/-- Once the walk has gone through a range, a copy to it goes through the same places, whatever
bytes it has changed before, and stores what is to be written there. The copy goes on behind the
bytes it has taken, the walk at the end of the region: the same place as long as bytes are left. -/
theorem WellFormed.strictCopy_of_walk (formed : table.WellFormed) {bytes : ByteArray}
    (word : bytes.size < UInt64.size) (needed : Option Permissions) (cursor : UInt64)
    (remaining : Nat) :
    ∀ chunks start written patched, table.walk needed cursor remaining = .ok chunks →
      (remaining ≠ 0 → start = cursor) → written + remaining = bytes.size →
      patched.regions.map (fun region => (region.info, region.size)) =
        table.regions.map (fun region => (region.info, region.size)) →
      strictCopy bytes start written patched = .ok (.ok (chunks.map Chunk.place),
        { patched with regions := fill bytes chunks written patched.regions }) := by
  fun_induction table.walk needed cursor remaining with
  | case1 cursor =>
    rintro chunks start written patched ⟨⟩ - total same
    rw [strictCopy, if_pos (by omega)]
    rfl
  | case2 => simp
  | case3 cursor remaining more region found granted offset count rest walkedRest ih =>
    rintro chunks start written patched ⟨⟩ here total same
    obtain rfl := here more
    have inside : offset < region.size := offset_lt_of_containing found
    obtain ⟨stored, round, effect, frames⟩ :=
      formed.copyRound_of_frames word (show written < bytes.size by omega) found same
    rw [show bytes.size - written = remaining by omega] at round effect
    have next (left : remaining - count ≠ 0) : start + UInt64.ofNat count = region.endAddr := by
      rw [show count = region.size - offset by omega]
      exact cursor_add_eq_endAddr found
    have later := ih rest _ (written + count) stored walkedRest next (by omega) frames
    rw [strictCopy, if_neg (by omega), round]
    simp only
    rw [if_pos (show written < written + count by omega), later, effect]
    rfl
  | case4 => simp
  | case5 => simp

/-! Writes. -/

/-- A range of which every byte is granted is no longer than a word can tell. -/
theorem WellFormed.size_lt_of_covers (formed : table.WellFormed) {first size : Nat}
    (covers : table.Covers needed first size) : size < UInt64.size := by
  cases size with
  | zero => decide
  | succ last =>
    obtain ⟨region, member, holds, -⟩ := covers last (Nat.lt_succ_self last)
    have fits := formed.fits region member
    have high := holds.2
    omega

theorem WellFormed.size_lt_of_walk (formed : table.WellFormed) {size : Nat} {chunks : List Chunk}
    (walked : table.walk needed address size = .ok chunks) : size < UInt64.size := by
  have decided := formed.walk_decides needed address size
  exact formed.size_lt_of_covers (decided.ok_iff_covers.mp ⟨chunks, walked⟩)

/-- The copy behind a walk goes where the walk has gone, and neither fails nor traps. -/
theorem WellFormed.exists_strictCopy_of_walk (formed : table.WellFormed) {bytes : ByteArray}
    {chunks : List Chunk} (walked : table.walk needed address bytes.size = .ok chunks) :
    ∃ written, table.writeWith needed address bytes = .ok written ∧
      strictCopy bytes address 0 table = .ok (.ok (chunks.map Chunk.place), written) := by
  refine ⟨{ table with regions := fill bytes chunks 0 table.regions }, ?_, ?_⟩
  · rw [writeWith_eq_map_walk, walked]
    rfl
  · exact formed.strictCopy_of_walk (formed.size_lt_of_walk walked) needed address bytes.size
      chunks address 0 table walked (fun _ => rfl) (Nat.zero_add _) rfl

theorem WellFormed.strictWriteWith_eq (formed : table.WellFormed) (needed : Option Permissions)
    (address : UInt64) (bytes : ByteArray) :
    table.strictWriteWith needed address bytes = .ok
      (match table.writeWith needed address bytes with
      | .ok written => (.ok (), written)
      | .error cause => (.error cause, table)) := by
  rw [strictWriteWith, formed.strictWalk_eq, Strict.ok_bind]
  cases walked : table.walk needed address bytes.size with
  | error cause =>
    rw [writeWith_eq_map_walk, walked]
    rfl
  | ok chunks =>
    obtain ⟨written, goes, copied⟩ := formed.exists_strictCopy_of_walk walked
    simp only [goes, copied, Strict.ok_bind]
    rfl

/-! The law. -/

/-- No operation on the table traps: with strict arithmetic, slices and rounds it comes to what it
comes to without. -/
structure NeverTraps (table : MemoryMap) : Prop where
  containing : ∀ address, table.strictContaining? address = .ok (table.containing? address)
  overlaps : ∀ base stop, table.strictOverlaps base stop = .ok (table.overlaps base stop)
  walk : ∀ needed address size,
    table.strictWalk needed address size = .ok (table.walk needed address size)
  reads : ∀ needed address size,
    table.strictReadWith needed address size = .ok (table.readWith needed address size)
  /-- A write that fails leaves the table that is written to as it was. -/
  writes : ∀ needed address bytes, table.strictWriteWith needed address bytes = .ok
    (match table.writeWith needed address bytes with
    | .ok written => (.ok (), written)
    | .error cause => (.error cause, table))
  /-- The copy of a write finds a region in every round, and goes where the walk has gone. -/
  copies : ∀ needed address (bytes : ByteArray) chunks,
    table.walk needed address bytes.size = .ok chunks →
      ∃ written, table.writeWith needed address bytes = .ok written ∧
        strictCopy bytes address 0 table = .ok (.ok (chunks.map Chunk.place), written)

/-- In every memory that calls lead to, no sum or difference that an access computes leaves the
words, no slice runs out of the storage of a region or of the bytes to be written, and every round
of its loops takes a byte at least. -/
theorem accesses_never_trap (calls : List MemoryCall) : (empty.replay calls).NeverTraps := by
  have formed : (empty.replay calls).WellFormed := wellFormed_empty.replay calls
  exact {
    containing := strictContaining?_eq _
    overlaps := formed.strictOverlaps_eq
    walk := formed.strictWalk_eq
    reads := formed.strictReadWith_eq
    writes := formed.strictWriteWith_eq
    copies := fun _ _ _ _ walked => formed.exists_strictCopy_of_walk walked }

end MemoryMap

end GuestMachine
