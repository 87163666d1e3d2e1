import GuestMachine.Proofs.Memory.History

/-!
Tables that are alike but for the identifiers of their regions. No operation looks at the
identifier of a region, so alike tables answer every call alike and stay alike.
-/

namespace GuestMachine

/-- The region without its identifier. -/
def Region.anonymous (region : Region) : Region :=
  { region with id := ⟨0⟩ }

def Chunk.anonymous (chunk : Chunk) : Chunk :=
  { chunk with region := chunk.region.anonymous }

/-- A region as it is asked for: its place and its permissions. -/
structure MapRequest where
  base : UInt64
  size : UInt64
  perms : Permissions
  deriving DecidableEq, Repr

/-- What a description says of a region besides the identifier. -/
def RegionInfo.request (info : RegionInfo) : MapRequest :=
  ⟨info.base, info.size, info.perms⟩

@[simp] theorem Region.info_anonymous_request (region : Region) :
    region.anonymous.info.request = region.info.request := rfl

namespace MemoryMap

def anonymous (table : MemoryMap) : MemoryMap :=
  { table with regions := table.regions.map Region.anonymous }

/-- Tables that differ in the identifiers of their regions at most. -/
def Alike (a b : MemoryMap) : Prop :=
  a.anonymous = b.anonymous

/-! What is looked up. -/

theorem anonymous_atOrBelow? (table : MemoryMap) (address : UInt64) :
    table.anonymous.atOrBelow? address = (table.atOrBelow? address).map Region.anonymous := by
  rw [atOrBelow?, anonymous, List.filter_map, List.getLast?_map]
  rfl

theorem anonymous_below? (table : MemoryMap) (address : UInt64) :
    table.anonymous.below? address = (table.below? address).map Region.anonymous := by
  rw [below?, anonymous, List.filter_map, List.getLast?_map]
  rfl

theorem anonymous_containing? (table : MemoryMap) (address : UInt64) :
    table.anonymous.containing? address = (table.containing? address).map Region.anonymous := by
  rw [containing?, containing?, anonymous_atOrBelow?, Option.filter_map]
  rfl

theorem anonymous_overlaps (table : MemoryMap) (base stop : UInt64) :
    table.anonymous.overlaps base stop = table.overlaps base stop := by
  rw [overlaps, overlaps, anonymous_below?]
  cases table.below? stop <;> rfl

theorem anonymous_checkExact (table : MemoryMap) (base size : UInt64) :
    table.anonymous.checkExact base size = table.checkExact base size := by
  have searched : (table.anonymous.regions.find? fun region => region.base == base) =
      (table.regions.find? fun region => region.base == base).map Region.anonymous := by
    rw [anonymous, List.find?_map]
    rfl
  rw [checkExact, checkExact, searched]
  cases table.regions.find? fun region => region.base == base <;> rfl

theorem walk_of_missing {table : MemoryMap} {needed : Option Permissions} {cursor : UInt64}
    {remaining : Nat} (more : remaining ≠ 0) (missing : table.containing? cursor = none) :
    table.walk needed cursor remaining = .error (.unmappedMemory cursor) := by
  rw [walk, if_neg more]
  split
  · rfl
  next region found =>
    rw [missing] at found
    contradiction

theorem walk_of_found {table : MemoryMap} {needed : Option Permissions} {cursor : UInt64}
    {remaining : Nat} {region : Region} (more : remaining ≠ 0)
    (found : table.containing? cursor = some region) :
    table.walk needed cursor remaining =
      if needed.all region.perms.grants then
        let offset := region.offset cursor
        let count := min (region.size - offset) remaining
        (table.walk needed region.endAddr (remaining - count)).map (⟨region, offset, count⟩ :: ·)
      else .error (.permissionDenied cursor) := by
  rw [walk, if_neg more]
  split
  next missing =>
    rw [missing] at found
    contradiction
  next other here =>
    obtain rfl : other = region := Option.some.inj (here.symm.trans found)
    split_ifs
    · dsimp only
      cases table.walk needed other.endAddr _ <;> rfl
    · rfl

/-- A walk goes through the same parts. -/
theorem anonymous_walk (table : MemoryMap) (needed : Option Permissions) (cursor : UInt64)
    (remaining : Nat) :
    table.anonymous.walk needed cursor remaining =
      (table.walk needed cursor remaining).map (List.map Chunk.anonymous) := by
  fun_induction table.walk needed cursor remaining with
  | case1 cursor =>
    rw [walk, if_pos rfl]
    rfl
  | case2 cursor remaining more missing =>
    rw [walk_of_missing more (by rw [anonymous_containing?, missing]; rfl)]
    rfl
  | case3 cursor remaining more region found granted offset count rest walkedRest ih
  | case4 cursor remaining more region found granted offset count cause walkedRest ih =>
    have granted : needed.all region.anonymous.perms.grants = true := granted
    rw [walk_of_found more (by rw [anonymous_containing?, found]; rfl), if_pos granted]
    show (table.anonymous.walk needed region.endAddr (remaining - count)).map _ = _
    rw [ih, walkedRest]
    rfl
  | case5 cursor remaining more region found refused =>
    have refused : ¬needed.all region.anonymous.perms.grants = true := refused
    rw [walk_of_found more (by rw [anonymous_containing?, found]; rfl), if_neg refused]
    rfl

/-! What is answered. -/

/-- The parts hold the same bytes. -/
theorem anonymous_readWith (table : MemoryMap) (needed : Option Permissions) (address : UInt64)
    (size : Nat) :
    table.anonymous.readWith needed address size = table.readWith needed address size := by
  rw [readWith, readWith, anonymous_walk]
  cases table.walk needed address size with
  | error cause => rfl
  | ok chunks =>
    show Except.ok ((chunks.map Chunk.anonymous).foldl _ _) = _
    rw [List.foldl_map]
    rfl

theorem anonymous_check (table : MemoryMap) (address : UInt64) (size : Nat)
    (needed : Permissions) :
    table.anonymous.check address size needed = table.check address size needed := by
  rw [check, check, anonymous_walk]
  cases table.walk (some needed) address size <;> rfl

theorem anonymous_regionAt? (table : MemoryMap) (address : UInt64) :
    (table.anonymous.regionAt? address).map RegionInfo.request =
      (table.regionAt? address).map RegionInfo.request := by
  rw [regionAt?, regionAt?, anonymous_containing?]
  cases table.containing? address <;> rfl

theorem anonymous_infos (table : MemoryMap) :
    table.anonymous.infos.map RegionInfo.request = table.infos.map RegionInfo.request := by
  simp only [infos, anonymous, List.map_map]
  rfl

/-! What is left behind. -/

theorem anonymous_insertRegion (region : Region) (regions : List Region) :
    (insertRegion region regions).map Region.anonymous =
      insertRegion region.anonymous (regions.map Region.anonymous) := by
  induction regions with
  | nil => rfl
  | cons first rest ih =>
    have bases : region.anonymous.base < first.anonymous.base ↔ region.base < first.base := .rfl
    simp only [insertRegion, List.map_cons, bases]
    split
    · rfl
    · exact congrArg _ ih

/-- A copy changes the same bytes. -/
theorem anonymous_fill (source : ByteArray) (chunks : List Chunk) (start : Nat)
    (regions : List Region) :
    (fill source chunks start regions).map Region.anonymous =
      fill source (chunks.map Chunk.anonymous) start (regions.map Region.anonymous) := by
  induction chunks generalizing start regions with
  | nil => rfl
  | cons chunk rest ih =>
    have patched : (regions.map (patch source chunk start)).map Region.anonymous =
        (regions.map Region.anonymous).map (patch source chunk.anonymous start) := by
      rw [List.map_map, List.map_map]
      refine List.map_congr_left fun region _ => ?_
      have bases : region.anonymous.base = chunk.anonymous.region.base ↔
          region.base = chunk.region.base := .rfl
      simp only [Function.comp_def, patch, bases]
      split <;> rfl
    rw [List.map_cons, fill_cons, fill_cons, ih, patched]
    rfl

theorem anonymous_writeWith (table : MemoryMap) (needed : Option Permissions) (address : UInt64)
    (bytes : ByteArray) :
    table.anonymous.writeWith needed address bytes =
      (table.writeWith needed address bytes).map anonymous := by
  rw [writeWith_eq_map_walk, writeWith_eq_map_walk, anonymous_walk]
  cases table.walk needed address bytes.size with
  | error cause => rfl
  | ok chunks =>
    simp only [Except.map, anonymous, anonymous_fill]

theorem anonymous_unmap (table : MemoryMap) (base size : UInt64) :
    table.anonymous.unmap base size = (table.unmap base size).map anonymous := by
  rw [unmap, unmap, anonymous_checkExact]
  cases table.checkExact base size with
  | error cause => rfl
  | ok =>
    show Except.ok (_ : MemoryMap) = .ok _
    simp only [anonymous, List.filter_map]
    rfl

theorem anonymous_protect (table : MemoryMap) (base size : UInt64) (perms : Permissions) :
    table.anonymous.protect base size perms = (table.protect base size perms).map anonymous := by
  rw [protect, protect, anonymous_checkExact]
  cases table.checkExact base size with
  | error cause => rfl
  | ok =>
    show Except.ok (_ : MemoryMap) = .ok _
    simp only [anonymous, List.map_map]
    congr 3
    funext region
    have bases : region.anonymous.base = base ↔ region.base = base := .rfl
    simp only [Function.comp_def, bases]
    split <;> rfl

/-- A new region gets the same number. -/
theorem anonymous_map (table : MemoryMap) (allocates : Nat → Bool) (base size : UInt64)
    (perms : Permissions) :
    (table.anonymous.map allocates base size perms).map (Prod.map id anonymous) =
      (table.map allocates base size perms).map (Prod.map id anonymous) := by
  rw [map, map, anonymous_overlaps]
  split_ifs
  · rfl
  · rfl
  · rfl
  · rfl
  · have twice : Region.anonymous ∘ Region.anonymous = Region.anonymous := rfl
    simp only [Except.map, anonymous, Prod.map, anonymous_insertRegion, List.map_map, twice]

@[simp] theorem anonymous_anonymous (table : MemoryMap) :
    table.anonymous.anonymous = table.anonymous := by
  rw [anonymous, anonymous, List.map_map]
  rfl

/-- What a call makes of a table does not depend on the identifiers either. -/
theorem anonymous_attempt (table : MemoryMap) (call : MemoryCall) :
    (table.anonymous.attempt call).map anonymous = (table.attempt call).map anonymous := by
  have unmoved (outcome : Except Error MemoryMap) :
      (outcome.map anonymous).map anonymous = outcome.map anonymous := by
    cases outcome <;> simp [Except.map]
  cases call with
  | map base size perms allocated =>
    have left (outcome : Except Error (RegionId × MemoryMap)) :
        (outcome.map Prod.snd).map anonymous =
          (outcome.map (Prod.map id anonymous)).map Prod.snd := by
      cases outcome <;> rfl
    rw [attempt, attempt, left, anonymous_map, ← left]
  | unmap base size => rw [attempt, anonymous_unmap, unmoved]; rfl
  | protect base size perms => rw [attempt, anonymous_protect, unmoved]; rfl
  | read address size =>
    rw [attempt, attempt, read, anonymous_readWith, read]
    cases table.readWith (some .read) address size <;> simp [Except.map]
  | check address size needed =>
    rw [attempt, attempt, anonymous_check]
    cases table.check address size needed <;> simp [Except.map]
  | write address bytes => rw [attempt, write, anonymous_writeWith, unmoved]; rfl
  | load address bytes => rw [attempt, load, anonymous_writeWith, unmoved]; rfl
  | clear => rfl

/-! Alike tables. -/

/-- How two tables answer alike. A new region gets the same number in both. -/
structure AnswersAlike (a b : MemoryMap) : Prop where
  map : ∀ allocates base size perms, (a.map allocates base size perms).map Prod.fst =
    (b.map allocates base size perms).map Prod.fst
  unmap : ∀ base size, (a.unmap base size).map (fun _ => ()) = (b.unmap base size).map fun _ => ()
  protect : ∀ base size perms, (a.protect base size perms).map (fun _ => ()) =
    (b.protect base size perms).map fun _ => ()
  read : ∀ address size, a.read address size = b.read address size
  write : ∀ address bytes, (a.write address bytes).map (fun _ => ()) =
    (b.write address bytes).map fun _ => ()
  load : ∀ address bytes, (a.load address bytes).map (fun _ => ()) =
    (b.load address bytes).map fun _ => ()
  check : ∀ address size needed, a.check address size needed = b.check address size needed
  regionAt? : ∀ address, (a.regionAt? address).map RegionInfo.request =
    (b.regionAt? address).map RegionInfo.request
  infos : a.infos.map RegionInfo.request = b.infos.map RegionInfo.request

namespace Alike

variable {a b : MemoryMap}

theorem attempt (alike : a.Alike b) (call : MemoryCall) :
    (a.attempt call).map anonymous = (b.attempt call).map anonymous := by
  rw [← anonymous_attempt, alike, anonymous_attempt]

/-- A call goes through in both tables, or fails alike. -/
theorem outcome (alike : a.Alike b) (call : MemoryCall) :
    (a.attempt call).map (fun _ => ()) = (b.attempt call).map fun _ => () := by
  have forget (table : MemoryMap) : (table.attempt call).map (fun _ => ()) =
      ((table.attempt call).map anonymous).map fun _ => () := by
    cases table.attempt call <;> rfl
  rw [forget, alike.attempt, ← forget]

theorem after (alike : a.Alike b) (call : MemoryCall) : (a.after call).Alike (b.after call) := by
  have left (table : MemoryMap) : (table.after call).anonymous =
      ((table.attempt call).map anonymous).toOption.getD table.anonymous := by
    rw [MemoryMap.after]
    cases table.attempt call <;> rfl
  rw [Alike, left, left, alike.attempt, alike]

theorem replay (alike : a.Alike b) (calls : List MemoryCall) :
    (a.replay calls).Alike (b.replay calls) := by
  induction calls using List.reverseRecOn with
  | nil => exact alike
  | append_singleton earlier call ih =>
    rw [replay_concat, replay_concat]
    exact ih.after call

theorem answers (alike : a.Alike b) : a.AnswersAlike b where
  map := fun allocates base size perms => by
    have number (table : MemoryMap) : (table.map allocates base size perms).map Prod.fst =
        ((table.map allocates base size perms).map (Prod.map id anonymous)).map Prod.fst := by
      cases table.map allocates base size perms <;> rfl
    rw [number, ← anonymous_map, alike, anonymous_map, ← number]
  unmap := fun base size => alike.outcome (.unmap base size)
  protect := fun base size perms => alike.outcome (.protect base size perms)
  read := fun address size => by
    rw [MemoryMap.read, ← anonymous_readWith, alike, anonymous_readWith, MemoryMap.read]
  write := fun address bytes => alike.outcome (.write address bytes)
  load := fun address bytes => alike.outcome (.load address bytes)
  check := fun address size needed => by rw [← anonymous_check, alike, anonymous_check]
  regionAt? := fun address => by rw [← anonymous_regionAt?, alike, anonymous_regionAt?]
  infos := by rw [← anonymous_infos, alike, anonymous_infos]

end Alike

end MemoryMap

end GuestMachine
