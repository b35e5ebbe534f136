import PalmWebKit.DiskCache.Disk
import PalmWebKit.Logic.Runs

/-!
# Accounting of the disk cache

Removing and pruning keep `m_currentSizeBytes` the sum of the sizes on disk.
`add` keeps it only if the rounded length of the file is what the write adds to
the disk, which an overwritten file, a failed write or a length that is a
multiple of the block size breaks, and it prunes for the payload alone.
-/

namespace PalmWebKit
namespace DiskCache

namespace DiskCacheDisk

variable {env : Platform}

/-- The counter is the sum of the sizes on disk and has not wrapped. -/
structure Balanced (settings : Settings) (cache : DiskCacheDisk env) : Prop where
  total : cache.currentSizeBytes.toNat = cache.total settings
  notWrapped : cache.wrapped = false

/-- What removing files keeps. -/
structure Preserved (settings : Settings) (before after : DiskCacheDisk env) : Prop where
  maxSizeBytes : after.maxSizeBytes = before.maxSizeBytes
  balanced : before.Balanced settings → after.Balanced settings

section Removing

variable {settings : Settings} {cache before after : DiskCacheDisk env}

theorem Preserved.refl (cache : DiskCacheDisk env) :
    Preserved settings cache cache := ⟨rfl, id⟩

theorem Preserved.trans {last : DiskCacheDisk env} (first : Preserved settings before after)
    (second : Preserved settings after last) : Preserved settings before last :=
  ⟨second.maxSizeBytes.trans first.maxSizeBytes,
    fun balanced => second.balanced (first.balanced balanced)⟩

/-- Scores and the time of the last scan are not counted. -/
theorem preserved_scores (scores : List ScoredFile) (lastPruneExpiredAndScore : Int) :
    Preserved settings cache
      { cache with
        scores := scores
        lastPruneExpiredAndScore := lastPruneExpiredAndScore } :=
  ⟨rfl, fun balanced => ⟨balanced.total, balanced.notWrapped⟩⟩

theorem preserved_unlinkCounted (name : StdString) :
    Preserved settings cache (cache.unlinkCounted settings name) := by
  rw [unlinkCounted]
  cases found : cache.files.lookup name with
  | none => exact Preserved.refl cache
  | some file =>
    refine ⟨rfl, fun balanced => ?_⟩
    have size : cache.fileSize settings name = settings.sizeOnDisk file.length :=
      WeightedMap.weightAt_of_lookup found
    have erased := WeightedMap.total_erase
      (fun file : StdString => settings.sizeOnDisk file.length) cache.files name
    have enough : settings.sizeOnDisk file.length ≤
        cache.currentSizeBytes.toNat := by
      rw [balanced.total, ← size]
      exact WeightedMap.weightAt_le_total _ cache.files name
    have inRange : settings.sizeOnDisk file.length < 2 ^ env.longBits :=
      lt_of_le_of_lt enough cache.currentSizeBytes.isLt
    constructor
    · have subtracted : (cache.currentSizeBytes -
          BitVec.ofNat _ (settings.sizeOnDisk file.length)).toNat = cache.currentSizeBytes.toNat -
              settings.sizeOnDisk file.length := by
        rw [BitVec.toNat_sub_of_le, BitVec.toNat_ofNat, Nat.mod_eq_of_lt inRange]
        rw [BitVec.le_def, BitVec.toNat_ofNat, Nat.mod_eq_of_lt inRange]
        exact enough
      rw [subtracted, balanced.total, total, ← erased]
      rw [fileSize] at size
      rw [size, Nat.add_sub_cancel, total]
    · dsimp only
      rw [balanced.notWrapped, Bool.false_or, decide_eq_false_iff_not, not_lt]
      exact enough

theorem preserved_pruneOrScore (now : Int) (name file : StdString) :
    Preserved settings cache (cache.pruneOrScore settings now name file) := by
  rw [pruneOrScore]
  dsimp only
  split
  · exact preserved_unlinkCounted name
  · exact preserved_scores _ _

theorem preserved_scanDirectory (now : Int)
    (entries : List (Sigma fun _ : StdString => StdString)) :
    Preserved settings cache (scanDirectory settings now cache entries) := by
  induction entries generalizing cache with
  | nil => exact Preserved.refl cache
  | cons entry entries ih => exact (preserved_pruneOrScore now entry.1 entry.2).trans ih

theorem preserved_pruneExpiredAndScore (clock : Clock) :
    Preserved settings cache (cache.pruneExpiredAndScore settings clock) := by
  rw [pruneExpiredAndScore]
  split
  · exact ((preserved_scores [] _).trans
      (preserved_scanDirectory clock.now cache.files.entries)).trans
        (preserved_scores _ _)
  · exact Preserved.refl cache

theorem preserved_pruneLowestScore (pruned : cache.pruneLowestScore settings = some after) :
    Preserved settings cache after := by
  rw [pruneLowestScore, Option.map_eq_some_iff] at pruned
  obtain ⟨lowest, -, rfl⟩ := pruned
  exact (preserved_unlinkCounted lowest.name).trans (preserved_scores _ _)

theorem preserved_pruneWhile (deltaSize : Long env) (turns : Nat) :
    Preserved settings cache (cache.pruneWhile settings deltaSize turns).1 := by
  induction turns generalizing cache with
  | zero => exact Preserved.refl cache
  | succ turns ih =>
    rw [pruneWhile]
    cases result : cache.pruneLowestScore settings with
    | none => exact Preserved.refl cache
    | some pruned =>
      have first := preserved_pruneLowestScore result
      dsimp only
      split
      · exact first
      · exact first.trans ih

theorem preserved_pruneToFit (clock : Clock) (deltaSize : Long env) :
    Preserved settings cache (cache.pruneToFit settings clock deltaSize).1 := by
  rw [pruneToFit]
  split
  · exact Preserved.refl cache
  · split
    · exact Preserved.refl cache
    · have pruned : Preserved settings cache
          (cache.pruneExpiredAndScore settings clock) := preserved_pruneExpiredAndScore clock
      dsimp only
      split
      · exact pruned
      · exact pruned.trans (preserved_pruneWhile _ _)

theorem preserved_remove (url : WString) :
    Preserved settings cache (cache.remove settings url) := by
  rw [remove]
  split
  · exact Preserved.refl cache
  · exact preserved_unlinkCounted _

theorem balanced_clear (notWrapped : cache.wrapped = false) :
    cache.clear.Balanced settings := ⟨rfl, notWrapped⟩

theorem balanced_setMaxCapacity (balanced : cache.Balanced settings) (clock : Clock)
    (size : Long env) (prune : Bool) :
    (cache.setMaxCapacity settings clock size prune).Balanced settings := by
  have resized : Balanced settings { cache with maxSizeBytes := size } :=
    ⟨balanced.total, balanced.notWrapped⟩
  rw [setMaxCapacity]
  split
  · exact balanced_clear balanced.notWrapped
  · split
    · exact (preserved_pruneToFit clock 1).balanced resized
    · exact resized

end Removing

/-! ## Adding -/

/-- The position that writing the file of an entry returns. -/
def writtenLength (entry : DiskCacheEntry env) : WriteOutcome → Nat
  | .written => (writeToFile entry).length
  | _ => 0

/-- What writing the file of an entry adds to the sizes on disk: the size of
the new file less the size of the file that it overwrites. -/
def growth (settings : Settings) (cache : DiskCacheDisk env) (name : StdString)
    (entry : DiskCacheEntry env) : WriteOutcome → Int
  | .notOpened => 0
  | .failed => -cache.fileSize settings name
  | .written =>
    settings.sizeOnDisk (writeToFile entry).length -
      cache.fileSize settings name

section Adding

variable {settings : Settings} {cache : DiskCacheDisk env}

theorem write_snd (name : StdString) (entry : DiskCacheEntry env) (outcome : WriteOutcome) :
    (cache.write name entry outcome).2 = writtenLength entry outcome := by
  cases outcome <;> rfl

/-- The total moves by the growth. -/
theorem total_write (name : StdString) (entry : DiskCacheEntry env) (outcome : WriteOutcome) :
    ((cache.write name entry outcome).1.total settings : Int) =
      cache.total settings + cache.growth settings name entry outcome := by
  cases outcome with
  | notOpened => exact (add_zero _).symm
  | failed =>
    have erased := WeightedMap.total_erase
      (fun file : StdString => settings.sizeOnDisk file.length) cache.files name
    simp only [write, growth, total, fileSize]
    omega
  | written =>
    have inserted := WeightedMap.total_insert
      (fun file : StdString => settings.sizeOnDisk file.length) cache.files name
      (writeToFile entry)
    simp only [write, growth, total, fileSize]
    omega

theorem write_frame (name : StdString) (entry : DiskCacheEntry env) (outcome : WriteOutcome) :
    (cache.write name entry outcome).1.currentSizeBytes = cache.currentSizeBytes ∧
      (cache.write name entry outcome).1.maxSizeBytes = cache.maxSizeBytes ∧
        (cache.write name entry outcome).1.wrapped = cache.wrapped := by
  cases outcome <;> exact ⟨rfl, rfl, rfl⟩

/-- A write that fails never makes the total larger. -/
theorem growth_nonpos_of_not_written (name : StdString) (entry : DiskCacheEntry env)
    {outcome : WriteOutcome} (notWritten : outcome ≠ .written) :
    cache.growth settings name entry outcome ≤ 0 := by
  cases outcome with
  | notOpened => simp [growth]
  | failed =>
    rw [growth]
    omega
  | written => exact absurd rfl notWritten

/-- Adding a number to a counter gives the total exactly when the number is
the growth, as numbers of the width of the counter. -/
theorem toNat_add_eq_iff {width total : Nat} {counter added : BitVec width} {growth : Int}
    (moved : (total : Int) = counter.toNat + growth) (inRange : total < 2 ^ width) :
    (counter + added).toNat = total ↔ added = BitVec.ofInt width growth := by
  have target : counter + BitVec.ofInt width growth = BitVec.ofNat width total := by
    rw [← BitVec.ofInt_natCast, moved, BitVec.ofInt_add, BitVec.ofInt_natCast,
      BitVec.ofNat_toNat, BitVec.setWidth_eq]
  constructor
  · intro same
    have equal : counter + added = counter + BitVec.ofInt width growth := by
      rw [target, ← same, BitVec.ofNat_toNat, BitVec.setWidth_eq]
    exact (BitVec.add_right_inj _).1 equal
  · rintro rfl
    rw [target, BitVec.toNat_ofNat, Nat.mod_eq_of_lt inRange]

variable {entry : DiskCacheEntry env}

theorem add_of_large (large : ¬entry.size < settings.diskCacheLargestObjectSize) (clock : Clock)
    (url : WString) (outcome : WriteOutcome) :
    cache.add settings clock url entry outcome = (cache, false) := by
  rw [add, if_pos (not_lt.1 large)]

theorem add_of_no_room {clock : Clock} {pruned : DiskCacheDisk env}
    (small : entry.size < settings.diskCacheLargestObjectSize)
    (noRoom : cache.pruneToFit settings clock
      (BitVec.ofInt _ (settings.roundUpToBlockSize entry.size)) = (pruned, false))
    (url : WString)
    (outcome : WriteOutcome) : cache.add settings clock url entry outcome = (pruned, false) := by
  rw [add, if_neg (not_le.2 small), noRoom]
  rfl

theorem add_of_room {clock : Clock} {pruned : DiskCacheDisk env}
    (small : entry.size < settings.diskCacheLargestObjectSize)
    (room : cache.pruneToFit settings clock
      (BitVec.ofInt _ (settings.roundUpToBlockSize entry.size)) = (pruned, true))
    (url : WString)
    (outcome : WriteOutcome) : cache.add settings clock url entry outcome =
      ({ (pruned.write (settings.formUrlFileName url) entry outcome).1 with
          currentSizeBytes :=
            (pruned.write (settings.formUrlFileName url) entry outcome).1.currentSizeBytes +
            BitVec.ofInt _ (settings.roundUpToBlockSize (writtenLength entry outcome)) },
        decide (outcome = .written)) := by
  rw [add, if_neg (not_le.2 small), room, ← write_snd]
  rfl

end Adding

/-! ## Hits -/

/-- The condition under which a hit keeps the accounts: writing the access
count does not change the size on disk of the file. -/
def HitAccounted (env : Platform) (settings : Settings) (file : StdString) : Prop :=
  (readIntFromFile env file).1.1 = true → settings.sizeOnDisk
        (max file.length (seekBehindPayload (readIntFromFile env file).1.2 + 4)) =
      settings.sizeOnDisk file.length

theorem length_overwrite (file : StdString) (position : Nat) (bytes : StdString) :
    (overwrite file position bytes).length =
      max file.length (position + bytes.length) := by
  simp only [overwrite, List.length_append, List.length_take,
    List.length_replicate, List.length_drop]
  omega

/-- Writing the access count of a file that is in the cache. -/
theorem balanced_updateAccessCount_iff {settings : Settings} {cache : DiskCacheDisk env}
    {name file : StdString} (balanced : cache.Balanced settings)
    (found : cache.files.lookup name = some file) (accessCount : Long env) :
    (cache.updateAccessCount name file accessCount).Balanced settings ↔
      HitAccounted env settings file := by
  rw [updateAccessCount, HitAccounted]
  cases read : (readIntFromFile env file).1 with
  | mk complete payloadSize =>
  cases complete with
  | false =>
    refine iff_of_true balanced fun isTrue => ?_
    cases isTrue
  | true =>
    have inserted := WeightedMap.total_insert
      (fun file : StdString => settings.sizeOnDisk file.length) cache.files name
      (overwrite file (seekBehindPayload payloadSize) (writeIntToFile (accessCount + 1)))
    rw [WeightedMap.weightAt_of_lookup found, length_overwrite] at inserted
    change _ + _ = cache.total settings +
      settings.sizeOnDisk (max file.length (seekBehindPayload payloadSize + 4))
        at inserted
    rw [← balanced.total] at inserted
    constructor
    · intro after _
      have same := after.total
      dsimp only [total] at same
      dsimp only
      omega
    · intro unchanged
      have sameSize := unchanged rfl
      refine ⟨?_, balanced.notWrapped⟩
      dsimp only [total] at sameSize ⊢
      omega


end DiskCacheDisk

/-! ## Runs -/

/-- The operations of the cache, with what happens around them. -/
inductive Operation (env : Platform)
  | add
      (clock : Clock)
      (url : WString)
      (entry : DiskCacheEntry env)
      (outcome : DiskCacheDisk.WriteOutcome)
  | contains (clock : Clock) (url : WString)
  | remove (url : WString)
  | setMaxCapacity (clock : Clock) (size : Long env) (prune : Bool)
  | clear

/-- The cache, and whether the last operation was an `add` that put its entry
into it. -/
structure CacheRun (env : Platform) where
  cache : DiskCacheDisk env
  added : Bool

namespace CacheRun

variable {env : Platform}

def step (settings : Settings) (state : CacheRun env) : Operation env → CacheRun env
  | .add clock url entry outcome =>
    let result := state.cache.add settings clock url entry outcome
    ⟨result.1, result.2⟩
  | .contains clock url => ⟨(state.cache.contains settings clock url).1, false⟩
  | .remove url => ⟨state.cache.remove settings url, false⟩
  | .setMaxCapacity clock size prune =>
    ⟨state.cache.setMaxCapacity settings clock size prune, false⟩
  | .clear => ⟨state.cache.clear, false⟩

/-- The counter is the sum of the sizes on disk, has not wrapped, and is within
the capacity after an `add` that succeeded. -/
structure Accounted (settings : Settings) (state : CacheRun env) : Prop where
  balanced : state.cache.Balanced settings
  capacity : state.added = true →
    state.cache.currentSizeBytes.toNat ≤ state.cache.maxSizeBytes.toNat

/-- The condition under which an `add` keeps the accounts, once the cache is
pruned: the rounded length is what the write adds to the disk, and after a
successful write the files are within the capacity. -/
def AddAccounted (settings : Settings) (pruned : DiskCacheDisk env) (url : WString)
    (entry : DiskCacheEntry env) (outcome : DiskCacheDisk.WriteOutcome) : Prop :=
  let name := settings.formUrlFileName url
  let length := DiskCacheDisk.writtenLength entry outcome
  let growth := pruned.growth settings name entry outcome
  (BitVec.ofInt _ (settings.roundUpToBlockSize length) : Long env) = BitVec.ofInt _ growth ∧
    (outcome = .written → pruned.total settings + growth ≤ (pruned.maxSizeBytes.toNat : Int))

/-- The condition under which an operation keeps the accounts. -/
def StepAccounted (settings : Settings) (state : CacheRun env) : Operation env → Prop
  | .add clock url entry outcome =>
    let pruned := state.cache.pruneToFit settings clock
      (BitVec.ofInt _ (settings.roundUpToBlockSize entry.size))
    entry.size < settings.diskCacheLargestObjectSize → pruned.2 = true →
      AddAccounted settings pruned.1 url entry outcome
  | .contains clock url =>
    ∀ file entry, url ≠ [] → state.cache.files.lookup (settings.formUrlFileName url) = some file →
      (readFromFile env settings.diskCacheLargestObjectSize file).1 = some entry →
      entry.isExpired clock.now = false →
      DiskCacheDisk.HitAccounted env settings file
  | _ => True

section Steps

variable {settings : Settings} {cache : DiskCacheDisk env}

variable (balanced : cache.Balanced settings)
include balanced

/-- Adding a number to the counter after a write that moved the total. -/
theorem counted_iff {written : DiskCacheDisk env} {growth rounded : Int} {isWritten : Bool}
    (currentSizeBytes : written.currentSizeBytes = cache.currentSizeBytes)
    (maxSizeBytes : written.maxSizeBytes = cache.maxSizeBytes)
    (wrapped : written.wrapped = cache.wrapped)
    (moved : (written.total settings : Int) = cache.total settings + growth)
    (nonpos : isWritten = false → growth ≤ 0) : Accounted settings
        ⟨{ written with
            currentSizeBytes := written.currentSizeBytes + BitVec.ofInt _ rounded },
          isWritten⟩ ↔
      (BitVec.ofInt _ rounded : Long env) = BitVec.ofInt _ growth ∧ (isWritten = true →
          cache.total settings + growth ≤ (cache.maxSizeBytes.toNat : Int)) := by
  rw [← balanced.total, ← currentSizeBytes] at moved
  constructor
  · rintro ⟨⟨same, -⟩, capacity⟩
    have inRange : written.total settings < 2 ^ env.longBits :=
      lt_of_eq_of_lt same.symm (BitVec.isLt _)
    refine ⟨(DiskCacheDisk.toNat_add_eq_iff moved inRange).1 same,
      fun isAdded => ?_⟩
    have within := capacity isAdded
    rw [same] at within
    rw [← balanced.total, ← currentSizeBytes, ← moved, ← maxSizeBytes]
    exact Int.ofNat_le.2 within
  · rintro ⟨grows, within⟩
    rw [← balanced.total, ← currentSizeBytes, ← moved, ← maxSizeBytes, Int.ofNat_le] at within
    have inRange : written.total settings < 2 ^ env.longBits := by
      cases isWritten with
      | true => exact lt_of_le_of_lt (within rfl) written.maxSizeBytes.isLt
      | false =>
        have := nonpos rfl
        omega
    have same := (DiskCacheDisk.toNat_add_eq_iff moved inRange).2 grows
    refine ⟨⟨same, wrapped.trans balanced.notWrapped⟩, fun isAdded => ?_⟩
    exact le_of_eq_of_le same (within isAdded)

/-- Writing the file of an entry and adding its rounded length. -/
theorem write_accounted_iff (url : WString) (entry : DiskCacheEntry env)
    (outcome : DiskCacheDisk.WriteOutcome) : Accounted settings
        ⟨{ (cache.write (settings.formUrlFileName url) entry outcome).1 with
            currentSizeBytes :=
              (cache.write (settings.formUrlFileName url) entry outcome).1.currentSizeBytes +
              BitVec.ofInt _ (settings.roundUpToBlockSize
                (DiskCacheDisk.writtenLength entry outcome)) },
          outcome = .written⟩ ↔
      AddAccounted settings cache url entry outcome := by
  have frame := cache.write_frame (settings.formUrlFileName url) entry outcome
  rw [counted_iff balanced frame.1 frame.2.1 frame.2.2
    (DiskCacheDisk.total_write _ entry outcome)
    (fun notWritten => DiskCacheDisk.growth_nonpos_of_not_written _ entry
      (of_decide_eq_false notWritten)), decide_eq_true_eq, AddAccounted]

theorem add_accounted_iff (clock : Clock) (url : WString) (entry : DiskCacheEntry env)
    (outcome : DiskCacheDisk.WriteOutcome) (added : Bool) :
    Accounted settings (step settings ⟨cache, added⟩ (.add clock url entry outcome)) ↔
      StepAccounted settings ⟨cache, added⟩ (.add clock url entry outcome) := by
  have kept : DiskCacheDisk.Preserved settings cache (cache.pruneToFit settings
      clock (BitVec.ofInt _ (settings.roundUpToBlockSize entry.size))).1 :=
    DiskCacheDisk.preserved_pruneToFit clock _
  rw [step, StepAccounted]
  by_cases small : entry.size < settings.diskCacheLargestObjectSize
  · cases made : cache.pruneToFit settings clock
        (BitVec.ofInt _ (settings.roundUpToBlockSize entry.size)) with
    | mk pruned fits =>
    rw [made] at kept
    cases fits with
    | true =>
      rw [DiskCacheDisk.add_of_room small made,
        write_accounted_iff (kept.balanced balanced) url entry outcome]
      exact ⟨fun met _ _ => met, fun met => met small rfl⟩
    | false =>
      rw [DiskCacheDisk.add_of_no_room small made]
      refine iff_of_true ⟨kept.balanced balanced, fun isAdded => ?_⟩ ?_
      · cases isAdded
      · intro _ isTrue
        cases isTrue
  · rw [DiskCacheDisk.add_of_large small]
    refine iff_of_true ⟨balanced, fun isAdded => ?_⟩ fun large => absurd large small
    cases isAdded

theorem contains_accounted_iff (clock : Clock) (url : WString)
    (added : Bool) : Accounted settings (step settings ⟨cache, added⟩ (.contains clock url)) ↔
      StepAccounted settings ⟨cache, added⟩ (.contains clock url) := by
  have accounted_iff : ∀ {after : DiskCacheDisk env},
      Accounted settings ⟨after, false⟩ ↔ after.Balanced settings := by
    intro after
    refine ⟨fun accounted => accounted.balanced, fun kept => ⟨kept, ?_⟩⟩
    intro isAdded
    cases isAdded
  rw [step, StepAccounted, DiskCacheDisk.contains, accounted_iff]
  by_cases empty : url = []
  · rw [if_pos empty]
    exact iff_of_true balanced fun _ _ notEmpty => absurd empty notEmpty
  rw [if_neg empty]
  cases found : cache.files.lookup (settings.formUrlFileName url) with
  | none =>
    refine iff_of_true balanced fun file entry _ isFound => ?_
    cases isFound
  | some file =>
  dsimp only
  cases read : (readFromFile env settings.diskCacheLargestObjectSize file).1 with
  | none =>
    refine iff_of_true balanced fun other entry _ isFound isRead => ?_
    cases isFound
    rw [read] at isRead
    cases isRead
  | some entry =>
  dsimp only
  cases expired : entry.isExpired clock.now with
  | true =>
    refine iff_of_true ((DiskCacheDisk.preserved_remove url).balanced balanced)
      fun other stored _ isFound isRead valid => ?_
    cases isFound
    rw [read] at isRead
    cases isRead
    rw [expired] at valid
    cases valid
  | false =>
    rw [if_neg Bool.false_ne_true]
    rw [DiskCacheDisk.balanced_updateAccessCount_iff balanced found]
    constructor
    · intro unchanged other stored _ isFound _ _
      cases isFound
      exact unchanged
    · intro met
      exact met file entry empty rfl read expired

omit balanced

/-- An operation keeps the accounts exactly when it meets its condition. -/
theorem step_accounted_iff (op : Operation env) (state : CacheRun env)
    (balanced : state.cache.Balanced settings) : Accounted settings (step settings state op) ↔
      StepAccounted settings state op := by
  have notAdded : ∀ {after : DiskCacheDisk env},
      after.Balanced settings → Accounted settings ⟨after, false⟩ := by
    intro after kept
    refine ⟨kept, fun isAdded => ?_⟩
    cases isAdded
  cases op with
  | add clock url entry outcome =>
    exact add_accounted_iff balanced clock url entry outcome state.added
  | contains clock url => exact contains_accounted_iff balanced clock url state.added
  | remove url =>
    exact iff_of_true
      (notAdded ((DiskCacheDisk.preserved_remove url).balanced balanced)) trivial
  | setMaxCapacity clock size prune =>
    exact iff_of_true
      (notAdded (DiskCacheDisk.balanced_setMaxCapacity balanced clock size prune))
      trivial
  | clear =>
    exact iff_of_true
      (notAdded (DiskCacheDisk.balanced_clear balanced.notWrapped)) trivial

end Steps

/-- The cache as it is constructed over the files of its directory. -/
def start (env : Platform) (settings : Settings) (dotNames : List Nat)
    (files : Files) : CacheRun env := ⟨DiskCacheDisk.init settings dotNames files, false⟩

/-- The condition under which the inventory is in order: the names that start
with a dot take no space, and the counter can hold the sizes of the files. -/
def StartAccounted (env : Platform) (settings : Settings) (dotNames : List Nat)
    (files : Files) : Prop :=
  let total := WeightedMap.total
    (fun file : StdString => settings.sizeOnDisk file.length) files
  dotNames.sum % 2 ^ env.longBits = 0 ∧ total < 2 ^ env.longBits

theorem add_mod_eq_iff {modulus : Nat} (positive : 0 < modulus) (extra total : Nat) :
    (extra + total) % modulus = total ↔ extra % modulus = 0 ∧ total < modulus := by
  have extraBound := Nat.mod_lt extra positive
  constructor
  · intro same
    have inRange : total < modulus := by
      rw [← same]
      exact Nat.mod_lt _ positive
    rw [Nat.add_mod_eq_ite, Nat.mod_eq_of_lt inRange] at same
    refine ⟨?_, inRange⟩
    split at same <;> omega
  · rintro ⟨none, inRange⟩
    rw [Nat.add_mod, none, Nat.zero_add, Nat.mod_mod, Nat.mod_eq_of_lt inRange]

theorem start_accounted_iff (settings : Settings) (dotNames : List Nat) (files : Files) :
    Accounted settings (start env settings dotNames files) ↔
      StartAccounted env settings dotNames files := by
  have balanced_iff : (start env settings dotNames files).cache.Balanced
      settings ↔ StartAccounted env settings dotNames files := by
    rw [StartAccounted, ← add_mod_eq_iff (Nat.two_pow_pos _)]
    constructor
    · intro balanced
      have same := balanced.total
      change (BitVec.ofNat _ _).toNat = _ at same
      rwa [BitVec.toNat_ofNat] at same
    · intro same
      refine ⟨?_, rfl⟩
      change (BitVec.ofNat _ _).toNat = _
      exact same
  rw [← balanced_iff]
  refine ⟨fun accounted => accounted.balanced, fun balanced => ⟨balanced, ?_⟩⟩
  intro isAdded
  cases isAdded

/-- In a run of the cache the counter is the sum of the sizes on disk, never
wraps, and is within the capacity after every `add` that succeeds, exactly when
the directory starts in order and every operation meets its condition. -/
theorem sizeAccounted_run_iff (env : Platform) (settings : Settings) (dotNames : List Nat)
    (files : Files) (ops : List (Operation env)) : (∀ state ∈ Runs.visited (step settings)
        (start env settings dotNames files) ops,
      Accounted settings state) ↔
      StartAccounted env settings dotNames files ∧
        Runs.StepsMeet (step settings) (StepAccounted settings)
          (start env settings dotNames files) ops := by
  by_cases initial : Accounted settings (start env settings dotNames files)
  · rw [and_iff_right ((start_accounted_iff settings dotNames files).1 initial)]
    exact Runs.visited_iff_stepsMeet (fun _ _ (_ : True) => trivial)
      (fun state op _ accounted => step_accounted_iff op state accounted.balanced)
      ops trivial initial
  · refine iff_of_false (fun all => initial (all _ (Runs.mem_visited_self _ _)))
      fun both => initial ?_
    exact (start_accounted_iff settings dotNames files).2 both.1

/-- Surroundings with blocks of 4096 bytes in which files take whole blocks and
directories none. -/
def blocks4096 : Settings where
  diskCacheEnabled := true
  diskCacheLargestObjectSize := 6291456
  blockSize := 4096
  sizeOnDisk length := (length + 4095) / 4096 * 4096
  sha1 url := url

/-- An entry of three bytes that never expires soon. -/
def smallEntry : DiskCacheEntry .ilp32 where
  payload := [1, 2, 3]
  lastAccess := 100
  expiresAt := 100000
  accessCount := 0
  statusCode := 200
  expectedContentLength := 3
  mimeType := WString.lit "text/html"
  fileName := []
  encodingName := []
  setCookie := []
  headers := []

/-- Adding a URL a second time counts its file twice. -/
theorem overwritten_entry_counted_twice : ¬∀ (settings : Settings) (ops : List (Operation .ilp32)),
      ∀ state ∈ Runs.visited (step settings) (start .ilp32 settings [0, 0] ∅)
        ops, Accounted settings state := by
  intro always
  have accounted := always blocks4096
    [.add ⟨100, 100⟩ (WString.lit "http://a/") smallEntry .written,
      .add ⟨101, 101⟩ (WString.lit "http://a/") smallEntry .written]
    _ (Runs.final_mem_visited _ _)
  have same := accounted.balanced.total
  revert same
  decide +kernel

end CacheRun

end DiskCache
end PalmWebKit
