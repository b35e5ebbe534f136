import PalmWebKit.DiskCache.HitCount

/-!
# The order of eviction

The score of a file is its access count over its size and its age, scaled by
2^16 and cut off to an `int`.
-/

namespace PalmWebKit
namespace DiskCache

open List

variable {env : Platform}

/-! ## Scores -/

/-- The integers that are read behind the payload: the last access, the expiry
and the access count. -/
def scoreFields (env : Platform)
    (file : StdString) : Long env × Long env × Long env :=
  ((do
    let lastAccess ← readLong env
    let expiresAt ← readLong env
    let accessCount ← readLong env
    pure (lastAccess, expiresAt, accessCount) : FileReader _)
      (file.drop (seekBehindPayload (readIntFromFile env file).1.2))).1

section Scores

variable (env) (settings : Settings) (now : Int) (file : StdString)

/-- The file is removed because of its expiry. -/
def PrunedAsExpired : Prop :=
  (scoreFields env file).2.1 ≠ 0 ∧ (scoreFields env file).2.1.toInt ≤ now

instance : Decidable (PrunedAsExpired env now file) := inferInstanceAs (Decidable (_ ∧ _))

/-- The access count, one at least. -/
def scoredCount : Long env :=
  if (scoreFields env file).2.2 = 0 then 1 else (scoreFields env file).2.2

/-- The size on disk, one at least. -/
def scoredSize : Int :=
  if (settings.sizeOnDisk file.length : Int) = 0 then 1 else settings.sizeOnDisk file.length

def scoredAge : Int := now - (scoreFields env file).1.toInt

/-- What the access count is divided by. -/
def scoredWeight : Int :=
  if scoredSize settings file * scoredAge env now file = 0 then 1
  else scoredSize settings file * scoredAge env now file

/-- The intended score: the access count over the size and the age. -/
def intendedScore : ℚ := (scoredCount env file).toInt / scoredWeight env settings now file

/-- The intended score times 2^16, cut off. -/
def scaledScore : Int :=
  ((scoredCount env file).toInt * 2 ^ 16).tdiv (scoredWeight env settings now file)

def fileScore : Int :=
  DiskCacheDisk.scoreFile env now (settings.sizeOnDisk file.length) (scoreFields env file).1
    (scoreFields env file).2.2

/-- No conversion and no shift loses anything on the way to the score. -/
structure ComputedExactly : Prop where
  weight : toInt32 (scoredSize settings file * scoredAge env now file) =
    scoredSize settings file * scoredAge env now file
  count : (scoredCount env file <<< 16).toInt = (scoredCount env file).toInt * 2 ^ 16
  score : fileScore env settings now file = scaledScore env settings now file

/-- The size times the age and the score are below 2^31, and the access count
fits a `long` when it is scaled. -/
structure InRange : Prop where
  weight : scoredSize settings file * scoredAge env now file < 2 ^ 31
  count : -2 ^ (env.longBits - 1) ≤ (scoredCount env file).toInt * 2 ^ 16 ∧
    (scoredCount env file).toInt * 2 ^ 16 < 2 ^ (env.longBits - 1)
  score : -2 ^ 31 ≤ scaledScore env settings now file ∧
    scaledScore env settings now file < 2 ^ 31

variable {env settings now file}

theorem fileScore_eq :
    fileScore env settings now file = toInt32 ((scoredCount env file <<< 16).toInt.tdiv
        (if toInt32 (scoredSize settings file * scoredAge env now file) = 0 then 1
        else toInt32 (scoredSize settings file * scoredAge env now file))) := rfl

theorem scoredSize_pos : 0 < scoredSize settings file := by
  rw [scoredSize]
  split_ifs <;> omega

theorem toInt32_eq_iff (value : Int) :
    toInt32 value = value ↔ -2 ^ 31 ≤ value ∧ value < 2 ^ 31 := by
  rw [toInt32, Int.bmod_def]
  omega

theorem toInt_shiftLeft_eq_iff (value : Long env) :
    (value <<< 16).toInt = value.toInt * 2 ^ 16 ↔
      -2 ^ (env.longBits - 1) ≤ value.toInt * 2 ^ 16 ∧
        value.toInt * 2 ^ 16 < 2 ^ (env.longBits - 1) := by
  have bound := value.isLt
  have before := BitVec.toInt_eq_toNat_cond value
  have after := BitVec.toInt_eq_toNat_cond (value <<< 16)
  rw [BitVec.toNat_shiftLeft] at after
  rw [before, after]
  cases env <;> simp only [Platform.longBits] at bound ⊢ <;> omega

theorem scoredWeight_pos (notLater : 0 ≤ scoredAge env now file) :
    0 < scoredWeight env settings now file := by
  have nonneg : 0 ≤ scoredSize settings file * scoredAge env now file :=
    Int.mul_nonneg scoredSize_pos.le notLater
  rw [scoredWeight]
  split_ifs <;> omega

theorem computedExactly_iff (notLater : 0 ≤ scoredAge env now file) :
    ComputedExactly env settings now file ↔ InRange env settings now file := by
  have nonneg : 0 ≤ scoredSize settings file * scoredAge env now file :=
    Int.mul_nonneg scoredSize_pos.le notLater
  have score : toInt32 (scoredSize settings file * scoredAge env now file) =
      scoredSize settings file * scoredAge env now file →
        (scoredCount env file <<< 16).toInt = (scoredCount env file).toInt * 2 ^ 16 →
          fileScore env settings now file =
            toInt32 (scaledScore env settings now file) := by
    intro weight count
    rw [fileScore_eq, weight, count]
    rfl
  constructor
  · rintro ⟨weight, count, isScore⟩
    refine ⟨((toInt32_eq_iff _).1 weight).2, (toInt_shiftLeft_eq_iff _).1 count, ?_⟩
    rw [score weight count] at isScore
    exact (toInt32_eq_iff _).1 isScore
  · rintro ⟨weight, count, isScore⟩
    have exactWeight := (toInt32_eq_iff _).2 ⟨by omega, weight⟩
    have exactCount := (toInt_shiftLeft_eq_iff _).2 count
    exact ⟨exactWeight, exactCount,
      (score exactWeight exactCount).trans ((toInt32_eq_iff _).2 isScore)⟩

end Scores

/-! ## Cutting off -/

theorem ediv_le_ediv_of_ratio {first second firstWeight secondWeight : Int}
    (firstPos : 0 < firstWeight) (secondPos : 0 < secondWeight)
    (ratio : first * secondWeight ≤ second * firstWeight) :
    first / firstWeight ≤ second / secondWeight := by
  rw [Int.le_ediv_iff_mul_le secondPos]
  have cut : first / firstWeight * firstWeight ≤ first := Int.ediv_mul_le _ (by omega)
  have scaled : first / firstWeight * firstWeight * secondWeight ≤ first * secondWeight :=
    Int.mul_le_mul_of_nonneg_right cut secondPos.le
  refine Int.le_of_mul_le_mul_right (?_ : _ * firstWeight ≤ _ * firstWeight) firstPos
  calc first / firstWeight * secondWeight * firstWeight
    _ = first / firstWeight * firstWeight * secondWeight := by ring
    _ ≤ second * firstWeight := scaled.trans ratio

theorem tdiv_of_neg {value weight : Int} (isNegative : value < 0) :
    value.tdiv weight = -(-value / weight) := by
  have negated := Int.neg_tdiv (-value) weight
  rw [Int.neg_neg] at negated
  rw [negated, Int.tdiv_eq_ediv_of_nonneg (by omega)]

/-- Division that is cut off towards zero does not change an order. -/
theorem tdiv_le_tdiv_of_ratio {first second firstWeight secondWeight : Int}
    (firstPos : 0 < firstWeight) (secondPos : 0 < secondWeight)
    (ratio : first * secondWeight ≤ second * firstWeight) :
    first.tdiv firstWeight ≤ second.tdiv secondWeight := by
  by_cases firstNonneg : 0 ≤ first
  · have secondNonneg : 0 ≤ second := by
      by_contra isNegative
      have left := Int.mul_nonneg firstNonneg secondPos.le
      have right := Int.mul_neg_of_neg_of_pos (Int.not_le.1 isNegative) firstPos
      omega
    rw [Int.tdiv_eq_ediv_of_nonneg firstNonneg, Int.tdiv_eq_ediv_of_nonneg secondNonneg]
    exact ediv_le_ediv_of_ratio firstPos secondPos ratio
  · have firstNonpos : first.tdiv firstWeight ≤ 0 := by
      rw [tdiv_of_neg (Int.not_le.1 firstNonneg)]
      have quotient := @Int.ediv_nonneg (-first) firstWeight (by omega) firstPos.le
      omega
    by_cases secondNonneg : 0 ≤ second
    · exact firstNonpos.trans (Int.tdiv_nonneg secondNonneg secondPos.le)
    · have negated := @ediv_le_ediv_of_ratio (-second) (-first) secondWeight firstWeight
        secondPos firstPos (by rw [Int.neg_mul, Int.neg_mul]; omega)
      rw [tdiv_of_neg (Int.not_le.1 firstNonneg), tdiv_of_neg (Int.not_le.1 secondNonneg)]
      omega

theorem scaledScore_mono {settings : Settings} {now : Int} {first second : StdString}
    (firstNotLater : 0 ≤ scoredAge env now first)
    (secondNotLater : 0 ≤ scoredAge env now second)
    (isLess : intendedScore env settings now first ≤
      intendedScore env settings now second) :
    scaledScore env settings now first ≤ scaledScore env settings now second := by
  have firstPos := @scoredWeight_pos env settings now first firstNotLater
  have secondPos := @scoredWeight_pos env settings now second secondNotLater
  rw [intendedScore, intendedScore, div_le_div_iff₀ (by exact_mod_cast firstPos)
    (by exact_mod_cast secondPos)] at isLess
  have ratio : (scoredCount env first).toInt * scoredWeight env settings now second ≤
      (scoredCount env second).toInt * scoredWeight env settings now first := by
    exact_mod_cast isLess
  refine tdiv_le_tdiv_of_ratio firstPos secondPos ?_
  calc (scoredCount env first).toInt * 2 ^ 16 * scoredWeight env settings now second
    _ = (scoredCount env first).toInt * scoredWeight env settings now second * 2 ^ 16 :=
        by ring
    _ ≤ (scoredCount env second).toInt * scoredWeight env settings now first * 2 ^ 16 :=
        Int.mul_le_mul_of_nonneg_right ratio (by decide)
    _ = (scoredCount env second).toInt * 2 ^ 16 * scoredWeight env settings now first :=
        by ring

/-! ## The scored files -/

namespace DiskCacheDisk

section Scanning

variable (settings : Settings) (now : Int)

/-- The files of a directory that are not removed because of their expiry. -/
def scoredEntries (env : Platform) (entries : List (Sigma fun _ : StdString => StdString)) :
    List (Sigma fun _ : StdString => StdString) :=
  entries.filter fun entry => ¬PrunedAsExpired env now entry.2

def scoredFile (env : Platform) (entry : Sigma fun _ : StdString => StdString) : ScoredFile :=
  ⟨entry.1, fileScore env settings now entry.2⟩

variable {settings now}

@[simp] theorem scores_unlinkCounted (cache : DiskCacheDisk env) (name : StdString) :
    (cache.unlinkCounted settings name).scores = cache.scores := by
  rw [unlinkCounted]
  split <;> rfl

theorem scores_pruneOrScore (cache : DiskCacheDisk env) (name file : StdString) :
    (cache.pruneOrScore settings now name file).scores =
      if PrunedAsExpired env now file then cache.scores
      else cache.scores ++ [⟨name, fileScore env settings now file⟩] := by
  have unfolded : cache.pruneOrScore settings now name file =
      if PrunedAsExpired env now file then cache.unlinkCounted settings name
      else
        { cache with
          scores := cache.scores ++ [⟨name, fileScore env settings now file⟩] } := rfl
  rw [unfolded]
  split_ifs
  · exact scores_unlinkCounted _ _
  · rfl

theorem scoredEntries_cons (entry : Sigma fun _ : StdString => StdString)
    (entries : List (Sigma fun _ : StdString => StdString)) :
    scoredEntries now env (entry :: entries) =
      if PrunedAsExpired env now entry.2 then scoredEntries now env entries
      else entry :: scoredEntries now env entries := by
  by_cases expired : PrunedAsExpired env now entry.2
  · rw [if_pos expired]
    exact filter_cons_of_neg fun isScored => of_decide_eq_true isScored expired
  · rw [if_neg expired]
    exact filter_cons_of_pos (decide_eq_true expired)

theorem scores_scanDirectory (entries : List (Sigma fun _ : StdString => StdString))
    (cache : DiskCacheDisk env) :
    (scanDirectory settings now cache entries).scores = cache.scores ++
        (scoredEntries now env entries).map (scoredFile settings now env) := by
  induction entries generalizing cache with
  | nil => exact (append_nil _).symm
  | cons entry entries ih =>
    have turn : scanDirectory settings now cache (entry :: entries) =
        scanDirectory settings now (cache.pruneOrScore settings now entry.1 entry.2) entries := rfl
    rw [turn, ih, scores_pruneOrScore, scoredEntries_cons]
    by_cases expired : PrunedAsExpired env now entry.2
    · rw [if_pos expired, if_pos expired]
    · rw [if_neg expired, if_neg expired, map_cons, append_assoc]
      rfl

/-- The order of `m_scores`. -/
def higherScore (first second : ScoredFile) : Bool := first.score ≥ second.score

/-- The cache scans its directory when it is pruned. -/
def Rescans (clock : Clock) (cache : DiskCacheDisk env) : Prop :=
  clock.now - cache.lastPruneExpiredAndScore ≥ 60 ∨ cache.scores = []

theorem scores_pruneExpiredAndScore {clock : Clock} {cache : DiskCacheDisk env}
    (rescans : cache.Rescans clock) : (cache.pruneExpiredAndScore settings clock).scores =
      ((scoredEntries clock.now env cache.files.entries).map
        (scoredFile settings clock.now env)).mergeSort higherScore := by
  have scanned := @scores_scanDirectory _ settings clock.now cache.files.entries
    { cache with scores := [] }
  have pruned : (cache.pruneExpiredAndScore settings clock).scores =
      (scanDirectory settings clock.now { cache with scores := [] }
        cache.files.entries).scores.mergeSort higherScore := by
    rw [pruneExpiredAndScore, if_pos (show clock.now - _ ≥ 60 ∨ _ from rescans)]
    rfl
  rw [pruned]
  exact congrArg (fun scores => scores.mergeSort higherScore) scanned

end Scanning

/-! ## Evicting -/

section Evicting

variable (settings : Settings)

/-- The cache behind some calls of `pruneLowestScore`. -/
def evictions : Nat → DiskCacheDisk env → DiskCacheDisk env
  | 0, cache => cache
  | count + 1, cache => evictions count ((cache.pruneLowestScore settings).getD cache)

/-- Files are evicted one by one until the first time that the new file fits, or
nothing is scored any more. -/
def StopsWhenMet (clock : Clock) (cache : DiskCacheDisk env)
    (deltaSize : Long env) : Prop :=
  settings.diskCacheEnabled = true → cache.fits deltaSize = false →
    ∃ count, (cache.pruneToFit settings clock deltaSize).1 =
        evictions settings count (cache.pruneExpiredAndScore settings clock) ∧
      (∀ earlier < count,
        (evictions settings earlier (cache.pruneExpiredAndScore settings clock)).fits deltaSize =
          false) ∧
      ((cache.pruneToFit settings clock deltaSize).1.fits deltaSize = true ∨
        (cache.pruneToFit settings clock deltaSize).1.scores = [])

variable {settings}

theorem pruneWhile_spec {turns : Nat} {deltaSize : Long env} {cache : DiskCacheDisk env}
    (isTurns : cache.scores.length = turns) (isFull : cache.fits deltaSize = false) :
    ∃ count, (cache.pruneWhile settings deltaSize turns).1 = evictions settings count cache ∧
      (∀ earlier < count, (evictions settings earlier cache).fits deltaSize = false) ∧
      ((cache.pruneWhile settings deltaSize turns).1.fits deltaSize = true ∨
        (cache.pruneWhile settings deltaSize turns).1.scores = []) := by
  induction turns generalizing cache with
  | zero => exact ⟨0, rfl, nofun, .inr (length_eq_zero_iff.1 isTurns)⟩
  | succ turns ih =>
    cases isPruned : cache.pruneLowestScore settings with
    | none =>
      have noScores : cache.scores = [] := by
        rw [pruneLowestScore, Option.map_eq_none_iff, getLast?_eq_none_iff] at isPruned
        exact isPruned
      rw [noScores] at isTurns
      cases isTurns
    | some pruned =>
      have evicted : ∀ count, evictions settings (count + 1) cache =
          evictions settings count pruned := by
        intro count
        rw [evictions, isPruned, Option.getD_some]
      have fewer : pruned.scores.length = turns := by
        rw [pruneLowestScore, Option.map_eq_some_iff] at isPruned
        obtain ⟨lowest, -, rfl⟩ := isPruned
        rw [length_dropLast, isTurns, Nat.add_sub_cancel]
      by_cases fits : pruned.fits deltaSize = true
      · have result : (cache.pruneWhile settings deltaSize (turns + 1)).1 = pruned := by
          rw [pruneWhile, isPruned]
          simp only [if_pos fits]
        refine ⟨1, by rw [result, evicted]; rfl, ?_, Or.inl (by rw [result, fits])⟩
        intro earlier isEarlier
        obtain rfl : earlier = 0 := by omega
        exact isFull
      · obtain ⟨count, result, earlierFull, ends⟩ := ih fewer (Bool.not_eq_true _ ▸ fits)
        have goesOn : cache.pruneWhile settings deltaSize (turns + 1) =
            pruned.pruneWhile settings deltaSize turns := by
          rw [pruneWhile, isPruned]
          simp only [if_neg fits]
        rw [goesOn]
        refine ⟨count + 1, by rw [result, evicted], ?_, ends⟩
        intro earlier isEarlier
        cases earlier with
        | zero => exact isFull
        | succ earlier =>
          rw [evicted]
          exact earlierFull earlier (Nat.lt_of_succ_lt_succ isEarlier)

theorem stopsWhenMet (clock : Clock) (cache : DiskCacheDisk env) (deltaSize : Long env) :
    StopsWhenMet settings clock cache deltaSize := by
  intro enabled isFull
  have started : cache.pruneToFit settings clock deltaSize =
      if (cache.pruneExpiredAndScore settings clock).fits deltaSize then
        (cache.pruneExpiredAndScore settings clock, true)
      else
        (cache.pruneExpiredAndScore settings clock).pruneWhile settings deltaSize
          (cache.pruneExpiredAndScore settings clock).scores.length := by
    rw [pruneToFit, enabled, isFull]
    rfl
  rw [started]
  by_cases fits : (cache.pruneExpiredAndScore settings clock).fits deltaSize = true
  · rw [if_pos fits]
    exact ⟨0, rfl, nofun, .inl fits⟩
  · rw [if_neg fits]
    exact pruneWhile_spec rfl (Bool.not_eq_true _ ▸ fits)

/-- `pruneLowestScore` takes the last score. -/
theorem scores_evictions (count : Nat) (cache : DiskCacheDisk env) :
    (evictions settings count cache).scores = cache.scores.take (cache.scores.length - count) := by
  induction count generalizing cache with
  | zero => rw [Nat.sub_zero, take_length, evictions]
  | succ count ih =>
    have fewer : ((cache.pruneLowestScore settings).getD cache).scores = cache.scores.dropLast := by
      cases isLast : cache.scores.getLast? with
      | none =>
        rw [pruneLowestScore, getLast?_eq_none_iff.1 isLast]
        simpa using isLast
      | some lowest =>
        rw [pruneLowestScore, isLast]
        rfl
    rw [evictions, ih, fewer, length_dropLast, dropLast_eq_take, take_take]
    congr 1
    omega

end Evicting

/-! ## The order of values -/

section Values

variable (settings : Settings) (clock : Clock) (cache : DiskCacheDisk env)

/-- The intended score of the file under a name is at most that under another. -/
def ValuedAtMost (now : Int) (files : Files) (lower higher : StdString) : Prop :=
  ∀ first second, files.lookup lower = some first → files.lookup higher = some second →
    intendedScore env settings now first ≤ intendedScore env settings now second

/-- Every file that is evicted has the lowest intended score of those that are
scored. -/
def EvictsLowest (now : Int) (files : Files) : Prop :=
  ∀ count lowest, (evictions settings count cache).scores.getLast? = some lowest →
    ∀ other ∈ (evictions settings count cache).scores,
      @ValuedAtMost env settings now files lowest.name other.name

/-- For every order of the directory, the files that are scored are evicted by
their intended scores until the new one fits. -/
structure PrunesByValue : Prop where
  exact : ∀ entry ∈ scoredEntries clock.now env cache.files.entries,
    ComputedExactly env settings clock.now entry.2
  inOrder : ∀ files : Files, files.entries.Perm cache.files.entries →
    EvictsLowest settings ({ cache with files }.pruneExpiredAndScore settings clock) clock.now
      files
  stops : ∀ files : Files, files.entries.Perm cache.files.entries → ∀ deltaSize,
    StopsWhenMet settings clock { cache with files } deltaSize

/-- The numbers stay in their ranges, and files whose scaled scores are cut off
to one number have one score. -/
structure Distinguished : Prop where
  inRange : ∀ entry ∈ scoredEntries clock.now env cache.files.entries,
    InRange env settings clock.now entry.2
  sameScore : ∀ first ∈ scoredEntries clock.now env cache.files.entries,
    ∀ second ∈ scoredEntries clock.now env cache.files.entries,
      scaledScore env settings clock.now first.2 =
        scaledScore env settings clock.now second.2 →
          intendedScore env settings clock.now first.2 =
            intendedScore env settings clock.now second.2

variable {settings clock cache}

variable
  {now : Int}
  {files : Files}

theorem evictsLowest_iff : EvictsLowest settings cache now files ↔
      cache.scores.Pairwise fun higher lower =>
        @ValuedAtMost env settings now files lower.name higher.name := by
  constructor
  · intro evicts
    rw [pairwise_iff_getElem]
    intro first second firstInside secondInside isBefore
    have shown := evicts (cache.scores.length - (second + 1)) cache.scores[second]
    rw [scores_evictions] at shown
    have kept : cache.scores.length - (cache.scores.length - (second + 1)) = second + 1 := by omega
    rw [kept] at shown
    refine shown ?_ _ ?_
    · rw [take_succ_eq_append_getElem secondInside, getLast?_concat]
    · rw [mem_take_iff_getElem]
      exact ⟨first, by omega, rfl⟩
  · intro sorted count lowest isLast other isKept
    rw [scores_evictions] at isLast isKept
    have keptSorted := sorted.sublist (take_sublist (cache.scores.length - count) cache.scores)
    obtain ⟨before, isBefore⟩ := getLast?_eq_some_iff.1 isLast
    rw [isBefore] at keptSorted isKept
    rcases mem_append.1 isKept with isEarlier | isSame
    · exact (pairwise_append.1 keptSorted).2.2 other isEarlier lowest
        mem_cons_self
    · obtain rfl := mem_singleton.1 isSame
      intro first second isFirst isSecond
      rw [isFirst] at isSecond
      rw [Option.some.inj isSecond]

theorem lookup_of_mem_scoredEntries {entry : Sigma fun _ : StdString => StdString}
    (isScored : entry ∈ scoredEntries now env files.entries) :
    files.lookup entry.1 = some entry.2 := AList.mem_lookup_iff.2 (mem_of_mem_filter isScored)

theorem mem_scoredEntries_of_perm {files others : List (Sigma fun _ : StdString => StdString)}
    (rearranged : files.Perm others) {entry : Sigma fun _ : StdString => StdString}
    (isScored : entry ∈ scoredEntries now env files) :
    entry ∈ scoredEntries now env others := (rearranged.filter _).mem_iff.1 isScored

/-- Two files can stand in front of a directory in any order. -/
theorem exists_rearranged {first second : Sigma fun _ : StdString => StdString}
    (isFirst : first ∈ files.entries) (isSecond : second ∈ files.entries)
    (differ : second ≠ first) :
    ∃ others : Files, others.entries.Perm files.entries ∧ [first, second].Sublist others.entries := by
  have rearranged : (first :: second :: (files.entries.erase first).erase second).Perm
      files.entries :=
    ((perm_cons_erase ((mem_erase_of_ne differ).2 isSecond)).symm.cons first).trans
      (perm_cons_erase isFirst).symm
  refine ⟨⟨_, (perm_nodupKeys rearranged).2 files.nodupKeys⟩, rearranged, ?_⟩
  exact ((nil_sublist _).cons_cons second).cons_cons first

theorem higherScore_trans (first second third : ScoredFile) (left : higherScore first second = true)
    (right : higherScore second third = true) : higherScore first third = true := by
  simp only [higherScore, decide_eq_true_iff] at *
  omega

theorem higherScore_total (first second : ScoredFile) :
    (higherScore first second || higherScore second first) = true := by
  simp only [higherScore, Bool.or_eq_true, decide_eq_true_iff]
  omega

section Pruning

variable (rescans : cache.Rescans clock)

include rescans

/-- Of two files with one score, the later one in the directory goes first. -/
theorem valuedAtMost_of_tie
    (inOrder : ∀ files : Files, files.entries.Perm cache.files.entries →
      EvictsLowest settings ({ cache with files }.pruneExpiredAndScore settings clock) clock.now
        files)
    {first second : Sigma fun _ : StdString => StdString}
    (isFirst : first ∈ scoredEntries clock.now env cache.files.entries)
    (isSecond : second ∈ scoredEntries clock.now env cache.files.entries)
    (tie : fileScore env settings clock.now first.2 =
      fileScore env settings clock.now second.2)
    (differ : second ≠ first) : intendedScore env settings clock.now second.2 ≤
      intendedScore env settings clock.now first.2 := by
  obtain ⟨files, rearranged, inFront⟩ := exists_rearranged
    (mem_of_mem_filter isFirst) (mem_of_mem_filter isSecond) differ
  have sorted := evictsLowest_iff.1 (inOrder files rearranged)
  rw [@scores_pruneExpiredAndScore env settings clock { cache with files } rescans] at sorted
  have scored : [first, second].Sublist (scoredEntries clock.now env files.entries) := by
    have kept : scoredEntries clock.now env [first, second] = [first, second] := by
      refine filter_eq_self.2 fun entry isEntry => ?_
      rcases mem_cons.1 isEntry with rfl | isOther
      · exact (mem_filter.1 isFirst).2
      · rw [mem_singleton.1 isOther]
        exact (mem_filter.1 isSecond).2
    rw [← kept]
    exact inFront.filter _
  have together := pair_sublist_mergeSort higherScore_trans higherScore_total
    (show higherScore (scoredFile settings clock.now env first)
      (scoredFile settings clock.now env second) = true from decide_eq_true tie.ge)
    (scored.map (scoredFile settings clock.now env))
  have valued := pairwise_iff_forall_sublist.1 sorted together
  exact valued _ _
    (lookup_of_mem_scoredEntries (mem_scoredEntries_of_perm rearranged.symm isSecond))
    (lookup_of_mem_scoredEntries (mem_scoredEntries_of_perm rearranged.symm isFirst))

end Pruning

end Values

/-- A file of 4096 bytes that was accessed once. -/
def accessedAt (name : StdString)
    (lastAccess : Long .ilp32) : Sigma fun _ : StdString => StdString :=
  ⟨name, writeToFile { smallEntry .ilp32 with lastAccess, accessCount := 1 }⟩

/-- A cache of two files, accessed 1000 and 100 seconds before the time 2000. -/
def twoFiles : DiskCacheDisk .ilp32 :=
  init smallSettings [] ⟨[accessedAt [97] 1000, accessedAt [98] 1900], by
    unfold List.NodupKeys
    decide +kernel⟩

end DiskCacheDisk

end DiskCache
end PalmWebKit
