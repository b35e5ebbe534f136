import PalmWebKit.Editing.SpellCheck

/-!
# The queue and the map of the spell cache

`SpellCheckCache` as it is written, with a queue and a map that only their
operations keep together, over all sequences of its operations.
-/

namespace PalmWebKit
namespace Editing
namespace SpellCache

open List

/-- A `String` that is not null, with the width of its characters. -/
structure Word where
  characters : WString
  is8Bit : Bool
  deriving DecidableEq, Repr

/-- Folding the case of one character, and of texts as ICU does. -/
structure Unicode where
  foldCase : UChar → UChar
  umemcasecmp : WString → WString → Int

/-- `equalIgnoringCase`, which is `CaseFoldingHash::equal`. -/
def equalIgnoringCase (unicode : Unicode) (first second : Word) : Bool :=
  if first.characters.length ≠ second.characters.length then false
  else if first.is8Bit || second.is8Bit then
    first.characters.map unicode.foldCase = second.characters.map unicode.foldCase
  else unicode.umemcasecmp first.characters second.characters = 0

/-! ## The cache -/

/-- The queue, and the map in the order of its iterator. -/
structure SpellCheckCache where
  entryWords : List Word
  entries : List (Word × SpellCheckWordInfo)
  deriving DecidableEq, Repr

/-- Start again after each element that is removed. -/
def removeAll {Element : Type} (hit : Element → Bool) (elements : List Element) : List Element :=
  match _isFound : elements.findIdx? hit with
  | none => elements
  | some index => removeAll hit (elements.eraseIdx index)
  termination_by elements.length
  decreasing_by
    have inside := (findIdx?_eq_some_iff_getElem.1 _isFound).1
    rw [length_eraseIdx_of_lt inside]
    omega

namespace SpellCheckCache

def contains (cache : SpellCheckCache) (word : Word) : Bool :=
  cache.entries.any fun entry => entry.1.characters = word.characters

/-- `HashMap::set`; a key that is there is kept. -/
def set (entries : List (Word × SpellCheckWordInfo)) (word : Word)
    (info : SpellCheckWordInfo) : List (Word × SpellCheckWordInfo) :=
  if entries.any fun entry => entry.1.characters = word.characters then
    entries.map fun entry => if entry.1.characters = word.characters then (entry.1, info) else entry
  else entries ++ [(word, info)]

/-- `HashMap::remove` -/
def remove (entries : List (Word × SpellCheckWordInfo))
    (word : Word) : List (Word × SpellCheckWordInfo) :=
  entries.filter fun entry => entry.1.characters ≠ word.characters

/-- The oldest word leaves a full cache. -/
def purge (cache : SpellCheckCache) : SpellCheckCache :=
  match cache.entryWords with
  | [] => cache
  | word :: words =>
    if cache.entryWords.length = maxQueueEntries then
      { entryWords := words
        entries := remove cache.entries word }
    else cache

def add (cache : SpellCheckCache) (typedWord : Word)
    (info : SpellCheckWordInfo) : SpellCheckCache × Bool :=
  if cache.contains typedWord then
    ({ cache with entries := set cache.entries typedWord info }, false)
  else
    ({ entryWords := cache.purge.entryWords ++ [typedWord]
       entries := set cache.purge.entries typedWord info }, true)

/-- Both loops; nothing is equal to a null string but itself. -/
def evict (unicode : Unicode) (cache : SpellCheckCache) : Option Word → SpellCheckCache
  | none => cache
  | some word =>
    { entryWords := removeAll (equalIgnoringCase unicode · word) cache.entryWords
      entries := removeAll (fun entry => equalIgnoringCase unicode entry.1 word) cache.entries }

def clear : SpellCheckCache where
  entryWords := []
  entries := []

def lookup (cache : SpellCheckCache) (typedWord : Word) : Option SpellCheckWordInfo :=
  (cache.entries.find? fun entry => entry.1.characters = typedWord.characters).map Prod.snd

end SpellCheckCache

/-! ## Runs -/

inductive CacheOperation
  | add (typedWord : Word) (info : SpellCheckWordInfo)
  | lookup (typedWord : Word)
  | evict (word : Option Word)
  | clear
  deriving DecidableEq, Repr

/-- A cache with the time of the last insertion of each word. -/
structure TimedCache where
  cache : SpellCheckCache
  time : Nat
  insertedAt : WString → Nat

/-- One operation. -/
def step (unicode : Unicode) (timed : TimedCache) : CacheOperation → TimedCache
  | .add typedWord info =>
    { cache := (timed.cache.add typedWord info).1
      time := timed.time + 1
      insertedAt :=
        if (timed.cache.add typedWord info).2 then
          Function.update timed.insertedAt typedWord.characters timed.time
        else timed.insertedAt }
  | .lookup _ => { timed with time := timed.time + 1 }
  | .evict word => { timed with cache := timed.cache.evict unicode word, time := timed.time + 1 }
  | .clear => { timed with cache := SpellCheckCache.clear, time := timed.time + 1 }

/-- The cache behind some operations. -/
def run (unicode : Unicode) (ops : List CacheOperation) : TimedCache :=
  Runs.final (step unicode) ⟨SpellCheckCache.clear, 0, fun _ => 0⟩ ops

/-! ## Removing -/

theorem removeAll_eq_filter {Element : Type} (hit : Element → Bool) (elements : List Element) :
    removeAll hit elements = elements.filter fun element => !hit element := by
  fun_induction removeAll hit elements with
  | case1 elements isFound =>
    symm
    rw [filter_eq_self]
    intro element isElement
    rw [findIdx?_eq_none_iff.1 isFound element isElement]
    rfl
  | case2 elements index isFound ih =>
    obtain ⟨inside, isHit, -⟩ := findIdx?_eq_some_iff_getElem.1 isFound
    have parts := take_append_drop index elements
    rw [drop_eq_getElem_cons inside] at parts
    rw [ih, eraseIdx_eq_take_drop_succ]
    conv_rhs => rw [← parts]
    rw [filter_append, filter_append,
      filter_cons_of_neg (by rw [isHit]; exact Bool.false_ne_true)]

namespace SpellCheckCache

variable {cache : SpellCheckCache}

/-- The queue and the map after both loops. -/
theorem evict_some (unicode : Unicode) (cache : SpellCheckCache) (word : Word) :
    cache.evict unicode (some word) =
      { entryWords := cache.entryWords.filter fun entry => !equalIgnoringCase unicode entry word
        entries := cache.entries.filter fun entry =>
          !equalIgnoringCase unicode entry.1 word } := by
  rw [evict, removeAll_eq_filter, removeAll_eq_filter]

/-! ## The invariant -/

/-- The queue has the words of the map, each once. -/
structure Paired (cache : SpellCheckCache) : Prop where
  sameWords : (cache.entries.map Prod.fst).Perm cache.entryWords
  nodup : (cache.entryWords.map Word.characters).Nodup
  bounded : cache.entryWords.length ≤ maxQueueEntries

theorem contains_iff (sameWords : (cache.entries.map Prod.fst).Perm cache.entryWords)
    (word : Word) :
    cache.contains word = true ↔ word.characters ∈ cache.entryWords.map Word.characters := by
  have keys : word.characters ∈ (cache.entries.map Prod.fst).map Word.characters ↔
      word.characters ∈ cache.entryWords.map Word.characters :=
    (sameWords.map Word.characters).mem_iff
  rw [← keys, contains, any_eq_true]
  simp only [mem_map, decide_eq_true_iff]
  constructor
  · rintro ⟨entry, isEntry, same⟩
    exact ⟨entry.1, ⟨entry, isEntry, rfl⟩, same⟩
  · rintro ⟨_, ⟨entry, isEntry, rfl⟩, same⟩
    exact ⟨entry, isEntry, same⟩

variable {word : Word}

theorem map_fst_set_of_contains (isContained : cache.contains word = true)
    (info : SpellCheckWordInfo) :
    (set cache.entries word info).map Prod.fst = cache.entries.map Prod.fst := by
  rw [set, if_pos (show (cache.entries.any _) = true from isContained), map_map]
  refine map_congr_left fun entry _ => ?_
  rw [Function.comp_apply]
  split_ifs <;> rfl

theorem set_of_not_contains (isNew : ¬cache.contains word = true) (info : SpellCheckWordInfo) :
    set cache.entries word info = cache.entries ++ [(word, info)] :=
  if_neg isNew

theorem map_fst_remove (entries : List (Word × SpellCheckWordInfo)) (word : Word) :
    (remove entries word).map Prod.fst =
      (entries.map Prod.fst).filter fun entry => entry.characters ≠ word.characters := by
  rw [filter_map]
  rfl

/-- The map of a full cache loses the first word of the queue. -/
theorem purge_cons {words : List Word} (isQueue : cache.entryWords = word :: words)
    (isFull : cache.entryWords.length = maxQueueEntries) :
    cache.purge = { entryWords := words, entries := remove cache.entries word } := by
  rw [purge, isQueue]
  simp only [isQueue] at isFull
  simp only [if_pos isFull]

theorem purge_of_not_full (notFull : cache.entryWords.length ≠ maxQueueEntries) :
    cache.purge = cache := by
  rw [purge]
  split
  · rfl
  · exact if_neg notFull

theorem Paired.purge (paired : cache.Paired) :
    cache.purge.Paired ∧ cache.purge.entryWords.length < maxQueueEntries ∧
      cache.purge.entryWords.Sublist cache.entryWords := by
  obtain ⟨sameWords, nodup, bounded⟩ := paired
  by_cases isFull : cache.entryWords.length = maxQueueEntries
  · cases isQueue : cache.entryWords with
    | nil =>
      rw [isQueue] at isFull
      exact absurd isFull (by decide)
    | cons word words =>
      rw [purge_cons isQueue isFull]
      rw [isQueue] at sameWords nodup bounded
      have fresh := (nodup_cons.1 nodup).1
      have kept : (word :: words).filter (fun entry => entry.characters ≠ word.characters) =
          words := by
        rw [filter_cons_of_neg (by simp), filter_eq_self]
        intro entry isEntry
        refine decide_eq_true fun same => fresh ?_
        rw [← same]
        exact mem_map_of_mem isEntry
      refine ⟨⟨?_, (nodup_cons.1 nodup).2, (Nat.le_succ _).trans bounded⟩,
        Nat.lt_of_succ_le bounded, sublist_cons_self word words⟩
      have removed := sameWords.filter fun entry => entry.characters ≠ word.characters
      rw [kept] at removed
      rw [map_fst_remove]
      exact removed
  · rw [purge_of_not_full isFull]
    exact ⟨⟨sameWords, nodup, bounded⟩, Nat.lt_of_le_of_ne bounded isFull, .refl _⟩

theorem Paired.add (paired : cache.Paired) (typedWord : Word) (info : SpellCheckWordInfo) :
    (cache.add typedWord info).1.Paired := by
  rw [SpellCheckCache.add]
  split
  case isTrue isContained =>
    refine ⟨?_, paired.nodup, paired.bounded⟩
    rw [map_fst_set_of_contains isContained]
    exact paired.sameWords
  case isFalse isNew =>
    obtain ⟨purged, room, isSublist⟩ := paired.purge
    have absent : typedWord.characters ∉ cache.purge.entryWords.map Word.characters :=
      fun isThere => isNew ((contains_iff paired.sameWords typedWord).2
        ((isSublist.map _).subset isThere))
    have notContained : ¬cache.purge.contains typedWord = true :=
      mt (contains_iff purged.sameWords typedWord).1 absent
    refine ⟨?_, ?_, ?_⟩
    · rw [set_of_not_contains notContained, map_append]
      exact purged.sameWords.append_right _
    · rw [map_append, map_singleton, ← concat_eq_append, nodup_concat]
      exact ⟨absent, purged.nodup⟩
    · rw [length_append]
      exact room

theorem Paired.evict (paired : cache.Paired) (unicode : Unicode) (word : Option Word) :
    (cache.evict unicode word).Paired := by
  cases word with
  | none => exact paired
  | some word =>
    rw [evict_some]
    refine ⟨?_, paired.nodup.sublist (filter_sublist.map _),
      (length_filter_le _ _).trans paired.bounded⟩
    have kept := paired.sameWords.filter fun entry => !equalIgnoringCase unicode entry word
    rw [filter_map] at kept
    exact kept

theorem paired_clear : clear.Paired := ⟨List.Perm.nil, .nil, Nat.zero_le _⟩

end SpellCheckCache

/-! ## The order of insertion -/

/-- The queue has the words in the order in which they were inserted. -/
structure Queued (timed : TimedCache) : Prop where
  paired : timed.cache.Paired
  ordered : timed.cache.entryWords.Pairwise fun first second =>
    timed.insertedAt first.characters < timed.insertedAt second.characters
  past : ∀ word ∈ timed.cache.entryWords, timed.insertedAt word.characters < timed.time

namespace Queued

variable {timed : TimedCache}

/-- What is left of a queue stays in order. -/
theorem of_sublist (queued : Queued timed) {cache : SpellCheckCache} (paired : cache.Paired)
    (isSublist : cache.entryWords.Sublist timed.cache.entryWords) :
    Queued { timed with cache, time := timed.time + 1 } where
  paired := paired
  ordered := queued.ordered.sublist isSublist
  past word isWord := Nat.lt_succ_of_lt (queued.past word (isSublist.subset isWord))

theorem add (queued : Queued timed) (unicode : Unicode) (typedWord : Word)
    (info : SpellCheckWordInfo) : Queued (step unicode timed (.add typedWord info)) := by
  have paired := queued.paired.add typedWord info
  by_cases isContained : timed.cache.contains typedWord = true
  · have added : timed.cache.add typedWord info =
        ({ timed.cache with entries := SpellCheckCache.set timed.cache.entries typedWord info },
          false) :=
      if_pos isContained
    rw [added] at paired
    rw [step, added]
    exact queued.of_sublist paired (.refl _)
  · have added : timed.cache.add typedWord info =
        ({ entryWords := timed.cache.purge.entryWords ++ [typedWord]
           entries := SpellCheckCache.set timed.cache.purge.entries typedWord info }, true) :=
      if_neg isContained
    obtain ⟨-, -, isSublist⟩ := queued.paired.purge
    have older : ∀ word ∈ timed.cache.purge.entryWords,
        Function.update timed.insertedAt typedWord.characters timed.time word.characters =
          timed.insertedAt word.characters := by
      intro word isWord
      refine Function.update_of_ne (fun same => isContained ?_) _ _
      rw [SpellCheckCache.contains_iff queued.paired.sameWords, ← same]
      exact mem_map_of_mem (isSublist.subset isWord)
    rw [added] at paired
    rw [step, added]
    refine ⟨paired, ?_, ?_⟩
    · rw [pairwise_append]
      refine ⟨(queued.ordered.sublist isSublist).imp_of_mem ?_, pairwise_singleton _ _, ?_⟩
      · intro first second isFirst isSecond isBefore
        simp only [if_true, older first isFirst, older second isSecond]
        exact isBefore
      · intro word isWord other isOther
        rw [mem_singleton.1 isOther]
        simp only [if_true, older word isWord, Function.update_self]
        exact queued.past word (isSublist.subset isWord)
    · intro word isWord
      rcases mem_append.1 isWord with isOlder | isNew
      · simp only [if_true, older word isOlder]
        exact Nat.lt_succ_of_lt (queued.past word (isSublist.subset isOlder))
      · rw [mem_singleton.1 isNew]
        simp only [if_true, Function.update_self]
        exact Nat.lt_succ_self _

/-- Every operation keeps the queue in order. -/
theorem step (queued : Queued timed) (unicode : Unicode) (op : CacheOperation) :
    Queued (SpellCache.step unicode timed op) := by
  cases op with
  | add typedWord info => exact queued.add unicode typedWord info
  | lookup typedWord => exact queued.of_sublist queued.paired (.refl _)
  | evict word =>
    refine queued.of_sublist (queued.paired.evict unicode word) ?_
    cases word with
    | none => exact .refl _
    | some word =>
      rw [SpellCheckCache.evict_some]
      exact filter_sublist
  | clear => exact queued.of_sublist SpellCheckCache.paired_clear (nil_sublist _)

end Queued

theorem queued_run (unicode : Unicode) (ops : List CacheOperation) : Queued (run unicode ops) :=
  Runs.final_invariant ops (fun op _ _ queued => queued.step unicode op)
    ⟨SpellCheckCache.paired_clear, .nil, nofun⟩

/-! ## Structure -/

/-- The queue and the map belong together, a full cache loses its oldest word,
and no case variant of a word is left when it is evicted. -/
structure WellStructured (unicode : Unicode) (timed : TimedCache) : Prop where
  queueIsKeys : (timed.cache.entries.map Prod.fst).Perm timed.cache.entryWords
  nodup : (timed.cache.entryWords.map Word.characters).Nodup
  bounded : timed.cache.entries.length ≤ maxQueueEntries
  keepsAll : ∀ typedWord info, ¬timed.cache.contains typedWord = true →
    timed.cache.entries.length < maxQueueEntries →
      (timed.cache.add typedWord info).1.entries = timed.cache.entries ++ [(typedWord, info)]
  purgesOldest : ∀ typedWord info, ¬timed.cache.contains typedWord = true →
    timed.cache.entries.length = maxQueueEntries → ∃ oldest ∈ timed.cache.entryWords,
        (∀ other ∈ timed.cache.entryWords, other ≠ oldest →
          timed.insertedAt oldest.characters < timed.insertedAt other.characters) ∧
        (timed.cache.add typedWord info).1.entries =
          SpellCheckCache.remove timed.cache.entries oldest ++ [(typedWord, info)]
  evicts : ∀ word, ∀ entry ∈ (timed.cache.evict unicode (some word)).entries,
    equalIgnoringCase unicode entry.1 word = false ∧
      entry.1.characters.map unicode.foldCase ≠ word.characters.map unicode.foldCase

/-- Texts whose characters have the same folded case are equal to ICU. -/
def ComparesFolded (unicode : Unicode) : Prop :=
  ∀ first second : WString, first.map unicode.foldCase = second.map unicode.foldCase →
    unicode.umemcasecmp first second = 0

theorem equalIgnoringCase_of_folded {unicode : Unicode} (comparesFolded : ComparesFolded unicode)
    {first second : Word}
    (same : first.characters.map unicode.foldCase = second.characters.map unicode.foldCase) :
    equalIgnoringCase unicode first second = true := by
  have lengths := congrArg List.length same
  rw [length_map, length_map] at lengths
  rw [equalIgnoringCase, if_neg (not_not.2 lengths)]
  split
  · exact decide_eq_true same
  · exact decide_eq_true (comparesFolded _ _ same)

theorem wellStructured_run {unicode : Unicode} (comparesFolded : ComparesFolded unicode)
    (ops : List CacheOperation) : WellStructured unicode (run unicode ops) := by
  obtain ⟨paired, ordered, past⟩ := queued_run unicode ops
  have lengths : (run unicode ops).cache.entries.length =
      (run unicode ops).cache.entryWords.length := by
    rw [← paired.sameWords.length_eq, length_map]
  refine ⟨paired.sameWords, paired.nodup, lengths.trans_le paired.bounded, ?_, ?_, ?_⟩
  · intro typedWord info isNew room
    have notFull := (lengths.symm.trans_lt room).ne
    rw [SpellCheckCache.add, if_neg isNew, SpellCheckCache.purge_of_not_full notFull]
    exact SpellCheckCache.set_of_not_contains isNew info
  · intro typedWord info isNew isFull
    obtain ⟨purged, -, isSublist⟩ := paired.purge
    have stillNew : ¬(run unicode ops).cache.purge.contains typedWord = true := by
      intro isThere
      refine isNew ((SpellCheckCache.contains_iff paired.sameWords typedWord).2 ?_)
      exact (isSublist.map _).subset
        ((SpellCheckCache.contains_iff purged.sameWords typedWord).1 isThere)
    have queueFull := lengths.symm.trans isFull
    cases isQueue : (run unicode ops).cache.entryWords with
    | nil =>
      rw [isQueue] at queueFull
      exact absurd queueFull (by decide)
    | cons oldest words =>
      refine ⟨oldest, .head _, ?_, ?_⟩
      · intro other isOther differ
        rw [isQueue] at ordered
        rcases mem_cons.1 isOther with same | isLater
        · exact absurd same differ
        · exact (pairwise_cons.1 ordered).1 other isLater
      · rw [SpellCheckCache.add, if_neg isNew]
        simp only [SpellCheckCache.set_of_not_contains stillNew info]
        rw [SpellCheckCache.purge_cons isQueue queueFull]
  · intro word entry isLeft
    rw [SpellCheckCache.evict_some] at isLeft
    have differs := (mem_filter.1 isLeft).2
    rw [Bool.not_eq_true'] at differs
    refine ⟨differs, fun same => ?_⟩
    rw [equalIgnoringCase_of_folded comparesFolded same] at differs
    cases differs

/-- Folding of the letters A to Z. -/
def asciiUnicode : Unicode where
  foldCase unit := if 65 ≤ unit ∧ unit ≤ 90 then unit + 32 else unit
  umemcasecmp first second :=
    let fold : UChar → UChar := fun unit => if 65 ≤ unit ∧ unit ≤ 90 then unit + 32 else unit
    if first.map fold = second.map fold then 0 else 1

theorem wellStructured_run_ascii :
    ComparesFolded asciiUnicode ∧ WellStructured asciiUnicode (run asciiUnicode
        [.add ⟨[65, 98], true⟩ ⟨true, []⟩, .add ⟨[97, 98], false⟩ ⟨true, []⟩,
          .evict (some ⟨[65, 66], false⟩)]) :=
  have comparesFolded : ComparesFolded asciiUnicode := fun _ _ same => if_pos same
  ⟨comparesFolded, wellStructured_run comparesFolded _⟩

end SpellCache
end Editing
end PalmWebKit
