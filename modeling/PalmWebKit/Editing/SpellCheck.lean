import PalmWebKit.Logic.Runs
import PalmWebKit.Text.StdString
import PalmWebKit.Text.CodeUnits

/-!
# The spell checker and its cache

`SpellCheck` asks the SmartKey service for guesses and keeps the answers in a
cache that forgets its oldest word when it is full.  Words are evicted when a
dictionary changes, and the cache is cleared when the language does or when the
service comes back.  Requests are answered later, in any order.
-/

namespace PalmWebKit
namespace Editing

open List

structure WordGuess where
  word : Option WString
  spellCorrection : Bool
  autoReplace : Bool
  autoAccept : Bool
  deriving DecidableEq, Repr

structure SpellCheckWordInfo where
  inDictionary : Bool
  guesses : List WordGuess
  deriving DecidableEq, Repr

/-- `k_MaxQueueEntries` -/
def maxQueueEntries : Nat := 4000

/-! ## The cache -/

/-- The words in the order they were added, and what is known of each. -/
structure SpellCheckCache where
  entryWords : List WString
  entries : AList fun _ : WString => SpellCheckWordInfo
  nodup : entryWords.Nodup
  mem_iff : ∀ word, word ∈ entryWords ↔ word ∈ entries
  bounded : entryWords.length ≤ maxQueueEntries

namespace SpellCheckCache

def clear : SpellCheckCache where
  entryWords := []
  entries := ∅
  nodup := .nil
  mem_iff word := iff_of_false not_mem_nil (AList.notMem_empty word)
  bounded := Nat.zero_le _

def lookup (cache : SpellCheckCache) (typedWord : WString) : Option SpellCheckWordInfo :=
  cache.entries.lookup typedWord

/-- Purge the oldest word in the queue. -/
def removeFirst : SpellCheckCache → SpellCheckCache
  | ⟨[], entries, nodup, mem_iff, bounded⟩ => ⟨[], entries, nodup, mem_iff, bounded⟩
  | ⟨word :: words, entries, nodup, mem_iff, bounded⟩ =>
    { entryWords := words
      entries := entries.erase word
      nodup := nodup.of_cons
      mem_iff := by
        intro other
        have fresh := (nodup_cons.1 nodup).1
        rw [AList.mem_erase, ← mem_iff, mem_cons]
        constructor
        · intro member
          refine ⟨?_, .inr member⟩
          rintro rfl
          exact fresh member
        · rintro ⟨ne, same | member⟩
          · exact absurd same ne
          · exact member
      bounded := (Nat.le_succ _).trans bounded }

/-- The cache when there is room for one more word. -/
def makeRoom (cache : SpellCheckCache) : SpellCheckCache :=
  if cache.entryWords.length = maxQueueEntries then cache.removeFirst else cache

theorem length_makeRoom_lt (cache : SpellCheckCache) :
    cache.makeRoom.entryWords.length < maxQueueEntries := by
  rw [makeRoom]
  split
  case isTrue full =>
    obtain ⟨words, entries, nodup, mem_iff, bounded⟩ := cache
    cases words with
    | nil => exact Nat.succ_pos _
    | cons word words => exact Nat.lt_of_succ_le bounded
  case isFalse notFull => exact lt_of_le_of_ne cache.bounded notFull

variable
  {cache : SpellCheckCache}
  {word : WString}

/-- Making room changes nothing that is known of the words that are left. -/
theorem lookup_removeFirst (present : word ∈ cache.removeFirst.entries) :
    cache.removeFirst.lookup word = cache.lookup word := by
  obtain ⟨words, entries, nodup, mem_iff, bounded⟩ := cache
  cases words with
  | nil => rfl
  | cons first words =>
    have ne : word ≠ first := (AList.mem_erase.1 present).1
    exact AList.lookup_erase_ne ne

theorem lookup_makeRoom (present : word ∈ cache.makeRoom.entries) :
    cache.makeRoom.lookup word = cache.lookup word := by
  unfold makeRoom at present ⊢
  split
  case isTrue full =>
    rw [if_pos full] at present
    exact lookup_removeFirst present
  case isFalse notFull => rfl

theorem mem_of_mem_makeRoom (present : word ∈ cache.makeRoom.entries) : word ∈ cache.entries := by
  have found := AList.lookup_isSome.2 present
  have same := lookup_makeRoom present
  rw [lookup] at same
  rw [same] at found
  exact AList.lookup_isSome.1 found

/-- A word that is not in the cache goes to the end of the queue. -/
def append (cache : SpellCheckCache) (typedWord : WString) (info : SpellCheckWordInfo)
    (absent : typedWord ∉ cache.entries)
    (room : cache.entryWords.length < maxQueueEntries) : SpellCheckCache where
  entryWords := cache.entryWords ++ [typedWord]
  entries := cache.entries.insert typedWord info
  nodup := by
    rw [← concat_eq_append, nodup_concat]
    exact ⟨mt (cache.mem_iff typedWord).1 absent, cache.nodup⟩
  mem_iff word := by
    rw [AList.mem_insert, ← cache.mem_iff, mem_append, mem_singleton, or_comm]
  bounded := by
    rw [length_append, length_singleton]
    exact room

/-- Update the info of a word that has been checked before. -/
def update (cache : SpellCheckCache) (typedWord : WString) (info : SpellCheckWordInfo)
    (present : typedWord ∈ cache.entries) : SpellCheckCache where
  entryWords := cache.entryWords
  entries := cache.entries.insert typedWord info
  nodup := cache.nodup
  mem_iff word := by
    rw [AList.mem_insert, ← cache.mem_iff]
    constructor
    · exact .inr
    · rintro (rfl | member)
      · exact (cache.mem_iff word).2 present
      · exact member
  bounded := cache.bounded

/-- Whether the word was added, and the cache that has its info. -/
def add (cache : SpellCheckCache) (typedWord : WString)
    (info : SpellCheckWordInfo) : Bool × SpellCheckCache :=
  if present : typedWord ∈ cache.entries then
    (false, cache.update typedWord info present)
  else
    (true, cache.makeRoom.append typedWord info
      (fun member => present (mem_of_mem_makeRoom member))
      cache.length_makeRoom_lt)

/-- What is left of a map without the keys that match. -/
def removeMatching (entries : AList fun _ : WString => SpellCheckWordInfo)
    (hit : WString → Bool) : AList fun _ : WString => SpellCheckWordInfo :=
  ⟨entries.entries.filter fun entry => !hit entry.1, entries.nodupKeys.sublist filter_sublist⟩

variable (entries : AList fun _ : WString => SpellCheckWordInfo)

theorem lookup_removeMatching (hit : WString → Bool)
    (word : WString) : (removeMatching entries hit).lookup word =
      if hit word then none else entries.lookup word := by
  apply Option.ext
  intro info
  rw [← Option.mem_def, AList.mem_lookup_iff, removeMatching]
  by_cases matched : hit word = true
  · simp [matched]
  · rw [if_neg matched, ← Option.mem_def, AList.mem_lookup_iff]
    simp [matched]

theorem mem_removeMatching (hit : WString → Bool) (word : WString) :
    word ∈ removeMatching entries hit ↔ word ∈ entries ∧ hit word = false := by
  rw [← AList.lookup_isSome, ← AList.lookup_isSome, lookup_removeMatching]
  by_cases matched : hit word = true <;> simp [matched]

/-- Both loops start again after each removal, so that no word is left that is
equal to the given one but for case.  The null string is equal to no word. -/
def evict (equalIgnoringCase : WString → WString → Bool)
    (cache : SpellCheckCache) : Option WString → SpellCheckCache
  | none => cache
  | some word =>
    { entryWords := cache.entryWords.filter fun entry =>
        !equalIgnoringCase entry word
      entries := removeMatching cache.entries (equalIgnoringCase · word)
      nodup := cache.nodup.filter _
      mem_iff := by
        intro entry
        rw [mem_removeMatching, ← cache.mem_iff, mem_filter, Bool.not_eq_true']
      bounded := (length_filter_le _ _).trans cache.bounded }

end SpellCheckCache

/-! ## The service and its messages -/

/-- One element of the array of guesses.  The word is null when it is no UTF-8,
and a flag may be missing. -/
structure Guess where
  str : Option WString
  sp : Option Bool
  autoReplace : Option Bool
  autoAccept : Option Bool
  deriving DecidableEq, Repr

/-- A reply to a search that parses.  The guesses may be no array. -/
structure SearchReply where
  returnValue : Bool
  guesses : Option (List Guess)
  spelledCorrectly : Bool
  deriving DecidableEq, Repr

/-- A signal of the service about one of its databases.  A missing member is
the empty string, and a word is null when it is no UTF-8. -/
structure DatabaseModified where
  database : Option StdString
  action : StdString
  word : Option WString
  shortcut : Option WString
  deriving DecidableEq, Repr

/-- What the bus answers to the calls of one operation: whether the client gets
registered and attached, whether the payload can be generated, and whether the
call is taken. -/
structure BusOutcome where
  attached : Bool
  serialized : Bool
  called : Bool
  deriving DecidableEq, Repr

/-- The context of a search that has not been answered, with the rest of its
call: a quick answer is asked for when others are pending. -/
structure SearchRequest where
  word : WString
  quick : Bool
  deriving DecidableEq, Repr

inductive SpellCheckResult
  | ready
  | pending
  | notInCache
  | error
  deriving DecidableEq, Repr

namespace Guess

def wordGuess (guess : Guess) : WordGuess where
  word := guess.str
  spellCorrection := guess.sp.getD false
  autoReplace := guess.autoReplace.getD false
  autoAccept := guess.autoAccept.getD false

end Guess

namespace SearchReply

def wordInfo (reply : SearchReply) : SpellCheckWordInfo where
  inDictionary := reply.spelledCorrectly
  guesses := (reply.guesses.getD []).map Guess.wordGuess

end SearchReply

namespace DatabaseModified

/-- The argument of the eviction a signal leads to. -/
def evictedWord (message : DatabaseModified) : Option WString :=
  match message.database with
  | none => none
  | some database =>
    if message.action = StdString.bytes "added" ∨ message.action = StdString.bytes "removed" then
      if database = StdString.bytes "user" ∨ database = StdString.bytes "volatile" then
        message.word
      else if database = StdString.bytes "auto-replace" then
        message.shortcut
      else
        none
    else
      none

end DatabaseModified

/-- The calls of the editor and the callbacks of the bus.  A message that does
not parse, or has not the member that is looked for, is `none`. -/
inductive SpellCheckEvent
  | getGuessesForWord (word : WString) (bus : BusOutcome)
  | getGuessesFromCacheOnly (word : WString)
  | fetchGuessesIgnoreCache (word : WString) (bus : BusOutcome)
  | spellCheckResponse (request : Nat) (reply : Option SearchReply)
  | learnWord (word : WString) (bus : BusOutcome)
  | forgetWord (word : WString) (bus : BusOutcome)
  | dictionaryChanged (message : Option DatabaseModified)
  | languageChanged
  | smartKeyStatusChange (connected : Option Bool)
  deriving DecidableEq, Repr

/-! ## The spell checker -/

/-- The requests that have not been answered are told apart by the numbers in
which they were sent. -/
structure SpellCheck where
  attachedToServiceBus : Bool
  serviceBusAttachAttempted : Bool
  smartKeySvcUp : Bool
  cache : SpellCheckCache
  pendingRequests : Finset WString
  requests : AList fun _ : Nat => SearchRequest
  nextRequest : Nat

namespace SpellCheck

def attachToServiceBus (checker : SpellCheck) (bus : BusOutcome) : SpellCheck :=
  if checker.serviceBusAttachAttempted then
    checker
  else
    { checker with
      serviceBusAttachAttempted := true
      attachedToServiceBus := bus.attached }

/-- The checker is made before the service can answer.  It attaches at once
unless the settings turn it off. -/
def new (checkSpelling : Bool) (bus : BusOutcome) : SpellCheck :=
  let checker : SpellCheck :=
    { attachedToServiceBus := false
      serviceBusAttachAttempted := false
      smartKeySvcUp := false
      cache := SpellCheckCache.clear
      pendingRequests := ∅
      requests := ∅
      nextRequest := 0 }
  if checkSpelling then checker.attachToServiceBus bus else checker

/-- Send a search for a word, which leaves a context for the reply.  The result
is `none` when no payload was generated. -/
def search (checker : SpellCheck) (word : WString) (bus : BusOutcome) : Option Bool × SpellCheck :=
  if bus.serialized then
    if bus.called then
      (some true, { checker with
          requests := checker.requests.insert checker.nextRequest
            ⟨word, decide (0 < checker.pendingRequests.card)⟩
          nextRequest := checker.nextRequest + 1 })
    else
      (some false, checker)
  else
    (none, checker)

/-- The info is given back for a word in the cache only. -/
def getGuessesForWord (checker : SpellCheck) (word : WString) (bus : BusOutcome) :
    SpellCheckResult × Option SpellCheckWordInfo × SpellCheck :=
  match checker.cache.lookup word with
  | some info => (.ready, some info, checker)
  | none =>
    if checker.smartKeySvcUp then
      let checker := checker.attachToServiceBus bus
      if checker.attachedToServiceBus ∧ word ∉ checker.pendingRequests then
        match checker.search word bus with
        | (some true, sent) =>
          (.pending, none, { sent with pendingRequests := insert word sent.pendingRequests })
        | (some false, notSent) => (.error, none, notSent)
        | (none, notSent) => (.pending, none, notSent)
      else
        (.pending, none, checker)
    else
      (.error, none, checker)

def getGuessesFromCacheOnly (checker : SpellCheck)
    (word : WString) : SpellCheckResult × Option SpellCheckWordInfo :=
  match checker.cache.lookup word with
  | some info => (.ready, some info)
  | none => (.notInCache, none)

def fetchGuessesIgnoreCache (checker : SpellCheck) (word : WString)
    (bus : BusOutcome) : SpellCheck :=
  if checker.smartKeySvcUp then
    let checker := checker.attachToServiceBus bus
    if checker.attachedToServiceBus then
      (checker.search word bus).2
    else
      checker
  else
    checker

/-- The request is no longer pending whatever its outcome.  Afterwards the word
is looked up again, in the cache only. -/
def spellCheckResponse (checker : SpellCheck) (request : Nat)
    (reply : Option SearchReply) : SpellCheck :=
  match checker.requests.lookup request with
  | none => checker
  | some context =>
    let checker :=
      { checker with
        pendingRequests := checker.pendingRequests.erase context.word
        requests := checker.requests.erase request }
    match reply with
    | none => checker
    | some parsed =>
      if parsed.returnValue then
        { checker with
          cache := (checker.cache.add context.word parsed.wordInfo).2 }
      else
        checker

section Dictionary

variable (equalIgnoringCase : WString → WString → Bool)

def learnWord (checker : SpellCheck) (word : WString) (bus : BusOutcome) : SpellCheck :=
  if checker.smartKeySvcUp then
    let checker :=
      { checker with
        cache := checker.cache.evict equalIgnoringCase (some word) }
    checker.attachToServiceBus bus
  else
    checker

/-- Nothing is evicted here, only when the service signals the removal. -/
def forgetWord (checker : SpellCheck) (bus : BusOutcome) : SpellCheck :=
  if checker.smartKeySvcUp then checker.attachToServiceBus bus else checker

def dictionaryChanged (checker : SpellCheck) (message : Option DatabaseModified) : SpellCheck :=
  { checker with
    cache := checker.cache.evict equalIgnoringCase
      (message.bind DatabaseModified.evictedWord) }

def clearCache (checker : SpellCheck) : SpellCheck :=
  { checker with cache := SpellCheckCache.clear }

def smartKeyStatusChange (checker : SpellCheck) (connected : Option Bool) : SpellCheck :=
  match connected with
  | none => checker
  | some true =>
    { checker with
      smartKeySvcUp := true
      cache := SpellCheckCache.clear
      pendingRequests := ∅ }
  | some false => { checker with smartKeySvcUp := false }

def step (checker : SpellCheck) : SpellCheckEvent → SpellCheck
  | .getGuessesForWord word bus => (checker.getGuessesForWord word bus).2.2
  | .getGuessesFromCacheOnly _ => checker
  | .fetchGuessesIgnoreCache word bus => checker.fetchGuessesIgnoreCache word bus
  | .spellCheckResponse request reply => checker.spellCheckResponse request reply
  | .learnWord word bus => checker.learnWord equalIgnoringCase word bus
  | .forgetWord _ bus => checker.forgetWord bus
  | .dictionaryChanged message => checker.dictionaryChanged equalIgnoringCase message
  | .languageChanged => checker.clearCache
  | .smartKeyStatusChange connected => checker.smartKeyStatusChange connected

end Dictionary

end SpellCheck
end Editing
end PalmWebKit
