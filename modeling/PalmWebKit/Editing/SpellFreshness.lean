import PalmWebKit.Editing.SpellCheck

/-!
# Fresh answers in the spell cache

An entry of the cache is fresh when the request it answers was sent after the
last time its word was evicted or the cache was cleared.  The requests under
way at that time are not forgotten, and their replies are cached.
-/

namespace PalmWebKit
namespace Editing

namespace SpellCheckCache

section Lookup

variable {cache : SpellCheckCache}

theorem lookup_add_self (word : WString) (info : SpellCheckWordInfo) :
    (cache.add word info).2.lookup word = some info := by
  rw [add]
  split <;> exact AList.lookup_insert _

/-- Adding a word may purge the oldest one and changes nothing else. -/
theorem lookup_add_of_ne {word other : WString} {info : SpellCheckWordInfo}
    (ne : other ≠ word) (present : other ∈ (cache.add word info).2.entries) :
    (cache.add word info).2.lookup other = cache.lookup other := by
  unfold add at present ⊢
  split
  case isTrue known => exact AList.lookup_insert_ne ne
  case isFalse fresh =>
    rw [dif_neg fresh] at present
    have kept : other ∈ cache.makeRoom.entries := ((AList.mem_insert _).1 present).resolve_left ne
    exact (AList.lookup_insert_ne ne).trans (lookup_makeRoom kept)

theorem mem_of_mem_add {word other : WString} {info : SpellCheckWordInfo} (ne : other ≠ word)
    (present : other ∈ (cache.add word info).2.entries) : other ∈ cache.entries := by
  have found := AList.lookup_isSome.2 present
  have same := lookup_add_of_ne ne present
  rw [lookup] at same
  rw [same] at found
  exact AList.lookup_isSome.1 found

theorem lookup_evict (equalIgnoringCase : WString → WString → Bool) (evicted : Option WString)
    (word : WString) : (cache.evict equalIgnoringCase evicted).lookup word =
      if evicted.any (equalIgnoringCase word) then none else cache.lookup word := by
  cases evicted with
  | none => rfl
  | some given => exact lookup_removeMatching _ _ word

@[simp] theorem lookup_clear (word : WString) : clear.lookup word = none := AList.lookup_empty word

end Lookup

end SpellCheckCache

namespace SpellCheck

/-- A reply that is put into the cache. -/
structure Answer where
  request : Nat
  word : WString
  info : SpellCheckWordInfo
  deriving DecidableEq, Repr

/-- The answer in an event. -/
def answered (checker : SpellCheck) : SpellCheckEvent → Option Answer
  | .spellCheckResponse request (some reply) =>
    if reply.returnValue then
      (checker.requests.lookup request).map fun context => ⟨request, context.word, reply.wordInfo⟩
    else
      none
  | _ => none

/-- An event evicts a word, by itself or in another case, or clears the cache. -/
def invalidates (equalIgnoringCase : WString → WString → Bool)
    (checker : SpellCheck) : SpellCheckEvent → WString → Bool
  | .learnWord word _, entry => checker.smartKeySvcUp && equalIgnoringCase entry word
  | .dictionaryChanged message, entry =>
    (message.bind DatabaseModified.evictedWord).any (equalIgnoringCase entry)
  | .languageChanged, _ => true
  | .smartKeyStatusChange (some true), _ => true
  | _, _ => false

section Cache

variable {equalIgnoringCase : WString → WString → Bool}

variable {checker : SpellCheck}

@[simp] theorem cache_attachToServiceBus (bus : BusOutcome) :
    (checker.attachToServiceBus bus).cache = checker.cache := by
  rw [attachToServiceBus]
  split <;> rfl

@[simp] theorem cache_search (word : WString) (bus : BusOutcome) :
    (checker.search word bus).2.cache = checker.cache := by
  rw [search]
  split
  · split <;> rfl
  · rfl

@[simp] theorem cache_getGuessesForWord (word : WString) (bus : BusOutcome) :
    (checker.getGuessesForWord word bus).2.2.cache = checker.cache := by
  rw [getGuessesForWord]
  split
  · rfl
  · split
    · dsimp only
      split
      · have kept := @cache_search (checker.attachToServiceBus bus) word bus
        rw [cache_attachToServiceBus] at kept
        split
        case h_1 sent found => rwa [found] at kept
        case h_2 notSent found => rwa [found] at kept
        case h_3 notSent found => rwa [found] at kept
      · exact cache_attachToServiceBus bus
    · rfl

@[simp] theorem cache_fetchGuessesIgnoreCache (word : WString) (bus : BusOutcome) :
    (checker.fetchGuessesIgnoreCache word bus).cache = checker.cache := by
  rw [fetchGuessesIgnoreCache]
  split
  · dsimp only
    split <;> simp
  · rfl

@[simp] theorem cache_forgetWord (bus : BusOutcome) :
    (checker.forgetWord bus).cache = checker.cache := by
  rw [forgetWord]
  split <;> simp

variable {event : SpellCheckEvent}

/-- An answer is put into the cache. -/
theorem cache_step_of_answered {answer : Answer} (found : checker.answered event = some answer) :
    (checker.step equalIgnoringCase event).cache =
      (checker.cache.add answer.word answer.info).2 := by
  unfold answered at found
  split at found
  case h_1 request reply =>
    split at found
    case isTrue positive =>
      obtain ⟨context, outstanding, rfl⟩ := Option.map_eq_some_iff.1 found
      simp only [step, spellCheckResponse, outstanding, positive, if_true]
    case isFalse => cases found
  case h_2 => cases found

theorem lookup_learnWord (given : WString) (bus : BusOutcome) (word : WString) :
    (checker.learnWord equalIgnoringCase given bus).cache.lookup word =
      if checker.smartKeySvcUp && equalIgnoringCase word given then none
      else checker.cache.lookup word := by
  rw [learnWord]
  by_cases up : checker.smartKeySvcUp = true
  · simp only [up, if_true, cache_attachToServiceBus, Bool.true_and]
    exact SpellCheckCache.lookup_evict equalIgnoringCase (some given) word
  · simp [up]

/-- Without an answer a step takes the invalidated words out of the cache and
leaves the others as they are. -/
theorem lookup_step_of_not_answered (silent : checker.answered event = none) (word : WString) :
    (checker.step equalIgnoringCase event).cache.lookup word =
      if checker.invalidates equalIgnoringCase event word then none
      else checker.cache.lookup word := by
  cases event with
  | getGuessesForWord asked bus | fetchGuessesIgnoreCache asked bus | forgetWord given bus =>
    simp [step, invalidates]
  | getGuessesFromCacheOnly asked => rfl
  | spellCheckResponse request reply =>
    have kept : (checker.spellCheckResponse request reply).cache =
        checker.cache := by
      unfold answered at silent
      rw [spellCheckResponse]
      cases outstanding : checker.requests.lookup request with
      | none => rfl
      | some context =>
        cases reply with
        | none => rfl
        | some parsed =>
          by_cases positive : parsed.returnValue = true
          · simp [positive, outstanding] at silent
          · simp [positive]
    simp [step, invalidates, kept]
  | learnWord given bus => exact lookup_learnWord given bus word
  | dictionaryChanged message => exact SpellCheckCache.lookup_evict equalIgnoringCase _ word
  | languageChanged => exact SpellCheckCache.lookup_clear word
  | smartKeyStatusChange connected =>
    cases connected with
    | none => rfl
    | some up => cases up <;> rfl

/-- No event both answers a request and invalidates a word. -/
theorem not_invalidates_of_answered {answer : Answer} (found : checker.answered event = some answer)
    (word : WString) : checker.invalidates equalIgnoringCase event word = false := by
  cases event with
  | spellCheckResponse request reply => rfl
  | _ => cases found

end Cache

end SpellCheck

/-! ## Observed runs -/

/-- A spell checker with, for every word, the request whose reply stored its
entry and the first request sent after its last invalidation. -/
structure ObservedSpellCheck where
  checker : SpellCheck
  storedBy : WString → Nat
  freshFrom : WString → Nat

namespace ObservedSpellCheck

def new (checkSpelling : Bool) (bus : BusOutcome) : ObservedSpellCheck where
  checker := SpellCheck.new checkSpelling bus
  storedBy _ := 0
  freshFrom _ := 0

def step (equalIgnoringCase : WString → WString → Bool) (observed : ObservedSpellCheck)
    (event : SpellCheckEvent) : ObservedSpellCheck where
  checker := observed.checker.step equalIgnoringCase event
  storedBy :=
    match observed.checker.answered event with
    | some answer => Function.update observed.storedBy answer.word answer.request
    | none => observed.storedBy
  freshFrom word :=
    if observed.checker.invalidates equalIgnoringCase event word then
      observed.checker.nextRequest
    else
      observed.freshFrom word

/-- Every entry answers a request sent after the last invalidation of its
word. -/
def Fresh (observed : ObservedSpellCheck) : Prop :=
  ∀ word ∈ observed.checker.cache.entries, observed.freshFrom word ≤ observed.storedBy word

/-- An answer is to a request sent after the last invalidation of its word. -/
def AnswersFresh (observed : ObservedSpellCheck) (event : SpellCheckEvent) : Prop :=
  ∀ answer ∈ observed.checker.answered event, observed.freshFrom answer.word ≤ answer.request

theorem fresh_new (checkSpelling : Bool) (bus : BusOutcome) :
    (new checkSpelling bus).Fresh := fun _ _ => Nat.le_refl 0

section Steps

variable
    {equalIgnoringCase : WString → WString → Bool}
    {observed : ObservedSpellCheck}
    {event : SpellCheckEvent}

theorem Fresh.step_of_not_answered (fresh : observed.Fresh)
    (silent : observed.checker.answered event = none) :
    (observed.step equalIgnoringCase event).Fresh := by
  intro word present
  have found := AList.lookup_isSome.2 present
  have looked := @SpellCheck.lookup_step_of_not_answered equalIgnoringCase
    observed.checker event silent word
  rw [SpellCheckCache.lookup] at looked
  simp only [step, looked] at found
  simp only [step, silent]
  by_cases invalid : observed.checker.invalidates equalIgnoringCase event word = true
  · simp [invalid] at found
  · rw [if_neg invalid] at found ⊢
    exact fresh word (AList.lookup_isSome.1 found)

theorem Fresh.step_of_answered {answer : SpellCheck.Answer} (fresh : observed.Fresh)
    (found : observed.checker.answered event = some answer) :
    (observed.step equalIgnoringCase event).Fresh ↔
      observed.freshFrom answer.word ≤ answer.request := by
  have cached : (observed.step equalIgnoringCase event).checker.cache =
      (observed.checker.cache.add answer.word answer.info).2 :=
    SpellCheck.cache_step_of_answered found
  have stored : (observed.step equalIgnoringCase event).storedBy =
      Function.update observed.storedBy answer.word answer.request := by
    simp only [step, found]
  have same : (observed.step equalIgnoringCase event).freshFrom =
      observed.freshFrom := by
    funext word
    simp only [step, SpellCheck.not_invalidates_of_answered found word]
    rfl
  rw [Fresh, cached, stored, same]
  constructor
  · intro freshAfter
    have present : answer.word ∈
        (observed.checker.cache.add answer.word answer.info).2.entries := by
      rw [← AList.lookup_isSome, ← SpellCheckCache.lookup, SpellCheckCache.lookup_add_self]
      rfl
    simpa only [Function.update_self] using freshAfter _ present
  · intro fromFresh word present
    by_cases same : word = answer.word
    · rw [same, Function.update_self]
      exact fromFresh
    · rw [Function.update_of_ne same]
      exact fresh word (SpellCheckCache.mem_of_mem_add same present)

theorem Fresh.step_iff (fresh : observed.Fresh) : (observed.step equalIgnoringCase event).Fresh ↔
      observed.AnswersFresh event := by
  rw [AnswersFresh]
  cases found : observed.checker.answered event with
  | none => simp [fresh.step_of_not_answered found]
  | some answer => simpa using fresh.step_of_answered found

end Steps

/-- Over a run of calls and callbacks every cache entry answers a request sent
after the last invalidation of its word exactly when no answer comes to a
request sent before. -/
theorem fresh_run_iff (equalIgnoringCase : WString → WString → Bool) (checkSpelling : Bool)
    (bus : BusOutcome) (events : List SpellCheckEvent) : (∀ observed ∈
        Runs.visited (step equalIgnoringCase) (new checkSpelling bus) events,
      Fresh observed) ↔
      Runs.StepsMeet (step equalIgnoringCase) AnswersFresh
        (new checkSpelling bus) events :=
  Runs.visited_iff_stepsMeet_of_invariant
    (fun _ fresh => fresh)
    (fun _ _ fresh met => fresh.step_iff.2 met)
    (fun _ _ fresh => fresh.step_iff.1)
    events (fresh_new checkSpelling bus)

/-- A word is learnt while a request for it is under way, and the reply says
that it is misspelt. -/
theorem learnt_word_misspelt :
    ¬ ∀ (equalIgnoringCase : WString → WString → Bool) (checkSpelling : Bool)
      (bus : BusOutcome) (events : List SpellCheckEvent),
      ∀ observed ∈
        Runs.visited (step equalIgnoringCase) (new checkSpelling bus) events,
      Fresh observed := by
  intro always
  have fresh := always (fun word other => decide (word = other)) true
    ⟨true, true, true⟩
    [.smartKeyStatusChange (some true), .getGuessesForWord (WString.lit "webos") ⟨true, true, true⟩,
      .learnWord (WString.lit "webos") ⟨true, true, true⟩,
      .spellCheckResponse 0 (some ⟨true, none, false⟩)]
    _ (Runs.final_mem_visited _ _) (WString.lit "webos")
    (AList.lookup_isSome.1 (by decide))
  exact absurd fresh (by decide)

end ObservedSpellCheck
end Editing
end PalmWebKit
