import PalmWebKit.Cookie.LruCache

/-!
# Recently used cookies

Whatever calls it has seen, the cache holds the most recently used tails, as many
as it may, in the order of their last use.
-/

namespace PalmWebKit
namespace Cookie

open List

variable {Tail : Type*} [DecidableEq Tail]

/-- A use moves a tail to the head. -/
def touch (tail : Tail) (recency : List Tail) : List Tail := tail :: recency.erase tail

/-- The head of a recency list tells the head after a use. -/
theorem take_touch_take {tail : Tail} {recency : List Tail} {count : Nat} :
    (touch tail (recency.take count)).take count = (touch tail recency).take count := by
  rcases count with _ | count
  · rfl
  rw [touch, touch, take_succ_cons, take_succ_cons]
  congr 1
  induction recency generalizing count with
  | nil => rfl
  | cons first recency ih =>
    cases count <;> grind

namespace CookieLruCache

/-- A call of the cache, on a tail that is not empty. -/
inductive Call
  | addCookie (entry : CookieEntry) (nonempty : entry.domainTail ≠ [])
  | addDummyCookieEntrySet (domainTail : WString) (nonempty : domainTail ≠ [])
  | cookieEntrySet (domainTail : WString) (nonempty : domainTail ≠ [])
  | delCookie (domainHead domainTail path name : WString)
  | clear

def call (cache : CookieLruCache) : Call → CookieLruCache
  | .addCookie entry _ => cache.addCookie entry
  | .addDummyCookieEntrySet domainTail _ => cache.addDummyCookieEntrySet domainTail
  | .cookieEntrySet domainTail _ => (cache.cookieEntrySet domainTail).2
  | .delCookie domainHead domainTail path name => cache.delCookie domainHead domainTail path name
  | .clear => cache.clear

/-- All tails since the last `clear` in the order of their last use; a lookup
that misses is none. -/
def recencyBehind (cache : CookieLruCache) (recency : List WString) : Call → List WString
  | .addCookie entry _ => touch entry.domainTail recency
  | .addDummyCookieEntrySet domainTail _ => touch domainTail recency
  | .cookieEntrySet domainTail _ =>
    if domainTail ∈ cache.contents.keys then touch domainTail recency else recency
  | .delCookie .. => recency
  | .clear => []

/-- The calls, with the recency list beside the cache. -/
def run (maxCount : Nat) (calls : List Call) : CookieLruCache × List WString :=
  calls.foldl (fun state call => (state.1.call call, state.1.recencyBehind state.2 call))
    (create maxCount, [])

/-- The cache holds the head of a recency list. -/
structure HoldsRecent (maxCount : Nat) (cache : CookieLruCache) (recency : List WString) :
    Prop where
  wellFormed : cache.WellFormed
  maxCount_eq : cache.maxCount = max maxCount 1
  keys_eq : cache.contents.keys = recency.take cache.maxCount

variable {maxCount : Nat} {cache after : CookieLruCache} {recency : List WString}

theorem maxCount_dropToMaxCount (wellFormed : cache.WellFormed) :
    cache.dropToMaxCount.maxCount = cache.maxCount :=
  (wellFormed.dropWhileOver cache.count (by omega)).2.1

/-- A set that is inserted or moved is the most recently used one. -/
theorem HoldsRecent.touched (holds : HoldsRecent maxCount cache recency) {domainTail : WString}
    {entries : List CookieEntry} (wellFormed : after.WellFormed)
    (same : after.maxCount = cache.maxCount)
    (contents : after.contents = (cache.contents.kinsert domainTail entries).take cache.maxCount) :
    HoldsRecent maxCount after (touch domainTail recency) := by
  refine ⟨wellFormed, same.trans holds.maxCount_eq, ?_⟩
  rw [contents, same, kinsert_def, List.keys, map_take, map_cons, ← List.keys, keys_kerase,
    holds.keys_eq]
  exact take_touch_take

theorem HoldsRecent.call (holds : HoldsRecent maxCount cache recency) (call : Call) :
    HoldsRecent maxCount (cache.call call) (cache.recencyBehind recency call) := by
  have wellFormed := holds.wellFormed
  cases call with
  | addCookie entry nonempty =>
    obtain ⟨ready, -, -, -, same, -⟩ := wellFormed.ensureEntrySet nonempty
    exact holds.touched (wellFormed.addCookie nonempty)
      ((maxCount_dropToMaxCount (ready.writeEntries _ _)).trans same)
      (wellFormed.contents_addCookie nonempty)
  | addDummyCookieEntrySet domainTail nonempty =>
    obtain ⟨ready, -, -, -, same, -⟩ := wellFormed.ensureEntrySet nonempty
    exact holds.touched (wellFormed.addDummyCookieEntrySet nonempty)
      ((maxCount_dropToMaxCount ready).trans same)
      (wellFormed.contents_addDummyCookieEntrySet nonempty)
  | cookieEntrySet domainTail nonempty =>
    have found := wellFormed.cookieEntrySet domainTail
    rw [CookieLruCache.call, recencyBehind]
    unfold CookieLruCache.cookieEntrySet at found ⊢
    rw [if_neg (by simpa using nonempty)] at found ⊢
    cases here : cache.get domainTail with
    | none =>
      rw [if_neg (wellFormed.get_eq_none_iff.1 here)]
      exact holds
    | some entrySet =>
      rw [here] at found
      obtain ⟨member, rfl⟩ := wellFormed.get_eq_some_iff.1 here
      have cached : entrySet.domainTail ∈ cache.contents.keys := by
        rw [contents, keys_map_keyed]
        exact mem_map_of_mem member
      rw [if_pos cached]
      have moved := wellFormed.contents_moveEntrySetToHead member
      refine holds.touched found rfl (moved.trans (take_of_length_le ?_).symm)
      have short := congrArg List.length holds.keys_eq
      rw [List.keys, length_map, length_take, contents, length_map] at short
      rw [← moved, contents, length_map, CookieLruCache.moveEntrySetToHead,
        (perm_moved_to_head wellFormed.addresses_nodup member).length_eq]
      omega
  | delCookie domainHead domainTail path name =>
    have deleted := wellFormed.delCookie domainHead domainTail path name
    rw [CookieLruCache.call, recencyBehind]
    unfold CookieLruCache.delCookie at deleted ⊢
    split_ifs at deleted ⊢
    · exact holds
    · split at deleted
      · exact holds
      · refine ⟨deleted, holds.maxCount_eq, Eq.trans ?_ holds.keys_eq⟩
        rw [contents, contents, keys_map_keyed, keys_map_keyed]
        simp [CookieLruCache.writeEntries, Function.comp_def, apply_ite CookieEntrySet.domainTail]
  | clear => exact ⟨wellFormed.clear, holds.maxCount_eq, take_nil.symm⟩

/-- After any calls the cache holds the most recently used tails. -/
theorem run_spec (maxCount : Nat) (calls : List Call) :
    HoldsRecent maxCount (run maxCount calls).1 (run maxCount calls).2 := by
  have start : HoldsRecent maxCount (create maxCount) [] :=
    ⟨.create maxCount, by simp only [create]; split_ifs <;> omega, (take_nil).symm⟩
  exact foldlRecOn (motive := fun state : CookieLruCache × List WString =>
    HoldsRecent maxCount state.1 state.2) _ _ start fun _ holds call _ => holds.call call

end CookieLruCache

end Cookie
end PalmWebKit
