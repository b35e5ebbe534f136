import PalmWebKit.Cookie.Entry

/-!
# The cookie cache

`CookieLruCache` keeps the cookies of the most recently used domain tails.
The sets sit in a ring, most recently used first, and a hash map finds the set
of a tail by its address.  Under the representation invariant the cache is a
recency list of tails, and every operation is an operation on that list.
-/

namespace PalmWebKit
namespace Cookie

open List

/-- The cached cookies of one tail, at an address of the heap. -/
structure CookieEntrySet where
  address : Nat
  domainTail : WString
  entries : List CookieEntry
  deriving DecidableEq, Repr

structure CookieLruCache where
  maxCount : Nat
  count : Nat
  /-- The ring from `m_list->m_next` to `m_list->m_prev`. -/
  list : List CookieEntrySet
  /-- `m_map`: the address of the set of a tail. -/
  map : AList fun _ : WString => Nat
  /-- The address of the next allocated set. -/
  nextAddress : Nat

namespace CookieLruCache

/-- The constructor. -/
def create (maxCount : Nat) : CookieLruCache where
  maxCount := if maxCount = 0 then 1 else maxCount
  count := 0
  list := []
  map := ∅
  nextAddress := 0

def clear (cache : CookieLruCache) : CookieLruCache :=
  { cache with count := 0, list := [], map := ∅ }

/-- `m_map.get` and the set it points to. -/
def get (cache : CookieLruCache) (domainTail : WString) : Option CookieEntrySet :=
  (cache.map.lookup domainTail).bind fun address =>
    cache.list.find? fun entrySet => entrySet.address = address

def moveEntrySetToHead (cache : CookieLruCache) (entrySet : CookieEntrySet) : CookieLruCache :=
  { cache with
    list := entrySet ::
      cache.list.filter fun other => other.address ≠ entrySet.address }

def dropLeastUsedEntrySet (cache : CookieLruCache) : CookieLruCache :=
  match cache.list.getLast? with
  | none => cache
  | some entrySet =>
    { cache with
      list := cache.list.dropLast
      map := cache.map.erase entrySet.domainTail
      count := cache.count - 1 }

/-- `while (m_count > m_maxCount) dropLeastUsedEntrySet();` -/
def dropWhileOver : Nat → CookieLruCache → CookieLruCache
  | 0, cache => cache
  | fuel + 1, cache =>
    if cache.count > cache.maxCount then
      dropWhileOver fuel cache.dropLeastUsedEntrySet
    else
      cache

def dropToMaxCount (cache : CookieLruCache) : CookieLruCache := dropWhileOver cache.count cache

def setMaxCount (cache : CookieLruCache) (count : Nat) : CookieLruCache :=
  dropToMaxCount { cache with maxCount := if count = 0 then 1 else count }

/-- Find the set of a tail and make it the most recently used one. -/
def cookieEntrySet (cache : CookieLruCache) (domainTail : WString) :
    Option CookieEntrySet × CookieLruCache :=
  if domainTail.isEmpty then (none, cache)
  else
    match cache.get domainTail with
    | none => (none, cache)
    | some entrySet => (some entrySet, cache.moveEntrySetToHead entrySet)

/-- The first half of `addCookie` and `addDummyCookieEntrySet`: the set of the
tail, allocated when there is none, at the head of the ring. -/
def ensureEntrySet (cache : CookieLruCache) (domainTail : WString) :
    CookieEntrySet × CookieLruCache :=
  match cache.cookieEntrySet domainTail with
  | (some entrySet, found) => (entrySet, found.moveEntrySetToHead entrySet)
  | (none, missed) =>
    let entrySet : CookieEntrySet := { address := missed.nextAddress, domainTail, entries := [] }
    let allocated : CookieLruCache :=
      { missed with
        map := missed.map.insert domainTail entrySet.address
        count := missed.count + 1
        nextAddress := missed.nextAddress + 1 }
    (entrySet, allocated.moveEntrySetToHead entrySet)

/-- Write through a pointer to a set. -/
def writeEntries (cache : CookieLruCache) (address : Nat)
    (entries : List CookieEntry) : CookieLruCache :=
  { cache with
    list := cache.list.map fun entrySet =>
      if entrySet.address = address then { entrySet with entries } else entrySet }

def addCookie (cache : CookieLruCache) (entry : CookieEntry) : CookieLruCache :=
  let (entrySet, ready) := cache.ensureEntrySet entry.domainTail
  (ready.writeEntries entrySet.address (storeEntry entry entrySet.entries)).dropToMaxCount

def addDummyCookieEntrySet (cache : CookieLruCache) (domainTail : WString) :
    CookieLruCache := (cache.ensureEntrySet domainTail).2.dropToMaxCount

def delCookie (cache : CookieLruCache)
    (domainHead domainTail path name : WString) : CookieLruCache :=
  if domainTail.isEmpty then cache
  else
    match cache.get domainTail with
    | none => cache
    | some entrySet =>
      cache.writeEntries entrySet.address
        (removeEntry domainHead path name entrySet.entries)

/-! ## The recency list -/

/-- A set without its address. -/
def keyed (entrySet : CookieEntrySet) : Σ _ : WString, List CookieEntry :=
  ⟨entrySet.domainTail, entrySet.entries⟩

/-- The cache as a list of tails with their cookies, most recent first. -/
def contents (cache : CookieLruCache) :
    List (Σ _ : WString, List CookieEntry) := cache.list.map keyed

/-- The cookies cached under a tail. -/
def entriesOf (cache : CookieLruCache) (domainTail : WString) :
    Option (List CookieEntry) := cache.contents.dlookup domainTail

section Lists

variable {entrySets : List CookieEntrySet} {entrySet : CookieEntrySet}

theorem find_address_of_mem (nodup : (entrySets.map CookieEntrySet.address).Nodup)
    (member : entrySet ∈ entrySets) :
    (entrySets.find? fun other => other.address = entrySet.address) =
      some entrySet := by
  induction entrySets with
  | nil => simp at member
  | cons first rest ih =>
    simp only [map_cons, nodup_cons] at nodup
    rcases mem_cons.1 member with rfl | later
    · simp
    · have ne : first.address ≠ entrySet.address := by
        intro equal
        exact nodup.1 (equal ▸ mem_map_of_mem later)
      rw [find?_cons_of_neg (by simpa using ne)]
      exact ih nodup.2 later

theorem filter_address_eq_self (fresh : entrySet.address ∉ entrySets.map CookieEntrySet.address) :
    (entrySets.filter fun other => other.address ≠ entrySet.address) =
      entrySets := by
  apply filter_eq_self.2
  intro other member
  have : other.address ≠ entrySet.address := by
    intro equal
    exact fresh (equal ▸ mem_map_of_mem member)
  simpa using this

theorem perm_moved_to_head (nodup : (entrySets.map CookieEntrySet.address).Nodup)
    (member : entrySet ∈ entrySets) : (entrySet :: entrySets.filter fun other =>
      other.address ≠ entrySet.address).Perm entrySets := by
  induction entrySets with
  | nil => simp at member
  | cons first rest ih =>
    simp only [map_cons, nodup_cons] at nodup
    rcases mem_cons.1 member with rfl | later
    · rw [filter_cons_of_neg (by simp), filter_address_eq_self nodup.1]
    · have ne : first.address ≠ entrySet.address := by
        intro equal
        exact nodup.1 (equal ▸ mem_map_of_mem later)
      rw [filter_cons_of_pos (by simpa using ne)]
      exact (List.Perm.swap _ _ _).trans
        ((ih nodup.2 later).cons first)

theorem map_keyed_filter (addressesNodup : (entrySets.map CookieEntrySet.address).Nodup)
    (tailsNodup : (entrySets.map CookieEntrySet.domainTail).Nodup) (member : entrySet ∈ entrySets) :
    (entrySets.filter fun other =>
        other.address ≠ entrySet.address).map keyed =
      (entrySets.map keyed).kerase entrySet.domainTail := by
  induction entrySets with
  | nil => simp at member
  | cons first rest ih =>
    simp only [map_cons, nodup_cons] at addressesNodup tailsNodup
    rcases mem_cons.1 member with rfl | later
    · rw [filter_cons_of_neg (by simp), filter_address_eq_self addressesNodup.1]
      have erased : (keyed entrySet :: rest.map keyed).kerase
          entrySet.domainTail = rest.map keyed := kerase_cons_eq rfl
      exact erased.symm
    · have differentAddress : first.address ≠ entrySet.address := by
        intro equal
        exact addressesNodup.1 (equal ▸ mem_map_of_mem later)
      have differentTail : entrySet.domainTail ≠ (keyed first).1 := by
        intro equal
        apply tailsNodup.1
        rw [show first.domainTail = entrySet.domainTail from equal.symm]
        exact mem_map_of_mem later
      rw [filter_cons_of_pos (by simpa using differentAddress),
        map_cons, map_cons, kerase_cons_ne differentTail,
        ih addressesNodup.2 tailsNodup.2 later]

theorem keys_map_keyed : (entrySets.map keyed).keys =
      entrySets.map CookieEntrySet.domainTail := by
  simp [List.keys, keyed, Function.comp_def]

theorem dlookup_map_keyed_of_mem (tailsNodup : (entrySets.map CookieEntrySet.domainTail).Nodup)
    (member : entrySet ∈ entrySets) : (entrySets.map keyed).dlookup entrySet.domainTail =
      some entrySet.entries := by
  apply mem_dlookup
  · rw [List.NodupKeys, keys_map_keyed]
    exact tailsNodup
  · exact mem_map_of_mem (f := keyed) member

/-- Replace the cookies of one tail in place. -/
def replaceEntries (domainTail : WString) (entries : List CookieEntry)
    (pairs : List (Σ _ : WString, List CookieEntry)) : List (Σ _ : WString, List CookieEntry) :=
  pairs.map fun pair => if pair.1 = domainTail then ⟨pair.1, entries⟩ else pair

variable {pairs : List (Σ _ : WString, List CookieEntry)}

variable {domainTail : WString}

theorem replaceEntries_of_notMem (absent : domainTail ∉ pairs.keys) (entries : List CookieEntry) :
    replaceEntries domainTail entries pairs = pairs := by
  conv_rhs => rw [← map_id pairs]
  apply map_congr_left
  intro pair member
  rw [if_neg]
  · rfl
  · intro equal
    exact absent (equal ▸ mem_keys_of_mem member)

theorem replaceEntries_kinsert (nodup : pairs.NodupKeys) (entries stored : List CookieEntry) :
    replaceEntries domainTail stored (pairs.kinsert domainTail entries) =
      pairs.kinsert domainTail stored := by
  have rest := replaceEntries_of_notMem
    (notMem_keys_kerase domainTail nodup) stored
  rw [kinsert_def, replaceEntries, map_cons, if_pos rfl]
  exact congrArg _ rest

theorem dlookup_replaceEntries_self {entries : List CookieEntry}
    (cached : pairs.dlookup domainTail = some entries) (stored : List CookieEntry) :
    (replaceEntries domainTail stored pairs).dlookup domainTail =
      some stored := by
  induction pairs with
  | nil => simp at cached
  | cons pair pairs ih =>
    rw [replaceEntries, map_cons]
    by_cases here : domainTail = pair.1
    · subst here
      rw [if_pos rfl, dlookup_cons_eq]
    · rw [if_neg (Ne.symm here), dlookup_cons_ne _ pair here]
      rw [dlookup_cons_ne _ pair here] at cached
      exact ih cached

theorem dlookup_replaceEntries_ne {domainTail other : WString} (ne : other ≠ domainTail)
    (stored : List CookieEntry) : (replaceEntries domainTail stored pairs).dlookup other =
      pairs.dlookup other := by
  induction pairs with
  | nil => rfl
  | cons pair pairs ih =>
    rw [replaceEntries, map_cons]
    by_cases here : other = pair.1
    · subst here
      obtain ⟨key, value⟩ := pair
      rw [if_neg ne, dlookup_cons_eq, dlookup_cons_eq]
    · rw [dlookup_cons_ne _ pair here, dlookup_cons_ne]
      · exact ih
      · split_ifs <;> exact here

end Lists

/-- Representation invariant: ring and map hold the same sets, one for each
tail, and the counter is their number. -/
structure WellFormed (cache : CookieLruCache) : Prop where
  maxCount_pos : 0 < cache.maxCount
  count_eq : cache.count = cache.list.length
  addresses_nodup : (cache.list.map CookieEntrySet.address).Nodup
  addresses_lt : ∀ entrySet ∈ cache.list, entrySet.address < cache.nextAddress
  tails_nodup : (cache.list.map CookieEntrySet.domainTail).Nodup
  map_iff : ∀ domainTail address, cache.map.lookup domainTail = some address ↔
      ∃ entrySet ∈ cache.list, entrySet.domainTail = domainTail ∧ entrySet.address = address

namespace WellFormed

variable {cache : CookieLruCache} {entrySet : CookieEntrySet}

theorem create (maxCount : Nat) : (create maxCount).WellFormed where
  maxCount_pos := by
    simp only [CookieLruCache.create]
    split_ifs <;> omega
  count_eq := rfl
  addresses_nodup := .nil
  addresses_lt := by simp [CookieLruCache.create]
  tails_nodup := .nil
  map_iff := by simp [CookieLruCache.create]

theorem clear (wellFormed : cache.WellFormed) : cache.clear.WellFormed where
  maxCount_pos := wellFormed.maxCount_pos
  count_eq := rfl
  addresses_nodup := .nil
  addresses_lt := by simp [CookieLruCache.clear]
  tails_nodup := .nil
  map_iff := by simp [CookieLruCache.clear]

variable {domainTail : WString}

variable (wellFormed : cache.WellFormed)
include wellFormed

/-- The pointer found for a tail is the set of that tail. -/
theorem get_eq_some_iff : cache.get domainTail = some entrySet ↔
      entrySet ∈ cache.list ∧ entrySet.domainTail = domainTail := by
  simp only [get, Option.bind_eq_some_iff]
  constructor
  · rintro ⟨address, mapped, found⟩
    obtain ⟨other, otherMember, otherTail, otherAddress⟩ := (wellFormed.map_iff _ _).1 mapped
    subst otherAddress
    rw [find_address_of_mem wellFormed.addresses_nodup otherMember] at found
    obtain rfl : other = entrySet := Option.some.inj found
    exact ⟨otherMember, otherTail⟩
  · rintro ⟨member, rfl⟩
    exact ⟨entrySet.address, (wellFormed.map_iff _ _).2 ⟨entrySet, member, rfl, rfl⟩,
      find_address_of_mem wellFormed.addresses_nodup member⟩

theorem get_eq_none_iff :
    cache.get domainTail = none ↔ domainTail ∉ cache.contents.keys := by
  rw [contents, keys_map_keyed, Option.eq_none_iff_forall_ne_some]
  constructor
  · intro missing member
    obtain ⟨entrySet, entrySetMember, tail⟩ := mem_map.1 member
    exact missing entrySet
      (wellFormed.get_eq_some_iff.2 ⟨entrySetMember, tail⟩)
  · intro notMember entrySet found
    obtain ⟨member, rfl⟩ := wellFormed.get_eq_some_iff.1 found
    exact notMember (mem_map_of_mem member)

theorem nodupKeys_contents : cache.contents.NodupKeys := by
  rw [List.NodupKeys, contents, keys_map_keyed]
  exact wellFormed.tails_nodup

theorem entriesOf_of_mem (member : entrySet ∈ cache.list) :
    cache.entriesOf entrySet.domainTail = some entrySet.entries :=
  dlookup_map_keyed_of_mem wellFormed.tails_nodup member

/-- Reordering the ring keeps the invariant. -/
theorem perm {list : List CookieEntrySet}
    (reordered : list.Perm cache.list) : WellFormed { cache with list } where
  maxCount_pos := wellFormed.maxCount_pos
  count_eq := wellFormed.count_eq.trans reordered.length_eq.symm
  addresses_nodup := (reordered.map _).nodup_iff.2 wellFormed.addresses_nodup
  addresses_lt := fun entrySet member =>
    wellFormed.addresses_lt entrySet (reordered.mem_iff.1 member)
  tails_nodup := (reordered.map _).nodup_iff.2 wellFormed.tails_nodup
  map_iff := fun domainTail address => by
    simpa only [reordered.mem_iff] using
      wellFormed.map_iff domainTail address

omit wellFormed

theorem moveEntrySetToHead (wellFormed : cache.WellFormed) (member : entrySet ∈ cache.list) :
    (cache.moveEntrySetToHead entrySet).WellFormed :=
  wellFormed.perm (perm_moved_to_head wellFormed.addresses_nodup member)

theorem contents_moveEntrySetToHead (wellFormed : cache.WellFormed)
    (member : entrySet ∈ cache.list) : (cache.moveEntrySetToHead entrySet).contents =
      cache.contents.kinsert entrySet.domainTail entrySet.entries := by
  rw [contents, CookieLruCache.moveEntrySetToHead,
    map_cons, map_keyed_filter wellFormed.addresses_nodup
      wellFormed.tails_nodup member]
  rfl

/-- Writing the entries of a set keeps the invariant. -/
theorem writeEntries (wellFormed : cache.WellFormed) (address : Nat) (entries : List CookieEntry) :
    (cache.writeEntries address entries).WellFormed := by
  have sameAddress (entrySet : CookieEntrySet) :
      (if entrySet.address = address then { entrySet with entries }
        else entrySet).address = entrySet.address := by
    split_ifs <;> rfl
  have sameTail (entrySet : CookieEntrySet) :
      (if entrySet.address = address then { entrySet with entries }
        else entrySet).domainTail = entrySet.domainTail := by
    split_ifs <;> rfl
  constructor
  · exact wellFormed.maxCount_pos
  · simpa [CookieLruCache.writeEntries] using wellFormed.count_eq
  · simpa [CookieLruCache.writeEntries, Function.comp_def, sameAddress] using
      wellFormed.addresses_nodup
  · simpa [CookieLruCache.writeEntries, sameAddress] using
      wellFormed.addresses_lt
  · simpa [CookieLruCache.writeEntries, Function.comp_def, sameTail] using
      wellFormed.tails_nodup
  · intro domainTail found
    rw [CookieLruCache.writeEntries, wellFormed.map_iff]
    simp only [mem_map, exists_exists_and_eq_and, sameAddress, sameTail]

/-- Writing the entries of a set replaces the cookies of its tail. -/
theorem contents_writeEntries (wellFormed : cache.WellFormed) (member : entrySet ∈ cache.list)
    (entries : List CookieEntry) : (cache.writeEntries entrySet.address entries).contents =
      replaceEntries entrySet.domainTail entries cache.contents := by
  simp only [contents, CookieLruCache.writeEntries, replaceEntries, map_map]
  apply map_congr_left
  intro other otherMember
  simp only [Function.comp_apply, keyed]
  by_cases sameAddress : other.address = entrySet.address
  · have same : other = entrySet :=
      inj_on_of_nodup_map wellFormed.addresses_nodup otherMember member
        sameAddress
    simp [same]
  · have differentTail : other.domainTail ≠ entrySet.domainTail := by
      intro sameTail
      apply sameAddress
      rw [inj_on_of_nodup_map wellFormed.tails_nodup otherMember member sameTail]
    simp [sameAddress, differentTail]

theorem dropLeastUsedEntrySet (wellFormed : cache.WellFormed) :
    cache.dropLeastUsedEntrySet.WellFormed := by
  unfold CookieLruCache.dropLeastUsedEntrySet
  cases last : cache.list.getLast? with
  | none => exact wellFormed
  | some entrySet =>
    have split : cache.list = cache.list.dropLast ++ [entrySet] :=
      (dropLast_append_getLast? entrySet last).symm
    have addresses := wellFormed.addresses_nodup
    have tails := wellFormed.tails_nodup
    rw [split, map_append, nodup_append] at addresses tails
    constructor
    · exact wellFormed.maxCount_pos
    · simp [wellFormed.count_eq]
    · exact addresses.1
    · intro other member
      exact wellFormed.addresses_lt other (mem_of_mem_dropLast member)
    · exact tails.1
    · intro domainTail address
      have others (other : CookieEntrySet)
          (member : other ∈ cache.list.dropLast) : other.domainTail ≠ entrySet.domainTail :=
        tails.2.2 _ (mem_map_of_mem member) _ (by simp)
      by_cases same : domainTail = entrySet.domainTail
      · subst same
        simp only [AList.lookup_erase, reduceCtorEq, false_iff]
        rintro ⟨other, member, equal, -⟩
        exact others other member equal
      · rw [AList.lookup_erase_ne same, wellFormed.map_iff]
        conv_lhs => rw [split]
        simp only [mem_append, mem_singleton]
        constructor
        · rintro ⟨other, member | rfl, tail, found⟩
          · exact ⟨other, member, tail, found⟩
          · exact absurd tail.symm same
        · rintro ⟨other, member, tail, found⟩
          exact ⟨other, .inl member, tail, found⟩

theorem contents_dropLeastUsedEntrySet :
    cache.dropLeastUsedEntrySet.contents = cache.contents.dropLast := by
  unfold CookieLruCache.dropLeastUsedEntrySet
  cases last : cache.list.getLast? with
  | none =>
    have : cache.list = [] := getLast?_eq_none_iff.1 last
    simp [contents, this]
  | some entrySet => simp [contents, map_dropLast]

/-- Eviction keeps the most recently used sets, as many as allowed. -/
theorem dropWhileOver (fuel : Nat) {cache : CookieLruCache} (wellFormed : cache.WellFormed)
    (enough : cache.count ≤ cache.maxCount + fuel) :
    (cache.dropWhileOver fuel).WellFormed ∧ (cache.dropWhileOver fuel).maxCount = cache.maxCount ∧
      (cache.dropWhileOver fuel).contents =
        cache.contents.take cache.maxCount := by
  have length_contents : cache.contents.length = cache.count := by
    rw [wellFormed.count_eq, contents, length_map]
  induction fuel generalizing cache with
  | zero =>
    refine ⟨wellFormed, rfl, ?_⟩
    rw [take_of_length_le (by omega)]
    rfl
  | succ fuel ih =>
    rw [CookieLruCache.dropWhileOver]
    split_ifs with tooMany
    · have dropped := wellFormed.dropLeastUsedEntrySet
      have contents_dropped : cache.dropLeastUsedEntrySet.contents =
          cache.contents.dropLast := contents_dropLeastUsedEntrySet
      have count_dropped : cache.dropLeastUsedEntrySet.count = cache.count - 1 := by
        rw [dropped.count_eq, ← length_map (f := keyed),
          ← length_contents, ← length_dropLast, ← contents_dropped]
        rfl
      have maxCount_dropped : cache.dropLeastUsedEntrySet.maxCount = cache.maxCount := by
        unfold CookieLruCache.dropLeastUsedEntrySet
        split <;> rfl
      obtain ⟨kept, keptMax, keptContents⟩ :=
        ih dropped (by omega) (by
          rw [contents_dropped, length_dropLast]
          omega)
      refine ⟨kept, keptMax.trans maxCount_dropped, ?_⟩
      rw [keptContents, contents_dropped, dropLast_eq_take, take_take]
      congr 1
      omega
    · refine ⟨wellFormed, rfl, ?_⟩
      rw [take_of_length_le (by omega)]

theorem dropToMaxCount (wellFormed : cache.WellFormed) :
    cache.dropToMaxCount.WellFormed := (wellFormed.dropWhileOver cache.count (by omega)).1

theorem contents_dropToMaxCount (wellFormed : cache.WellFormed) :
    cache.dropToMaxCount.contents = cache.contents.take cache.maxCount :=
  (wellFormed.dropWhileOver cache.count (by omega)).2.2

theorem cookieEntrySet (wellFormed : cache.WellFormed) (domainTail : WString) :
    (cache.cookieEntrySet domainTail).2.WellFormed := by
  unfold CookieLruCache.cookieEntrySet
  split_ifs
  · exact wellFormed
  · cases found : cache.get domainTail with
    | none => exact wellFormed
    | some entrySet =>
      exact wellFormed.moveEntrySetToHead
        (wellFormed.get_eq_some_iff.1 found).1

/-- A lookup finds the cookies of the tail and touches the recency order
only. -/
theorem cookieEntrySet_entries (wellFormed : cache.WellFormed) (nonempty : domainTail ≠ []) :
    (cache.cookieEntrySet domainTail).1.map CookieEntrySet.entries =
      cache.entriesOf domainTail := by
  unfold CookieLruCache.cookieEntrySet
  rw [if_neg (by simpa using nonempty)]
  cases found : cache.get domainTail with
  | none =>
    exact (dlookup_eq_none.2 (wellFormed.get_eq_none_iff.1 found)).symm
  | some entrySet =>
    obtain ⟨member, rfl⟩ := wellFormed.get_eq_some_iff.1 found
    exact (wellFormed.entriesOf_of_mem member).symm

theorem entriesOf_cookieEntrySet (wellFormed : cache.WellFormed) (domainTail other : WString) :
    (cache.cookieEntrySet domainTail).2.entriesOf other =
      cache.entriesOf other := by
  unfold CookieLruCache.cookieEntrySet
  split_ifs
  · rfl
  · cases found : cache.get domainTail with
    | none => rfl
    | some entrySet =>
      obtain ⟨member, rfl⟩ := wellFormed.get_eq_some_iff.1 found
      simp only [entriesOf, wellFormed.contents_moveEntrySetToHead member]
      by_cases same : other = entrySet.domainTail
      · subst same
        rw [dlookup_kinsert]
        exact (wellFormed.entriesOf_of_mem member).symm
      · rw [dlookup_kinsert_ne same]

theorem moveEntrySetToHead_idem (entrySet : CookieEntrySet) :
    (cache.moveEntrySetToHead entrySet).moveEntrySetToHead entrySet =
      cache.moveEntrySetToHead entrySet := by
  simp [CookieLruCache.moveEntrySetToHead, filter_filter]

/-- An allocated set of a new tail at the head of the ring. -/
theorem allocate (wellFormed : cache.WellFormed) (missing : domainTail ∉ cache.contents.keys) :
    WellFormed
      { cache with
        list :=
          { address := cache.nextAddress, domainTail, entries := [] } ::
            cache.list
        map := cache.map.insert domainTail cache.nextAddress
        count := cache.count + 1
        nextAddress := cache.nextAddress + 1 } := by
  rw [contents, keys_map_keyed] at missing
  constructor
  · exact wellFormed.maxCount_pos
  · simp [wellFormed.count_eq]
  · simp only [map_cons, nodup_cons]
    refine ⟨?_, wellFormed.addresses_nodup⟩
    intro member
    obtain ⟨other, otherMember, equal⟩ := mem_map.1 member
    exact absurd (wellFormed.addresses_lt other otherMember) (by omega)
  · simp only [forall_mem_cons]
    refine ⟨by omega, fun other member => ?_⟩
    exact (wellFormed.addresses_lt other member).trans (Nat.lt_succ_self _)
  · simp only [map_cons, nodup_cons]
    exact ⟨missing, wellFormed.tails_nodup⟩
  · intro otherTail address
    simp only [mem_cons, exists_eq_or_imp]
    by_cases same : otherTail = domainTail
    · subst same
      rw [AList.lookup_insert]
      constructor
      · intro equal
        exact .inl ⟨rfl, Option.some.inj equal⟩
      · rintro (⟨-, equal⟩ | ⟨other, member, tail, -⟩)
        · exact congrArg some equal
        · exact absurd (tail ▸ mem_map_of_mem member) missing
    · rw [AList.lookup_insert_ne same, wellFormed.map_iff]
      constructor
      · exact .inr
      · rintro (⟨equal, -⟩ | found)
        · exact absurd equal.symm same
        · exact found

/-- What `ensureEntrySet` leaves behind. -/
theorem ensureEntrySet (wellFormed : cache.WellFormed) (nonempty : domainTail ≠ []) :
    let ensured := cache.ensureEntrySet domainTail
    ensured.2.WellFormed ∧ ensured.1 ∈ ensured.2.list ∧ ensured.1.domainTail = domainTail ∧
      ensured.1.entries = (cache.entriesOf domainTail).getD [] ∧
      ensured.2.maxCount = cache.maxCount ∧
      ensured.2.contents = cache.contents.kinsert domainTail
          ((cache.entriesOf domainTail).getD []) := by
  unfold CookieLruCache.ensureEntrySet CookieLruCache.cookieEntrySet
  rw [if_neg (by simpa using nonempty)]
  cases found : cache.get domainTail with
  | none =>
    have missing := wellFormed.get_eq_none_iff.1 found
    have uncached : cache.entriesOf domainTail = none := dlookup_eq_none.2 missing
    have fresh : cache.nextAddress ∉
        cache.list.map CookieEntrySet.address := by
      intro member
      obtain ⟨other, otherMember, equal⟩ := mem_map.1 member
      exact absurd (wellFormed.addresses_lt other otherMember) (by omega)
    have kept : (cache.list.filter fun other =>
        other.address ≠ cache.nextAddress) = cache.list :=
      @filter_address_eq_self cache.list
        ⟨cache.nextAddress, domainTail, []⟩ fresh
    simp only [CookieLruCache.moveEntrySetToHead, kept, uncached,
      Option.getD_none, mem_cons, true_or, true_and]
    refine ⟨wellFormed.allocate missing, ?_⟩
    rw [kinsert_def, kerase_of_notMem_keys missing]
    rfl
  | some entrySet =>
    obtain ⟨member, rfl⟩ := wellFormed.get_eq_some_iff.1 found
    simp only [moveEntrySetToHead_idem]
    rw [wellFormed.entriesOf_of_mem member, wellFormed.contents_moveEntrySetToHead member]
    exact ⟨wellFormed.moveEntrySetToHead member, .head _, trivial, rfl, rfl, rfl⟩

variable {entry : CookieEntry}

theorem addCookie (wellFormed : cache.WellFormed) (nonempty : entry.domainTail ≠ []) :
    (cache.addCookie entry).WellFormed := by
  obtain ⟨ready, -⟩ := wellFormed.ensureEntrySet nonempty
  exact (ready.writeEntries _ _).dropToMaxCount

/-- `addCookie` stores the cookie in the set of its tail, makes that set the
most recently used one and forgets the sets that no longer fit. -/
theorem contents_addCookie (wellFormed : cache.WellFormed) (nonempty : entry.domainTail ≠ []) :
    (cache.addCookie entry).contents = (cache.contents.kinsert entry.domainTail
        (storeEntry entry ((cache.entriesOf entry.domainTail).getD []))).take
        cache.maxCount := by
  obtain ⟨ready, member, tail, entries, maxCount, contents⟩ := wellFormed.ensureEntrySet nonempty
  simp only [CookieLruCache.addCookie]
  rw [(ready.writeEntries _ _).contents_dropToMaxCount, ready.contents_writeEntries member,
    contents, tail, entries, replaceEntries_kinsert wellFormed.nodupKeys_contents]
  exact congrArg (fun count => List.take count _) maxCount

theorem addDummyCookieEntrySet (wellFormed : cache.WellFormed) (nonempty : domainTail ≠ []) :
    (cache.addDummyCookieEntrySet domainTail).WellFormed :=
  (wellFormed.ensureEntrySet nonempty).1.dropToMaxCount

theorem contents_addDummyCookieEntrySet (wellFormed : cache.WellFormed)
    (nonempty : domainTail ≠ []) :
    (cache.addDummyCookieEntrySet domainTail).contents = (cache.contents.kinsert domainTail
        ((cache.entriesOf domainTail).getD [])).take cache.maxCount := by
  obtain ⟨ready, -, -, -, maxCount, contents⟩ := wellFormed.ensureEntrySet nonempty
  rw [CookieLruCache.addDummyCookieEntrySet, ready.contents_dropToMaxCount, contents, maxCount]

variable {pairs : List (Σ _ : WString, List CookieEntry)}

/-- The key just inserted survives eviction. -/
theorem dlookup_take_kinsert_self {entries : List CookieEntry} {count : Nat} (positive : 0 < count) :
    ((pairs.kinsert domainTail entries).take count).dlookup domainTail =
      some entries := by
  obtain ⟨count, rfl⟩ := Nat.exists_eq_add_of_lt positive
  exact dlookup_cons_eq _ _ _

/-- Eviction only forgets: another key keeps its cookies or is dropped. -/
theorem dlookup_of_dlookup_take_kinsert (nodup : pairs.NodupKeys) {domainTail other : WString}
    {entries found : List CookieEntry} {count : Nat} (ne : other ≠ domainTail)
    (kept : ((pairs.kinsert domainTail entries).take count).dlookup other = some found) :
    pairs.dlookup other = some found := by
  have inserted : (pairs.kinsert domainTail entries).dlookup other = some found :=
    sublist_dlookup (kinsert_nodupKeys _ _ nodup)
      (take_sublist _ _) kept
  rwa [dlookup_kinsert_ne ne] at inserted

variable (wellFormed : cache.WellFormed)
include wellFormed

theorem entriesOf_addCookie_self (nonempty : entry.domainTail ≠ []) :
    (cache.addCookie entry).entriesOf entry.domainTail = some (storeEntry entry
        ((cache.entriesOf entry.domainTail).getD [])) := by
  rw [entriesOf, wellFormed.contents_addCookie nonempty]
  exact dlookup_take_kinsert_self wellFormed.maxCount_pos

theorem entriesOf_of_addCookie (nonempty : entry.domainTail ≠ []) {other : WString}
    {found : List CookieEntry} (ne : other ≠ entry.domainTail)
    (kept : (cache.addCookie entry).entriesOf other = some found) :
    cache.entriesOf other = some found := by
  rw [entriesOf, wellFormed.contents_addCookie nonempty] at kept
  exact dlookup_of_dlookup_take_kinsert wellFormed.nodupKeys_contents
    ne kept

theorem entriesOf_addDummyCookieEntrySet_self
    (nonempty : domainTail ≠ []) : (cache.addDummyCookieEntrySet domainTail).entriesOf domainTail =
      some ((cache.entriesOf domainTail).getD []) := by
  rw [entriesOf, wellFormed.contents_addDummyCookieEntrySet nonempty]
  exact dlookup_take_kinsert_self wellFormed.maxCount_pos

theorem entriesOf_of_addDummyCookieEntrySet {domainTail other : WString}
    (nonempty : domainTail ≠ []) {found : List CookieEntry} (ne : other ≠ domainTail)
    (kept : (cache.addDummyCookieEntrySet domainTail).entriesOf other = some found) :
    cache.entriesOf other = some found := by
  rw [entriesOf, wellFormed.contents_addDummyCookieEntrySet nonempty] at kept
  exact dlookup_of_dlookup_take_kinsert wellFormed.nodupKeys_contents
    ne kept

omit wellFormed

theorem delCookie (wellFormed : cache.WellFormed) (domainHead domainTail path name : WString) :
    (cache.delCookie domainHead domainTail path name).WellFormed := by
  unfold CookieLruCache.delCookie
  split_ifs
  · exact wellFormed
  · split
    · exact wellFormed
    · exact wellFormed.writeEntries _ _

/-- `delCookie` removes the cookie from the set of its tail. -/
theorem entriesOf_delCookie (wellFormed : cache.WellFormed) (domainHead path name : WString)
    (nonempty : domainTail ≠ []) (other : WString) :
    (cache.delCookie domainHead domainTail path name).entriesOf other =
      if other = domainTail then
        (cache.entriesOf other).map (removeEntry domainHead path name)
      else
        cache.entriesOf other := by
  unfold CookieLruCache.delCookie
  rw [if_neg (by simpa using nonempty)]
  cases found : cache.get domainTail with
  | none =>
    have uncached : cache.entriesOf domainTail = none :=
      dlookup_eq_none.2 (wellFormed.get_eq_none_iff.1 found)
    split_ifs with same
    · simp [same, uncached]
    · rfl
  | some entrySet =>
    obtain ⟨member, rfl⟩ := wellFormed.get_eq_some_iff.1 found
    have cached := wellFormed.entriesOf_of_mem member
    simp only [entriesOf] at cached ⊢
    rw [wellFormed.contents_writeEntries member]
    split_ifs with same
    · rw [same, cached]
      exact dlookup_replaceEntries_self cached _
    · exact dlookup_replaceEntries_ne same _

end WellFormed

end CookieLruCache

end Cookie
end PalmWebKit
