import PalmWebKit.Logic.Runs
import PalmWebKit.Cookie.Service

/-!
# Coherence of the cookie cache

A cached tail must hold exactly the rows of the table for that tail, since a
lookup that finds the tail cached does not ask the database.  Most operations
keep this; a `setCookies` on a tail that is not cached and a lookup that meets
expired rows keep it only under a condition on the stored rows, which is
determined here exactly.
-/

namespace PalmWebKit
namespace Cookie
namespace CookieService

/-- The rows of a tail; none without a database. -/
def rowsOf (service : CookieService) (domainTail : WString) : List CookieEntry :=
  match service.db with
  | none => []
  | some table => table.rowsOf domainTail

/-- Every cached tail holds the rows of that tail.  In particular a tail is
cached as an empty set only when the table has no row for it. -/
def Coherent (service : CookieService) : Prop :=
  ∀ domainTail entries, service.cache.entriesOf domainTail = some entries →
      entries.Perm (service.rowsOf domainTail)

/-- What holds of every state, coherent or not. -/
structure WellFormed (service : CookieService) : Prop where
  cache : service.cache.WellFormed
  distinct : ∀ domainTail entries, service.cache.entriesOf domainTail = some entries →
      DistinctCookies entries

theorem distinct_rowsOf (service : CookieService) (domainTail : WString) :
    DistinctCookies (service.rowsOf domainTail) := by
  unfold rowsOf
  cases service.db with
  | none => exact .nil
  | some table => exact table.distinct_rowsOf domainTail

variable {domainTail : WString}

/-- For distinct cookies, being exactly the rows is having the same members. -/
theorem perm_rowsOf_iff {service : CookieService} {entries : List CookieEntry}
    (distinct : DistinctCookies entries) : entries.Perm (service.rowsOf domainTail) ↔
      ∀ entry, entry ∈ entries ↔ entry ∈ service.rowsOf domainTail :=
  List.perm_ext_iff_of_nodup distinct.nodup
    (service.distinct_rowsOf domainTail).nodup

theorem WellFormed.start (db : Option CookieTable) (maxCount : Nat) :
    (start db maxCount).WellFormed where
  cache := CookieLruCache.WellFormed.create maxCount
  distinct := by
    intro domainTail entries cached
    simp [CookieService.start, CookieLruCache.create,
      CookieLruCache.entriesOf, CookieLruCache.contents] at cached

theorem Coherent.start (db : Option CookieTable) (maxCount : Nat) :
    (start db maxCount).Coherent := by
  intro domainTail entries cached
  simp [CookieService.start, CookieLruCache.create,
    CookieLruCache.entriesOf, CookieLruCache.contents] at cached

/-- A cleared cache agrees with any table. -/
theorem coherent_of_clear (cache : CookieLruCache) (db : Option CookieTable) :
    Coherent { db, cache := cache.clear } := by
  intro domainTail entries cached
  simp [CookieLruCache.clear, CookieLruCache.entriesOf, CookieLruCache.contents] at cached

theorem WellFormed.of_clear {cache : CookieLruCache} (wellFormed : cache.WellFormed)
    (db : Option CookieTable) : WellFormed { db, cache := cache.clear } where
  cache := wellFormed.clear
  distinct := by
    intro domainTail entries cached
    simp [CookieLruCache.clear, CookieLruCache.entriesOf, CookieLruCache.contents] at cached

/-! ## Operations that touch one tail -/

/-- An operation touches only one tail: the rows of the other tails stay, and
their sets stay or are evicted. -/
structure TouchesOnly (domainTail : WString) (before after : CookieService) : Prop where
  cache : ∀ other entries, other ≠ domainTail → after.cache.entriesOf other = some entries →
      before.cache.entriesOf other = some entries
  rows : ∀ other entry, other ≠ domainTail →
    (entry ∈ after.rowsOf other ↔ entry ∈ before.rowsOf other)

variable {before after : CookieService}

/-- After an operation on one tail, only that tail can be incoherent. -/
theorem TouchesOnly.coherent_iff (touches : TouchesOnly domainTail before after)
    (coherent : before.Coherent) :
    after.Coherent ↔ ∀ entries, after.cache.entriesOf domainTail = some entries →
        entries.Perm (after.rowsOf domainTail) := by
  constructor
  · exact fun afterCoherent entries => afterCoherent domainTail entries
  · intro here other entries cached
    by_cases same : other = domainTail
    · subst same
      exact here entries cached
    · have kept := coherent other entries
        (touches.cache other entries same cached)
      refine kept.trans ?_
      exact (List.perm_ext_iff_of_nodup (before.distinct_rowsOf other).nodup (after.distinct_rowsOf
        other).nodup).2
        fun entry => (touches.rows other entry same).symm

/-- The set of the touched tail is known after the operation. -/
theorem TouchesOnly.coherent_iff_mem (touches : TouchesOnly domainTail before after)
    (coherent : before.Coherent) {entries : List CookieEntry} (distinct : DistinctCookies entries)
    (cached : after.cache.entriesOf domainTail = some entries) : after.Coherent ↔
      ∀ entry, entry ∈ entries ↔ entry ∈ after.rowsOf domainTail := by
  rw [touches.coherent_iff coherent, ← perm_rowsOf_iff distinct, cached]
  simp

theorem TouchesOnly.wellFormed (touches : TouchesOnly domainTail before after)
    (wellFormed : before.WellFormed) (cache : after.cache.WellFormed)
    (distinct : ∀ entries, after.cache.entriesOf domainTail = some entries →
        DistinctCookies entries) : after.WellFormed where
  cache := cache
  distinct := by
    intro other entries cached
    by_cases same : other = domainTail
    · subst same
      exact distinct entries cached
    · exact wellFormed.distinct other entries
        (touches.cache other entries same cached)

/-! ## Storing and removing one cookie -/

theorem mem_rowsOf_of_db {service : CookieService} {table : CookieTable}
    (db : service.db = some table) {entry : CookieEntry} : entry ∈ service.rowsOf domainTail ↔
      entry ∈ table.rows ∧ entry.domainTail = domainTail := by
  simp only [rowsOf, db]
  exact CookieTable.mem_rowsOf

section OneCookie

variable
  {service : CookieService} {table : CookieTable} {entry : CookieEntry}

/-- The state after a cookie is stored. -/
def stored (service : CookieService) (table : CookieTable) (entry : CookieEntry)
    (insertDone : Bool) : CookieService where
  db := some (if insertDone then table.insert entry else table)
  cache := service.cache.addCookie entry

/-- The state after a cookie is removed. -/
def removed (service : CookieService) (table : CookieTable) (entry : CookieEntry)
    (deleteDone : Bool) : CookieService where
  db := some
    (if deleteDone then
      table.deleteCookie entry.domainTail entry.domainHead entry.name entry.path
    else table)
  cache := service.cache.delCookie entry.domainHead entry.domainTail
    entry.path entry.name

theorem mem_rowsOf_stored (insertDone : Bool) {domainTail : WString} {row : CookieEntry} :
    row ∈ (service.stored table entry insertDone).rowsOf domainTail ↔
      ((insertDone = true ∧ row = entry) ∨
        (row ∈ table.rows ∧ ¬(insertDone = true ∧ row.SameRow entry))) ∧
      row.domainTail = domainTail := by
  rw [mem_rowsOf_of_db rfl]
  cases insertDone
  · simp
  · simp [CookieTable.mem_rows_insert]

theorem mem_rowsOf_removed (deleteDone : Bool) {domainTail : WString} {row : CookieEntry} :
    row ∈ (service.removed table entry deleteDone).rowsOf domainTail ↔
      (row ∈ table.rows ∧ ¬(deleteDone = true ∧ row.SameRow entry)) ∧
        row.domainTail = domainTail := by
  rw [mem_rowsOf_of_db rfl]
  cases deleteDone
  · simp
  · simp only [if_true, CookieTable.deleteCookie, CookieTable.mem_rows_delete, CookieEntry.SameRow,
      CookieEntry.SameCookie, decide_eq_false_iff_not, true_and]
    tauto

theorem touchesOnly_stored (wellFormed : service.WellFormed) (db : service.db = some table)
    (nonempty : entry.domainTail ≠ []) (insertDone : Bool) : TouchesOnly entry.domainTail service
      (service.stored table entry insertDone) where
  cache := fun other entries ne kept =>
    wellFormed.cache.entriesOf_of_addCookie nonempty ne kept
  rows := by
    intro other row ne
    rw [mem_rowsOf_stored, mem_rowsOf_of_db db]
    constructor
    · rintro ⟨⟨-, rfl⟩ | ⟨member, -⟩, tail⟩
      · exact absurd tail.symm ne
      · exact ⟨member, tail⟩
    · rintro ⟨member, tail⟩
      exact ⟨.inr ⟨member, fun same => ne
        (tail.symm.trans same.2.1)⟩, tail⟩

theorem touchesOnly_removed (wellFormed : service.WellFormed) (db : service.db = some table)
    (nonempty : entry.domainTail ≠ []) (deleteDone : Bool) : TouchesOnly entry.domainTail service
      (service.removed table entry deleteDone) where
  cache := by
    intro other entries ne kept
    simp only [removed] at kept
    rwa [wellFormed.cache.entriesOf_delCookie _ _ _ nonempty, if_neg ne] at kept
  rows := by
    intro other row ne
    rw [mem_rowsOf_removed, mem_rowsOf_of_db db]
    constructor
    · rintro ⟨⟨member, -⟩, tail⟩
      exact ⟨member, tail⟩
    · rintro ⟨member, tail⟩
      exact ⟨⟨member, fun same => ne (tail.symm.trans same.2.1)⟩, tail⟩

theorem distinct_getD_entriesOf (wellFormed : service.WellFormed) (domainTail : WString) :
    DistinctCookies ((service.cache.entriesOf domainTail).getD []) := by
  cases cached : service.cache.entriesOf domainTail with
  | none => exact .nil
  | some entries => exact wellFormed.distinct domainTail entries cached

theorem WellFormed.stored (wellFormed : service.WellFormed) (db : service.db = some table)
    (nonempty : entry.domainTail ≠ []) (insertDone : Bool) :
    (service.stored table entry insertDone).WellFormed := by
  refine (touchesOnly_stored wellFormed db nonempty insertDone).wellFormed
    wellFormed (wellFormed.cache.addCookie nonempty) ?_
  intro entries cached
  rw [CookieService.stored, wellFormed.cache.entriesOf_addCookie_self nonempty] at cached
  rw [← Option.some.inj cached]
  exact (distinct_getD_entriesOf wellFormed _).storeEntry entry

theorem WellFormed.removed (wellFormed : service.WellFormed) (db : service.db = some table)
    (nonempty : entry.domainTail ≠ []) (deleteDone : Bool) :
    (service.removed table entry deleteDone).WellFormed := by
  refine (touchesOnly_removed wellFormed db nonempty deleteDone).wellFormed
    wellFormed (wellFormed.cache.delCookie _ _ _ _) ?_
  intro entries cached
  rw [CookieService.removed,
    wellFormed.cache.entriesOf_delCookie _ _ _ nonempty, if_pos rfl] at cached
  obtain ⟨before, beforeCached, rfl⟩ := Option.map_eq_some_iff.1 cached
  exact (wellFormed.distinct _ before beforeCached).removeEntry _ _ _

/-- Storing a cookie keeps the cache coherent exactly when the row is in the
table afterwards and the tail was cached or has no row for another cookie. -/
theorem coherent_stored_iff (wellFormed : service.WellFormed) (coherent : service.Coherent)
    (db : service.db = some table) (nonempty : entry.domainTail ≠ []) (insertDone : Bool) :
    (service.stored table entry insertDone).Coherent ↔ (insertDone = true ∨ entry ∈ table.rows) ∧
        (service.cache.entriesOf entry.domainTail ≠ none ∨
          ∀ row ∈ table.rowsOf entry.domainTail, row.SameCookie entry) := by
  rw [(touchesOnly_stored wellFormed db nonempty insertDone).coherent_iff_mem
    coherent ((distinct_getD_entriesOf wellFormed _).storeEntry entry)
    (wellFormed.cache.entriesOf_addCookie_self nonempty)]
  simp only [mem_storeEntry (distinct_getD_entriesOf wellFormed _),
    mem_rowsOf_stored, CookieTable.mem_rowsOf]
  have uniqueRow (row : CookieEntry) (member : row ∈ table.rows)
      (entryMember : entry ∈ table.rows)
      (tail : row.domainTail = entry.domainTail)
      (same : row.SameCookie entry) : row = entry :=
    (table.distinct_rowsOf entry.domainTail).eq_of_sameCookie
      (CookieTable.mem_rowsOf.2 ⟨member, tail⟩)
      (CookieTable.mem_rowsOf.2 ⟨entryMember, rfl⟩) same
  cases cached : service.cache.entriesOf entry.domainTail with
  | some entries =>
    have cachedRows (row : CookieEntry) : row ∈ entries ↔
        row ∈ table.rows ∧ row.domainTail = entry.domainTail := by
      rw [← mem_rowsOf_of_db db]
      exact (coherent _ entries cached).mem_iff
    simp only [Option.getD_some, cachedRows, ne_eq, reduceCtorEq,
      not_false_eq_true, true_or, and_true]
    cases insertDone with
    | true =>
      simp only [true_and, true_or, iff_true, CookieEntry.SameRow]
      intro row
      constructor
      · rintro (rfl | ⟨⟨member, tail⟩, unlike⟩)
        · exact ⟨.inl rfl, rfl⟩
        · exact ⟨.inr ⟨member, fun same => unlike same.2⟩, tail⟩
      · rintro ⟨rfl | ⟨member, unlike⟩, tail⟩
        · exact .inl rfl
        · exact .inr ⟨⟨member, tail⟩, fun same => unlike ⟨tail, same⟩⟩
    | false =>
      simp only [Bool.false_eq_true, false_and, not_false_eq_true, and_true, false_or]
      constructor
      · intro agree
        exact ((agree entry).1 (.inl rfl)).1
      · intro entryMember row
        constructor
        · rintro (rfl | ⟨⟨member, tail⟩, -⟩)
          · exact ⟨entryMember, rfl⟩
          · exact ⟨member, tail⟩
        · rintro ⟨member, tail⟩
          by_cases same : row.SameCookie entry
          · exact .inl (uniqueRow row member entryMember tail same)
          · exact .inr ⟨⟨member, tail⟩, same⟩
  | none =>
    simp only [Option.getD_none, List.not_mem_nil, false_and, or_false,
      ne_eq, not_true_eq_false, false_or]
    cases insertDone with
    | true =>
      simp only [true_and, true_or, CookieEntry.SameRow]
      constructor
      · intro agree row ⟨member, tail⟩
        by_contra unlike
        have equal : row = entry := (agree row).2 ⟨.inr ⟨member, fun same => unlike same.2⟩, tail⟩
        exact unlike (equal ▸ ⟨rfl, rfl, rfl⟩)
      · intro alone row
        constructor
        · rintro rfl
          exact ⟨.inl rfl, rfl⟩
        · rintro ⟨rfl | ⟨member, unlike⟩, tail⟩
          · rfl
          · exact absurd ⟨tail, alone row ⟨member, tail⟩⟩ unlike
    | false =>
      simp only [Bool.false_eq_true, false_and, not_false_eq_true, and_true, false_or]
      constructor
      · intro agree
        refine ⟨((agree entry).1 rfl).1, fun row found => ?_⟩
        have equal : row = entry := (agree row).2 found
        exact equal ▸ ⟨rfl, rfl, rfl⟩
      · rintro ⟨entryMember, alone⟩ row
        constructor
        · rintro rfl
          exact ⟨entryMember, rfl⟩
        · rintro ⟨member, tail⟩
          exact uniqueRow row member entryMember tail
            (alone row ⟨member, tail⟩)

/-- Removing a cookie keeps the cache coherent exactly when the row leaves the
table, was not there, or its tail is not cached. -/
theorem coherent_removed_iff (wellFormed : service.WellFormed) (coherent : service.Coherent)
    (db : service.db = some table) (nonempty : entry.domainTail ≠ []) (deleteDone : Bool) :
    (service.removed table entry deleteDone).Coherent ↔
      deleteDone = true ∨ service.cache.entriesOf entry.domainTail = none ∨
        ∀ row ∈ table.rows, ¬row.SameRow entry := by
  have touches := touchesOnly_removed wellFormed db nonempty deleteDone
  have afterCached := wellFormed.cache.entriesOf_delCookie entry.domainHead
    entry.path entry.name nonempty entry.domainTail
  rw [if_pos rfl] at afterCached
  cases cached : service.cache.entriesOf entry.domainTail with
  | none =>
    rw [cached] at afterCached
    rw [touches.coherent_iff coherent]
    simp [removed, afterCached]
  | some entries =>
    have distinct := wellFormed.distinct _ entries cached
    have cachedRows (row : CookieEntry) : row ∈ entries ↔
        row ∈ table.rows ∧ row.domainTail = entry.domainTail := by
      rw [← mem_rowsOf_of_db db]
      exact (coherent _ entries cached).mem_iff
    rw [cached] at afterCached
    rw [touches.coherent_iff_mem coherent (distinct.removeEntry _ _ _) afterCached]
    simp only [mem_removeEntry distinct, mem_rowsOf_removed, cachedRows, reduceCtorEq, false_or]
    constructor
    · intro agree
      by_contra kept
      simp only [not_or, not_forall, not_not] at kept
      obtain ⟨notDone, row, member, same⟩ := kept
      have found := ((agree row).2
        ⟨⟨member, fun removed => notDone removed.1⟩, same.1⟩).2
      exact found same.2
    · rintro (rfl | absent) row
      · simp only [true_and, CookieEntry.SameRow]
        constructor
        · rintro ⟨⟨member, tail⟩, unlike⟩
          exact ⟨⟨member, fun same => unlike same.2⟩, tail⟩
        · rintro ⟨⟨member, unlike⟩, tail⟩
          exact ⟨⟨member, tail⟩, fun same => unlike ⟨tail, same⟩⟩
      · constructor
        · rintro ⟨⟨member, tail⟩, -⟩
          exact ⟨⟨member, fun same => absent row member same.2⟩, tail⟩
        · rintro ⟨⟨member, -⟩, tail⟩
          exact ⟨⟨member, tail⟩, fun same => absent row member ⟨tail, same⟩⟩

end OneCookie

/-! ## Lookups -/

section Rows

variable (query : Query)

theorem rowsLoop_cache (rows : List CookieEntry) (read : RowsRead) :
    (rowsLoop query read rows).cache =
      rows.foldl CookieLruCache.addCookie read.cache := by
  induction rows generalizing read with
  | nil => rfl
  | cons entry rest ih =>
    rw [rowsLoop]
    simp only [List.foldl_cons]
    split_ifs <;> rw [ih]

theorem rowsLoop_expiredCookies (rows : List CookieEntry) (read : RowsRead) :
    (rowsLoop query read rows).expiredCookies =
      read.expiredCookies ++ rows.filter query.dropped := by
  induction rows generalizing read with
  | nil => simp [rowsLoop]
  | cons entry rest ih =>
    rw [rowsLoop]
    simp only [List.filter_cons, Query.dropped]
    split_ifs <;> simp_all

end Rows

/-- Storing distinct cookies one after the other appends them. -/
theorem foldl_storeEntry (rows entries : List CookieEntry)
    (distinct : DistinctCookies (entries ++ rows)) :
    rows.foldl (fun entries entry => storeEntry entry entries) entries =
      entries ++ rows := by
  induction rows generalizing entries with
  | nil => simp
  | cons entry rest ih =>
    have appended : storeEntry entry entries = entries ++ [entry] := by
      have unlike : ∀ old ∈ entries, ¬old.SameCookie entry :=
        fun old member => (List.pairwise_append.1 distinct).2.2 old member
          entry (.head _)
      clear ih distinct
      induction entries with
      | nil => rfl
      | cons first entries ih =>
        rw [storeEntry, if_neg (unlike first List.mem_cons_self),
          ih fun old member => unlike old (.tail _ member)]
        rfl
    rw [List.foldl_cons, appended, ih]
    · simp
    · simpa using distinct

section Tail

variable {cache : CookieLruCache} {domainTail : WString}

/-- Caching the rows of one tail. -/
theorem foldl_addCookie (wellFormed : cache.WellFormed) (nonempty : domainTail ≠ [])
    (rows : List CookieEntry) (tails : ∀ row ∈ rows, row.domainTail = domainTail) :
    (rows.foldl CookieLruCache.addCookie cache).WellFormed ∧ (∀ other entries, other ≠ domainTail →
        (rows.foldl CookieLruCache.addCookie cache).entriesOf other = some entries →
          cache.entriesOf other = some entries) ∧
      (rows ≠ [] → (rows.foldl CookieLruCache.addCookie cache).entriesOf domainTail =
          some (rows.foldl (fun entries entry => storeEntry entry entries)
            ((cache.entriesOf domainTail).getD []))) := by
  induction rows generalizing cache with
  | nil =>
    exact ⟨wellFormed, fun _ _ _ kept => kept,
      fun nonempty => (nonempty rfl).elim⟩
  | cons row rest ih =>
    have tail : row.domainTail = domainTail := tails row (.head _)
    subst tail
    obtain ⟨later, others, here⟩ := ih
      (wellFormed.addCookie nonempty)
      fun other member => tails other (.tail _ member)
    have added := wellFormed.entriesOf_addCookie_self nonempty
    refine ⟨later, fun other entries ne kept =>
      wellFormed.entriesOf_of_addCookie nonempty ne
        (others other entries ne kept), fun _ => ?_⟩
    rw [List.foldl_cons, List.foldl_cons]
    cases rest with
    | nil => exact added
    | cons next rest => rw [here (List.cons_ne_nil _ _), added, Option.getD_some]

/-- Uncaching cookies of one tail. -/
theorem uncacheExpired_spec (wellFormed : cache.WellFormed) (nonempty : domainTail ≠ [])
    (expired : List CookieEntry) (tails : ∀ row ∈ expired, row.domainTail = domainTail) :
    (uncacheExpired cache expired).WellFormed ∧ (∀ other, other ≠ domainTail →
        (uncacheExpired cache expired).entriesOf other = cache.entriesOf other) ∧
      (uncacheExpired cache expired).entriesOf domainTail =
        (cache.entriesOf domainTail).map fun entries =>
          expired.foldl (fun entries entry =>
            removeEntry entry.domainHead entry.path entry.name entries)
            entries := by
  induction expired generalizing cache with
  | nil => exact ⟨wellFormed, fun _ _ => rfl, by simp [uncacheExpired]⟩
  | cons row rest ih =>
    have tail : row.domainTail = domainTail := tails row (.head _)
    subst tail
    have uncached := wellFormed.delCookie row.domainHead row.domainTail
      row.path row.name
    have spec := wellFormed.entriesOf_delCookie row.domainHead row.path
      row.name nonempty
    obtain ⟨later, others, here⟩ := ih uncached
      fun other member => tails other (.tail _ member)
    rw [uncacheExpired, List.foldl_cons, ← uncacheExpired]
    refine ⟨later, fun other ne => ?_, ?_⟩
    · rw [others other ne, spec, if_neg ne]
    · rw [here, spec, if_pos rfl, Option.map_map]
      rfl

variable (expired : List CookieEntry)

theorem mem_foldl_removeEntry {entries : List CookieEntry} (distinct : DistinctCookies entries)
    {entry : CookieEntry} : entry ∈ expired.foldl (fun entries entry =>
        removeEntry entry.domainHead entry.path entry.name entries) entries ↔
      entry ∈ entries ∧ ∀ old ∈ expired, ¬entry.SameCookie old := by
  induction expired generalizing entries with
  | nil => simp
  | cons old rest ih =>
    rw [List.foldl_cons, ih (distinct.removeEntry _ _ _),
      mem_removeEntry distinct, List.forall_mem_cons, and_assoc]
    rfl

theorem distinct_foldl_removeEntry {entries : List CookieEntry}
    (distinct : DistinctCookies entries) : DistinctCookies (expired.foldl (fun entries entry =>
      removeEntry entry.domainHead entry.path entry.name entries)
      entries) := by
  induction expired generalizing entries with
  | nil => exact distinct
  | cons old rest ih => exact ih (distinct.removeEntry _ _ _)

/-- The statement for an expired cookie deletes the row in which its path and
its name stand in each other's column. -/
def ExchangedRow (expired row : CookieEntry) : Prop :=
  row.domainTail = expired.domainTail ∧ row.domainHead = expired.domainHead ∧
    row.name = expired.path ∧ row.path = expired.name

instance (expired row : CookieEntry) : Decidable (ExchangedRow expired row) :=
  inferInstanceAs (Decidable (_ ∧ _ ∧ _ ∧ _))

theorem mem_deleteExpired (table : CookieTable) {row : CookieEntry} :
    row ∈ (deleteExpired table expired).rows ↔
      row ∈ table.rows ∧ ∀ old ∈ expired, ¬ExchangedRow old row := by
  induction expired generalizing table with
  | nil => simp [deleteExpired]
  | cons old rest ih =>
    rw [deleteExpired, List.foldl_cons, ← deleteExpired, ih, CookieTable.deleteCookie,
      CookieTable.mem_rows_delete, List.forall_mem_cons, and_assoc]
    simp only [ExchangedRow, decide_eq_false_iff_not]

end Tail

section Lookup

variable
  {service : CookieService} {table : CookieTable} {query : Query}
  {outcome : SqlOutcome}

theorem delivered_sublist (outcome : SqlOutcome) (rows : List CookieEntry) :
    (outcome.delivered rows).Sublist rows := by
  unfold SqlOutcome.delivered
  split
  · exact .refl _
  · exact List.take_sublist _ _

/-- What the database path leaves in the cache: the delivered rows that have
not expired, under the tail of the host. -/
theorem lookupRows_cache (table : CookieTable) (outcome : SqlOutcome)
    (wellFormed : service.WellFormed) (nonempty : query.hostTail ≠ [])
    (uncached : service.cache.entriesOf query.hostTail = none) :
    let after := (lookupRows query table service.cache outcome).2
    let delivered := outcome.delivered (table.select query.hostTail)
    after.cache.WellFormed ∧ (∀ other entries, other ≠ query.hostTail →
        after.cache.entriesOf other = some entries → service.cache.entriesOf other = some entries) ∧
      ∃ entries, after.cache.entriesOf query.hostTail = some entries ∧ DistinctCookies entries ∧
        ∀ entry, entry ∈ entries ↔
          entry ∈ delivered ∧ query.dropped entry = false := by
  intro after delivered
  have distinct : DistinctCookies delivered :=
    (table.distinct_select query.hostTail).sublist (delivered_sublist _ _)
  have tails : ∀ row ∈ delivered, row.domainTail = query.hostTail :=
    fun row member => (CookieTable.mem_select.1 ((delivered_sublist _ _).subset member)).2
  have expiredTails : ∀ row ∈ delivered.filter query.dropped, row.domainTail = query.hostTail :=
    fun row member => tails row (List.mem_of_mem_filter member)
  obtain ⟨filled, fillOthers, fillHere⟩ := foldl_addCookie wellFormed.cache nonempty delivered tails
  obtain ⟨cleaned, cleanOthers, cleanHere⟩ :=
    uncacheExpired_spec filled nonempty (delivered.filter query.dropped)
      expiredTails
  have after_cache : after.cache =
      if delivered.isEmpty then
        (uncacheExpired (delivered.foldl CookieLruCache.addCookie service.cache)
          (delivered.filter query.dropped)).addDummyCookieEntrySet
            query.hostTail
      else
        uncacheExpired (delivered.foldl CookieLruCache.addCookie service.cache)
          (delivered.filter query.dropped) := by
    simp only [after, lookupRows, rowsLoop_cache, rowsLoop_expiredCookies, List.nil_append]
    rfl
  rw [after_cache]
  by_cases none : delivered = []
  · simp only [none, List.isEmpty_nil, if_true]
    rw [none] at cleaned cleanOthers cleanHere fillOthers
    have cleanUncached : (uncacheExpired (([] : List CookieEntry).foldl CookieLruCache.addCookie
        service.cache) (([] : List CookieEntry).filter query.dropped)).entriesOf
          query.hostTail = Option.none := by
      rw [cleanHere, List.foldl_nil, uncached, Option.map_none]
    refine ⟨cleaned.addDummyCookieEntrySet nonempty,
      fun other entries ne kept => ?_, [], ?_, .nil,
      by simp⟩
    · have before := cleaned.entriesOf_of_addDummyCookieEntrySet nonempty
        ne kept
      rwa [cleanOthers other ne] at before
    · rw [cleaned.entriesOf_addDummyCookieEntrySet_self nonempty, cleanUncached, Option.getD_none]
  · rw [if_neg (by simpa using none)]
    have filledHere := fillHere none
    rw [uncached, Option.getD_none, foldl_storeEntry delivered [] (by simpa using distinct),
      List.nil_append] at filledHere
    rw [filledHere, Option.map_some] at cleanHere
    refine ⟨cleaned, fun other entries ne kept =>
      fillOthers other entries ne
        (by rwa [cleanOthers other ne] at kept),
      _, cleanHere, distinct_foldl_removeEntry _ distinct, fun entry => ?_⟩
    rw [mem_foldl_removeEntry _ distinct]
    constructor
    · rintro ⟨member, kept⟩
      refine ⟨member, ?_⟩
      by_contra isDropped
      exact kept entry
        (List.mem_filter.2 ⟨member, by simpa using isDropped⟩)
        ⟨rfl, rfl, rfl⟩
    · rintro ⟨member, notDropped⟩
      refine ⟨member, fun old oldMember same => ?_⟩
      obtain ⟨oldDelivered, oldDropped⟩ := List.mem_filter.1 oldMember
      rw [distinct.eq_of_sameCookie member oldDelivered same, oldDropped] at notDropped
      exact Bool.noConfusion notDropped

theorem mem_rowsOf_lookupRows {domainTail : WString} {row : CookieEntry} :
    row ∈ (lookupRows query table service.cache outcome).2.rowsOf domainTail ↔ (row ∈ table.rows ∧
        ¬(outcome.deleteDone = true ∧ ∃ old ∈ outcome.delivered (table.select query.hostTail),
            query.dropped old = true ∧ ExchangedRow old row)) ∧
        row.domainTail = domainTail := by
  rw [mem_rowsOf_of_db rfl]
  simp only [rowsLoop_expiredCookies, List.nil_append]
  cases outcome.deleteDone with
  | false => simp
  | true =>
    simp only [if_true, mem_deleteExpired, List.mem_filter, true_and, not_exists, not_and, and_imp]

theorem touchesOnly_lookupRows (wellFormed : service.WellFormed) (db : service.db = some table)
    (nonempty : query.hostTail ≠ []) (uncached : service.cache.entriesOf query.hostTail = none) :
    TouchesOnly query.hostTail service
      (lookupRows query table service.cache outcome).2 where
  cache := (lookupRows_cache table outcome wellFormed nonempty uncached).2.1
  rows := by
    intro other row ne
    rw [mem_rowsOf_lookupRows, mem_rowsOf_of_db db]
    constructor
    · rintro ⟨⟨member, -⟩, tail⟩
      exact ⟨member, tail⟩
    · rintro ⟨member, tail⟩
      refine ⟨⟨member, ?_⟩, tail⟩
      rintro ⟨-, old, oldMember, -, exchanged⟩
      have oldTail := (CookieTable.mem_select.1 ((delivered_sublist _ _).subset oldMember)).2
      exact ne (tail.symm.trans (exchanged.1.trans oldTail))

theorem WellFormed.lookupRows (wellFormed : service.WellFormed) (db : service.db = some table)
    (nonempty : query.hostTail ≠ []) (uncached : service.cache.entriesOf query.hostTail = none) :
    (lookupRows query table service.cache outcome).2.WellFormed := by
  obtain ⟨cache, -, entries, cached, distinct, -⟩ :=
    lookupRows_cache table outcome wellFormed nonempty uncached
  refine (touchesOnly_lookupRows wellFormed db nonempty uncached).wellFormed
    wellFormed cache ?_
  intro found foundCached
  rw [cached] at foundCached
  exact Option.some.inj foundCached ▸ distinct

/-- A lookup in the database keeps the cache coherent exactly when the rows
it delivers unexpired are the rows that its `DELETE`s leave. -/
theorem coherent_lookupRows_iff (wellFormed : service.WellFormed) (coherent : service.Coherent)
    (db : service.db = some table) (nonempty : query.hostTail ≠ [])
    (uncached : service.cache.entriesOf query.hostTail = none) :
    (lookupRows query table service.cache outcome).2.Coherent ↔ ∀ row ∈ table.rowsOf query.hostTail,
        (row ∈ outcome.delivered (table.select query.hostTail) ∧ query.dropped row = false) ↔
          ¬(outcome.deleteDone = true ∧ ∃ old ∈ outcome.delivered (table.select query.hostTail),
              query.dropped old = true ∧ ExchangedRow old row) := by
  obtain ⟨-, -, entries, cached, distinct, mem_entries⟩ :=
    lookupRows_cache table outcome wellFormed nonempty uncached
  rw [(touchesOnly_lookupRows wellFormed db nonempty uncached).coherent_iff_mem
    coherent distinct cached]
  simp only [mem_entries, mem_rowsOf_lookupRows, CookieTable.mem_rowsOf]
  constructor
  · rintro agree row ⟨member, tail⟩
    rw [agree row]
    exact ⟨fun found => found.1.2, fun kept => ⟨⟨member, kept⟩, tail⟩⟩
  · intro agree row
    constructor
    · rintro ⟨delivered, notDropped⟩
      have found := CookieTable.mem_select.1
        ((delivered_sublist _ _).subset delivered)
      exact ⟨⟨found.1, (agree row found).1 ⟨delivered, notDropped⟩⟩, found.2⟩
    · rintro ⟨⟨member, kept⟩, tail⟩
      exact (agree row ⟨member, tail⟩).2 kept

end Lookup

/-! ## Runs -/

/-- The condition under which an operation keeps the cache coherent.

* A stored cookie must be in the table afterwards, and its tail must be cached
  already or have no row for another cookie.
* A removed cookie must leave the table, unless its tail is not cached or the
  table has no row for it.
* A lookup in the database must deliver and find unexpired exactly the rows
  that survive its `DELETE`s, which exchange path and name. -/
def KeepsCoherent (parseDate : WString → Int) (service : CookieService) : Operation → Prop
  | .setCookies url cookieStr appId now outcome =>
    ∀ table, service.db = some table →
      ∀ parsed, parseCookie parseDate now (cookieStr.take maxCookieLen) url = some parsed →
        let entry := parsed.entry appId
        if entry.expires ≠ -1 ∧ entry.expires ≤ now then
          outcome.deleteDone = true ∨ service.cache.entriesOf entry.domainTail = none ∨
            ∀ row ∈ table.rows, ¬row.SameRow entry
        else
          (outcome.insertDone = true ∨ entry ∈ table.rows) ∧
            (service.cache.entriesOf entry.domainTail ≠ none ∨
              ∀ row ∈ table.rowsOf entry.domainTail, row.SameCookie entry)
  | .cookies url appId now outcome =>
    ∀ table, service.db = some table → ∀ query, queryFor url appId now = some query →
        service.cache.entriesOf query.hostTail = none →
          let delivered := outcome.delivered (table.select query.hostTail)
          ∀ row ∈ table.rowsOf query.hostTail, (row ∈ delivered ∧ query.dropped row = false) ↔
              ¬(outcome.deleteDone = true ∧ ∃ old ∈ delivered,
                  query.dropped old = true ∧ ExchangedRow old row)
  | _ => True

theorem entry_domainTail_ne_nil {parseDate : WString → Int} {now : Int} {cookieStr appId : WString}
    {url : KURL} {parsed : ParsedCookie}
    (accepted : parseCookie parseDate now cookieStr url = some parsed) :
    (parsed.entry appId).domainTail ≠ [] := by
  have long := two_le_length_of_hasEmbeddedDot
    (parseCookie_domain parseDate now accepted).1
  have tail := drop_secondDot_ne_nil long
  exact List.append_ne_nil_of_left_ne_nil tail appId

theorem hostTail_queryFor_ne_nil {url : KURL} {appId : WString} {now : Int} {query : Query}
    (asked : queryFor url appId now = some query) : query.hostTail ≠ [] := by
  unfold queryFor at asked
  simp only at asked
  split_ifs at asked with hasHost
  all_goals
    simp only [Bool.or_eq_true, not_or, List.isEmpty_iff] at *
    cases asked
    exact List.append_ne_nil_of_left_ne_nil
      (Cookie.hostTail_ne_nil (by tauto)) _

section Steps

variable {parseDate : WString → Int} {service : CookieService}

/-- The case split of `setCookies`: no table, no cookie, or one operation on
the entry of the cookie. -/
theorem setCookies_cases (parseDate : WString → Int) (url : KURL) (cookieStr appId : WString)
    (now : Int) (outcome : SqlOutcome) :
    (service.setCookies parseDate url cookieStr appId now outcome = service ∧
      ∀ table, service.db = some table →
        parseCookie parseDate now (cookieStr.take maxCookieLen) url = none) ∨
    ∃ table parsed, service.db = some table ∧
      parseCookie parseDate now (cookieStr.take maxCookieLen) url = some parsed ∧
      service.setCookies parseDate url cookieStr appId now outcome =
        if (parsed.entry appId).expires ≠ -1 ∧ (parsed.entry appId).expires ≤ now then
          service.removed table (parsed.entry appId) outcome.deleteDone
        else
          service.stored table (parsed.entry appId) outcome.insertDone := by
  unfold setCookies
  cases db : service.db with
  | none => simp
  | some table =>
    cases accepted : parseCookie parseDate now
      (cookieStr.take maxCookieLen) url with
    | none => simp
    | some parsed => exact .inr ⟨table, parsed, rfl, rfl, rfl⟩

/-- The case split of `cookies`: nothing to look up, a cached tail, or a
lookup in the table. -/
theorem cookies_cases (wellFormed : service.WellFormed) (url : KURL) (appId : WString) (now : Int)
    (outcome : SqlOutcome) : (service.cookies url appId now outcome = ([], service) ∧
      ∀ table, service.db = some table → queryFor url appId now = none) ∨
    ∃ table query, service.db = some table ∧ queryFor url appId now = some query ∧
      ((∃ entries, service.cache.entriesOf query.hostTail = some entries ∧
          service.cookies url appId now outcome = (cachedLoop query [] entries, { service with
                cache := (service.cache.cookieEntrySet query.hostTail).2 })) ∨
        (service.cache.entriesOf query.hostTail = none ∧ service.cookies url appId now outcome =
            lookupRows query table service.cache outcome)) := by
  unfold cookies
  cases db : service.db with
  | none => simp
  | some table =>
    cases asked : queryFor url appId now with
    | none => simp
    | some query =>
      refine .inr ⟨table, query, rfl, rfl, ?_⟩
      have nonempty := hostTail_queryFor_ne_nil asked
      have found := wellFormed.cache.cookieEntrySet_entries nonempty
      have missed : (service.cache.cookieEntrySet query.hostTail).1 = none →
          (service.cache.cookieEntrySet query.hostTail).2 =
            service.cache := by
        unfold CookieLruCache.cookieEntrySet
        split_ifs
        · simp
        · split <;> simp
      rcases lookup : service.cache.cookieEntrySet query.hostTail with
        ⟨entrySet, cache⟩
      rw [lookup] at found missed
      cases entrySet with
      | none =>
        have unchanged : cache = service.cache := missed rfl
        exact .inr ⟨found.symm, by simp [lookup, unchanged]⟩
      | some entrySet => exact .inl ⟨entrySet.entries, found.symm, by simp [lookup]⟩

theorem WellFormed.step (wellFormed : service.WellFormed) (op : Operation) :
    (service.step parseDate op).WellFormed := by
  cases op with
  | setCookies url cookieStr appId now outcome =>
    simp only [CookieService.step]
    rcases setCookies_cases parseDate url cookieStr appId now outcome with ⟨same, -⟩ | ⟨table, parsed, db, accepted, next⟩
    · rw [same]
      exact wellFormed
    · rw [next]
      have nonempty := @entry_domainTail_ne_nil _ _ _ appId _ _ accepted
      split_ifs
      · exact wellFormed.removed db nonempty _
      · exact wellFormed.stored db nonempty _
  | cookies url appId now outcome =>
    simp only [CookieService.step]
    rcases cookies_cases wellFormed url appId now outcome with
      ⟨same, -⟩ | ⟨table, query, db, asked, ⟨entries, -, next⟩ | ⟨uncached, next⟩⟩
    · rw [same]
      exact wellFormed
    · rw [next]
      exact
        { cache := wellFormed.cache.cookieEntrySet _
          distinct := fun domainTail entries cached =>
            wellFormed.distinct domainTail entries
              (by rwa [wellFormed.cache.entriesOf_cookieEntrySet] at cached) }
    · rw [next]
      exact wellFormed.lookupRows db (hostTail_queryFor_ne_nil asked) uncached
  | clear runningInBrowserServer found => exact .of_clear wellFormed.cache _
  | clearForDomain url outcome =>
    simp only [CookieService.step, clearForDomain]
    split
    · exact wellFormed
    · split_ifs
      · exact wellFormed
      all_goals exact .of_clear wellFormed.cache _
  | copyCookiesToDomain srcUrl dstUrl outcome =>
    simp only [CookieService.step, copyCookiesToDomain]
    split
    · exact wellFormed
    · split_ifs
      · exact wellFormed
      all_goals
        split
        · exact .of_clear wellFormed.cache _
        · exact wellFormed

/-- From a coherent state, an operation keeps the cache coherent exactly when
its condition holds. -/
theorem coherent_step_iff (wellFormed : service.WellFormed) (coherent : service.Coherent)
    (op : Operation) : (service.step parseDate op).Coherent ↔
      KeepsCoherent parseDate service op := by
  cases op with
  | setCookies url cookieStr appId now outcome =>
    simp only [CookieService.step, KeepsCoherent]
    rcases setCookies_cases parseDate url cookieStr appId now outcome with
      ⟨same, refused⟩ | ⟨table, parsed, db, accepted, next⟩
    · rw [same]
      refine iff_of_true coherent fun table db parsed accepted => ?_
      rw [refused table db] at accepted
      cases accepted
    · rw [next]
      have nonempty := @entry_domainTail_ne_nil _ _ _ appId _ _ accepted
      simp only [db, accepted, Option.some.injEq, forall_eq']
      split_ifs
      · exact coherent_removed_iff wellFormed coherent db nonempty _
      · exact coherent_stored_iff wellFormed coherent db nonempty _
  | cookies url appId now outcome =>
    simp only [CookieService.step, KeepsCoherent]
    rcases cookies_cases wellFormed url appId now outcome with
      ⟨same, notAsked⟩ |
        ⟨table, query, db, asked, ⟨entries, cached, next⟩ | ⟨uncached, next⟩⟩
    · rw [same]
      refine iff_of_true coherent fun table db query asked => ?_
      rw [notAsked table db] at asked
      cases asked
    · rw [next]
      refine iff_of_true ?_ ?_
      · intro domainTail found
        rw [wellFormed.cache.entriesOf_cookieEntrySet]
        exact coherent domainTail found
      · intro _ _ query' asked' uncached
        rw [asked] at asked'
        cases asked'
        rw [cached] at uncached
        cases uncached
    · rw [next, coherent_lookupRows_iff wellFormed coherent db
        (hostTail_queryFor_ne_nil asked) uncached]
      simp only [db, asked, Option.some.injEq, forall_eq', uncached, forall_const]
  | clear runningInBrowserServer found => exact iff_of_true (coherent_of_clear _ _) trivial
  | clearForDomain url outcome =>
    refine iff_of_true ?_ trivial
    simp only [CookieService.step, clearForDomain]
    split
    · exact coherent
    · split_ifs
      · exact coherent
      all_goals exact coherent_of_clear _ _
  | copyCookiesToDomain srcUrl dstUrl outcome =>
    refine iff_of_true ?_ trivial
    simp only [CookieService.step, copyCookiesToDomain]
    split
    · exact coherent
    · split_ifs
      · exact coherent
      all_goals
        split
        · exact coherent_of_clear _ _
        · exact coherent

end Steps

/-- In a run from a fresh service every state is coherent exactly when every
operation meets the condition for it. -/
theorem coherent_run_iff (parseDate : WString → Int) (db : Option CookieTable) (maxCount : Nat)
    (ops : List Operation) :
    (∀ reached ∈ Runs.visited (step parseDate) (start db maxCount) ops, reached.Coherent) ↔
      Runs.StepsMeet (step parseDate) (KeepsCoherent parseDate)
        (start db maxCount) ops :=
  Runs.visited_iff_stepsMeet
    (fun _ op wellFormed => wellFormed.step op)
    (fun _ op wellFormed coherent => coherent_step_iff wellFormed coherent op)
    ops (WellFormed.start db maxCount) (Coherent.start db maxCount)

/-- One stored row, `x=1` for `.a.b`. -/
def tableOfOne : CookieTable :=
  CookieTable.empty.insert
    { domainHead := WString.lit "."
      domainTail := WString.lit "a.b"
      path := WString.lit "/"
      name := WString.lit "x"
      value := WString.lit "1"
      expires := -1
      isSecure := false }

/-- A `setCookies` of `y=2` on the uncached tail `a.b` caches it alone and
hides the row of `x`. -/
theorem partial_set_incoherent :
    ¬∀ (parseDate : WString → Int) (db : Option CookieTable) (maxCount : Nat)
      (ops : List Operation),
      ∀ reached ∈
          Runs.visited (step parseDate) (start db maxCount) ops,
        reached.Coherent := by
  intro coherent
  have reached := coherent (fun _ => -1) (some tableOfOne) 10
    [.setCookies
      { protocol := WString.lit "http"
        host := WString.lit "a.b"
        port := 0
        path := WString.lit "/" }
      (WString.lit "y=2; domain=.a.b") [] 0 .success]
    _ (Runs.final_mem_visited _ _)
  have here := reached (WString.lit "a.b") _ rfl
  exact absurd here.length_eq (by decide)

end CookieService
end Cookie
end PalmWebKit
