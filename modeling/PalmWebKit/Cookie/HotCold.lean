import PalmWebKit.Logic.StableOrder
import PalmWebKit.Cookie.Service

/-!
# Lookups from the cache and from the database

A lookup renders the cookies that pass its tests, from the cached set in the
order of that set, or from the rows in the order of the query.  On the same
cookies the two agree exactly when the cached set stands in query order and no
rendered cookie is nameless.
-/

namespace PalmWebKit
namespace Cookie

open List WString

instance : Std.Total OrderedBefore where
  total first second := by
    unfold OrderedBefore
    omega

instance : IsTrans CookieEntry OrderedBefore where
  trans first second third := by
    unfold OrderedBefore
    omega

/-! ## What the two loops render -/

section Loops

variable (query : Query)

theorem cachedLoop_eq_foldl (entries : List CookieEntry) (cookieStr : WString) :
    cachedLoop query cookieStr entries =
      (entries.filter query.selected).foldl appendCached cookieStr := by
  induction entries generalizing cookieStr with
  | nil => rfl
  | cons entry rest ih =>
    rw [cachedLoop]
    simp only [filter_cons, Query.selected]
    split_ifs <;> simp_all

theorem rowsLoop_cookieStr (rows : List CookieEntry) (read : RowsRead) :
    (rowsLoop query read rows).cookieStr =
      (rows.filter query.selected).foldl appendRow read.cookieStr := by
  induction rows generalizing read with
  | nil => rfl
  | cons entry rest ih =>
    rw [rowsLoop]
    simp only [filter_cons, Query.selected]
    split_ifs <;> simp_all

end Loops

/-! ## The two renderings -/

theorem appendCached_eq_appendRow {entry : CookieEntry} (named : entry.name ≠ [])
    (cookieStr : WString) : appendCached cookieStr entry = appendRow cookieStr entry := by
  simp [appendCached, appendRow, named]

/-- The row rendering of a cookie stays ahead of the cached one, by one more
unit for a nameless cookie. -/
theorem length_appendCached_le {short long : WString} {slack : Nat}
    (ahead : short.length + slack ≤ long.length) (entry : CookieEntry) :
    (appendCached short entry).length + (slack + if entry.name = [] then 1 else 0) ≤
      (appendRow long entry).length := by
  have separated : (addSeparator short).length + slack ≤ (addSeparator long).length := by
    unfold addSeparator
    by_cases longEmpty : long = []
    · have shortEmpty : short = [] := by
        refine length_eq_zero_iff.1 ?_
        rw [longEmpty, length_nil] at ahead
        omega
      simpa [longEmpty, shortEmpty] using ahead
    · split_ifs
      all_goals
        simp only [length_append]
        omega
  have oneUnit : (lit "=").length = 1 := rfl
  by_cases nameless : entry.name = []
  · simp only [appendCached, appendRow, nameless, length_append,
      if_true, ne_eq, not_true_eq_false, if_false, oneUnit, length_nil]
    omega
  · simp only [appendCached, appendRow, nameless, length_append,
      ne_eq, not_false_eq_true, if_true, if_false, oneUnit]
    omega

theorem length_foldl_appendCached_le (entries : List CookieEntry) {short long : WString}
    {slack : Nat} (ahead : short.length + slack ≤ long.length) :
    (entries.foldl appendCached short).length +
        (slack + entries.countP fun entry => entry.name = []) ≤
      (entries.foldl appendRow long).length := by
  induction entries generalizing short long slack with
  | nil => exact ahead
  | cons entry rest ih =>
    have next := ih (length_appendCached_le ahead entry)
    rw [foldl_cons, foldl_cons, countP_cons]
    simp only [decide_eq_true_eq]
    omega

/-- The renderings of one list agree exactly when every cookie has a name. -/
theorem foldl_appendCached_eq_iff (entries : List CookieEntry) :
    entries.foldl appendCached [] = entries.foldl appendRow [] ↔
      ∀ entry ∈ entries, entry.name ≠ [] := by
  constructor
  · intro same entry member nameless
    have ahead := @length_foldl_appendCached_le entries [] [] 0 (Nat.le_refl 0)
    have counted : 0 < entries.countP fun entry => entry.name = [] :=
      countP_pos_iff.2 ⟨entry, member, decide_eq_true nameless⟩
    rw [same] at ahead
    omega
  · intro named
    exact foldl_ext _ _ _ fun cookieStr entry member =>
      appendCached_eq_appendRow (named entry member) cookieStr

/-! ## Lookups -/

namespace CookieService

/-- The stored cookies in the order a lookup goes through them: the cached set
when there is one, else the rows that the query delivers. -/
def searched (service : CookieService) (table : CookieTable) (query : Query)
    (outcome : SqlOutcome) : List CookieEntry :=
  match (service.cache.cookieEntrySet query.hostTail).1 with
  | some entrySet => entrySet.entries
  | none => outcome.delivered (table.select query.hostTail)

/-- The cookies a lookup sends, in order. -/
def sent (service : CookieService) (url : KURL) (appId : WString) (now : Int)
    (outcome : SqlOutcome) : List CookieEntry :=
  match service.db, queryFor url appId now with
  | some table, some query => (service.searched table query outcome).filter query.selected
  | _, _ => []

/-- The tail of a URL is cached. -/
def IsHot (service : CookieService) (url : KURL) (appId : WString) (now : Int) : Prop :=
  ∃ query, queryFor url appId now = some query ∧
    (service.cache.cookieEntrySet query.hostTail).1.isSome

theorem cookies_of_isHot {service : CookieService} {url : KURL} {appId : WString} {now : Int}
    (hot : service.IsHot url appId now) (outcome : SqlOutcome) :
    (service.cookies url appId now outcome).1 =
      (service.sent url appId now outcome).foldl appendCached [] := by
  obtain ⟨query, asked, found⟩ := hot
  obtain ⟨entrySet, found⟩ := Option.isSome_iff_exists.1 found
  unfold cookies sent searched
  cases service.db with
  | none => rfl
  | some table => simp only [asked, found, cachedLoop_eq_foldl]

theorem cookies_of_not_isHot {service : CookieService} {url : KURL} {appId : WString} {now : Int}
    (cold : ¬service.IsHot url appId now) (outcome : SqlOutcome) :
    (service.cookies url appId now outcome).1 =
      (service.sent url appId now outcome).foldl appendRow [] := by
  unfold cookies sent searched
  cases service.db with
  | none => rfl
  | some table =>
    cases asked : queryFor url appId now with
    | none => rfl
    | some query =>
      have missed : (service.cache.cookieEntrySet query.hostTail).1 =
          none := by
        by_contra found
        exact cold ⟨query, asked, Option.isSome_iff_ne_none.2 found⟩
      simp only [missed, lookupRows, rowsLoop_cookieStr]

/-- Both lookups find the cookies of one table: the hot one in the cached set,
the cold one in the rows. -/
structure SameContents (hot cold : CookieService) (url : KURL) (appId : WString)
    (now : Int) : Prop where
  table : hot.db = cold.db
  isHot : hot.IsHot url appId now
  isCold : ¬cold.IsHot url appId now
  rows : ∀ table query, hot.db = some table → queryFor url appId now = some query →
      (hot.searched table query .success).Perm (table.rowsOf query.hostTail)

/-- The two lookups send the same cookies in the same order and render them
alike. -/
def LookupsAgree (hot cold : CookieService) (url : KURL) (appId : WString) (now : Int) : Prop :=
  hot.sent url appId now .success = cold.sent url appId now .success ∧
    (hot.cookies url appId now .success).1 = (cold.cookies url appId now .success).1

/-- The cached cookies that pass the tests of a lookup have names and stand in
the order of the query: longer heads and then longer paths first, ties as in
the table. -/
def CachedInQueryOrder (hot : CookieService) (url : KURL) (appId : WString) (now : Int) : Prop :=
  ∀ table query, hot.db = some table → queryFor url appId now = some query →
    ((hot.searched table query .success).filter query.selected).Pairwise
        (StableOrder.StablyBefore OrderedBefore (table.rowsOf query.hostTail)) ∧
      ∀ entry ∈ hot.searched table query .success, query.selected entry = true → entry.name ≠ []

/-- A hot and a cold lookup of the same contents agree exactly when the cached
set stands in query order and holds no nameless cookie to send. -/
theorem lookupsAgree_iff {hot cold : CookieService} {url : KURL} {appId : WString} {now : Int}
    (same : SameContents hot cold url appId now) : LookupsAgree hot cold url appId now ↔
      CachedInQueryOrder hot url appId now := by
  rw [LookupsAgree, cookies_of_isHot same.isHot, cookies_of_not_isHot same.isCold]
  have rendered : ∀ entries entries' : List CookieEntry, (entries = entries' ∧
          entries.foldl appendCached [] = entries'.foldl appendRow []) ↔
        entries = entries' ∧ ∀ entry ∈ entries, entry.name ≠ [] := by
    intro entries entries'
    constructor
    · rintro ⟨rfl, rendering⟩
      exact ⟨rfl, (foldl_appendCached_eq_iff _).1 rendering⟩
    · rintro ⟨rfl, named⟩
      exact ⟨rfl, (foldl_appendCached_eq_iff _).2 named⟩
  rw [rendered]
  obtain ⟨query, asked, -⟩ := same.isHot
  have rows := same.rows
  have coldMissed : (cold.cache.cookieEntrySet query.hostTail).1 = none := by
    by_contra found
    exact same.isCold ⟨query, asked, Option.isSome_iff_ne_none.2 found⟩
  unfold CachedInQueryOrder sent
  rw [← same.table, asked]
  cases db : hot.db with
  | none => simp
  | some table =>
    have coldSearched : cold.searched table query .success =
        (table.rowsOf query.hostTail).insertionSort OrderedBefore := by
      rw [searched, coldMissed]
      rfl
    simp only [Option.some.injEq, coldSearched]
    rw [StableOrder.filter_eq_filter_insertionSort_iff
      (table.distinct_rowsOf query.hostTail).nodup (rows table query db asked)]
    simp only [mem_filter, and_imp]
    constructor
    · rintro inOrder _ _ rfl rfl
      exact inOrder
    · intro inOrder
      exact inOrder table query rfl rfl

section Example

theorem not_isHot_start (db : Option CookieTable) (maxCount : Nat) (url : KURL) (appId : WString)
    (now : Int) : ¬(start db maxCount).IsHot url appId now := by
  rintro ⟨query, -, found⟩
  simp [start, CookieLruCache.create, CookieLruCache.cookieEntrySet, CookieLruCache.get] at found

/-- The page `http://a.b/`. -/
def pageOfOne : KURL where
  protocol := lit "http"
  host := lit "a.b"
  port := 0
  path := lit "/"

/-- A service that has stored one session cookie since it started. -/
def afterSetCookies (cookieStr : WString) : CookieService :=
  (start (some CookieTable.empty) 10).setCookies (fun _ => -1) pageOfOne
    cookieStr [] 0 .success

theorem lookupsAgree_iff_of_one_cookie : LookupsAgree (afterSetCookies (lit "x=1"))
        (start (afterSetCookies (lit "x=1")).db 10) pageOfOne [] 0 ↔
      CachedInQueryOrder (afterSetCookies (lit "x=1")) pageOfOne [] 0 := by
  refine lookupsAgree_iff ⟨rfl, ⟨_, rfl, rfl⟩, not_isHot_start _ _ _ _ _, ?_⟩
  rintro _ _ ⟨⟩ ⟨⟩
  exact .refl _

/-- The header of a nameless cookie is `v` from the cache and `=v` from the
table. -/
theorem nameless_lookups_differ :
    ¬∀ (hot cold : CookieService) (url : KURL) (appId : WString) (now : Int),
      SameContents hot cold url appId now →
        LookupsAgree hot cold url appId now := by
  intro agree
  have same : SameContents (afterSetCookies (lit "v"))
      (start (afterSetCookies (lit "v")).db 10) pageOfOne [] 0 := by
    refine ⟨rfl, ⟨_, rfl, rfl⟩, not_isHot_start _ _ _ _ _, ?_⟩
    rintro _ _ ⟨⟩ ⟨⟩
    exact .refl _
  exact absurd (agree _ _ _ _ _ same).2 (by decide)

end Example

end CookieService
end Cookie
end PalmWebKit
