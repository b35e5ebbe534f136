import PalmWebKit.Cookie.Coherence

/-!
# Purging expired cookies

A lookup in the database collects the expired rows it visits and deletes them
afterwards, with path and name bound to each other's column.  What it really
deletes are the rows in which the two are exchanged, which are the expired ones
only when the expired rows are closed under that exchange.
-/

namespace PalmWebKit
namespace Cookie
namespace CookieService

/-- The rows that a lookup visits. -/
def visitedRows (query : Query) (table : CookieTable) (outcome : SqlOutcome) : List CookieEntry :=
  outcome.delivered (table.select query.hostTail)

/-- The expired cookies that were visited are gone from the table and from the
cache, and every other row is still there. -/
structure Purged (query : Query) (table : CookieTable) (outcome : SqlOutcome)
    (after : CookieService) : Prop where
  rows : ∀ row ∈ visitedRows query table outcome, query.expired row = true →
    row ∉ after.rowsOf row.domainTail
  kept : ∀ row ∈ table.rows, query.expired row = false → row ∈ after.rowsOf row.domainTail
  cache : ∀ row ∈ visitedRows query table outcome, query.expired row = true →
    ∀ entries, after.cache.entriesOf row.domainTail = some entries →
      ∀ entry ∈ entries, ¬ entry.SameCookie row

/-- The visited expired rows are closed under the exchange of path and name:
none of them is skipped as insecure, each is the exchange of one of them, and
no unexpired row is. -/
structure ClosedUnderExchange (query : Query) (table : CookieTable)
    (outcome : SqlOutcome) : Prop where
  secure : ∀ row ∈ visitedRows query table outcome, query.expired row = true →
    query.insecure row = false
  expired : ∀ row ∈ visitedRows query table outcome, query.expired row = true →
    ∃ old ∈ visitedRows query table outcome, query.expired old = true ∧ ExchangedRow old row
  unexpired : ∀ row ∈ table.rows, query.expired row = false →
    ∀ old ∈ visitedRows query table outcome, query.expired old = true → ¬ ExchangedRow old row

section Lookup

variable
  {service : CookieService} {table : CookieTable} {query : Query} {outcome : SqlOutcome}

theorem mem_visitedRows {row : CookieEntry} (visited : row ∈ visitedRows query table outcome) :
    row ∈ table.rows ∧ row.domainTail = query.hostTail :=
  CookieTable.mem_select.1 ((delivered_sublist _ _).subset visited)

theorem dropped_iff (row : CookieEntry) :
    query.dropped row = true ↔ query.insecure row = false ∧ query.expired row = true := by
  rw [Query.dropped, Bool.and_eq_true, Bool.not_eq_true']

/-- The rows left by a lookup whose `DELETE`s succeed. -/
theorem mem_rows_after (deleteDone : outcome.deleteDone = true) (row : CookieEntry) :
    row ∈ (lookupRows query table service.cache outcome).2.rowsOf row.domainTail ↔
      row ∈ table.rows ∧ ∀ old ∈ visitedRows query table outcome, query.dropped old = true →
          ¬ ExchangedRow old row := by
  rw [mem_rowsOf_lookupRows, deleteDone]
  simp only [true_and, and_true, not_exists, not_and, visitedRows]

/-- An expired row stays cached exactly when it was skipped as insecure. -/
theorem cached_after (wellFormed : service.WellFormed) (nonempty : query.hostTail ≠ [])
    (uncached : service.cache.entriesOf query.hostTail = none) {row : CookieEntry}
    (visited : row ∈ visitedRows query table outcome) (isExpired : query.expired row = true) :
    (∀ entries, (lookupRows query table service.cache outcome).2.cache.entriesOf row.domainTail =
            some entries →
          ∀ entry ∈ entries, ¬ entry.SameCookie row) ↔
      query.insecure row = false := by
  obtain ⟨-, -, entries, cached, -, mem_entries⟩ :=
    lookupRows_cache table outcome wellFormed nonempty uncached
  have distinct : DistinctCookies (visitedRows query table outcome) :=
    (table.distinct_select query.hostTail).sublist (delivered_sublist _ _)
  rw [(mem_visitedRows visited).2, cached]
  simp only [Option.some.injEq, forall_eq']
  constructor
  · intro absent
    by_contra isInsecure
    have notDropped : query.dropped row = false := by
      rw [← Bool.not_eq_true, dropped_iff]
      exact fun both => isInsecure both.1
    exact absent row ((mem_entries row).2 ⟨visited, notDropped⟩) ⟨rfl, rfl, rfl⟩
  · intro isSecure entry member same
    obtain ⟨delivered, notDropped⟩ := (mem_entries entry).1 member
    rw [distinct.eq_of_sameCookie delivered visited same] at notDropped
    rw [(dropped_iff row).2 ⟨isSecure, isExpired⟩] at notDropped
    cases notDropped

theorem purged_lookupRows_iff (wellFormed : service.WellFormed) (nonempty : query.hostTail ≠ [])
    (uncached : service.cache.entriesOf query.hostTail = none)
    (deleteDone : outcome.deleteDone = true) :
    Purged query table outcome (lookupRows query table service.cache outcome).2 ↔
      ClosedUnderExchange query table outcome := by
  constructor
  · intro purged
    have secure (row : CookieEntry) (visited : row ∈ visitedRows query table outcome)
        (isExpired : query.expired row = true) : query.insecure row = false :=
      (cached_after wellFormed nonempty uncached visited isExpired).1
        (purged.cache row visited isExpired)
    refine ⟨secure, ?_, ?_⟩
    · intro row visited isExpired
      have gone := purged.rows row visited isExpired
      rw [mem_rows_after deleteDone, and_iff_right (mem_visitedRows visited).1] at gone
      push Not at gone
      obtain ⟨old, oldVisited, dropped, exchanged⟩ := gone
      exact ⟨old, oldVisited, ((dropped_iff old).1 dropped).2, exchanged⟩
    · intro row isRow notExpired old visited isExpired
      have stays := (mem_rows_after deleteDone row).1 (purged.kept row isRow notExpired)
      exact stays.2 old visited
        ((dropped_iff old).2 ⟨secure old visited isExpired, isExpired⟩)
  · intro closed
    constructor
    · intro row visited isExpired stays
      obtain ⟨old, oldVisited, oldExpired, exchanged⟩ := closed.expired row visited isExpired
      have dropped := (dropped_iff old).2
        ⟨closed.secure old oldVisited oldExpired, oldExpired⟩
      exact ((mem_rows_after deleteDone row).1 stays).2 old oldVisited dropped exchanged
    · intro row isRow notExpired
      rw [mem_rows_after deleteDone]
      exact ⟨isRow, fun old visited dropped =>
        closed.unexpired row isRow notExpired old visited ((dropped_iff old).1 dropped).2⟩
    · intro row visited isExpired
      exact (cached_after wellFormed nonempty uncached visited isExpired).2
        (closed.secure row visited isExpired)

end Lookup

/-- After a lookup answered from the database, in any state reached and with
its `DELETE`s succeeding, the expired cookies are purged exactly when the
expired rows it visits are closed under the exchange of path and name. -/
theorem purged_iff (parseDate : WString → Int) (db : Option CookieTable) (maxCount : Nat)
    (ops : List Operation) (service : CookieService)
    (reached : service = Runs.final (step parseDate) (start db maxCount) ops)
    (table : CookieTable) (hasTable : service.db = some table) (url : KURL) (appId : WString)
    (now : Int) (query : Query) (asked : queryFor url appId now = some query)
    (uncached : service.cache.entriesOf query.hostTail = none) (outcome : SqlOutcome)
    (deleteDone : outcome.deleteDone = true) :
    Purged query table outcome (service.cookies url appId now outcome).2 ↔
      ClosedUnderExchange query table outcome := by
  have wellFormed : service.WellFormed := by
    rw [reached]
    exact @Runs.final_invariant _ _ _ WellFormed ops
      (fun op _ _ wellFormed => wellFormed.step op)
      _ (WellFormed.start db maxCount)
  rcases cookies_cases wellFormed url appId now outcome with
    ⟨-, notAsked⟩ | ⟨table', query', db', asked', ⟨entries, cached, -⟩ | ⟨-, next⟩⟩
  · rw [notAsked table hasTable] at asked
    cases asked
  · rw [asked] at asked'
    cases asked'
    rw [uncached] at cached
    cases cached
  · rw [hasTable] at db'
    cases db'
    rw [asked] at asked'
    cases asked'
    rw [next]
    exact purged_lookupRows_iff wellFormed (hostTail_queryFor_ne_nil asked) uncached deleteDone

/-- An expired cookie of `a.b` with the name `n` and the path `/`. -/
def expiredCookie : CookieEntry :=
  ⟨WString.lit ".", WString.lit "a.b", WString.lit "/", WString.lit "n", WString.lit "v", 1, false⟩

/-- The page `http://a.b/`. -/
def pageOfExpired : KURL := ⟨WString.lit "http", WString.lit "a.b", 80, WString.lit "/"⟩

/-- The theorem where no row has expired: the lookup comes before the expiry. -/
theorem purged_iff_nothing_expired :
    Purged ⟨WString.lit "a.b", WString.lit "/", WString.lit "http", [], 1⟩
        (CookieTable.empty.insert expiredCookie) .success
        ((start (some (CookieTable.empty.insert expiredCookie)) 10).cookies pageOfExpired [] 1
          .success).2 ↔
      ClosedUnderExchange ⟨WString.lit "a.b", WString.lit "/", WString.lit "http", [], 1⟩
        (CookieTable.empty.insert expiredCookie) .success :=
  purged_iff (fun _ => -1) _ 10 [] _ rfl _ rfl pageOfExpired [] 1 _ rfl rfl .success rfl

/-- The expired row stays in the table: the `DELETE` looks for the name `/` and
the path `n`. -/
theorem not_purged_expiredCookie :
    ¬ Purged ⟨WString.lit "a.b", WString.lit "/", WString.lit "http", [], 2⟩
      (CookieTable.empty.insert expiredCookie) .success
      ((start (some (CookieTable.empty.insert expiredCookie)) 10).cookies pageOfExpired [] 2
        .success).2 := by
  intro purged
  exact purged.rows expiredCookie (by decide) (by decide) (by decide)

end CookieService
end Cookie
end PalmWebKit
