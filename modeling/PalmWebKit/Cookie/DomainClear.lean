import PalmWebKit.Cookie.Buckets
import PalmWebKit.Cookie.Coherence

/-!
# Clearing and copying a domain

`clearForDomain` and `copyCookiesToDomain` look rows up by the head and the
tail that `splitDomain` finds.  `setCookies` splits at the same dot, but it has
a split for a domain without a second dot too, and it appends the application
suffix to the tail.
-/

namespace PalmWebKit
namespace Cookie

open List WString

namespace CookieTable

variable {row : CookieEntry}

/-- A sequence of `INSERT`s that do not overwrite one another. -/
theorem mem_foldl_insert (change : CookieEntry → CookieEntry) {rows : List CookieEntry}
    (distinct : rows.Pairwise fun first second => ¬(change first).SameRow (change second))
    (table : CookieTable) :
    row ∈ (rows.foldl (fun table added => table.insert (change added)) table).rows ↔
      (∃ added ∈ rows, row = change added) ∨
        (row ∈ table.rows ∧ ∀ added ∈ rows, ¬row.SameRow (change added)) := by
  induction rows generalizing table with
  | nil => simp
  | cons first rest ih =>
    obtain ⟨firstDistinct, restDistinct⟩ := pairwise_cons.1 distinct
    rw [foldl_cons, ih restDistinct, mem_rows_insert,
      exists_mem_cons_iff, forall_mem_cons]
    constructor
    · rintro (later | ⟨rfl | ⟨old, kept⟩, unlike⟩)
      · exact .inl (.inr later)
      · exact .inl (.inl rfl)
      · exact .inr ⟨old, kept, unlike⟩
    · rintro ((rfl | later) | ⟨old, kept, unlike⟩)
      · exact .inr ⟨.inl rfl, firstDistinct⟩
      · exact .inl later
      · exact .inr ⟨.inr ⟨old, kept⟩, unlike⟩

/-- Every row of the source is there under the destination. -/
theorem mem_copyDomain (table : CookieTable) {dstDomainHead dstDomainTail : WString}
    (isRow : row ∈ table.rows) :
    { row with domainHead := dstDomainHead, domainTail := dstDomainTail } ∈
      (table.copyDomain dstDomainHead dstDomainTail row.domainHead row.domainTail).rows := by
  have distinct : (table.rows.filter fun other =>
      other.domainHead = row.domainHead ∧ other.domainTail = row.domainTail).Pairwise
        fun first second =>
          ¬({ first with domainHead := dstDomainHead, domainTail := dstDomainTail } :
              CookieEntry).SameRow
            { second with domainHead := dstDomainHead, domainTail := dstDomainTail } := by
    refine List.Pairwise.imp_of_mem ?_ (table.unique.sublist filter_sublist)
    intro first second firstMember secondMember ne same
    obtain ⟨firstHead, firstTail⟩ := of_decide_eq_true (mem_filter.1 firstMember).2
    obtain ⟨secondHead, secondTail⟩ := of_decide_eq_true (mem_filter.1 secondMember).2
    exact ne ⟨firstTail.trans secondTail.symm, firstHead.trans secondHead.symm, same.2.2⟩
  rw [copyDomain, mem_foldl_insert _ distinct]
  exact .inl ⟨row, mem_filter.2 ⟨isRow, decide_eq_true ⟨rfl, rfl⟩⟩, rfl⟩

theorem mem_deleteDomain {table : CookieTable} {domainTail domainHead : WString} :
    row ∈ (table.deleteDomain domainTail domainHead).rows ↔
      row ∈ table.rows ∧ ¬(row.domainTail = domainTail ∧ row.domainHead = domainHead) := by
  rw [deleteDomain, mem_rows_delete, decide_eq_false_iff_not]

end CookieTable

/-! ## The split of a domain -/

theorem splitDomain_eq (domain : WString) : splitDomain domain =
      if 2 ≤ (domain.drop 1).count dot then
        some (left domain (secondDotFromTailPos domain + 1), filedTail domain)
      else none := by
  have found := secondDotFromTailPos_eq_zero_iff domain
  unfold splitDomain
  by_cases second : 2 ≤ (domain.drop 1).count dot
  · rw [if_pos (by omega), if_pos second]
    rfl
  · rw [if_neg (by omega), if_neg second]

/-- A domain is split as it is filed exactly when it has a second dot and no
suffix was appended. -/
theorem splitDomain_eq_entry_iff (parsed : ParsedCookie) (appId : WString) :
    splitDomain parsed.domain =
        some ((parsed.entry appId).domainHead, (parsed.entry appId).domainTail) ↔
      2 ≤ (parsed.domain.drop 1).count dot ∧ appId = [] := by
  rw [splitDomain_eq]
  by_cases second : 2 ≤ (parsed.domain.drop 1).count dot
  · rw [if_pos second, and_iff_right second, Option.some.injEq, Prod.mk.injEq]
    constructor
    · rintro ⟨-, tails⟩
      exact self_eq_append_right.1 tails
    · rintro rfl
      exact ⟨rfl, (append_nil _).symm⟩
  · rw [if_neg second]
    exact iff_of_false nofun fun both => second both.1

namespace CookieService

/-! ## What the two operations return -/

/-- The value of `clearForDomain`: a domain that cannot be split is reported
and cleared all the same. -/
def clearForDomainReturns (service : CookieService) (url : KURL) : Bool :=
  service.db.isSome && !(getDomainForUrl url).isEmpty

/-- The value of `copyCookiesToDomain`. -/
def copyCookiesToDomainReturns (service : CookieService) (srcUrl dstUrl : KURL) : Bool :=
  service.db.isSome && !(getDomainForUrl srcUrl).isEmpty && !(getDomainForUrl dstUrl).isEmpty &&
    (splitDomain (getDomainForUrl srcUrl)).isSome && (splitDomain (getDomainForUrl dstUrl)).isSome

/-- The cookie that `setCookies` would store for another domain. -/
def forDomain (parsed : ParsedCookie) (url : KURL) : ParsedCookie :=
  { parsed with domain := getDomainForUrl url }

/-- The operations on the domain of a URL reach the row of a cookie of that
domain. -/
structure DomainAddressed (service : CookieService) (parsed : ParsedCookie) (appId : WString)
    (url dstUrl : KURL) (outcome : SqlOutcome) : Prop where
  split : splitDomain (getDomainForUrl url) =
    some ((parsed.entry appId).domainHead, (parsed.entry appId).domainTail)
  cleared : service.clearForDomainReturns url = true → parsed.entry appId ∉
      (service.clearForDomain url outcome).rowsOf (parsed.entry appId).domainTail
  copied : service.copyCookiesToDomainReturns url dstUrl = true →
    (forDomain parsed dstUrl).entry appId ∈
      (service.copyCookiesToDomain url dstUrl outcome).rowsOf
        ((forDomain parsed dstUrl).entry appId).domainTail

section Addressed

variable
  {service : CookieService} {table : CookieTable} {parsed : ParsedCookie} {appId : WString}
  {url dstUrl : KURL} {outcome : SqlOutcome}

/-- The row is cleared exactly when the `DELETE` is committed. -/
theorem cleared_iff (isOpen : service.db = some table) (isRow : parsed.entry appId ∈ table.rows)
    (nonempty : getDomainForUrl url ≠ [])
    (split : splitDomain (getDomainForUrl url) =
      some ((parsed.entry appId).domainHead, (parsed.entry appId).domainTail)) :
    parsed.entry appId ∉
        (service.clearForDomain url outcome).rowsOf (parsed.entry appId).domainTail ↔
      outcome.deleteDone = true := by
  have isNonempty : ¬ (getDomainForUrl url).isEmpty = true := fun empty =>
    nonempty (isEmpty_iff.1 empty)
  rw [clearForDomain, isOpen]
  dsimp only
  rw [if_neg isNonempty, split, mem_rowsOf_of_db rfl]
  cases outcome.deleteDone with
  | false => simpa using isRow
  | true => simp [CookieTable.mem_deleteDomain]

/-- The copy is there exactly when the `INSERT` is done or it was there. -/
theorem copied_iff (isOpen : service.db = some table) (isRow : parsed.entry appId ∈ table.rows)
    (split : splitDomain (getDomainForUrl url) =
      some ((parsed.entry appId).domainHead, (parsed.entry appId).domainTail))
    (dstSplit : splitDomain (getDomainForUrl dstUrl) =
      some (((forDomain parsed dstUrl).entry appId).domainHead,
        ((forDomain parsed dstUrl).entry appId).domainTail))
    (nonempty : getDomainForUrl url ≠ [])
    (dstNonempty : getDomainForUrl dstUrl ≠ []) : (forDomain parsed dstUrl).entry appId ∈
        (service.copyCookiesToDomain url dstUrl outcome).rowsOf
          ((forDomain parsed dstUrl).entry appId).domainTail ↔
      outcome.insertDone = true ∨ (forDomain parsed dstUrl).entry appId ∈ table.rows := by
  have isNonempty : ¬ ((getDomainForUrl url).isEmpty || (getDomainForUrl dstUrl).isEmpty) = true := by
    rw [Bool.or_eq_true, List.isEmpty_iff, List.isEmpty_iff]
    exact not_or.2 ⟨nonempty, dstNonempty⟩
  rw [copyCookiesToDomain, isOpen]
  dsimp only
  rw [if_neg isNonempty, split, dstSplit, mem_rowsOf_of_db rfl, and_iff_left rfl]
  cases outcome.insertDone with
  | false => simp
  | true =>
    refine iff_of_true ?_ (.inl rfl)
    exact table.mem_copyDomain isRow

end Addressed

/-- A stored row is reached exactly when it was stored without a suffix, its
domain has a second dot, the `DELETE` is committed, and the `INSERT` for a
destination with a second dot is done. -/
theorem domain_addressed_iff {parseDate : WString → Int} {service : CookieService}
    {table : CookieTable} {setUrl url dstUrl : KURL} {cookieStr appId : WString} {now : Int}
    {parsed : ParsedCookie} (outcome : SqlOutcome)
    (accepted : parseCookie parseDate now (cookieStr.take maxCookieLen) setUrl = some parsed)
    (isOpen : service.db = some table) (isRow : parsed.entry appId ∈ table.rows)
    (sameDomain : getDomainForUrl url = parsed.domain) :
    service.DomainAddressed parsed appId url dstUrl outcome ↔
      appId = [] ∧ 2 ≤ (parsed.domain.drop 1).count dot ∧ outcome.deleteDone = true ∧
        (2 ≤ ((getDomainForUrl dstUrl).drop 1).count dot →
          outcome.insertDone = true ∨ (forDomain parsed dstUrl).entry appId ∈ table.rows) := by
  have nonempty : getDomainForUrl url ≠ [] := by
    obtain ⟨rest, starts⟩ := (parseCookie_storedDomain accepted).starts
    rw [sameDomain, starts]
    exact cons_ne_nil _ _
  have clearReturns : service.clearForDomainReturns url = true := by
    rw [clearForDomainReturns, isOpen, Option.isSome_some, Bool.true_and, Bool.not_eq_true',
      isEmpty_eq_false_iff]
    exact nonempty
  have splitIff := splitDomain_eq_entry_iff parsed appId
  have dstSplitIff := splitDomain_eq_entry_iff (forDomain parsed dstUrl) appId
  have copyReturns (split : splitDomain (getDomainForUrl url) =
      some ((parsed.entry appId).domainHead, (parsed.entry appId).domainTail)) :
      service.copyCookiesToDomainReturns url dstUrl = true ↔
        2 ≤ ((getDomainForUrl dstUrl).drop 1).count dot := by
    rw [copyCookiesToDomainReturns, isOpen, split, splitDomain_eq (getDomainForUrl dstUrl)]
    by_cases second : 2 ≤ ((getDomainForUrl dstUrl).drop 1).count dot
    · have dstNonempty : getDomainForUrl dstUrl ≠ [] := fun empty => by simp [empty] at second
      simp [nonempty, dstNonempty]
    · rw [if_neg second, Option.isSome_none, Bool.and_false]
      exact iff_of_false Bool.false_ne_true second
  have dstNonempty (second : 2 ≤ ((getDomainForUrl dstUrl).drop 1).count dot) :
      getDomainForUrl dstUrl ≠ [] := fun empty => by simp [empty] at second
  constructor
  · rintro ⟨split, cleared, copied⟩
    obtain ⟨second, noSuffix⟩ := splitIff.mp (sameDomain ▸ split)
    refine ⟨noSuffix, second,
      (cleared_iff isOpen isRow nonempty split).1 (cleared clearReturns), ?_⟩
    intro dstSecond
    exact (copied_iff isOpen isRow split (dstSplitIff.mpr ⟨dstSecond, noSuffix⟩) nonempty
      (dstNonempty dstSecond)).1 (copied ((copyReturns split).2 dstSecond))
  · rintro ⟨noSuffix, second, deleteDone, insertDone⟩
    have split : splitDomain (getDomainForUrl url) =
        some ((parsed.entry appId).domainHead, (parsed.entry appId).domainTail) := by
      rw [sameDomain]
      exact splitIff.mpr ⟨second, noSuffix⟩
    refine ⟨split, fun _ => (cleared_iff isOpen isRow nonempty split).2 deleteDone, ?_⟩
    intro returns
    have dstSecond := (copyReturns split).1 returns
    exact (copied_iff isOpen isRow split (dstSplitIff.mpr ⟨dstSecond, noSuffix⟩) nonempty
      (dstNonempty dstSecond)).2 (insertDone dstSecond)

/-- A cookie of `www.a.b`. -/
def cookieOfThreeLabels : ParsedCookie := ⟨lit ".www.a.b", lit "/", lit "n", lit "v", -1, false⟩

/-- The theorem on that cookie, stored without a suffix. -/
theorem domain_addressed_iff_threeLabels :
    (start (some (CookieTable.empty.insert (cookieOfThreeLabels.entry []))) 1).DomainAddressed
        cookieOfThreeLabels [] ⟨lit "http", lit "www.a.b", 80, lit "/"⟩
        ⟨lit "http", lit "c.d.e", 80, lit "/"⟩ SqlOutcome.success ↔
      ([] : WString) = [] ∧ 2 ≤ (cookieOfThreeLabels.domain.drop 1).count dot ∧
        SqlOutcome.success.deleteDone = true ∧
        (2 ≤ ((getDomainForUrl ⟨lit "http", lit "c.d.e", 80, lit "/"⟩).drop 1).count dot →
          SqlOutcome.success.insertDone = true ∨
            (forDomain cookieOfThreeLabels ⟨lit "http", lit "c.d.e", 80, lit "/"⟩).entry [] ∈
              (CookieTable.empty.insert (cookieOfThreeLabels.entry [])).rows) :=
  @domain_addressed_iff (fun _ => -1) _ _ ⟨lit "http", lit "www.a.b", 80, lit "/"⟩ _ _
    (lit "n=v; path=/") _ 0 _ _ (by decide +kernel) rfl (by decide +kernel) (by decide +kernel)

/-- A cookie of `a.b`. -/
def cookieOfTwoLabels : ParsedCookie := ⟨lit ".a.b", lit "/", lit "n", lit "v", -1, false⟩

/-- `clearForDomain` reports success for `a.b`, and its cookie is still
there. -/
theorem twoLabels_not_cleared :
    parseCookie (fun _ => -1) 0 (lit "n=v") ⟨lit "http", lit "a.b", 80, lit "/"⟩ =
        some cookieOfTwoLabels ∧
      (start (some (CookieTable.empty.insert (cookieOfTwoLabels.entry []))) 1).clearForDomainReturns
        ⟨lit "http", lit "a.b", 80, lit "/"⟩ = true ∧
      cookieOfTwoLabels.entry [] ∈
        ((start (some (CookieTable.empty.insert (cookieOfTwoLabels.entry []))) 1).clearForDomain
          ⟨lit "http", lit "a.b", 80, lit "/"⟩ SqlOutcome.success).rowsOf (lit "a.b") := by
  decide +kernel

end CookieService
end Cookie
end PalmWebKit
