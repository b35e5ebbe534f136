import PalmWebKit.Cookie.Coherence
import PalmWebKit.Cookie.Jar

/-!
# Isolation of applications

A cookie can only be returned to a lookup whose composed key, the tail of the
host with the suffix of the application, is the composed key it was stored
under.  Different applications can compose the same key, since a host may
contain a dash as well as an identifier; which pairs do is determined here.
-/

namespace PalmWebKit
namespace Cookie

open WString

/-! ## Composed keys -/

/-- Two pairs of a tail and a suffix compose the same key: one tail is longer
by what the other suffix has in front. -/
def KeysCollide (storedTail storedSuffix lookupTail lookupSuffix : WString) : Prop :=
  (∃ middle, lookupTail = storedTail ++ middle ∧ storedSuffix = middle ++ lookupSuffix) ∨
    ∃ middle, storedTail = lookupTail ++ middle ∧ lookupSuffix = middle ++ storedSuffix

theorem append_eq_append_iff_keysCollide
    (storedTail storedSuffix lookupTail lookupSuffix : WString) :
    storedTail ++ storedSuffix = lookupTail ++ lookupSuffix ↔
      KeysCollide storedTail storedSuffix lookupTail lookupSuffix := List.append_eq_append_iff

/-! ## Properties of all stored cookies -/

namespace CookieService

/-- A property of a cookie and the tail it is kept under holds of every row
and of every cached cookie. -/
structure Keeps (property : WString → CookieEntry → Prop) (service : CookieService) : Prop where
  rows : ∀ table, service.db = some table → ∀ row ∈ table.rows, property row.domainTail row
  cached : ∀ domainTail entries, service.cache.entriesOf domainTail = some entries →
      ∀ entry ∈ entries, property domainTail entry

section Steps

variable
  {property : WString → CookieEntry → Prop} {service : CookieService}

theorem Keeps.start (maxCount : Nat) :
    (start (some CookieTable.empty) maxCount).Keeps property where
  rows := by
    rintro table ⟨⟩ row member
    cases member
  cached := by
    intro domainTail entries cached
    simp [CookieService.start, CookieLruCache.create,
      CookieLruCache.entriesOf, CookieLruCache.contents] at cached

/-- After an operation on one tail only that tail has to be looked at. -/
theorem TouchesOnly.keeps {domainTail : WString} {after : CookieService}
    (touches : TouchesOnly domainTail service after) (keeps : service.Keeps property)
    (rows : ∀ table, after.db = some table → ∀ row ∈ table.rows, property row.domainTail row)
    (here : ∀ entries, after.cache.entriesOf domainTail = some entries →
      ∀ entry ∈ entries, property domainTail entry) : after.Keeps property where
  rows := rows
  cached := by
    intro other entries cached
    by_cases same : other = domainTail
    · subst same
      exact here entries cached
    · exact keeps.cached other entries (touches.cache other entries same cached)

variable
  {table : CookieTable}
  {entry : CookieEntry}

theorem Keeps.stored (keeps : service.Keeps property) (wellFormed : service.WellFormed)
    (db : service.db = some table) (nonempty : entry.domainTail ≠ [])
    (new : property entry.domainTail entry) (insertDone : Bool) :
    (service.stored table entry insertDone).Keeps property := by
  refine (touchesOnly_stored wellFormed db nonempty insertDone).keeps
    keeps ?_ ?_
  · rintro _ ⟨⟩ row member
    split_ifs at member
    · rcases CookieTable.mem_rows_insert.1 member with rfl | ⟨old, -⟩
      · exact new
      · exact keeps.rows table db row old
    · exact keeps.rows table db row member
  · intro entries cached
    rw [CookieService.stored, wellFormed.cache.entriesOf_addCookie_self nonempty] at cached
    rw [← Option.some.inj cached]
    intro other member
    rcases (mem_storeEntry (distinct_getD_entriesOf wellFormed _)).1 member with
      rfl | ⟨old, -⟩
    · exact new
    · cases before : service.cache.entriesOf entry.domainTail with
      | none => simp [before] at old
      | some entries =>
        rw [before] at old
        exact keeps.cached _ entries before other old

theorem Keeps.removed (keeps : service.Keeps property) (wellFormed : service.WellFormed)
    (db : service.db = some table) (nonempty : entry.domainTail ≠ []) (deleteDone : Bool) :
    (service.removed table entry deleteDone).Keeps property := by
  refine (touchesOnly_removed wellFormed db nonempty deleteDone).keeps
    keeps ?_ ?_
  · rintro _ ⟨⟩ row member
    split_ifs at member
    · exact keeps.rows table db row (CookieTable.mem_rows_delete.1 member).1
    · exact keeps.rows table db row member
  · intro entries cached
    rw [CookieService.removed,
      wellFormed.cache.entriesOf_delCookie _ _ _ nonempty, if_pos rfl] at cached
    obtain ⟨before, beforeCached, rfl⟩ := Option.map_eq_some_iff.1 cached
    intro other member
    exact keeps.cached _ before beforeCached other
      (List.eraseP_sublist.subset member)

theorem Keeps.lookupRows (keeps : service.Keeps property) (wellFormed : service.WellFormed)
    (db : service.db = some table) {query : Query} (nonempty : query.hostTail ≠ [])
    (uncached : service.cache.entriesOf query.hostTail = none) (outcome : SqlOutcome) :
    (lookupRows query table service.cache outcome).2.Keeps property := by
  refine (touchesOnly_lookupRows wellFormed db nonempty uncached).keeps
    keeps ?_ ?_
  · rintro _ ⟨⟩ row member
    split_ifs at member
    · exact keeps.rows table db row ((mem_deleteExpired _ _).1 member).1
    · exact keeps.rows table db row member
  · obtain ⟨-, -, entries, cached, -, mem_entries⟩ :=
      lookupRows_cache table outcome wellFormed nonempty uncached
    intro found foundCached
    rw [cached] at foundCached
    cases foundCached
    intro entry member
    obtain ⟨isRow, tail⟩ := CookieTable.mem_select.1
      ((delivered_sublist _ _).subset ((mem_entries entry).1 member).1)
    exact tail ▸ keeps.rows table db entry isRow

variable
  {url : KURL}
  {now : Int}

theorem Keeps.setCookies (keeps : service.Keeps property) (wellFormed : service.WellFormed)
    {parseDate : WString → Int} {cookieStr appId : WString} (outcome : SqlOutcome)
    (new : ∀ parsed, parseCookie parseDate now (cookieStr.take maxCookieLen) url = some parsed →
        ¬(parsed.expires ≠ -1 ∧ parsed.expires ≤ now) →
          property (parsed.entry appId).domainTail (parsed.entry appId)) :
    (service.setCookies parseDate url cookieStr appId now outcome).Keeps
      property := by
  rcases setCookies_cases parseDate url cookieStr appId now outcome with
    ⟨same, -⟩ | ⟨table, parsed, db, accepted, next⟩
  · rw [same]
    exact keeps
  · rw [next]
    have nonempty := @entry_domainTail_ne_nil _ _ _ appId _ _ accepted
    split_ifs with expired
    · exact keeps.removed wellFormed db nonempty _
    · exact keeps.stored wellFormed db nonempty (new parsed accepted expired) _

theorem Keeps.cookies (keeps : service.Keeps property) (wellFormed : service.WellFormed)
    (url : KURL) (appId : WString) (now : Int) (outcome : SqlOutcome) :
    (service.cookies url appId now outcome).2.Keeps property := by
  rcases cookies_cases wellFormed url appId now outcome with
    ⟨same, -⟩ | ⟨table, query, db, asked, ⟨entries, -, next⟩ | ⟨uncached, next⟩⟩
  · rw [same]
    exact keeps
  · rw [next]
    refine ⟨keeps.rows, fun domainTail found cached => ?_⟩
    rw [wellFormed.cache.entriesOf_cookieEntrySet] at cached
    exact keeps.cached domainTail found cached
  · rw [next]
    exact keeps.lookupRows wellFormed db (hostTail_queryFor_ne_nil asked)
      uncached outcome

/-- A lookup sends only cookies kept under its key that pass its tests. -/
theorem Keeps.of_mem_sent (keeps : service.Keeps property) (wellFormed : service.WellFormed)
    {appId : WString} {outcome : SqlOutcome} (isSent : entry ∈ service.sent url appId now outcome) :
    ∃ query, queryFor url appId now = some query ∧
      property query.hostTail entry ∧ query.selected entry = true := by
  unfold sent at isSent
  split at isSent
  next table query db asked =>
    obtain ⟨found, selected⟩ := List.mem_filter.1 isSent
    refine ⟨query, asked, ?_, selected⟩
    have cached := wellFormed.cache.cookieEntrySet_entries
      (hostTail_queryFor_ne_nil asked)
    unfold searched at found
    split at found
    next entrySet lookup =>
      rw [lookup] at cached
      exact keeps.cached _ _ cached.symm entry found
    next =>
      obtain ⟨isRow, tail⟩ := CookieTable.mem_select.1
        ((delivered_sublist _ _).subset found)
      exact tail ▸ keeps.rows table db entry isRow
  next => cases isSent

theorem sent_eq_filter_of_cached (db : service.db = some table) (wellFormed : service.WellFormed)
    {appId : WString} {query : Query} (asked : queryFor url appId now = some query)
    {entries : List CookieEntry} (cached : service.cache.entriesOf query.hostTail = some entries)
    (outcome : SqlOutcome) :
    service.sent url appId now outcome = entries.filter query.selected := by
  have found := wellFormed.cache.cookieEntrySet_entries
    (hostTail_queryFor_ne_nil asked)
  rw [cached] at found
  obtain ⟨entrySet, lookup, rfl⟩ := Option.map_eq_some_iff.1 found
  simp only [sent, db, asked, searched, lookup]

end Steps

end CookieService

/-! ## Runs of the jar -/

/-- The tail of a cookie before the suffix of the application. -/
def ParsedCookie.domainTail (parsed : ParsedCookie) : WString :=
  parsed.domain.drop (secondDotFromTailPos parsed.domain + 1)

namespace CookieJar

/-- The cookie that a `setCookies` stores, if any. -/
def storedCookie (settings : JarSettings) (parseDate : WString → Int) (request : Request)
    (value : WString) : Option ParsedCookie :=
  if settings.acceptCookies then
    (parseCookie parseDate request.now (value.take maxCookieLen)
      request.url).filter fun parsed => !decide (parsed.expires ≠ -1 ∧ parsed.expires ≤ request.now)
  else
    none

/-- A `setCookies` stores an entry. -/
def Stores (settings : JarSettings) (parseDate : WString → Int) (request : Request)
    (value : WString) (entry : CookieEntry) : Prop :=
  ∃ parsed, storedCookie settings parseDate request value = some parsed ∧ entry = parsed.entry
      (getAppIdDomainTail settings request.identifier request.url)

/-- The invariant of a run: every entry of a service is kept under its own
tail and was stored by a call to that service. -/
def WellKept (settings : JarSettings) (parseDate : WString → Int) (calls : List Call)
    (jar : CookieJar) : Prop :=
  ∀ service, (jar service).WellFormed ∧
    (jar service).Keeps fun domainTail entry =>
      entry.domainTail = domainTail ∧ ∃ request value, Call.setCookies request value ∈ calls ∧
          serviceId settings request.identifier = service ∧
          Stores settings parseDate request value entry

section Runs

variable {settings : JarSettings} {parseDate : WString → Int}

theorem wellKept_step {calls : List Call} {call : Call} (member : call ∈ calls) {jar : CookieJar}
    (wellKept : jar.WellKept settings parseDate calls) :
    (jar.step settings parseDate call).WellKept settings parseDate calls := by
  intro service
  obtain ⟨wellFormed, keeps⟩ := wellKept service
  cases call with
  | setCookies request value =>
    simp only [CookieJar.step, setCookies]
    split_ifs with accepts
    · by_cases same : service = serviceId settings request.identifier
      · subst same
        rw [Function.update_self]
        refine ⟨wellFormed.step (.setCookies _ _ _ _ _),
          keeps.setCookies wellFormed _ fun parsed accepted current => ?_⟩
        refine ⟨rfl, request, value, member, rfl, parsed, ?_, rfl⟩
        rw [storedCookie, if_pos accepts, accepted]
        simp only [Option.filter_some, current, decide_false, Bool.not_false, if_true]
      · rw [Function.update_of_ne same]
        exact ⟨wellFormed, keeps⟩
    · exact ⟨wellFormed, keeps⟩
  | cookies request =>
    simp only [CookieJar.step, cookies]
    by_cases same : service = serviceId settings request.identifier
    · subst same
      rw [Function.update_self]
      exact ⟨@CookieService.WellFormed.step parseDate _ wellFormed (.cookies _ _ _ _),
        keeps.cookies wellFormed _ _ _ _⟩
    · rw [Function.update_of_ne same]
      exact ⟨wellFormed, keeps⟩

theorem wellKept_final (settings : JarSettings) (parseDate : WString → Int) (maxCount : Nat)
    (calls : List Call) : (Runs.final (step settings parseDate) (start maxCount) calls).WellKept
      settings parseDate calls :=
  Runs.final_invariant calls (fun _ member _ kept => wellKept_step member kept)
    fun _ => ⟨.start _ maxCount, .start maxCount⟩

end Runs

/-! ## Isolation -/

/-- In no run is the cookie of a storing request returned to a lookup, unless
the application of the lookup stores the same cookie itself. -/
def NeverReturned (settings : JarSettings) (parseDate : WString → Int) (maxCount : Nat)
    (storer : Request) (value : WString) (lookup : Request) : Prop :=
  ∀ calls, Call.setCookies storer value ∈ calls →
    ∀ entry, Stores settings parseDate storer value entry →
      (∀ request own, Call.setCookies request own ∈ calls →
        appIdentifier request.identifier = appIdentifier lookup.identifier →
          ¬Stores settings parseDate request own entry) →
        entry ∉
          (Runs.final (step settings parseDate) (start maxCount) calls).returned
            settings lookup

/-- Two requests share a service and compose the same key, and the cookie
passes the tests of the lookup. -/
def Collision (settings : JarSettings) (storer lookup : Request) (parsed : ParsedCookie) : Prop :=
  let storedSuffix := getAppIdDomainTail settings storer.identifier storer.url
  let lookupSuffix := getAppIdDomainTail settings lookup.identifier lookup.url
  serviceId settings storer.identifier = serviceId settings lookup.identifier ∧ ∃ query,
      CookieService.queryFor lookup.url lookupSuffix lookup.now = some query ∧
        KeysCollide parsed.domainTail storedSuffix
          (hostTail query.host) lookupSuffix ∧
        query.selected (parsed.entry storedSuffix) = true

theorem appId_of_queryFor {url : KURL} {appId : WString} {now : Int} {query : Query}
    (asked : CookieService.queryFor url appId now = some query) : query.appId = appId := by
  unfold CookieService.queryFor at asked
  simp only at asked
  split_ifs at asked
  all_goals
    cases asked
    rfl

theorem entry_domainTail_eq_hostTail_iff {url : KURL} {storedSuffix lookupSuffix : WString}
    {now : Int} {query : Query} (asked : CookieService.queryFor url lookupSuffix now = some query)
    (parsed : ParsedCookie) : (parsed.entry storedSuffix).domainTail = query.hostTail ↔
      KeysCollide parsed.domainTail storedSuffix
        (hostTail query.host) lookupSuffix := by
  rw [← append_eq_append_iff_keysCollide, Query.hostTail, appId_of_queryFor asked]
  rfl

/-- After a single `setCookies` the cookie is the only one under its key. -/
theorem entriesOf_after_setCookies {settings : JarSettings} {parseDate : WString → Int}
    {storer : Request} {value : WString} {parsed : ParsedCookie}
    (isStored : storedCookie settings parseDate storer value = some parsed) (maxCount : Nat) :
    let entry := parsed.entry
      (getAppIdDomainTail settings storer.identifier storer.url)
    let service := Runs.final (step settings parseDate) (start maxCount)
      [.setCookies storer value] (serviceId settings storer.identifier)
    service.db.isSome ∧
      service.cache.entriesOf entry.domainTail = some [entry] := by
  intro entry service
  unfold storedCookie at isStored
  split_ifs at isStored with accepts
  obtain ⟨accepted, current⟩ := Option.filter_eq_some_iff.1 isStored
  have nonempty : entry.domainTail ≠ [] := CookieService.entry_domainTail_ne_nil accepted
  have notExpired : ¬(entry.expires ≠ -1 ∧ entry.expires ≤ storer.now) := by
    rw [Bool.not_eq_true', decide_eq_false_iff_not] at current
    exact current
  have service_eq : service = (CookieService.start (some CookieTable.empty) maxCount).stored
        CookieTable.empty entry storer.outcome.insertDone := by
    simp only [service, Runs.final_cons, Runs.final_nil, CookieJar.step, setCookies, accepts,
      if_true, Function.update_self, start, CookieService.setCookies, CookieService.start, accepted]
    exact if_neg notExpired
  rw [service_eq]
  exact ⟨rfl, (CookieService.WellFormed.start _ maxCount).cache.entriesOf_addCookie_self nonempty⟩

/-- A cookie is never returned to a lookup of another application exactly when
the two requests do not collide on it. -/
theorem neverReturned_iff (settings : JarSettings) (parseDate : WString → Int) (maxCount : Nat)
    (storer : Request) (value : WString) (lookup : Request)
    (ne : appIdentifier storer.identifier ≠ appIdentifier lookup.identifier) :
    NeverReturned settings parseDate maxCount storer value lookup ↔
      ∀ parsed, storedCookie settings parseDate storer value = some parsed →
        ¬Collision settings storer lookup parsed := by
  constructor
  · rintro never parsed isStored ⟨sameService, query, asked, collide, selected⟩
    obtain ⟨dbOpen, cached⟩ := entriesOf_after_setCookies isStored maxCount
    rw [sameService] at dbOpen
    rw [(entry_domainTail_eq_hostTail_iff asked parsed).2 collide, sameService] at cached
    obtain ⟨table, db⟩ := Option.isSome_iff_exists.1 dbOpen
    obtain ⟨wellFormed, -⟩ := wellKept_final settings parseDate maxCount
      [.setCookies storer value] (serviceId settings lookup.identifier)
    refine never [.setCookies storer value] (.head _) _
      ⟨parsed, isStored, rfl⟩ ?_ ?_
    · intro request own member sameApp
      cases List.mem_singleton.1 member
      exact absurd sameApp ne
    · rw [returned, CookieService.sent_eq_filter_of_cached db wellFormed asked cached]
      exact List.mem_filter.2 ⟨.head _, selected⟩
  · rintro apart calls called entry ⟨parsed, isStored, rfl⟩ notOwn isReturned
    obtain ⟨wellFormed, keeps⟩ := wellKept_final settings parseDate maxCount
      calls (serviceId settings lookup.identifier)
    obtain ⟨query, asked, ⟨tail, request, own, member, service, stores⟩,
      selected⟩ := keeps.of_mem_sent wellFormed isReturned
    by_cases inBrowserServer : settings.runningInBrowserServer = true
    · -- The service of the lookup is used by its own application alone.
      simp only [serviceId, inBrowserServer, if_true] at service
      exact notOwn request own member service stores
    · refine apart parsed isStored ⟨?_, query, asked, ?_, selected⟩
      · simp [serviceId, inBrowserServer]
      · exact (entry_domainTail_eq_hostTail_iff asked parsed).1 tail

section Example

/-- A request of an application for the root page of a host. -/
def requestOf (app host : String) : Request where
  identifier := some (lit app)
  url :=
    { protocol := lit "http"
      host := lit host
      port := 0
      path := lit "/" }
  now := 0
  outcome := .success

/-- Applications share one service. -/
def sharedService : JarSettings where
  acceptCookies := true
  runningInBrowserServer := false

theorem neverReturned_iff_of_one_host :
    appIdentifier (requestOf "mail" "www.amazon.com").identifier ≠
        appIdentifier (requestOf "maps" "www.amazon.com").identifier ∧
      (NeverReturned sharedService (fun _ => -1) 10
          (requestOf "mail" "www.amazon.com") (lit "id=1")
          (requestOf "maps" "www.amazon.com") ↔
        ∀ parsed, storedCookie sharedService (fun _ => -1)
              (requestOf "mail" "www.amazon.com") (lit "id=1") = some parsed →
            ¬Collision sharedService (requestOf "mail" "www.amazon.com")
              (requestOf "maps" "www.amazon.com") parsed) :=
  ⟨by decide, neverReturned_iff _ _ _ _ _ _ (by decide)⟩

/-- The cookie of `foo-bar` at `amazon.com` and the lookup of `bar` at
`amazon.com-foo` share the key `amazon.com-foo-bar`. -/
theorem returned_to_other_application :
    ¬∀ (settings : JarSettings) (parseDate : WString → Int) (maxCount : Nat)
      (storer : Request) (value : WString) (lookup : Request),
      appIdentifier storer.identifier ≠ appIdentifier lookup.identifier →
        NeverReturned settings parseDate maxCount storer value lookup := by
  intro never
  let storer := requestOf "foo-bar" "www.amazon.com"
  let value := lit "id=1; domain=.amazon.com"
  let parsed : ParsedCookie := ⟨lit ".amazon.com", lit "/", lit "id", lit "1", -1, false⟩
  have isStored : storedCookie sharedService (fun _ => -1) storer value =
      some parsed := by
    decide
  refine never sharedService (fun _ => -1) 10 storer value
    (requestOf "bar" "www.amazon.com-foo") (by decide)
    [.setCookies storer value] (.head _) _ ⟨parsed, isStored, rfl⟩
    ?_ ?_
  · intro request own member sameApp
    cases List.mem_singleton.1 member
    exact absurd sameApp (by decide)
  · decide +kernel

end Example

end CookieJar

end Cookie
end PalmWebKit
