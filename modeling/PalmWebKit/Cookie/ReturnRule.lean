import PalmWebKit.Cookie.Buckets
import PalmWebKit.Cookie.Isolation

/-!
# Which cookies are returned

The rule of the cookie service in its own terms: the hosts that a domain
covers, the paths that a path covers, the lifetime and the protocol.  A kept
cookie is returned exactly to the URLs that the rule names, but for the dotted
hosts, for which the service looks under another tail.
-/

namespace PalmWebKit
namespace Cookie

open WString

/-! ## The rule -/

/-- The host of a request, without the dot at its end. -/
def requestHost (url : KURL) : WString :=
  if endsWith url.host (lit ".") then url.host.take (url.host.length - 1)
  else url.host

/-- The host is the domain without its leading dot, or it ends with the domain,
dot included. -/
def HostCovered (domain host : WString) : Prop :=
  domain = dot :: host ∨ ∃ front, host = front ++ domain

/-- The path is the path of the cookie, or continues it where a segment ends.
The empty path of a cookie stands for the root. -/
def PathCovered (cookiePath path : WString) : Prop :=
  (path = cookiePath ∧ path ≠ []) ∨ ∃ rest, path = cookiePath ++ rest ∧
      (cookiePath.getLast? = some slash ∨ rest.head? = some slash)

/-- A dot inside the domain: neither its first nor its last code unit. -/
def EmbeddedDot (domain : WString) : Prop :=
  ∃ front back, domain = dot :: front ++ dot :: back ∧ back ≠ []

/-- The directory of a request: its path up to the last slash, which only the
root keeps. -/
def RequestDirectory (path directory : WString) : Prop :=
  (path = [slash] ∧ directory = [slash]) ∨
    (path ≠ [slash] ∧ ∃ file, slash ∉ file ∧ path = directory ++ slash :: file) ∨
      (slash ∉ path ∧ directory = path)

/-- No attribute of the header has the key `path`. -/
def NoPathAttribute (cookieStr : WString) : Prop :=
  ∀ text ∈ (split cookieStr semicolon).tail, ∀ splitPos, find text equals = some splitPos →
      stripWhiteSpace (lower (left text splitPos)) ≠ lit "path"

/-- The URLs that a cookie is meant for at a time. -/
structure ReturnRule (parsed : ParsedCookie) (url : KURL) (now : Int) : Prop where
  host : HostCovered parsed.domain (requestHost url)
  path : PathCovered parsed.path url.path
  alive : parsed.expires = -1 ∨ now ≤ parsed.expires
  secure : parsed.isSecure = true → url.protocol = lit "https"

/-! ## Hosts -/

theorem domainTailMatch_iff (host domain : WString) :
    domainTailMatch host domain = true ↔ HostCovered domain host := by
  rw [domainTailMatch, Bool.or_eq_true, endsWith_iff, beq_iff_eq, lit_dot, or_comm]
  constructor
  all_goals
    rintro (same | ⟨front, append⟩)
    · exact .inl same.symm
    · exact .inr ⟨front, append.symm⟩

theorem embeddedDot_of_hasEmbeddedDot {rest : WString}
    (embedded : hasEmbeddedDot (dot :: rest) = true) : EmbeddedDot (dot :: rest) := by
  rw [hasEmbeddedDot, substring, List.contains_iff_mem, List.drop_one, List.tail_cons,
    List.length_cons] at embedded
  obtain ⟨front, back, inside⟩ := List.append_of_mem embedded
  have whole := List.take_append_drop (rest.length + 1 - 2) rest
  have behind : rest.drop (rest.length + 1 - 2) ≠ [] := by
    have shorter := List.length_pos_of_mem (List.mem_of_mem_take embedded)
    rw [Ne, List.drop_eq_nil_iff]
    omega
  rw [inside, List.append_assoc, List.cons_append] at whole
  refine ⟨front, back ++ rest.drop (rest.length + 1 - 2), ?_, ?_⟩
  · rw [List.cons_append, whole]
  · exact List.append_ne_nil_of_right_ne_nil _ behind

/-! ## Paths -/

theorem charAt_getLast {text : WString} (nonempty : text ≠ []) (rest : WString) :
    charAt (text ++ rest) (text.length - 1) = slash ↔ text.getLast? = some slash := by
  have inside : text.length - 1 < text.length :=
    Nat.sub_lt (List.length_pos_of_ne_nil nonempty) Nat.one_pos
  rw [charAt, List.getD_eq_getElem?_getD, List.getElem?_append_left inside, List.getLast?_eq_getElem?,
    List.getElem?_eq_getElem inside, Option.getD_some, Option.some.injEq]

theorem charAt_head (text rest : WString) :
    charAt (text ++ rest) text.length = slash ↔ rest.head? = some slash := by
  have same := charAt_append text rest 0
  rw [Nat.add_zero] at same
  rw [same, charAt, List.getD_eq_getElem?_getD, ← List.head?_eq_getElem?]
  cases rest.head? with
  | none => decide
  | some unit => rw [Option.getD_some, Option.some.injEq]

variable {path : WString}

theorem subPathMatch_iff (nonempty : path ≠ []) (cookiePath : WString) :
    subPathMatch path cookiePath = true ↔ PathCovered cookiePath path := by
  unfold subPathMatch PathCovered
  by_cases start : cookiePath <+: path
  · obtain ⟨rest, rfl⟩ := start
    rw [if_neg (by rw [List.length_append]; omega), if_neg (by rw [List.take_left]; exact not_not.2 rfl)]
    by_cases all : (cookiePath ++ rest).length = cookiePath.length
    · have noRest : rest = [] := by
        rw [List.length_append] at all
        exact List.length_eq_zero_iff.1 (by omega)
      subst noRest
      rw [if_pos all]
      exact iff_of_true rfl (.inl ⟨List.append_nil _, nonempty⟩)
    · have someRest : rest ≠ [] := by
        rintro rfl
        exact all (congrArg List.length (List.append_nil _))
      have longer : cookiePath ++ rest ≠ cookiePath := fun same =>
        someRest (List.append_cancel_left (same.trans (List.append_nil _).symm))
      rw [if_neg all]
      have atEnd : (cookiePath ≠ [] ∧ charAt (cookiePath ++ rest) (cookiePath.length - 1) = slash) ↔
          cookiePath.getLast? = some slash := by
        by_cases root : cookiePath = []
        · subst root
          simp
        · rw [charAt_getLast root]
          exact and_iff_right root
      have covered : (∃ rest', cookiePath ++ rest = cookiePath ++ rest' ∧
          (cookiePath.getLast? = some slash ∨ rest'.head? = some slash)) ↔
            (cookiePath.getLast? = some slash ∨ rest.head? = some slash) := by
        constructor
        · rintro ⟨rest', same, boundary⟩
          rwa [List.append_cancel_left same]
        · exact fun boundary => ⟨rest, rfl, boundary⟩
      rw [covered, or_iff_right fun both => longer both.1, ← atEnd, ← charAt_head]
      split_ifs with boundary
      · exact iff_of_true rfl (.inl boundary)
      · rw [decide_eq_true_eq, or_iff_right boundary]
  · have refused : ¬ ((path = cookiePath ∧ path ≠ []) ∨ ∃ rest, path = cookiePath ++ rest ∧
        (cookiePath.getLast? = some slash ∨ rest.head? = some slash)) := by
      rintro (⟨rfl, -⟩ | ⟨rest, rfl, -⟩)
      · exact start (List.prefix_refl _)
      · exact start (List.prefix_append _ _)
    refine iff_of_false ?_ refused
    have differs : path.take cookiePath.length ≠ cookiePath := fun same =>
      start (List.prefix_iff_eq_take.2 same.symm)
    rw [if_pos differs, ite_self]
    exact Bool.false_ne_true

/-! ## The default path -/

variable {parseDate : WString → Int} {attributes next : Attributes}

theorem parseAttribute_path {now : Int} {text : WString}
    (noPath : ∀ splitPos, find text equals = some splitPos →
      stripWhiteSpace (lower (left text splitPos)) ≠ lit "path")
    (parsed : parseAttribute parseDate now attributes text = some next) :
    next.path = attributes.path := by
  obtain (rfl | rfl) | ⟨val, -, rfl⟩ | ⟨val, isPath, rfl⟩ | ⟨val, age, -, -, -, rfl⟩ |
      ⟨date, -, rfl⟩ := parseAttribute_cases parseDate now parsed
  · rfl
  · rfl
  · rfl
  · obtain ⟨splitPos, found, key⟩ := Option.map_eq_some_iff.1 isPath
    exact absurd key (noPath splitPos found)
  · rfl
  · rfl

theorem parseAttributes_path {now : Int} {texts : List WString}
    (noPath : ∀ text ∈ texts, ∀ splitPos, find text equals = some splitPos →
      stripWhiteSpace (lower (left text splitPos)) ≠ lit "path")
    (parsed : parseAttributes parseDate now attributes texts = some next) :
    next.path = attributes.path := by
  induction texts generalizing attributes with
  | nil =>
    cases parsed
    rfl
  | cons text texts ih =>
    obtain ⟨middle, first, later⟩ := Option.bind_eq_some_iff.1 parsed
    obtain ⟨noPathHere, noPathLater⟩ := List.forall_mem_cons.1 noPath
    rw [ih noPathLater later, parseAttribute_path noPathHere first]

/-- A slash in a path splits it at the last one. -/
theorem reverseFind_slash (hasSlash : slash ∈ path) :
    ∃ directory file, path = directory ++ slash :: file ∧ slash ∉ file ∧
      reverseFind path slash = some directory.length := by
  obtain ⟨behind, front, splitEq, notBehind⟩ :=
    List.eq_append_cons_of_mem (List.mem_reverse.2 hasSlash)
  have pathEq : path = front.reverse ++ slash :: behind.reverse := by
    rw [← List.reverse_reverse path, splitEq, List.reverse_append, List.reverse_cons,
      List.append_assoc, List.singleton_append]
  have noneBehind : behind.findIdx? (· == slash) = none := by
    rw [List.findIdx?_eq_none_iff]
    rintro unit member
    exact beq_eq_false_iff_ne.2 fun same => notBehind (same ▸ member)
  have first : path.reverse.findIdx? (· == slash) = some behind.length := by
    rw [splitEq, List.findIdx?_append, noneBehind, List.findIdx?_cons]
    simp
  refine ⟨front.reverse, behind.reverse, pathEq, ?_, ?_⟩
  · rwa [List.mem_reverse]
  · rw [reverseFind, first, Option.map_some, pathEq, List.length_append, List.length_cons,
      List.length_reverse, List.length_reverse]
    congr 1
    omega

/-- Without a path attribute the path of a cookie is the directory of the URL
that sets it. -/
theorem cookiePath_nil {url : KURL} (isPath : cookiePath [] url = some path) :
    RequestDirectory url.path path := by
  unfold cookiePath at isPath
  rw [if_pos List.isEmpty_nil] at isPath
  split_ifs at isPath with noPath isRoot
  · cases isPath
    exact .inl ⟨isRoot, isRoot⟩
  · by_cases hasSlash : slash ∈ url.path
    · obtain ⟨directory, file, pathEq, notInFile, last⟩ := reverseFind_slash hasSlash
      rw [last] at isPath
      cases isPath
      refine .inr (.inl ⟨isRoot, file, notInFile, ?_⟩)
      rw [substring, List.drop_zero, pathEq, List.take_left]
    · have none : reverseFind url.path slash = none := by
        rw [reverseFind, Option.map_eq_none_iff, List.findIdx?_eq_none_iff]
        intro unit member
        exact beq_eq_false_iff_ne.2 fun same => hasSlash (same ▸ List.mem_reverse.1 member)
      rw [none] at isPath
      cases isPath
      exact .inr (.inr ⟨hasSlash, rfl⟩)

/-- What `parseCookie` accepts: the domain, and the path where none is given. -/
theorem parseCookie_parts {now : Int} {cookieStr : WString} {url : KURL} {parsed : ParsedCookie}
    (accepted : parseCookie parseDate now cookieStr url = some parsed) :
    EmbeddedDot parsed.domain ∧ HostCovered parsed.domain url.host ∧
      (NoPathAttribute cookieStr → RequestDirectory url.path parsed.path) := by
  obtain ⟨rest, starts⟩ := (parseCookie_storedDomain accepted).starts
  obtain ⟨hasEmbedded, matched⟩ := parseCookie_domain parseDate now accepted
  refine ⟨?_, (domainTailMatch_iff _ _).1 matched, fun noPath => ?_⟩
  · rw [starts] at hasEmbedded ⊢
    exact embeddedDot_of_hasEmbeddedDot hasEmbedded
  obtain ⟨first, texts, attributes, texts_eq, parsedAttributes, -, isPath, -⟩ :=
    parseCookie_attributes parseDate now accepted
  unfold NoPathAttribute at noPath
  rw [texts_eq] at noPath
  rw [parseAttributes_path noPath parsedAttributes] at isPath
  exact cookiePath_nil isPath

/-! ## The rule as the tests of a lookup -/

theorem queryFor_eq (url : KURL) (appId : WString) (now : Int) :
    CookieService.queryFor url appId now =
      if requestHost url = [] ∨ url.path = [] then none
      else some ⟨requestHost url, url.path, url.protocol, appId, now⟩ := by
  rw [CookieService.queryFor]
  simp only [Bool.or_eq_true, List.isEmpty_iff]
  rfl

/-- The domain that a lookup puts together is the one that was stored. -/
theorem entryDomain_entry (query : Query) (parsed : ParsedCookie) :
    query.entryDomain (parsed.entry query.appId) = parsed.domain := by
  have tail : ((parsed.entry query.appId).domainTail.take
      ((parsed.entry query.appId).domainTail.length - query.appId.length)) =
        parsed.domain.drop (secondDotFromTailPos parsed.domain + 1) := by
    rw [domainTail_entry, List.length_append, Nat.add_sub_cancel, List.take_left]
    rfl
  rw [Query.entryDomain, tail]
  exact left_append_drop _ _

/-- The tests of a lookup are the rule. -/
theorem selected_entry_iff {parsed : ParsedCookie} {url : KURL} (hasPath : url.path ≠ [])
    (appId : WString) (now : Int) :
    Query.selected ⟨requestHost url, url.path, url.protocol, appId, now⟩ (parsed.entry appId) =
        true ↔
      ReturnRule parsed url now := by
  have domain := entryDomain_entry ⟨requestHost url, url.path, url.protocol, appId, now⟩ parsed
  rw [Query.selected, Query.matchesUrl, domain, Bool.and_eq_true, Bool.and_eq_true,
    Bool.and_eq_true, domainTailMatch_iff]
  have path : subPathMatch url.path (parsed.entry appId).path = true ↔
      PathCovered parsed.path url.path := subPathMatch_iff hasPath _
  have alive : (!Query.expired ⟨requestHost url, url.path, url.protocol, appId, now⟩
      (parsed.entry appId)) = true ↔ parsed.expires = -1 ∨ now ≤ parsed.expires := by
    have expires : (parsed.entry appId).expires = parsed.expires := rfl
    simp only [Query.expired, expires, Bool.not_eq_true', Bool.and_eq_false_iff,
      decide_eq_false_iff_not, not_not, not_lt]
  have secure : (!Query.insecure ⟨requestHost url, url.path, url.protocol, appId, now⟩
      (parsed.entry appId)) = true ↔ (parsed.isSecure = true → url.protocol = lit "https") := by
    have isSecure : (parsed.entry appId).isSecure = parsed.isSecure := rfl
    simp only [Query.insecure, isSecure, Bool.not_eq_true', Bool.and_eq_false_iff,
      decide_eq_false_iff_not, not_not]
    cases parsed.isSecure with
    | false | true => simp
  rw [path, alive, secure]
  constructor
  · rintro ⟨⟨isSecure, isAlive⟩, host, isPath⟩
    exact ⟨host, isPath, isAlive, isSecure⟩
  · rintro ⟨host, isPath, isAlive, isSecure⟩
    exact ⟨⟨isSecure, isAlive⟩, host, isPath⟩

/-! ## Kept cookies -/

namespace CookieService

/-- Every cached cookie stands under its own tail. -/
def Keyed (service : CookieService) : Prop :=
  service.Keeps fun domainTail entry => entry.domainTail = domainTail

/-- A cookie is kept: it is a row of the table, and it is cached where its tail
is. -/
structure Held (service : CookieService) (entry : CookieEntry) : Prop where
  row : entry ∈ service.rowsOf entry.domainTail
  cached : ∀ entries, service.cache.entriesOf entry.domainTail = some entries → entry ∈ entries

section Steps

variable {parseDate : WString → Int} {service : CookieService}

theorem keyed_of_clear (cache : CookieLruCache) (db : Option CookieTable) :
    Keyed { db, cache := cache.clear } where
  rows := fun _ _ _ _ => rfl
  cached := by
    intro domainTail entries cached
    simp [CookieLruCache.clear, CookieLruCache.entriesOf, CookieLruCache.contents] at cached

theorem Keyed.start (db : Option CookieTable) (maxCount : Nat) : (start db maxCount).Keyed where
  rows := fun _ _ _ _ => rfl
  cached := by
    intro domainTail entries cached
    simp [CookieService.start, CookieLruCache.create, CookieLruCache.entriesOf,
      CookieLruCache.contents] at cached

theorem Keyed.step (keyed : service.Keyed) (wellFormed : service.WellFormed)
    (op : Operation) : (service.step parseDate op).Keyed := by
  cases op with
  | setCookies url cookieStr appId now outcome =>
    exact Keeps.setCookies keyed wellFormed outcome fun _ _ _ => rfl
  | cookies url appId now outcome => exact Keeps.cookies keyed wellFormed url appId now outcome
  | clear runningInBrowserServer found => exact keyed_of_clear _ _
  | clearForDomain url outcome =>
    simp only [CookieService.step, clearForDomain]
    split
    · exact keyed
    · split_ifs
      · exact keyed
      all_goals exact keyed_of_clear _ _
  | copyCookiesToDomain srcUrl dstUrl outcome =>
    simp only [CookieService.step, copyCookiesToDomain]
    split
    · exact keyed
    · split_ifs
      · exact keyed
      all_goals
        split
        · exact keyed_of_clear _ _
        · exact keyed

/-- What holds after every run from a fresh service. -/
theorem wellFormed_keyed_final (db : Option CookieTable) (maxCount : Nat)
    (ops : List Operation) : (Runs.final (step parseDate) (start db maxCount) ops).WellFormed ∧
      (Runs.final (step parseDate) (start db maxCount) ops).Keyed :=
  @Runs.final_invariant _ _ _ (fun service : CookieService => service.WellFormed ∧ service.Keyed)
    ops
    (fun op _ _ both => ⟨both.1.step op, both.2.step both.1 op⟩)
    _ ⟨WellFormed.start db maxCount, Keyed.start db maxCount⟩

/-- `setCookies` keeps the cookie of an accepted header that has not expired. -/
theorem Held.setCookies (wellFormed : service.WellFormed) (hasTable : service.db ≠ none)
    {url : KURL} {cookieStr appId : WString} {now : Int} {outcome : SqlOutcome}
    {parsed : ParsedCookie}
    (accepted : parseCookie parseDate now (cookieStr.take maxCookieLen) url = some parsed)
    (alive : parsed.expires = -1 ∨ now < parsed.expires) (insertDone : outcome.insertDone = true) :
    (service.setCookies parseDate url cookieStr appId now outcome).Held
      (parsed.entry appId) := by
  rcases setCookies_cases parseDate url cookieStr appId now outcome with
    ⟨-, refused⟩ | ⟨table, parsed', db, accepted', next⟩
  · obtain ⟨table, db⟩ := Option.ne_none_iff_exists'.1 hasTable
    rw [refused table db] at accepted
    cases accepted
  · rw [accepted] at accepted'
    cases accepted'
    have expires : (parsed.entry appId).expires = parsed.expires := rfl
    rw [next, if_neg (by omega)]
    have nonempty := @entry_domainTail_ne_nil _ _ _ appId _ _ accepted
    constructor
    · rw [mem_rowsOf_stored]
      exact ⟨.inl ⟨insertDone, rfl⟩, rfl⟩
    · intro entries cached
      rw [CookieService.stored, wellFormed.cache.entriesOf_addCookie_self nonempty] at cached
      rw [← Option.some.inj cached, mem_storeEntry (distinct_getD_entriesOf wellFormed _)]
      exact .inl rfl

/-- A kept cookie is sent exactly where the lookup uses its tail and its tests
pass. -/
theorem Held.mem_sent_iff {entry : CookieEntry} (held : service.Held entry)
    (wellFormed : service.WellFormed) (keyed : service.Keyed) {url : KURL} {appId : WString}
    {now : Int} {outcome : SqlOutcome} (allRows : outcome.rowsDelivered = none) :
    entry ∈ service.sent url appId now outcome ↔ ∃ query, queryFor url appId now = some query ∧
        entry.domainTail = query.hostTail ∧ query.selected entry = true := by
  constructor
  · exact Keeps.of_mem_sent keyed wellFormed
  · rintro ⟨query, asked, tail, selected⟩
    have isRow := held.row
    unfold rowsOf at isRow
    cases db : service.db with
    | none =>
      rw [db] at isRow
      cases isRow
    | some table =>
      rw [db] at isRow
      cases cached : service.cache.entriesOf query.hostTail with
      | some entries =>
        rw [sent_eq_filter_of_cached db wellFormed asked cached, List.mem_filter]
        exact ⟨held.cached entries (tail ▸ cached), selected⟩
      | none =>
        have missed := wellFormed.cache.cookieEntrySet_entries
          (hostTail_queryFor_ne_nil asked)
        rw [cached, Option.map_eq_none_iff] at missed
        simp only [sent, db, asked, searched, missed, SqlOutcome.delivered, allRows,
          List.mem_filter]
        exact ⟨CookieTable.mem_select.2 ⟨(CookieTable.mem_rowsOf.1 isRow).1, tail⟩, selected⟩

end Steps

/-- The answer of a lookup is made of the cookies it sends. -/
theorem cookies_eq_foldl_sent (service : CookieService) (url : KURL) (appId : WString) (now : Int)
    (outcome : SqlOutcome) : (service.cookies url appId now outcome).1 =
        (service.sent url appId now outcome).foldl appendCached [] ∨
      (service.cookies url appId now outcome).1 =
        (service.sent url appId now outcome).foldl appendRow [] := by
  by_cases hot : service.IsHot url appId now
  · exact .inl (cookies_of_isHot hot outcome)
  · exact .inr (cookies_of_not_isHot hot outcome)

/-- A kept cookie of an accepted header is returned as the rule says, unless
the rule names a dotted host. -/
theorem Held.returned_iff {parseDate : WString → Int} {service : CookieService} {setTime : Int}
    {cookieStr : WString} {setUrl : KURL} {parsed : ParsedCookie}
    (accepted : parseCookie parseDate setTime cookieStr setUrl = some parsed) {appId : WString}
    (held : service.Held (parsed.entry appId)) (wellFormed : service.WellFormed)
    (keyed : service.Keyed) (url : KURL) (now : Int) {outcome : SqlOutcome}
    (allRows : outcome.rowsDelivered = none) :
    parsed.entry appId ∈ service.sent url appId now outcome ↔
      ReturnRule parsed url now ∧ ¬ DottedHost (requestHost url) := by
  rw [held.mem_sent_iff wellFormed keyed allRows, queryFor_eq]
  by_cases nothing : requestHost url = [] ∨ url.path = []
  · rw [if_pos nothing]
    refine iff_of_false (fun ⟨_, asked, _⟩ => nomatch asked) ?_
    rintro ⟨rule, -⟩
    obtain ⟨⟨rest, starts⟩, embedded⟩ := parseCookie_storedDomain accepted
    rcases nothing with noHost | noPath
    · have host := rule.host
      rw [noHost, starts] at host
      rw [starts] at embedded
      rcases host with same | ⟨front, same⟩
      · rw [(List.cons.inj same).2] at embedded
        exact absurd embedded (by decide)
      · exact absurd same.symm (by simp)
    · rcases rule.path with ⟨_, nonempty⟩ | ⟨rest, same, boundary⟩
      · exact nonempty noPath
      · obtain ⟨noCookiePath, noRest⟩ := List.append_eq_nil_iff.1 (same.symm.trans noPath)
        rw [noCookiePath, noRest] at boundary
        simp at boundary
  · rw [if_neg nothing]
    push Not at nothing
    have selected := @selected_entry_iff parsed url nothing.2 appId now
    have tails (rule : ReturnRule parsed url now) : (parsed.entry appId).domainTail =
            Query.hostTail ⟨requestHost url, url.path, url.protocol, appId, now⟩ ↔
          ¬ DottedHost (requestHost url) := by
      rw [domainTail_entry, Query.hostTail, List.append_left_inj]
      exact filedTail_eq_hostTail_iff (parseCookie_storedDomain accepted)
        ((domainTailMatch_iff _ _).2 rule.host)
    constructor
    · rintro ⟨query, asked, tail, isSelected⟩
      cases asked
      have rule := selected.1 isSelected
      exact ⟨rule, (tails rule).1 tail⟩
    · rintro ⟨rule, notDotted⟩
      exact ⟨_, rfl, (tails rule).2 notDotted, selected.2 rule⟩

/-- The acceptance and return rule.  For an accepted header: the domain covers
the host and has a dot inside, and without a path attribute the path is the
directory of the URL.  In every state reached: `setCookies` keeps the cookie
where it has not expired, and a cookie that is kept is returned to a URL
exactly when the rule says so, unless the rule names a dotted host. -/
theorem accepted_and_returned (parseDate : WString → Int) (setTime : Int) (cookieStr : WString)
    (setUrl : KURL) (parsed : ParsedCookie)
    (accepted : parseCookie parseDate setTime cookieStr setUrl = some parsed) (appId : WString)
    (db : Option CookieTable) (maxCount : Nat) (ops : List Operation)
    (service : CookieService)
    (reached : service = Runs.final (step parseDate) (start db maxCount) ops) :
    HostCovered parsed.domain setUrl.host ∧ EmbeddedDot parsed.domain ∧
      (NoPathAttribute cookieStr → RequestDirectory setUrl.path parsed.path) ∧
      (∀ header outcome, header.take maxCookieLen = cookieStr → service.db ≠ none →
        outcome.insertDone = true → (parsed.expires = -1 ∨ setTime < parsed.expires) →
          (service.setCookies parseDate setUrl header appId setTime outcome).Held
            (parsed.entry appId)) ∧
      (service.Held (parsed.entry appId) → ∀ url now outcome, outcome.rowsDelivered = none →
          ((service.cookies url appId now outcome).1 =
              (service.sent url appId now outcome).foldl appendCached [] ∨
            (service.cookies url appId now outcome).1 =
              (service.sent url appId now outcome).foldl appendRow []) ∧
          ((parsed.entry appId ∈ service.sent url appId now outcome ↔ ReturnRule parsed url now) ↔
            ¬ (ReturnRule parsed url now ∧ DottedHost (requestHost url)))) := by
  obtain ⟨wellFormed, keyed⟩ := @wellFormed_keyed_final parseDate db maxCount ops
  rw [← reached] at wellFormed keyed
  obtain ⟨embedded, covered, directory⟩ := parseCookie_parts accepted
  refine ⟨covered, embedded, directory, ?_, ?_⟩
  · rintro header outcome rfl hasTable insertDone alive
    exact Held.setCookies wellFormed hasTable accepted alive insertDone
  · intro held url now outcome allRows
    refine ⟨cookies_eq_foldl_sent service url appId now outcome, ?_⟩
    rw [Held.returned_iff accepted held wellFormed keyed url now allRows]
    tauto

/-- A cookie for `a.b` and the hosts below it. -/
def parentCookie : ParsedCookie := ⟨lit ".a.b", lit "/", lit "n", lit "v", -1, false⟩

/-- The theorem on that cookie, set by `www.a.b` into an empty table. -/
theorem accepted_and_returned_parentCookie : HostCovered (lit ".a.b") (lit "www.a.b") ∧
      ((start (some CookieTable.empty) 10).setCookies (fun _ => -1)
        ⟨lit "http", lit "www.a.b", 80, lit "/"⟩ (lit "n=v; domain=a.b; path=/") [] 0
        .success).Held (parentCookie.entry []) := by
  have rule := accepted_and_returned (fun _ => -1) 0 (lit "n=v; domain=a.b; path=/")
    ⟨lit "http", lit "www.a.b", 80, lit "/"⟩ parentCookie (by decide) []
    (some CookieTable.empty) 10 [] _ rfl
  exact ⟨rule.1, rule.2.2.2.1 _ .success (by decide) (Option.some_ne_none _) rfl (.inl rfl)⟩

/-- The page whose cookies are not found again. -/
def dottedPage : KURL := ⟨lit "http", lit ".a.b", 80, lit "/"⟩

/-- The cookie that `http://.a.b/` sets is kept and the rule names that page,
which does not get it back. -/
theorem not_returned_to_dottedPage :
    let service := Runs.final (step fun _ => -1) (start (some CookieTable.empty) 10)
      [.setCookies dottedPage (lit "n=v") [] 0 .success]
    parseCookie (fun _ => -1) 0 (lit "n=v") dottedPage = some parentCookie ∧
      service.Held (parentCookie.entry []) ∧
      ReturnRule parentCookie dottedPage 0 ∧
      service.sent dottedPage [] 0 .success = [] := by
  intro service
  have accepted : parseCookie (fun _ => -1) 0 ((lit "n=v").take maxCookieLen) dottedPage =
      some parentCookie := by
    decide
  refine ⟨by decide, ?_, ?_, rfl⟩
  · exact Held.setCookies (WellFormed.start _ _) (Option.some_ne_none _) accepted (.inl rfl) rfl
  · exact ⟨.inr ⟨[], rfl⟩, .inl ⟨rfl, by decide⟩, .inl rfl, by decide⟩

end CookieService

end Cookie
end PalmWebKit
