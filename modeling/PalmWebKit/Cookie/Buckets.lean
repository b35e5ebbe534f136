import PalmWebKit.Cookie.Service

/-!
# The tails of domains and hosts

A cookie is filed under the tail of its domain and looked up under the tail of
the host.  The tails agree for every host that matches the domain, but for
hosts that start with a dot and have exactly one more.
-/

namespace PalmWebKit
namespace Cookie

open List WString

/-- The dots from position one up to a position. -/
def dotsBelow (text : WString) (position : Nat) : Nat := ((text.drop 1).take position).count dot

variable (text : WString)

@[simp] theorem dotsBelow_zero : dotsBelow text 0 = 0 := by
  rw [dotsBelow, take_zero, count_nil]

theorem dotsBelow_succ (position : Nat) : dotsBelow text (position + 1) =
      dotsBelow text position + if charAt text (position + 1) = dot then 1 else 0 := by
  have isChar : charAt text (position + 1) = ((text.drop 1)[position]?).getD 0 := by
    rw [charAt, getElem?_drop, Nat.add_comm, getD_eq_getElem?_getD]
  rw [dotsBelow, dotsBelow, take_add_one, isChar]
  cases (text.drop 1)[position]? with
  | none => simp [dot]
  | some unit =>
    by_cases isDot : unit = dot <;> simp [isDot]

/-- All dots behind the first code unit. -/
theorem dotsBelow_length : dotsBelow text (text.length - 1) = (text.drop 1).count dot := by
  rw [dotsBelow, take_of_length_le (by rw [length_drop])]

theorem secondDotLoop_succ (chars : WString) (position numDots : Nat) :
    secondDotLoop chars (position + 1) numDots =
      if charAt chars (position + 1) = dot then
        if numDots + 1 = 2 then position + 1
        else secondDotLoop chars position (numDots + 1)
      else secondDotLoop chars position numDots := rfl

/-- There is no second dot where fewer than two are counted. -/
theorem secondDotLoop_eq_zero_iff (chars : WString) (position : Nat) {numDots : Nat}
    (few : numDots < 2) :
    secondDotLoop chars position numDots = 0 ↔ numDots + dotsBelow chars position < 2 := by
  induction position generalizing numDots with
  | zero => simpa [secondDotLoop] using few
  | succ position ih =>
    rw [secondDotLoop_succ, dotsBelow_succ]
    by_cases isDot : charAt chars (position + 1) = dot
    · rw [if_pos isDot, if_pos isDot]
      by_cases second : numDots + 1 = 2
      · rw [if_pos second]
        omega
      · rw [if_neg second, ih (by omega)]
        omega
    · rw [if_neg isDot, if_neg isDot, ih few, Nat.add_zero]

theorem charAt_append (front text : WString) (position : Nat) :
    charAt (front ++ text) (front.length + position) = charAt text position := by
  rw [charAt, charAt, getD_eq_getElem?_getD, getD_eq_getElem?_getD,
    getElem?_append_right (Nat.le_add_right _ _), Nat.add_sub_cancel_left]

/-- The loop over a text with something in front of it: the second dot is where
it was, or it is looked for in front. -/
theorem secondDotLoop_append (front text : WString) (position : Nat) {numDots : Nat}
    (few : numDots < 2) : secondDotLoop (front ++ text) (front.length + position) numDots =
      if numDots + dotsBelow text position < 2 then
        secondDotLoop (front ++ text) front.length (numDots + dotsBelow text position)
      else front.length + secondDotLoop text position numDots := by
  induction position generalizing numDots with
  | zero => simp [few]
  | succ position ih =>
    rw [← Nat.add_assoc, secondDotLoop_succ, secondDotLoop_succ, dotsBelow_succ, Nat.add_assoc,
      charAt_append]
    by_cases isDot : charAt text (position + 1) = dot
    · rw [if_pos isDot, if_pos isDot, if_pos isDot]
      by_cases second : numDots + 1 = 2
      · rw [if_pos second, if_pos second, if_neg (by omega)]
      · rw [if_neg second, if_neg second, ih (by omega)]
        simp only [Nat.add_assoc, Nat.add_comm 1]
    · rw [if_neg isDot, if_neg isDot, if_neg isDot, Nat.add_zero, ih few]

/-- The second dot of a text behind a front that is not empty. -/
theorem secondDotFromTailPos_append (front : WString) {text : WString} (nonempty : text ≠ []) :
    secondDotFromTailPos (front ++ text) =
      if (text.drop 1).count dot < 2 then
        secondDotLoop (front ++ text) front.length ((text.drop 1).count dot)
      else front.length + secondDotFromTailPos text := by
  have positive : 0 < text.length := length_pos_of_ne_nil nonempty
  rw [secondDotFromTailPos, length_append, Nat.add_sub_assoc positive,
    secondDotLoop_append front text _ (Nat.zero_lt_two), Nat.zero_add, dotsBelow_length]
  rfl

theorem secondDotFromTailPos_eq_zero_iff :
    secondDotFromTailPos text = 0 ↔ (text.drop 1).count dot < 2 := by
  rw [secondDotFromTailPos, secondDotLoop_eq_zero_iff text _ Nat.zero_lt_two, Nat.zero_add,
    dotsBelow_length]

/-! ## The tail of a domain -/

/-- The tail under which `setCookies` files a domain. -/
def filedTail (domain : WString) : WString :=
  domain.drop (secondDotFromTailPos domain + 1)

theorem domainTail_entry (parsed : ParsedCookie) (appId : WString) :
    (parsed.entry appId).domainTail = filedTail parsed.domain ++ appId := rfl

/-- A domain as it is stored: a dot, and a dot inside what follows. -/
structure StoredDomain (domain : WString) : Prop where
  starts : ∃ rest, domain = dot :: rest
  embedded : 0 < (domain.drop 1).count dot

theorem lit_dot : lit "." = [dot] := rfl

/-- A given domain gets a leading dot where it has none. -/
theorem startsWithDot (domain : WString) :
    ∃ rest, (if startsWith domain (lit ".") then domain else lit "." ++ domain) = dot :: rest := by
  by_cases startsDot : startsWith domain (lit ".") = true
  · rw [if_pos startsDot]
    rw [startsWith_iff] at startsDot
    obtain ⟨rest, domainEq⟩ := startsDot
    exact ⟨rest, domainEq.symm⟩
  · rw [if_neg startsDot]
    exact ⟨domain, rfl⟩

variable
  {parseDate : WString → Int}
  {now : Int}

variable {attributes next : Attributes}

variable (starts : attributes.domain = [] ∨ ∃ rest, attributes.domain = dot :: rest)
include starts

theorem parseAttribute_domain {text : WString}
    (parsed : parseAttribute parseDate now attributes text = some next) :
    next.domain = [] ∨ ∃ rest, next.domain = dot :: rest := by
  obtain (rfl | rfl) | ⟨val, -, rfl⟩ | ⟨val, -, rfl⟩ | ⟨val, age, -, -, -, rfl⟩ | ⟨date, -, rfl⟩ :=
    parseAttribute_cases parseDate now parsed
  · exact starts
  · exact starts
  · exact .inr (startsWithDot val)
  · exact starts
  · exact starts
  · exact starts

theorem parseAttributes_domain {texts : List WString}
    (parsed : parseAttributes parseDate now attributes texts = some next) :
    next.domain = [] ∨ ∃ rest, next.domain = dot :: rest := by
  induction texts generalizing attributes with
  | nil =>
    cases parsed
    exact starts
  | cons text texts ih =>
    obtain ⟨middle, first, later⟩ := Option.bind_eq_some_iff.1 parsed
    exact ih (parseAttribute_domain starts first) later

omit starts

/-- The domain of a URL starts with a dot. -/
theorem getDomainForUrl_starts {url : KURL} (nonempty : getDomainForUrl url ≠ []) :
    ∃ rest, getDomainForUrl url = dot :: rest := by
  unfold getDomainForUrl at nonempty ⊢
  by_cases isEmpty : (if endsWith url.host (lit ".") then url.host.take (url.host.length - 1)
        else url.host).isEmpty = true
  · rw [if_pos isEmpty] at nonempty
    exact absurd rfl nonempty
  · rw [if_neg isEmpty]
    exact startsWithDot _

/-- Only a stored domain passes. -/
theorem parseCookie_storedDomain {cookieStr : WString} {url : KURL} {parsed : ParsedCookie}
    (accepted : parseCookie parseDate now cookieStr url = some parsed) :
    StoredDomain parsed.domain := by
  obtain ⟨hasEmbedded, _⟩ := parseCookie_domain parseDate now accepted
  have embedded : 0 < (parsed.domain.drop 1).count dot := by
    rw [count_pos_iff]
    rw [hasEmbeddedDot, contains_iff_mem] at hasEmbedded
    exact mem_of_mem_take hasEmbedded
  obtain ⟨first, rest, attributes, -, parsedAttributes, isDomain, -⟩ :=
    parseCookie_attributes parseDate now accepted
  have given := parseAttributes_domain (.inl rfl) parsedAttributes
  refine ⟨?_, embedded⟩
  unfold cookieDomain at isDomain
  split_ifs at isDomain with noneGiven
  · simp only at isDomain
    split_ifs at isDomain with noHost
    rw [← Option.some.inj isDomain]
    exact getDomainForUrl_starts fun empty => noHost (isEmpty_iff.2 empty)
  · rw [← Option.some.inj isDomain]
    exact given.resolve_left fun empty => noneGiven (isEmpty_iff.2 empty)

/-! ## Matching hosts -/

/-- A host that starts with a dot and has exactly one more. -/
def DottedHost (host : WString) : Prop := (∃ rest, host = dot :: rest) ∧ (host.drop 1).count dot = 1

theorem hostTail_eq (host : WString) : hostTail host =
      if secondDotFromTailPos host = 0 then host
      else host.drop (secondDotFromTailPos host + 1) := rfl

/-- A host below the domain has the tail of the domain. -/
theorem filedTail_eq_of_below {front domain : WString} (stored : StoredDomain domain)
    (below : front ≠ []) :
    filedTail domain = hostTail (front ++ domain) ∧ ¬ DottedHost (front ++ domain) := by
  obtain ⟨⟨rest, rfl⟩, embedded⟩ := stored
  have positive : 0 < front.length := length_pos_of_ne_nil below
  have atFront : charAt (front ++ dot :: rest) front.length = dot := by
    have same := charAt_append front (dot :: rest) 0
    rwa [Nat.add_zero] at same
  have found := secondDotFromTailPos_append front (cons_ne_nil dot rest)
  rw [drop_one, tail_cons] at embedded found
  constructor
  · rw [filedTail, hostTail_eq]
    by_cases few : rest.count dot < 2
    · -- the dot in front of the domain is the second one of the host
      have one : rest.count dot = 1 := by omega
      have noSecond : secondDotFromTailPos (dot :: rest) = 0 :=
        (secondDotFromTailPos_eq_zero_iff _).2 few
      obtain ⟨before, beforeEq⟩ := Nat.exists_eq_succ_of_ne_zero (Nat.ne_of_gt positive)
      rw [if_pos few, one, beforeEq, secondDotLoop_succ, ← Nat.succ_eq_add_one, ← beforeEq,
        if_pos atFront, if_pos rfl] at found
      rw [found, if_neg (by omega), noSecond, drop_length_add_append]
    · rw [if_neg few] at found
      rw [found, if_neg (by omega), Nat.add_assoc, drop_length_add_append]
  · rintro ⟨_, one⟩
    obtain ⟨first, more, rfl⟩ := exists_cons_of_ne_nil below
    rw [cons_append, drop_one, tail_cons, count_append,
      count_cons_self] at one
    omega

/-- A host that is the domain has its tail unless it has one dot behind the
first one. -/
theorem filedTail_eq_self_iff {domain : WString} (stored : StoredDomain domain) :
    filedTail domain = hostTail domain ↔ ¬ DottedHost domain := by
  obtain ⟨starts, embedded⟩ := stored
  rw [filedTail, hostTail_eq]
  by_cases none : secondDotFromTailPos domain = 0
  · have one : (domain.drop 1).count dot = 1 := by
      have := (secondDotFromTailPos_eq_zero_iff domain).1 none
      omega
    rw [none]
    refine iff_of_false (fun same => ?_) (not_not.2 ⟨starts, one⟩)
    obtain ⟨rest, rfl⟩ := starts
    exact absurd (congrArg List.length same) (by simp)
  · rw [if_neg none]
    refine iff_of_true rfl fun dotted => none ?_
    rw [secondDotFromTailPos_eq_zero_iff, dotted.2]
    exact Nat.one_lt_two

/-- A host that is the domain without its dot. -/
theorem filedTail_cons_eq_iff {host : WString} (stored : StoredDomain (dot :: host)) :
    filedTail (dot :: host) = hostTail host ↔ ¬ DottedHost host := by
  have embedded := stored.embedded
  obtain ⟨first, rest, rfl⟩ : ∃ first rest, host = first :: rest := by
    cases host with
    | nil => exact absurd embedded (by simp)
    | cons first rest => exact ⟨first, rest, rfl⟩
  have found := secondDotFromTailPos_append [dot] (cons_ne_nil first rest)
  rw [singleton_append, drop_one, tail_cons, length_singleton] at found
  have lengthNe (shorter : WString) (item : UChar) : shorter ≠ item :: shorter := fun same =>
    absurd (congrArg List.length same) (by simp)
  rw [filedTail, hostTail_eq]
  by_cases few : rest.count dot < 2
  · have noSecond : secondDotFromTailPos (first :: rest) = 0 :=
      (secondDotFromTailPos_eq_zero_iff _).2 few
    have atOne : charAt (dot :: first :: rest) 1 = first := rfl
    rw [if_pos few, secondDotLoop_succ, atOne] at found
    rw [noSecond]
    by_cases isDot : first = dot
    · subst isDot
      rw [if_pos rfl] at found
      by_cases one : rest.count dot = 1
      · rw [one] at found
        rw [found]
        exact iff_of_false (lengthNe rest dot) (not_not.2 ⟨⟨rest, rfl⟩, one⟩)
      · rw [if_neg (by omega)] at found
        rw [found]
        exact iff_of_true rfl fun dotted => one dotted.2
    · rw [if_neg isDot] at found
      rw [found]
      refine iff_of_true rfl ?_
      rintro ⟨⟨_, same⟩, _⟩
      exact isDot (List.cons.inj same).1
  · have second : secondDotFromTailPos (first :: rest) ≠ 0 := by
      rw [Ne, secondDotFromTailPos_eq_zero_iff]
      exact few
    rw [if_neg few] at found
    rw [found, if_neg second, Nat.add_comm 1]
    refine iff_of_true rfl fun dotted => few ?_
    have one : rest.count dot = 1 := dotted.2
    omega

/-- For a stored domain and a host that matches it, the tails agree exactly when
the host is not dotted. -/
theorem filedTail_eq_hostTail_iff {domain host : WString} (stored : StoredDomain domain)
    (matched : domainTailMatch host domain = true) :
    filedTail domain = hostTail host ↔ ¬ DottedHost host := by
  rw [domainTailMatch, Bool.or_eq_true, endsWith_iff, beq_iff_eq] at matched
  rcases matched with ⟨front, rfl⟩ | rfl
  · by_cases below : front = []
    · subst below
      exact filedTail_eq_self_iff stored
    · obtain ⟨same, notDotted⟩ := filedTail_eq_of_below stored below
      exact iff_of_true same notDotted
  · exact filedTail_cons_eq_iff stored

/-- The cookie of an accepted header is in the bucket of every matching host
exactly when the host is not dotted. -/
theorem bucket_complete_iff (parseDate : WString → Int) (now : Int) (cookieStr : WString)
    (url : KURL) (parsed : ParsedCookie)
    (accepted : parseCookie parseDate now cookieStr url = some parsed) (appId : WString)
    (query : Query) (sameApp : query.appId = appId)
    (matched : domainTailMatch query.host parsed.domain = true) :
    (parsed.entry appId).domainTail = query.hostTail ↔ ¬ DottedHost query.host := by
  rw [domainTail_entry, Query.hostTail, sameApp, append_left_inj]
  exact filedTail_eq_hostTail_iff (parseCookie_storedDomain accepted) matched

/-- The theorem on a cookie of a parent domain. -/
theorem bucket_complete_iff_parentDomain :
    (ParsedCookie.entry ⟨lit ".a.b", lit "/", lit "n", lit "v", -1, false⟩ []).domainTail =
        Query.hostTail ⟨lit "www.a.b", lit "/", lit "http", [], 0⟩ ↔
      ¬ DottedHost (lit "www.a.b") :=
  bucket_complete_iff (fun _ => -1) 0 (lit "n=v; domain=a.b; path=/")
    ⟨lit "http", lit "www.a.b", 80, lit "/"⟩ _ (by decide) []
    ⟨lit "www.a.b", lit "/", lit "http", [], 0⟩ rfl (by decide)

/-- The host ".a.b" matches the domain ".a.b" and has another tail. -/
theorem bucket_missed :
    parseCookie (fun _ => -1) 0 (lit "n=v") ⟨lit "http", lit ".a.b", 80, lit "/"⟩ =
        some ⟨lit ".a.b", lit "/", lit "n", lit "v", -1, false⟩ ∧
      domainTailMatch (lit ".a.b") (lit ".a.b") = true ∧
      filedTail (lit ".a.b") ≠ hostTail (lit ".a.b") := by
  decide

end Cookie
end PalmWebKit
