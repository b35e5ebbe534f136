import PalmWebKit.Cookie.Coherence

/-!
# Max-Age

A header's `Max-Age` is added to the clock as the header is parsed, and the
sum then decides whether the cookie is deleted, stored until that time, or, as
`-1`, stored for the session.
-/

namespace PalmWebKit
namespace Cookie

open WString

/-- The integers of an `int64_t`. -/
def IsInt64 (value : Int) : Prop := -2 ^ 63 ≤ value ∧ value < 2 ^ 63

instance (value : Int) : Decidable (IsInt64 value) := inferInstanceAs (Decidable (_ ∧ _))

/-! ## What `toInt64` reads -/

/-- The value read so far always fits; a negative number has room for one
more. -/
theorem readDigits_le {integralMax : Nat} {isNegative : Bool} {start value : Nat}
    {digits rest : WString} (startFits : start ≤ integralMax + isNegative.toNat)
    (read : readDigits integralMax isNegative start digits = some (value, rest)) :
    value ≤ integralMax + isNegative.toNat := by
  induction digits generalizing start with
  | nil =>
    cases read
    exact startFits
  | cons unit digits ih =>
    rw [readDigits] at read
    dsimp only at read
    split_ifs at read with isDigit overflow
    · have digitBound : unit.toNat - 48 ≤ 9 := by
        simp only [isASCIIDigit, Bool.and_eq_true, decide_eq_true_eq,
          UInt16.le_iff_toNat_le] at isDigit
        have upper : unit.toNat ≤ 57 := isDigit.2
        omega
      refine ih ?_ read
      push Not at overflow
      obtain ⟨small, last⟩ := overflow
      by_cases isLast : start = integralMax / 10 <;> omega
    · cases read
      exact startFits

/-- A number that `toInt64` accepts is an `int64_t`. -/
theorem isInt64_of_toInt64 {text : WString} {value : Int} (read : toInt64 text = some value) :
    IsInt64 value := by
  rw [toInt64, toIntegralType] at read
  split at read
  next isNegative digits _ =>
  split at read
  · cases read
  split at read
  · split at read
    · cases read
    next magnitude rest digitsRead =>
    have fits := readDigits_le (Nat.zero_le _) digitsRead
    split at read
    · cases read
      cases isNegative
      · change _ ≤ 2 ^ 63 - 1 at fits
        change _ ≤ (magnitude : Int) ∧ (magnitude : Int) < _
        omega
      · change _ ≤ 2 ^ 63 - 1 + 1 at fits
        change _ ≤ -(magnitude : Int) ∧ -(magnitude : Int) < _
        omega
    · cases read
  · cases read

/-! ## The attribute that counts -/

/-- The attribute overwrites the expiry. -/
def SetsExpiry (text : WString) : Prop :=
  attributeKey text = some (lit "max-age") ∨ attributeKey text = some (lit "expires")

instance (text : WString) : Decidable (SetsExpiry text) := inferInstanceAs (Decidable (_ ∨ _))

/-- The last attribute about the expiry is a `Max-Age` of that value. -/
def HasMaxAge (cookieStr : WString) (age : Int) : Prop :=
  ∃ first before text after val, split cookieStr semicolon = first :: (before ++ text :: after) ∧
      attributeKey text = some (lit "max-age") ∧
      attributeValue text = some val ∧ toInt64 val = some age ∧
      ∀ later ∈ after, ¬ SetsExpiry later

section Parse

variable {parseDate : WString → Int} {now : Int}

variable {attributes next : Attributes}

theorem parseAttributes_expires {texts : List WString} (silent : ∀ text ∈ texts, ¬ SetsExpiry text)
    (parsed : parseAttributes parseDate now attributes texts = some next) :
    next.expires = attributes.expires := by
  induction texts generalizing attributes with
  | nil =>
    cases parsed
    rfl
  | cons text texts ih =>
    obtain ⟨middle, first, later⟩ := Option.bind_eq_some_iff.1 parsed
    obtain ⟨silentHere, silentLater⟩ := List.forall_mem_cons.1 silent
    rw [ih silentLater later]
    obtain (rfl | rfl) | ⟨val, -, rfl⟩ | ⟨val, -, rfl⟩ | ⟨val, age, isMaxAge, -, -, rfl⟩ |
        ⟨date, isExpires, rfl⟩ := parseAttribute_cases parseDate now first
    · rfl
    · rfl
    · rfl
    · rfl
    · exact absurd (.inl isMaxAge) silentHere
    · exact absurd (.inr isExpires) silentHere

/-- A `Max-Age` attribute sets the sum, as an `int64_t` holds it. -/
theorem parseAttribute_maxAge {text val : WString} {age : Int}
    (isMaxAge : attributeKey text = some (lit "max-age")) (isVal : attributeValue text = some val)
    (isAge : toInt64 val = some age)
    (parsed : parseAttribute parseDate now attributes text = some next) :
    next.expires = (age + now).bmod (2 ^ 64) := by
  obtain ⟨splitPos, found, key⟩ := Option.map_eq_some_iff.1 isMaxAge
  rw [attributeValue, found, Option.map_some, Option.some.injEq] at isVal
  have notDomain : lit "max-age" ≠ lit "domain" := by decide
  have notPath : lit "max-age" ≠ lit "path" := by decide
  rw [parseAttribute, found] at parsed
  dsimp only at parsed
  rw [key, isVal, isAge] at parsed
  cases parsed
  rfl

theorem parseCookie_expires {cookieStr : WString} {url : KURL} {parsed : ParsedCookie} {age : Int}
    (hasMaxAge : HasMaxAge cookieStr age)
    (accepted : parseCookie parseDate now cookieStr url = some parsed) :
    parsed.expires = (age + now).bmod (2 ^ 64) := by
  obtain ⟨first, before, text, after, val, texts, isMaxAge, isVal, isAge, silent⟩ := hasMaxAge
  obtain ⟨_, rest, attributes, restEq, read, -, -, expires, -⟩ :=
    parseCookie_attributes parseDate now accepted
  rw [texts] at restEq
  obtain ⟨-, rfl⟩ := List.cons.inj restEq
  rw [parseAttributes_append] at read
  obtain ⟨middle, -, read⟩ := Option.bind_eq_some_iff.1 read
  obtain ⟨next, here, later⟩ := Option.bind_eq_some_iff.1 read
  rw [expires, parseAttributes_expires silent later,
    parseAttribute_maxAge isMaxAge isVal isAge here]

end Parse

/-! ## The sum against the clock -/

/-- A wrapped sum lies on the other side of the clock. -/
theorem wrapped_sum {age now : Int} (ageFits : IsInt64 age) (nowFits : IsInt64 now)
    (overflows : ¬ IsInt64 (age + now)) :
    (0 < age ∧ (age + now).bmod (2 ^ 64) = age + now - 2 ^ 64) ∨
      (age < 0 ∧ (age + now).bmod (2 ^ 64) = age + now + 2 ^ 64) := by
  unfold IsInt64 at ageFits nowFits overflows
  by_cases above : 2 ^ 63 ≤ age + now
  · refine .inl ⟨by omega, ?_⟩
    rw [← Int.sub_bmod_right]
    exact Int.bmod_eq_of_le (by omega) (by omega)
  · refine .inr ⟨by omega, ?_⟩
    rw [← Int.add_bmod_right]
    exact Int.bmod_eq_of_le (by omega) (by omega)

theorem sum_of_fits {age now : Int} (fits : IsInt64 (age + now)) :
    (age + now).bmod (2 ^ 64) = age + now := by
  obtain ⟨lower, upper⟩ := fits
  exact Int.bmod_eq_of_le (by omega) (by omega)

namespace CookieService

/-- What a header with a `Max-Age` asks for: the cookie is deleted unless the
age is positive, is stored until the end of the age otherwise, and is no
session cookie. -/
structure MaxAgeObeyed (service : CookieService) (table : CookieTable) (entry : CookieEntry)
    (age now : Int) (outcome : SqlOutcome) (after : CookieService) : Prop where
  deleted : age ≤ 0 → after = service.removed table entry outcome.deleteDone
  stored : 0 < age →
    after = service.stored table { entry with expires := now + age } outcome.insertDone
  notSession : entry.expires ≠ -1

section SetCookies

variable {service : CookieService} {table : CookieTable} {entry : CookieEntry}

/-- Deleting a cookie leaves no row of it; storing it leaves one. -/
theorem removed_ne_stored (expires : Int) : service.removed table entry true ≠
      service.stored table { entry with expires := expires } true := by
  intro same
  have isRow : { entry with expires := expires } ∈
      (service.stored table { entry with expires := expires } true).rowsOf entry.domainTail :=
    (mem_rowsOf_stored true).2 ⟨.inl ⟨rfl, rfl⟩, rfl⟩
  rw [← same, mem_rowsOf_removed] at isRow
  exact isRow.1.2 ⟨rfl, rfl, rfl, rfl, rfl⟩

end SetCookies

/-- An accepted `Max-Age` is obeyed exactly when its sum with the clock fits
and is not the sentinel. -/
theorem maxAge_obeyed_iff {parseDate : WString → Int} {service : CookieService}
    {table : CookieTable} {url : KURL} {cookieStr appId : WString} {now age : Int}
    {parsed : ParsedCookie} (isOpen : service.db = some table)
    (accepted : parseCookie parseDate now (cookieStr.take maxCookieLen) url = some parsed)
    (hasMaxAge : HasMaxAge (cookieStr.take maxCookieLen) age) (nowFits : IsInt64 now) :
    (∀ outcome, service.MaxAgeObeyed table (parsed.entry appId) age now outcome
        (service.setCookies parseDate url cookieStr appId now outcome)) ↔
      IsInt64 (age + now) ∧ age + now ≠ -1 := by
  have ageFits : IsInt64 age := by
    obtain ⟨_, _, _, _, _, _, _, _, isAge, -⟩ := hasMaxAge
    exact isInt64_of_toInt64 isAge
  have expires : (parsed.entry appId).expires = (age + now).bmod (2 ^ 64) :=
    parseCookie_expires hasMaxAge accepted
  have afterEq (outcome : SqlOutcome) :
      service.setCookies parseDate url cookieStr appId now outcome =
        if (parsed.entry appId).expires ≠ -1 ∧ (parsed.entry appId).expires ≤ now then
          service.removed table (parsed.entry appId) outcome.deleteDone
        else
          service.stored table (parsed.entry appId) outcome.insertDone := by
    rw [setCookies, isOpen]
    dsimp only
    rw [accepted]
    rfl
  constructor
  · intro obeyed
    obtain ⟨deleted, stored, notSession⟩ := obeyed SqlOutcome.success
    rw [afterEq] at deleted stored
    by_cases fits : IsInt64 (age + now)
    · rw [expires, sum_of_fits fits] at notSession
      exact ⟨fits, notSession⟩
    exfalso
    obtain ⟨positive, wrapped⟩ | ⟨negative, wrapped⟩ := wrapped_sum ageFits nowFits fits
    · have passed : (parsed.entry appId).expires ≤ now := by
        unfold IsInt64 at ageFits
        omega
      have result := stored positive
      rw [if_pos ⟨notSession, passed⟩] at result
      exact removed_ne_stored _ result
    · have ahead : ¬ (parsed.entry appId).expires ≤ now := by
        unfold IsInt64 at ageFits
        omega
      have result := deleted negative.le
      rw [if_neg fun both => ahead both.2] at result
      exact removed_ne_stored _ result.symm
  · rintro ⟨fits, notSession⟩ outcome
    rw [sum_of_fits fits] at expires
    rw [afterEq]
    refine ⟨fun notPositive => ?_, fun positive => ?_, expires ▸ notSession⟩
    · rw [if_pos ⟨expires ▸ notSession, by omega⟩]
    · rw [if_neg fun both => absurd both.2 (by omega), ← Int.add_comm age now, ← expires]

/-- The theorem on a cookie that is to live for a minute. -/
theorem maxAge_obeyed_iff_minute :
    (∀ outcome, (start (some CookieTable.empty) 1).MaxAgeObeyed CookieTable.empty
        (ParsedCookie.entry ⟨lit ".a.b", lit "/", lit "n", lit "v", 1060, false⟩ [])
        60 1000 outcome
        ((start (some CookieTable.empty) 1).setCookies (fun _ => -1)
          ⟨lit "http", lit "a.b", 80, lit "/"⟩ (lit "n=v; max-age=60") [] 1000 outcome)) ↔
      IsInt64 (60 + 1000) ∧ (60 + 1000 : Int) ≠ -1 :=
  maxAge_obeyed_iff rfl (by decide +kernel)
    ⟨lit "n=v", [], lit " max-age=60", [], lit "60", by decide +kernel⟩ (by decide)

/-- The greatest age is added to a clock that runs: the sum wraps, and the
cookie is deleted at once. -/
theorem greatest_maxAge_not_obeyed :
    ¬ ∀ outcome, (start (some CookieTable.empty) 1).MaxAgeObeyed CookieTable.empty
        (ParsedCookie.entry ⟨lit ".a.b", lit "/", lit "n", lit "v", -9223372036854774809, false⟩ [])
        9223372036854775807 1000 outcome
        ((start (some CookieTable.empty) 1).setCookies (fun _ => -1)
          ⟨lit "http", lit "a.b", 80, lit "/"⟩
          (lit "n=v; max-age=9223372036854775807") [] 1000 outcome) := by
  intro obeyed
  have result := (obeyed SqlOutcome.success).stored (by decide)
  have rows := congrArg (fun service => (service.rowsOf (lit "a.b")).length) result
  revert rows
  decide +kernel

end CookieService
end Cookie
end PalmWebKit
