import PalmWebKit.Logic.Overwriting
import PalmWebKit.Text.CodeUnits

/-!
# Headers and the disk cache

`receivedHeader` looks at one header line after the other: `Cache-Control` and
`Pragma` delete the cache entry of the transfer, `Cache-Control` and `Expires`
write its expiry.  Nothing starts afresh with the response after a redirect.
-/

namespace PalmWebKit
namespace Network
namespace CacheHeaders

open List WString Logic Overwriting

/-- `','` -/
def comma : UChar := 44

/-- `':'` -/
def colon : UChar := 58

/-- A header is Latin-1 text and is compared with ASCII keywords. -/
def equalIgnoringCase (first second : WString) : Bool := lower first == lower second

/-- `value.contains(text, false)` of a lower-case keyword. -/
def containsIgnoringCase (value text : WString) : Bool := decide (text <:+: lower value)

/-! ## `HeaderValues` -/

/-- The entries of `m_values`. -/
abbrev Entries := List (WString × WString)

/-- `HashMap::add` -/
def add (values : Entries) (key value : WString) : Entries :=
  if values.any fun entry => entry.1 == key then values else values ++ [(key, value)]

def addParam (values : Entries) (param : WString) : Entries :=
  match split (stripWhiteSpace param) equals with
  | [key] => add values key []
  | [key, value] => add values key value
  | _ => values

def headerValues (str : WString) : Entries := (split str comma).foldl addParam []

/-- The clock, the dates that curl reads, and the order in which a `HashMap`
is iterated. -/
structure Environment where
  now : Int
  getdate : WString → Int
  iterate : Entries → Entries
  iterate_perm : ∀ values, (iterate values).Perm values

section HeaderValues

variable (env : Environment) (values : Entries)

def contains (str : WString) : Bool :=
  (env.iterate values).any fun entry => equalIgnoringCase entry.1 str

def getValue (name : WString) : WString :=
  match (env.iterate values).find? fun entry => equalIgnoringCase entry.1 name with
  | some entry => entry.2
  | none => []

end HeaderValues

/-! ## `receivedHeader` -/

/-- What of a `DiskCacheEntry` the headers decide. -/
structure DiskCacheEntry where
  expiresAt : Int := 0
  headers : List WString := []

section ReceivedHeader

variable (env : Environment)

/-- `agesecs` -/
def agesecs (values : Entries) : Int :=
  let val := getValue env values (lit "max-age")
  if !val.isEmpty then toInt val
  else
    let sval := getValue env values (lit "s-maxage")
    if !sval.isEmpty then toInt sval else -1

/-- The branch for `Cache-Control`: `canCache` and the expiry. -/
def cacheControl (value : WString) : Update Int :=
  let values := headerValues value
  let refused := contains env values (lit "no-cache") || contains env values (lit "no-store") ||
    contains env values (lit "must-revalidate")
  if agesecs env values > 0 then ⟨!refused, some (env.now + agesecs env values)⟩
  else if agesecs env values = 0 then ⟨false, none⟩
  else ⟨!refused, none⟩

/-- The branch for `Pragma`. -/
def pragma (value : WString) : Update Int :=
  ⟨!(containsIgnoringCase value (lit "no-cache") ||
    containsIgnoringCase value (lit "no-store")), none⟩

/-- The branch for `Expires`. -/
def expires (value : WString) : Update Int :=
  ⟨true, some (if equalIgnoringCase value (lit "NOW") then env.now else env.getdate value)⟩

/-- Name and value of a header line. -/
def field (header : WString) : Option (WString × WString) :=
  (find header colon).map fun splitPos =>
    (stripWhiteSpace (left header splitPos), stripWhiteSpace (header.drop (splitPos + 1)))

/-- What a header line does to the cache entry. -/
def update (header : WString) : Update Int :=
  match field header with
  | none => {}
  | some (name, value) =>
    if equalIgnoringCase name (lit "Cache-Control") then cacheControl env value
    else if name = lit "Pragma" then pragma value
    else if name = lit "Expires" then expires env value
    else {}

/-- `receivedHeader`, with `m_cacheEntry`. -/
def receivedHeader (cacheEntry : Option DiskCacheEntry) (header : WString) :
    Option DiskCacheEntry :=
  if header = lit "\r\n" then cacheEntry
  else
    match cacheEntry with
    | none => none
    | some entry =>
      if (update env header).keeps then
        some
          { expiresAt := (update env header).value.getD entry.expiresAt
            headers := entry.headers ++ [header] }
      else none

/-- Whether the response may be cached, and when it expires, after the header
lines of the transfer from its start on. -/
def decision (headers : List WString) : Option Int :=
  (headers.foldl (receivedHeader env) (some {})).map DiskCacheEntry.expiresAt

end ReceivedHeader

/-! ## What the decision should depend on -/

/-- The lines are equal, or fields with the same value and, but for case, the
same name. -/
def SameHeader (first second : WString) : Prop :=
  first = second ∨ ∃ name other value,
    field first = some (name, value) ∧ field second = some (other, value) ∧
      equalIgnoringCase name other = true

/-- The lines have the same set of fields. -/
def SameFields (first second : List WString) : Prop :=
  (∀ header ∈ first, ∃ other ∈ second, SameHeader header other) ∧
    ∀ other ∈ second, ∃ header ∈ first, SameHeader header other

/-- The names of the directives of a `Cache-Control` value. -/
def directiveNames (value : WString) : List WString :=
  (split value comma).map fun param => lower ((stripWhiteSpace param).takeWhile (· != equals))

/-- The header has `no-cache` or `no-store`. -/
def Refuses (header : WString) : Prop :=
  ∃ name value, field header = some (name, value) ∧
    ((equalIgnoringCase name (lit "Cache-Control") = true ∧
        (lit "no-cache" ∈ directiveNames value ∨ lit "no-store" ∈ directiveNames value)) ∨
      (equalIgnoringCase name (lit "Pragma") = true ∧
        (containsIgnoringCase value (lit "no-cache") = true ∨
          containsIgnoringCase value (lit "no-store") = true)))

section Specification

variable (env : Environment)

/-- The header is a `Cache-Control` with that `max-age`. -/
def MaxAge (header : WString) (age : Int) : Prop :=
  ∃ name value, field header = some (name, value) ∧
    equalIgnoringCase name (lit "Cache-Control") = true ∧
    getValue env (headerValues value) (lit "max-age") ≠ [] ∧
    toInt (getValue env (headerValues value) (lit "max-age")) = age ∧ 0 < age

/-- The decision after the final response depends on its fields only, and
ranks the headers in the right order. -/
structure DecidedByFields (earlier final : List WString) : Prop where
  orderIndependent : ∀ other, SameFields final other →
    decision env (earlier ++ other) = decision env (earlier ++ final)
  redirectIndependent : decision env (earlier ++ final) = decision env final
  refusalWins : (∃ header ∈ final, Refuses header) → decision env (earlier ++ final) = none
  maxAgeWins : ∀ header ∈ final, ∀ age, MaxAge env header age →
    ∀ expiresAt, decision env (earlier ++ final) = some expiresAt → expiresAt = env.now + age

/-! ## When it does -/

/-- The update of a `Cache-Control` header. -/
def controlUpdate (header : WString) : Update Int :=
  match field header with
  | none => {}
  | some (name, value) =>
    if equalIgnoringCase name (lit "Cache-Control") then cacheControl env value else {}

/-- The expiry that a header names, whatever the case of its name. -/
def namedExpiry (header : WString) : Option Int :=
  match field header with
  | none => none
  | some (name, value) =>
    if equalIgnoringCase name (lit "Cache-Control") then (cacheControl env value).value
    else if equalIgnoringCase name (lit "Expires") then (expires env value).value
    else none

/-- A `Cache-Control` of the final response deletes the entry; or it was
deleted before, and the final response does so too; or it was not, nothing
refuses, and all expiries are the same, the one left before included unless a
`Cache-Control` names one. -/
def Settled (earlier final : List WString) : Prop :=
  (∃ header ∈ final, (controlUpdate env header).keeps = false) ∨
    ((∃ header ∈ earlier, (update env header).keeps = false) ∧
      ∃ header ∈ final, (update env header).keeps = false) ∨
    ((∀ header ∈ earlier, (update env header).keeps = true) ∧ (∀ header ∈ final, ¬Refuses header) ∧
      ∃ expiresAt, (∀ header ∈ final, ∀ named,
          namedExpiry env header = some named → named = expiresAt) ∧
        ((∃ header ∈ final, (controlUpdate env header).value.isSome = true) ∨
          (lastWritten 0 (earlier.map (update env)) = expiresAt ∧
            (expiresAt = 0 ∨ ∃ header ∈ final, (update env header).value.isSome = true))))

end Specification

/-! ## Names in another case -/

theorem equalIgnoringCase_iff (first second : WString) :
    equalIgnoringCase first second = true ↔ lower first = lower second := beq_iff_eq

theorem find_append_cons {front : WString} {unit : UChar} (notIn : unit ∉ front) (rest : WString) :
    find (front ++ unit :: rest) unit = some front.length := by
  induction front with
  | nil => exact if_pos (beq_self_eq_true unit)
  | cons first front ih =>
    have differs : (first == unit) = false :=
      beq_false_of_ne fun same => notIn (same ▸ (.head _))
    have found := ih fun member => notIn (.tail _ member)
    rw [find] at found
    rw [find, cons_append, findIdx?_cons, differs, found]
    rfl

theorem drop_of_find {text : WString} {unit : UChar} {position : Nat}
    (found : find text unit = some position) :
    text.drop position = unit :: text.drop (position + 1) := by
  obtain ⟨inside, isUnit, -⟩ := findIdx?_eq_some_iff_getElem.1 found
  rw [drop_eq_getElem_cons inside, beq_iff_eq.1 isUnit]

/-- The header under another name. -/
def rename (name header : WString) : WString := name ++ header.drop ((find header colon).getD 0)

theorem field_rename {header name old value : WString} (noColon : colon ∉ name)
    (stripped : stripWhiteSpace name = name) (isField : field header = some (old, value)) :
    field (rename name header) = some (name, value) := by
  obtain ⟨position, found, same⟩ := Option.map_eq_some_iff.1 isField
  cases same
  have renamed : rename name header = name ++ colon :: header.drop (position + 1) := by
    rw [rename, found, Option.getD_some, drop_of_find found]
  have front : left (name ++ colon :: header.drop (position + 1)) name.length = name :=
    take_left
  have behind : (name ++ colon :: header.drop (position + 1)).drop (name.length + 1) =
      header.drop (position + 1) := by
    rw [drop_length_add_append]
    rfl
  rw [field, renamed, find_append_cons noColon, Option.map_some, front, stripped, behind]

section Updates

variable {env : Environment} {header other : WString}

/-! ## One header -/

theorem update_of_no_field (noField : field header = none) :
    update env header = {} ∧ controlUpdate env header = {} ∧ namedExpiry env header = none := by
  rw [update, controlUpdate, namedExpiry, noField]
  exact ⟨rfl, rfl, rfl⟩

theorem update_of_control {name value : WString} (isField : field header = some (name, value))
    (control : equalIgnoringCase name (lit "Cache-Control") = true) :
    update env header = cacheControl env value ∧ controlUpdate env header = cacheControl env value ∧
      namedExpiry env header = (cacheControl env value).value := by
  rw [update, controlUpdate, namedExpiry, isField]
  exact ⟨if_pos control, if_pos control, if_pos control⟩

theorem update_of_other {name value : WString} (isField : field header = some (name, value))
    (notControl : ¬equalIgnoringCase name (lit "Cache-Control") = true) : (update env header =
        if name = lit "Pragma" then pragma value
        else if name = lit "Expires" then expires env value
        else {}) ∧
      controlUpdate env header = {} ∧
      namedExpiry env header =
        if equalIgnoringCase name (lit "Expires") then (expires env value).value else none := by
  rw [update, controlUpdate, namedExpiry, isField]
  exact ⟨if_neg notControl, if_neg notControl, if_neg notControl⟩

/-- An expiry that is written is named. -/
theorem namedExpiry_of_written {written : Int}
    (isWritten : (update env header).value = some written) :
    namedExpiry env header = some written := by
  cases isField : field header with
  | none =>
    rw [(update_of_no_field isField).1] at isWritten
    cases isWritten
  | some pair =>
    obtain ⟨name, value⟩ := pair
    by_cases control : equalIgnoringCase name (lit "Cache-Control") = true
    · obtain ⟨updated, -, named⟩ := @update_of_control env _ _ _ isField control
      rw [named, ← updated, isWritten]
    · obtain ⟨updated, -, named⟩ := @update_of_other env _ _ _ isField control
      rw [updated] at isWritten
      split_ifs at isWritten with isPragma isExpires
      · cases isWritten
      · rw [named, isExpires, if_pos (by decide), isWritten]

/-- A `Cache-Control` header is obeyed. -/
theorem update_of_controlUpdate (applies : controlUpdate env header ≠ {}) :
    update env header = controlUpdate env header := by
  cases isField : field header with
  | none => exact absurd (update_of_no_field isField).2.1 applies
  | some pair =>
    obtain ⟨name, value⟩ := pair
    by_cases control : equalIgnoringCase name (lit "Cache-Control") = true
    · obtain ⟨updated, isControl, -⟩ := @update_of_control env _ _ _ isField control
      rw [updated, isControl]
    · exact absurd (update_of_other isField control).2.1 applies

theorem not_keeps_of_controlUpdate (deletes : (controlUpdate env header).keeps = false) :
    (update env header).keeps = false := by
  rw [update_of_controlUpdate, deletes]
  intro nothing
  rw [nothing] at deletes
  cases deletes

theorem written_of_controlUpdate (written : (controlUpdate env header).value.isSome = true) :
    (update env header).value.isSome = true := by
  rw [update_of_controlUpdate, written]
  intro nothing
  rw [nothing] at written
  cases written

/-- An entry is deleted by a `Cache-Control` header or by a refusal. -/
theorem control_or_refuses (deletes : (update env header).keeps = false) :
    (controlUpdate env header).keeps = false ∨ Refuses header := by
  cases isField : field header with
  | none =>
    rw [(update_of_no_field isField).1] at deletes
    cases deletes
  | some pair =>
    obtain ⟨name, value⟩ := pair
    by_cases control : equalIgnoringCase name (lit "Cache-Control") = true
    · obtain ⟨updated, isControl, -⟩ := @update_of_control env _ _ _ isField control
      rw [isControl, ← updated]
      exact .inl deletes
    · rw [(update_of_other isField control).1] at deletes
      split_ifs at deletes with isPragma isExpires
      · refine .inr ⟨name, value, isField, .inr ⟨?_, ?_⟩⟩
        · rw [isPragma]
          decide
        · rw [pragma, Bool.not_eq_false', Bool.or_eq_true] at deletes
          exact deletes
      · cases deletes

theorem namedExpiry_of_maxAge {age : Int} (isMaxAge : MaxAge env header age) :
    namedExpiry env header = some (env.now + age) := by
  obtain ⟨name, value, isField, control, given, isAge, positive⟩ := isMaxAge
  have seconds : agesecs env (headerValues value) = age := by
    rw [← isAge]
    exact if_pos (by rw [Bool.not_eq_true', isEmpty_eq_false_iff]; exact given)
  rw [(update_of_control isField control).2.2, cacheControl, seconds, if_pos positive]

/-! ## The same header in another case -/

theorem SameHeader.refl (header : WString) : SameHeader header header := .inl rfl

/-- Comparing with a keyword does not depend on the case of the name. -/
theorem equalIgnoringCase_congr {first second keyword : WString}
    (same : equalIgnoringCase first second = true) :
    equalIgnoringCase first keyword = equalIgnoringCase second keyword := by
  rw [equalIgnoringCase, equalIgnoringCase, (equalIgnoringCase_iff first second).1 same]

theorem SameHeader.controlUpdate_eq (same : SameHeader header other) :
    controlUpdate env header = controlUpdate env other := by
  rcases same with rfl | ⟨name, otherName, value, isField, isOther, sameName⟩
  · rfl
  · rw [controlUpdate, controlUpdate, isField, isOther]
    dsimp only
    rw [equalIgnoringCase_congr sameName]

theorem SameHeader.namedExpiry_eq (same : SameHeader header other) :
    namedExpiry env header = namedExpiry env other := by
  rcases same with rfl | ⟨name, otherName, value, isField, isOther, sameName⟩
  · rfl
  · rw [namedExpiry, namedExpiry, isField, isOther]
    dsimp only
    rw [equalIgnoringCase_congr sameName, equalIgnoringCase_congr sameName]

theorem SameHeader.refuses (same : SameHeader header other) (refuses : Refuses other) :
    Refuses header := by
  rcases same with rfl | ⟨name, otherName, value, isField, isOther, sameName⟩
  · exact refuses
  · obtain ⟨found, content, isFound, kind⟩ := refuses
    cases isOther.symm.trans isFound
    refine ⟨name, value, isField, ?_⟩
    rwa [equalIgnoringCase_congr sameName, equalIgnoringCase_congr sameName]

/-- Every header can be written so that only `Cache-Control` is obeyed. -/
theorem exists_quiet (env : Environment) (header : WString) :
    ∃ other, SameHeader header other ∧ update env other = controlUpdate env header := by
  cases isField : field header with
  | none =>
    obtain ⟨updated, isControl, -⟩ := @update_of_no_field env _ isField
    exact ⟨header, SameHeader.refl header, updated.trans isControl.symm⟩
  | some pair =>
    obtain ⟨name, value⟩ := pair
    by_cases control : equalIgnoringCase name (lit "Cache-Control") = true
    · obtain ⟨updated, isControl, -⟩ := @update_of_control env _ _ _ isField control
      exact ⟨header, SameHeader.refl header, updated.trans isControl.symm⟩
    · rw [(update_of_other isField control).2.1]
      by_cases isPragma : equalIgnoringCase name (lit "pragma") = true
      · have renamed := field_rename (by decide) (by decide : _ = lit "pragma") isField
        refine ⟨_, .inr ⟨name, lit "pragma", value, isField, renamed, isPragma⟩, ?_⟩
        rw [(update_of_other renamed (by decide)).1, if_neg (by decide), if_neg (by decide)]
      · by_cases isExpires : equalIgnoringCase name (lit "expires") = true
        · have renamed := field_rename (by decide) (by decide : _ = lit "expires") isField
          refine ⟨_, .inr ⟨name, lit "expires", value, isField, renamed, isExpires⟩, ?_⟩
          rw [(update_of_other renamed (by decide)).1, if_neg (by decide), if_neg (by decide)]
        · refine ⟨header, SameHeader.refl header, ?_⟩
          rw [(update_of_other isField control).1, if_neg, if_neg]
          · rintro rfl
            exact isExpires (by decide)
          · rintro rfl
            exact isPragma (by decide)

/-- Every header can be written so that its expiry is obeyed. -/
theorem exists_loud {named : Int} (isNamed : namedExpiry env header = some named) :
    ∃ other, SameHeader header other ∧ (update env other).value = some named := by
  cases isField : field header with
  | none =>
    rw [(update_of_no_field isField).2.2] at isNamed
    cases isNamed
  | some pair =>
    obtain ⟨name, value⟩ := pair
    by_cases control : equalIgnoringCase name (lit "Cache-Control") = true
    · obtain ⟨updated, -, isExpiry⟩ := @update_of_control env _ _ _ isField control
      exact ⟨header, SameHeader.refl header, by rw [updated, ← isExpiry, isNamed]⟩
    · rw [(update_of_other isField control).2.2] at isNamed
      split_ifs at isNamed with isExpires
      have renamed := field_rename (by decide) (by decide : _ = lit "Expires") isField
      refine ⟨_, .inr ⟨name, lit "Expires", value, isField, renamed, isExpires⟩, ?_⟩
      rw [(update_of_other renamed (by decide)).1, if_neg (by decide), if_pos rfl, isNamed]

end Updates

/-! ## All headers of a transfer -/

section Runs

variable {env : Environment} {earlier final : List WString}

theorem receivedHeader_expiresAt (cacheEntry : Option DiskCacheEntry) (header : WString) :
    (receivedHeader env cacheEntry header).map DiskCacheEntry.expiresAt =
      (update env header).apply (cacheEntry.map DiskCacheEntry.expiresAt) := by
  unfold receivedHeader
  by_cases isEnd : header = lit "\r\n"
  · have noField : field header = none := by
      rw [isEnd]
      decide
    rw [if_pos isEnd, (update_of_no_field noField).1]
    cases cacheEntry <;> rfl
  · rw [if_neg isEnd]
    cases cacheEntry with
    | none => rfl
    | some entry =>
      dsimp only
      rw [Option.map_some, Update.apply]
      split <;> rfl

/-- The decision is what the updates leave. -/
theorem decision_eq (headers : List WString) :
    decision env headers = applyAll (some 0) (headers.map (update env)) := by
  have general (cacheEntry : Option DiskCacheEntry) :
      (headers.foldl (receivedHeader env) cacheEntry).map DiskCacheEntry.expiresAt =
        applyAll (cacheEntry.map DiskCacheEntry.expiresAt) (headers.map (update env)) := by
    induction headers generalizing cacheEntry with
    | nil => rfl
    | cons header headers ih =>
      rw [foldl_cons, ih, receivedHeader_expiresAt]
      rfl
  exact general (some {})

theorem decision_append (front rest : List WString) :
    decision env (front ++ rest) = applyAll (decision env front) (rest.map (update env)) := by
  rw [decision_eq, decision_eq, map_append, applyAll_append]

theorem decision_of_deleted {headers : List WString}
    (deleted : ∃ header ∈ headers, (update env header).keeps = false) :
    decision env headers = none := by
  obtain ⟨header, member, deletes⟩ := deleted
  rw [decision_eq]
  exact applyAll_of_discarded ⟨_, mem_map_of_mem member, deletes⟩ _

theorem decision_of_kept {headers : List WString}
    (kept : ∀ header ∈ headers, (update env header).keeps = true) :
    decision env headers = some (lastWritten 0 (headers.map (update env))) := by
  rw [decision_eq]
  exact applyAll_of_kept (forall_mem_map.2 kept) _

theorem SameFields.refl (headers : List WString) : SameFields headers headers :=
  ⟨fun header member => ⟨header, member, SameHeader.refl header⟩,
    fun header member => ⟨header, member, SameHeader.refl header⟩⟩

theorem SameFields.cons {header other : WString} {headers others : List WString}
    (same : SameHeader header other) (sameRest : SameFields headers others) :
    SameFields (header :: headers) (other :: others) := by
  refine ⟨forall_mem_cons.2 ⟨⟨other, .head _, same⟩, ?_⟩,
    forall_mem_cons.2 ⟨⟨header, .head _, same⟩, ?_⟩⟩
  · intro member isMember
    obtain ⟨found, isFound, sameFound⟩ := sameRest.1 member isMember
    exact ⟨found, .tail _ isFound, sameFound⟩
  · intro member isMember
    obtain ⟨found, isFound, sameFound⟩ := sameRest.2 member isMember
    exact ⟨found, .tail _ isFound, sameFound⟩

/-- A header may come once more, in another case. -/
theorem sameFields_append {header other : WString} (member : header ∈ final)
    (same : SameHeader header other) : SameFields final (final ++ [other]) := by
  refine ⟨fun first isFirst => ⟨first, mem_append_left _ isFirst, SameHeader.refl first⟩, ?_⟩
  intro last isLast
  rcases mem_append.1 isLast with isFinal | isOther
  · exact ⟨last, isFinal, SameHeader.refl last⟩
  · cases mem_singleton.1 isOther
    exact ⟨header, member, same⟩

/-- The headers can be written so that only `Cache-Control` is obeyed. -/
theorem exists_quiet_fields (env : Environment) (final : List WString) :
    ∃ others, SameFields final others ∧
      others.map (update env) = final.map (controlUpdate env) := by
  induction final with
  | nil => exact ⟨[], SameFields.refl [], rfl⟩
  | cons header final ih =>
    obtain ⟨others, sameRest, isQuiet⟩ := ih
    obtain ⟨other, same, otherQuiet⟩ := exists_quiet env header
    exact ⟨other :: others, SameFields.cons same sameRest, by
      rw [map_cons, map_cons, otherQuiet, isQuiet]⟩

/-! ## Both directions -/

/-- A transfer whose entry is deleted anyway. -/
theorem decidedByFields_of_deleted
    (deletes : ∀ other, SameFields final other → decision env (earlier ++ other) = none)
    (alone : decision env final = none) : DecidedByFields env earlier final where
  orderIndependent other same := by rw [deletes other same, deletes final (SameFields.refl final)]
  redirectIndependent := by rw [deletes final (SameFields.refl final), alone]
  refusalWins _ := deletes final (SameFields.refl final)
  maxAgeWins header _ age _ expiresAt decided := by
    rw [deletes final (SameFields.refl final)] at decided
    cases decided

/-- A transfer whose headers agree on the expiry. -/
theorem decidedByFields_of_decided {expiresAt : Int}
    (decides : ∀ other, SameFields final other → decision env (earlier ++ other) = some expiresAt)
    (alone : decision env final = some expiresAt) (unrefused : ∀ header ∈ final, ¬Refuses header)
    (agree : ∀ header ∈ final, ∀ named, namedExpiry env header = some named → named = expiresAt) :
    DecidedByFields env earlier final where
  orderIndependent other same := by rw [decides other same, decides final (SameFields.refl final)]
  redirectIndependent := by rw [decides final (SameFields.refl final), alone]
  refusalWins := fun ⟨header, member, refuses⟩ => absurd refuses (unrefused header member)
  maxAgeWins header member age isMaxAge decided isDecided := by
    rw [decides final (SameFields.refl final)] at isDecided
    cases isDecided
    exact (agree header member _ (namedExpiry_of_maxAge isMaxAge)).symm

theorem decidedByFields_of_settled (settled : Settled env earlier final) :
    DecidedByFields env earlier final := by
  by_cases controlled : ∃ header ∈ final, (controlUpdate env header).keeps = false
  · obtain ⟨header, member, deletes⟩ := controlled
    refine decidedByFields_of_deleted (fun other same => ?_) ?_
    · obtain ⟨found, isFound, sameHeader⟩ := same.1 header member
      rw [sameHeader.controlUpdate_eq] at deletes
      exact decision_of_deleted ⟨found, mem_append_right _ isFound,
        not_keeps_of_controlUpdate deletes⟩
    · exact decision_of_deleted ⟨header, member, not_keeps_of_controlUpdate deletes⟩
  rcases settled with deleted | ⟨⟨header, member, deletes⟩, deleted⟩ |
    ⟨earlierKept, unrefused, expiresAt, agree, source⟩
  · exact absurd deleted controlled
  · refine decidedByFields_of_deleted (fun other _ => ?_) (decision_of_deleted deleted)
    exact decision_of_deleted ⟨header, mem_append_left _ member, deletes⟩
  · have kept (other : List WString) (same : SameFields final other) :
        ∀ header ∈ other, (update env header).keeps = true := by
      intro header member
      obtain ⟨original, isOriginal, sameHeader⟩ := same.2 header member
      by_contra deletes
      rcases control_or_refuses (Bool.not_eq_true _ ▸ deletes) with deleted | refuses
      · exact controlled ⟨original, isOriginal, by rwa [sameHeader.controlUpdate_eq]⟩
      · exact unrefused original isOriginal (sameHeader.refuses refuses)
    have agrees (other : List WString) (same : SameFields final other) :
        ∀ change ∈ other.map (update env), ∀ written,
          change.value = some written → written = expiresAt := by
      rw [forall_mem_map]
      intro header member written isWritten
      obtain ⟨original, isOriginal, sameHeader⟩ := same.2 header member
      refine agree original isOriginal written ?_
      rw [sameHeader.namedExpiry_eq, namedExpiry_of_written isWritten]
    refine decidedByFields_of_decided (fun other same => ?_) ?_ unrefused agree
    · rw [decision_append, decision_of_kept earlierKept, applyAll_of_kept
        (forall_mem_map.2 (kept other same))]
      rcases source with ⟨header, member, written⟩ | ⟨left, -⟩
      · obtain ⟨found, isFound, sameHeader⟩ := same.1 header member
        rw [sameHeader.controlUpdate_eq] at written
        rw [lastWritten_of_agree (agrees other same)
          ⟨_, mem_map_of_mem isFound, written_of_controlUpdate written⟩]
      · rw [left, lastWritten_of_held (agrees other same)]
    · have same := SameFields.refl final
      rw [decision_of_kept (kept final same)]
      rcases source with ⟨header, member, written⟩ | ⟨-, rfl | ⟨header, member, written⟩⟩
      · rw [lastWritten_of_agree (agrees final same)
          ⟨_, mem_map_of_mem member, written_of_controlUpdate written⟩]
      · rw [lastWritten_of_held (agrees final same)]
      · rw [lastWritten_of_agree (agrees final same) ⟨_, mem_map_of_mem member, written⟩]

theorem settled_of_decidedByFields (decided : DecidedByFields env earlier final) :
    Settled env earlier final := by
  by_cases controlled : ∃ header ∈ final, (controlUpdate env header).keeps = false
  · exact .inl controlled
  right
  by_cases deleted : ∃ header ∈ earlier, (update env header).keeps = false
  · refine .inl ⟨deleted, ?_⟩
    by_contra kept
    have both : decision env (earlier ++ final) = none := by
      obtain ⟨header, member, deletes⟩ := deleted
      exact decision_of_deleted ⟨header, mem_append_left _ member, deletes⟩
    rw [decided.redirectIndependent, decision_of_kept] at both
    · cases both
    · intro header member
      by_contra deletes
      exact kept ⟨header, member, Bool.not_eq_true _ ▸ deletes⟩
  · right
    have earlierKept : ∀ header ∈ earlier, (update env header).keeps = true := by
      intro header member
      by_contra deletes
      exact deleted ⟨header, member, Bool.not_eq_true _ ▸ deletes⟩
    have controlKept : ∀ change ∈ final.map (controlUpdate env), change.keeps = true := by
      rw [forall_mem_map]
      intro header member
      by_contra deletes
      exact controlled ⟨header, member, Bool.not_eq_true _ ▸ deletes⟩
    -- written quietly, the headers leave what `Cache-Control` and the earlier ones wrote
    obtain ⟨others, same, quiet⟩ := exists_quiet_fields env final
    have outcome := decided.orderIndependent others same
    rw [decision_append, decision_of_kept earlierKept, quiet, applyAll_of_kept controlKept]
      at outcome
    refine ⟨earlierKept, ?_, lastWritten (lastWritten 0 (earlier.map (update env)))
      (final.map (controlUpdate env)), ?_, ?_⟩
    · intro header member refuses
      rw [decided.refusalWins ⟨header, member, refuses⟩] at outcome
      cases outcome
    · intro header member named isNamed
      obtain ⟨other, sameHeader, written⟩ := exists_loud isNamed
      have once := decided.orderIndependent _ (sameFields_append member sameHeader)
      rw [← append_assoc, decision_append, ← outcome, map_singleton, applyAll,
        foldl_cons, Update.apply, written] at once
      split at once
      · exact Option.some_inj.1 once
      · cases once
    · by_cases written : ∃ header ∈ final, (controlUpdate env header).value.isSome = true
      · exact .inl written
      · right
        have unwritten : lastWritten (lastWritten 0 (earlier.map (update env)))
            (final.map (controlUpdate env)) = lastWritten 0 (earlier.map (update env)) := by
          refine lastWritten_of_unwritten (forall_mem_map.2 fun header member => ?_) _
          by_contra some
          exact written ⟨header, member, Option.isSome_iff_ne_none.2 some⟩
        refine ⟨unwritten.symm, ?_⟩
        by_cases active : ∃ header ∈ final, (update env header).value.isSome = true
        · exact .inr active
        · left
          have finalUnwritten : lastWritten 0 (final.map (update env)) = 0 := by
            refine lastWritten_of_unwritten (forall_mem_map.2 fun header member => ?_) _
            by_contra some
            exact active ⟨header, member, Option.isSome_iff_ne_none.2 some⟩
          have finalKept : ∀ header ∈ final, (update env header).keeps = true := by
            intro header member
            by_contra deletes
            rw [decided.redirectIndependent,
              decision_of_deleted ⟨header, member, Bool.not_eq_true _ ▸ deletes⟩] at outcome
            cases outcome
          rw [decided.redirectIndependent, decision_of_kept finalKept, finalUnwritten] at outcome
          exact Option.some_inj.1 outcome

end Runs

/-- The decision depends on the fields of the final response alone exactly
when they settle it. -/
theorem decidedByFields_iff (env : Environment) (earlier final : List WString) :
    DecidedByFields env earlier final ↔ Settled env earlier final :=
  ⟨settled_of_decidedByFields, decidedByFields_of_settled⟩

/-- A clock at zero, no dates, and maps iterated in the order of insertion. -/
def plainEnvironment : Environment where
  now := 0
  getdate _ := -1
  iterate values := values
  iterate_perm := .refl

/-- The header that comes last decides. -/
theorem expiry_depends_on_order : ¬DecidedByFields plainEnvironment []
      [lit "Cache-Control: max-age=60\r\n", lit "Expires: now\r\n"] := by
  intro decided
  have swapped := decided.orderIndependent
    [lit "Expires: now\r\n", lit "Cache-Control: max-age=60\r\n"]
    ⟨fun header member => ⟨header, by simpa [or_comm] using member, Or.inl rfl⟩,
      fun header member => ⟨header, by simpa [or_comm] using member, Or.inl rfl⟩⟩
  exact absurd swapped (by decide)

end CacheHeaders
end Network
end PalmWebKit
