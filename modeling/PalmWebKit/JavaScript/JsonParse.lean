import PalmWebKit.JavaScript.ParsedTexts

/-!
# Where `JSON.parse` is exact

The readings of a tree by the parser and by the grammar are compared part by
part.  They differ at a `-0` with another character behind it and at a string
that is too long for its token, unless the part is overwritten by a later
member of the same name.
-/

namespace PalmWebKit
namespace JavaScript

open List WString Json

variable {Number : Type}

namespace Json

/-- The names of the members. -/
def memberNames : Tree → List WString
  | .member name _ rest => name :: memberNames rest
  | _ => []

/-- The length fits into its bit field. -/
def FitsToken (content : WString) : Prop := content.length < 2 ^ 31

mutual

/-- No part of a value that is kept is a `-0` or a string that is too long. -/
def KeepsValue : Tree → Prop
  | .number literal => literal ≠ [45, 48]
  | .string content => FitsToken content
  | .array elements => KeepsElements elements
  | .object members => KeepsMembers members
  | _ => True

def KeepsElements : Tree → Prop
  | .cons head tail => KeepsValue head ∧ KeepsElements tail
  | _ => True

/-- A member is not kept if another one with its name follows. -/
def KeepsMembers : Tree → Prop
  | .member name value rest =>
    FitsToken name ∧ (name ∈ memberNames rest ∨ KeepsValue value) ∧ KeepsMembers rest
  | _ => True

end

/-- A number at the end of the text is read by `parseDouble`. -/
def KeepsText (atEnd : Bool) : Tree → Prop
  | .number literal => atEnd = true ∨ literal ≠ [45, 48]
  | tree => KeepsValue tree

end Json

theorem cutString_eq_iff (content : WString) : cutString content = content ↔ FitsToken content := by
  unfold cutString FitsToken
  constructor
  · intro same
    have length := congrArg List.length same
    rw [length_take] at length
    omega
  · intro fits
    rw [Nat.mod_eq_of_lt fits, take_length]

theorem length_cutString (content : WString) : (cutString content).length < 2 ^ 31 := by
  rw [cutString, length_take]
  omega

/-! ## Members -/

section Members

variable (number : WString → Number) (string : WString → WString)

/-- A name has a value exactly if it is given one. -/
theorem meaningMembers_isSome (tree : Tree) (key : WString) :
    (meaningMembers number string tree key).isSome ↔ key ∈ (memberNames tree).map string := by
  induction tree with
  | member name value rest _ ih =>
    simp only [meaningMembers, memberNames, map_cons, mem_cons, ← ih]
    cases meaningMembers number string rest key with
    | some found => simp
    | none => by_cases same : key = string name <;> simp [same]
  | _ => simp [meaningMembers, memberNames]

end Members

section Reading

variable (numbers : Numbers Number)

/-- The names that the parser reads fit their tokens. -/
theorem fitsToken_of_read {tree : Tree} {key : WString}
    (found : (meaningMembers (codeNumber numbers false) cutString tree key).isSome) :
    FitsToken key := by
  rw [meaningMembers_isSome, mem_map] at found
  obtain ⟨name, -, rfl⟩ := found
  exact length_cutString name

/-- A name is given a value by the grammar exactly if it is one of a member. -/
theorem denoted_isSome (tree : Tree) (key : WString) :
    (meaningMembers numbers.parseDouble id tree key).isSome ↔ key ∈ memberNames tree := by
  rw [meaningMembers_isSome, map_id]

theorem read_isSome {tree : Tree} (fits : ∀ name ∈ memberNames tree, FitsToken name)
    (key : WString) : (meaningMembers (codeNumber numbers false) cutString tree key).isSome ↔
      key ∈ memberNames tree := by
  have isNames : (memberNames tree).map cutString = memberNames tree := by
    refine (map_congr_left fun name isIn => ?_).trans (map_id _)
    exact (cutString_eq_iff name).2 (fits name isIn)
  rw [meaningMembers_isSome, isNames]

variable {numbers} in
/-- Members are read as they are meant if their names fit and the values that
are kept are. -/
theorem readMember_iff {name : WString} {value rest : Tree}
    (isValue : innerValue numbers value = denotes numbers value ↔ KeepsValue value)
    (isRest : meaningMembers (codeNumber numbers false) cutString rest =
      meaningMembers numbers.parseDouble id rest ↔ KeepsMembers rest) :
    meaningMembers (codeNumber numbers false) cutString (.member name value rest) =
      meaningMembers numbers.parseDouble id (.member name value rest) ↔
      KeepsMembers (.member name value rest) := by
  constructor
  · intro same
    have fits : ∀ key ∈ memberNames (.member name value rest), FitsToken key := by
      intro key isIn
      rw [← denoted_isSome numbers, ← same] at isIn
      exact fitsToken_of_read numbers isIn
    have isName := (cutString_eq_iff name).2 (fits name ((.head _) ..))
    have isCode := read_isSome numbers fun key isIn => fits key (.tail _ isIn)
    have isDenoted := denoted_isSome numbers rest
    have restSame : meaningMembers (codeNumber numbers false) cutString rest =
        meaningMembers numbers.parseDouble id rest := by
      funext key
      have sameKey := congrFun same key
      simp only [meaningMembers] at sameKey
      by_cases isIn : key ∈ memberNames rest
      · obtain ⟨found, isFound⟩ := Option.isSome_iff_exists.1 ((isCode key).2 isIn)
        obtain ⟨meant, isMeant⟩ := Option.isSome_iff_exists.1 ((isDenoted key).2 isIn)
        rw [isFound, isMeant] at sameKey ⊢
        exact sameKey
      · rw [← isCode key, Option.not_isSome_iff_eq_none] at isIn
        have noneMeant : ¬(meaningMembers numbers.parseDouble id rest key).isSome := by
          rw [isDenoted key, ← isCode key, isIn]
          exact Bool.false_ne_true
        rw [isIn, Option.not_isSome_iff_eq_none.1 noneMeant]
    refine ⟨fits name ((.head _) ..), ?_, isRest.1 restSame⟩
    by_cases again : name ∈ memberNames rest
    · exact .inl again
    · right
      rw [← isDenoted name, Option.not_isSome_iff_eq_none] at again
      have sameName := congrFun same name
      simp only [meaningMembers, restSame, isName, id, again, if_true] at sameName
      exact isValue.1 (Option.some.inj sameName)
  · rintro ⟨fits, keeps, keepsRest⟩
    have isName := (cutString_eq_iff name).2 fits
    funext key
    simp only [meaningMembers, isRest.2 keepsRest, isName, id]
    cases isFound : meaningMembers numbers.parseDouble id rest key with
    | some found => rfl
    | none =>
      by_cases same : key = name
      · subst same
        rcases keeps with again | keepsValue
        · rw [← denoted_isSome numbers, isFound] at again
          cases again
        · have isInner := isValue.2 keepsValue
          simp only [innerValue, denotes] at isInner
          rw [isInner]
      · simp only [if_neg same]

end Reading

/-! ## Values -/

section Exact

variable {numbers : Numbers Number} {integer : Bool → Nat → Number}

/-- For each nonterminal the reading of the parser is that of the grammar. -/
def ReadsExactly (numbers : Numbers Number) : Kind → Tree → Prop
  | .value, tree => innerValue numbers tree = denotes numbers tree ↔ KeepsValue tree
  | .elements, tree =>
    meaningElements (codeNumber numbers false) cutString tree =
      meaningElements numbers.parseDouble id tree ↔ KeepsElements tree
  | .members, tree =>
    meaningMembers (codeNumber numbers false) cutString tree =
      meaningMembers numbers.parseDouble id tree ↔ KeepsMembers tree

theorem readsExactly_of_derives (reads : ReadsIntegers numbers integer) {kind : Kind}
    {text rest : WString} {tree : Tree} (derives : Derives kind text tree rest) :
    ReadsExactly numbers kind tree := by
  have isArray : ∀ elements, ReadsExactly numbers .elements elements →
      ReadsExactly numbers .value (.array elements) := by
    intro elements exact
    simpa only [ReadsExactly, innerValue, denotes, meaning, JSValue.array.injEq, KeepsValue]
      using exact
  have isObject : ∀ members, ReadsExactly numbers .members members →
      ReadsExactly numbers .value (.object members) := by
    intro members exact
    simpa only [ReadsExactly, innerValue, denotes, meaning, JSValue.object.injEq, KeepsValue]
      using exact
  have isElement : ∀ value rest, ReadsExactly numbers .value value →
      ReadsExactly numbers .elements rest → ReadsExactly numbers .elements (.cons value rest) := by
    intro value rest isValue isRest
    simp only [ReadsExactly, meaningElements, KeepsElements, List.cons.injEq]
    exact and_congr isValue isRest
  induction derives with
  | null | true | false => exact iff_of_true rfl trivial
  | number isNumber =>
    simp only [ReadsExactly, innerValue, denotes, meaning, JSValue.number.injEq, KeepsValue]
    exact codeNumber_eq_iff reads isNumber
  | string isBody =>
    simp only [ReadsExactly, innerValue, denotes, meaning, JSValue.string.injEq, KeepsValue, id]
    exact cutString_eq_iff _
  | emptyArray white => exact isArray _ (iff_of_true rfl trivial)
  | array derives inner => exact isArray _ inner
  | emptyObject white => exact isObject _ (iff_of_true rfl trivial)
  | object derives inner => exact isObject _ inner
  | element front derives back inner => exact isElement _ _ inner (iff_of_true rfl trivial)
  | elements front derives back others inner otherInner => exact isElement _ _ inner otherInner
  | member front isBody isColon space derives back inner =>
    exact readMember_iff inner (iff_of_true rfl trivial)
  | members front isBody isColon space derives back others inner otherInner =>
    exact readMember_iff inner otherInner

theorem readValue_eq_denotes_iff (reads : ReadsIntegers numbers integer) {start rest : WString}
    {tree : Tree} (derives : Derives .value start tree rest) (atEnd : Bool) :
    readValue numbers atEnd tree = denotes numbers tree ↔ KeepsText atEnd tree := by
  have inner := readsExactly_of_derives reads derives
  cases tree with
  | number literal =>
    cases atEnd with
    | false =>
      simp only [ReadsExactly, KeepsValue] at inner
      rw [readValue_false]
      simpa only [KeepsText, Bool.false_eq_true, false_or] using inner
    | true => exact iff_of_true rfl (.inl rfl)
  | _ => exact inner

end Exact

/-! ## Texts -/

section Text

variable {numbers : Numbers Number} {integer : Bool → Nat → Number}

/-- `JSON.parse` returns the value of a text exactly if it is one of JSON. -/
def ParsesExactly (numbers : Numbers Number) (is8Bit : Bool) (text : WString) : Prop :=
  ∀ value, ParsesTo numbers is8Bit text value ↔
    ∃ tree, IsText text tree ∧ denotes numbers tree = value

/-- More turns do not change what is returned. -/
theorem tryLiteralParse_mono {is8Bit : Bool} {text : WString} {turns more : Nat}
    {value : JSValue Number} (isLess : turns ≤ more)
    (isValue : tryLiteralParse numbers is8Bit turns text = some value) :
    tryLiteralParse numbers is8Bit more text = some value := by
  obtain ⟨others, rfl⟩ := Nat.exists_eq_add_of_le isLess
  unfold tryLiteralParse at isValue ⊢
  rw [Progress.run_add]
  split at isValue
  next found lexer isDone =>
    rw [isDone, Progress.run_done]
    exact isValue
  · cases isValue

theorem ParsesTo.unique {is8Bit : Bool} {text : WString} {value other : JSValue Number}
    (one : ParsesTo numbers is8Bit text value) (two : ParsesTo numbers is8Bit text other) :
    value = other := by
  obtain ⟨turns, isValue⟩ := one
  obtain ⟨more, isOther⟩ := two
  have first := tryLiteralParse_mono (Nat.le_max_left turns more) isValue
  have second := tryLiteralParse_mono (Nat.le_max_right turns more) isOther
  exact Option.some.inj (first.symm.trans second)

/-- `JSON.parse` is exact for the texts without a semicolon behind the value
whose strings fit, and in which a `-0` stands at the end only or is
overwritten. -/
theorem parsesExactly_iff (reads : ReadsIntegers numbers integer) (is8Bit : Bool) (text : WString) :
    ParsesExactly numbers is8Bit text ↔ (∀ tree, ¬HasSemicolon text tree) ∧
      ∀ start tree behind, White text start → Derives .value start tree behind →
        White behind [] → KeepsText behind.isEmpty tree := by
  constructor
  · intro exact
    refine ⟨fun tree semicolon => ?_, fun start tree behind white derives isEnd => ?_⟩
    · obtain ⟨start, rest, later, white, derives, isSemicolon, isEnd⟩ := semicolon
      have parsed := (parsesTo_iff numbers is8Bit text _).2
        ⟨tree, rest, ⟨start, white, derives, .inr ⟨later, isSemicolon, isEnd⟩⟩, rfl⟩
      obtain ⟨other, isText, -⟩ := (exact _).1 parsed
      exact not_hasSemicolon isText ⟨start, rest, later, white, derives, isSemicolon, isEnd⟩
    · have parsed := (parsesTo_iff numbers is8Bit text _).2
        ⟨tree, behind, ⟨start, white, derives, .inl isEnd⟩, rfl⟩
      have meant := (exact _).2 ⟨tree, ⟨start, behind, white, derives, isEnd⟩, rfl⟩
      exact (readValue_eq_denotes_iff reads derives _).1 (parsed.unique meant)
  · rintro ⟨noSemicolon, keeps⟩ value
    rw [parsesTo_iff]
    constructor
    · rintro ⟨tree, rest, ⟨start, white, derives, isEnd | ⟨later, isSemicolon, isEnd⟩⟩, rfl⟩
      · refine ⟨tree, ⟨start, rest, white, derives, isEnd⟩, ?_⟩
        exact ((readValue_eq_denotes_iff reads derives _).2
          (keeps start tree rest white derives isEnd)).symm
      · exact absurd ⟨start, rest, later, white, derives, isSemicolon, isEnd⟩ (noSemicolon tree)
    · rintro ⟨tree, ⟨start, rest, white, derives, isEnd⟩, rfl⟩
      refine ⟨tree, rest, ⟨start, white, derives, .inl isEnd⟩, ?_⟩
      exact (readValue_eq_denotes_iff reads derives _).2
        (keeps start tree rest white derives isEnd)

/-- Numbers that are integers with a sign; the part of a literal behind its
integer is not read. -/
def sampleNumbers : Numbers (Bool × Nat) where
  parseDouble literal :=
    (literal.head? = some dash,
      decimal ((if literal.head? = some dash then literal.tail else literal).takeWhile
        isASCIIDigit))
  ofInt value := (decide (value < 0), value.natAbs)

theorem readsIntegers_sampleNumbers : ReadsIntegers sampleNumbers Prod.mk where
  parseDouble_eq negative digits isInt := by
    have allDigits := allDigits_of_isInt isInt
    have isTaken : digits.takeWhile isASCIIDigit = digits :=
      takeWhile_eq_self_iff.2 fun unit isIn => allDigits unit isIn
    cases negative with
    | true => simp [sampleNumbers, signText, dash, isTaken]
    | false =>
      have noDash : digits.head? ≠ some dash := by
        intro isHead
        exact absurd (allDigits dash (mem_of_mem_head? isHead)) (by decide)
      simp [sampleNumbers, signText, noDash, isTaken]
  ofInt_eq value bound := rfl
  zeros_differ := by decide

/-- A text of one number. -/
theorem parsesExactly_iff_minusZero :
    ReadsIntegers sampleNumbers Prod.mk ∧ (ParsesExactly sampleNumbers true (lit "-0") ↔
        (∀ tree, ¬HasSemicolon (lit "-0") tree) ∧
        ∀ start tree behind, White (lit "-0") start → Derives .value start tree behind →
          White behind [] → KeepsText behind.isEmpty tree) :=
  ⟨readsIntegers_sampleNumbers, parsesExactly_iff readsIntegers_sampleNumbers true (lit "-0")⟩

/-- In an array `-0` is read as `0`. -/
theorem not_parsesExactly_arrayOfMinusZero : ¬ParsesExactly sampleNumbers true (lit "[-0]") := by
  intro exact
  have parsed : ParsesTo sampleNumbers true (lit "[-0]") (.array [.number (false, 0)]) := ⟨5, rfl⟩
  have isNumber : IsNumber [45, 48] :=
    ⟨[45], [48], [], [], rfl, .inr rfl, .inl rfl, .inl rfl, .inl rfl⟩
  have isElement : Derives .elements (lit "-0]") (.cons (.number [45, 48]) .nil) (lit "]") :=
    Derives.element (white_refl _) (Derives.number isNumber) (white_refl _)
  have isText : IsText (lit "[-0]") (.array (.cons (.number [45, 48]) .nil)) :=
    ⟨_, [], white_refl _, Derives.array isElement, white_refl _⟩
  have meant := (exact _).2 ⟨_, isText, rfl⟩
  have same := parsed.unique meant
  simp only [denotes, meaning, meaningElements, JSValue.array.injEq, List.cons.injEq,
    JSValue.number.injEq] at same
  exact absurd same.1 (by decide)

end Text

end JavaScript
end PalmWebKit
