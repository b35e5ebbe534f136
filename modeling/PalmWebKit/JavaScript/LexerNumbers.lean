import PalmWebKit.JavaScript.JsonGrammar

/-!
# Numbers as they are lexed

`lexNumber` reads exactly the numbers of the grammar, each as far as it goes.
A short integer with another character behind it is converted as an `int`,
every other number by `parseDouble`.
-/

namespace PalmWebKit
namespace JavaScript

open List WString Json

variable {Number : Type}

/-- Nothing that digits could go on with. -/
def EndsDigits (rest : WString) : Prop := ∀ unit, rest.head? = some unit → isASCIIDigit unit = false

/-- No exponent. -/
def EndsExponent (rest : WString) : Prop :=
  ∀ unit, rest.head? = some unit → isExponentSign unit = false

/-- Nothing that a number could go on with. -/
def EndsNumber (rest : WString) : Prop :=
  ∀ unit, rest.head? = some unit →
    isASCIIDigit unit = false ∧ unit ≠ dot ∧ isExponentSign unit = false

def isNumberSign (unit : UChar) : Bool := unit = dash || isASCIIDigit unit

/-- What the loop of the short integers may convert. -/
def isShortInteger (literal : WString) : Bool := literal.length < 10 && literal.all isNumberSign

/-- What a literal is read as, at the end of the text and elsewhere. -/
def codeNumber (numbers : Numbers Number) (atEnd : Bool) (literal : WString) : Number :=
  if !atEnd && isShortInteger literal then numbers.ofInt (intValue literal)
  else numbers.parseDouble literal

/-! ## Digits -/

theorem dropWhile_digits {digits rest : WString}
    (allDigits : ∀ unit ∈ digits, isASCIIDigit unit = true) (ends : EndsDigits rest) :
    (digits ++ rest).dropWhile isASCIIDigit = rest := by
  rw [dropWhile_append_of_pos allDigits]
  cases rest with
  | nil => rfl
  | cons unit rest =>
    have other := ends unit rfl
    simp only [dropWhile_cons, other, Bool.false_eq_true, if_false]

variable {text rest : WString}

theorem isDigits_of_lexDigits (lexed : lexDigits text = some rest) :
    ∃ digits, text = digits ++ rest ∧ IsDigits digits := by
  cases text with
  | nil => cases lexed
  | cons unit text =>
    simp only [lexDigits] at lexed
    split_ifs at lexed with isDigit
    cases lexed
    refine ⟨unit :: text.takeWhile isASCIIDigit, ?_, by simp, ?_⟩
    · rw [cons_append, takeWhile_append_dropWhile]
    · intro other isIn
      rcases mem_cons.1 isIn with rfl | isIn
      · exact isDigit
      · exact mem_takeWhile_imp isIn

theorem lexDigits_of_isDigits {digits rest : WString} (isDigits : IsDigits digits)
    (ends : EndsDigits rest) : lexDigits (digits ++ rest) = some rest := by
  obtain ⟨nonempty, allDigits⟩ := isDigits
  cases digits with
  | nil => exact absurd rfl nonempty
  | cons unit digits =>
    have first := allDigits unit ((.head _) ..)
    have others := dropWhile_digits
      (fun other isIn => allDigits other (.tail _ isIn)) ends
    simp only [cons_append, lexDigits, first, if_true, others]

/-! ## The parts of a number -/

theorem isInt_of_lexInt (lexed : lexInt text = some rest) :
    ∃ sign int, text = sign ++ int ++ rest ∧ (sign = [] ∨ sign = [45]) ∧ IsInt int := by
  have unsigned : ∀ text : WString, lexInt (dash :: text) = some rest →
      ∃ int, text = int ++ rest ∧ IsInt int := by
    intro text lexed
    cases text with
    | nil => cases lexed
    | cons unit text =>
      simp only [lexInt, if_true] at lexed
      split_ifs at lexed with isZero isFirst
      · cases lexed
        exact ⟨[48], by rw [isZero]; rfl, Or.inl rfl⟩
      · cases lexed
        simp only [Bool.and_eq_true, decide_eq_true_eq] at isFirst
        refine ⟨unit :: text.takeWhile isASCIIDigit, ?_,
          .inr ⟨unit, _, rfl, isFirst.1, isFirst.2, ?_⟩⟩
        · rw [cons_append, takeWhile_append_dropWhile]
        · exact fun other isIn => mem_takeWhile_imp isIn
  cases text with
  | nil => cases lexed
  | cons unit text =>
    by_cases isDash : unit = dash
    · rw [isDash] at lexed
      obtain ⟨int, isText, isInt⟩ := unsigned text lexed
      exact ⟨[45], int, by rw [isDash, isText]; rfl, Or.inr rfl, isInt⟩
    · simp only [lexInt, if_neg isDash] at lexed
      obtain ⟨int, isText, isInt⟩ := unsigned (unit :: text) (by simpa only [lexInt, if_true])
      exact ⟨[], int, by rw [isText]; rfl, Or.inl rfl, isInt⟩

theorem lexInt_of_isInt {sign int rest : WString} (isSign : sign = [] ∨ sign = [45])
    (isInt : IsInt int) (ends : EndsDigits rest) : lexInt (sign ++ int ++ rest) = some rest := by
  rcases isInt with rfl | ⟨unit, others, rfl, low, high, allDigits⟩
  · rcases isSign with rfl | rfl <;> rfl
  · have isDrop := dropWhile_digits allDigits ends
    have notDash : unit ≠ dash := fun same => absurd (same ▸ low) (by decide)
    have notZero : unit ≠ 48 := fun same => absurd (same ▸ low) (by decide)
    have isFirst : (decide (49 ≤ unit) && decide (unit ≤ 57)) = true := by
      simp only [low, high, decide_true, Bool.and_self]
    rcases isSign with rfl | rfl
    · simp only [nil_append, cons_append, lexInt, if_neg notDash, if_neg notZero,
        isFirst, if_true, isDrop]
    · have isDash : (45 : UChar) = dash := rfl
      simp only [nil_append, cons_append, lexInt, if_pos isDash, if_neg notZero,
        isFirst, if_true, isDrop]

/-- Where no exponent begins, there is none. -/
theorem isExponent_of_lexExponent (lexed : lexExponent text = some rest) :
    ∃ exponent, text = exponent ++ rest ∧ IsExponent exponent ∧
      (exponent = [] → EndsExponent text) := by
  cases text with
  | nil =>
    cases lexed
    exact ⟨[], rfl, .inl rfl, fun _ unit isHead => by cases isHead⟩
  | cons unit text =>
    simp only [lexExponent] at lexed
    split_ifs at lexed with isSign
    · have isLetter : unit = 101 ∨ unit = 69 := by
        simpa only [isExponentSign, Bool.or_eq_true, decide_eq_true_eq] using isSign
      have assemble : ∀ sign digits, text = sign ++ digits ++ rest →
          (sign = [] ∨ sign = [43] ∨ sign = [45]) → IsDigits digits →
          ∃ exponent, unit :: text = exponent ++ rest ∧ IsExponent exponent ∧
            (exponent = [] → EndsExponent (unit :: text)) := by
        intro sign digits isText isSign isDigits
        refine ⟨unit :: (sign ++ digits), by rw [isText]; simp, Or.inr ⟨sign, digits, ?_, isSign,
          isDigits⟩, fun isNil => by cases isNil⟩
        rcases isLetter with rfl | rfl
        · exact .inl rfl
        · exact .inr rfl
      cases text with
      | nil => cases lexed
      | cons sign text =>
        simp only [] at lexed
        split_ifs at lexed with isPlusOrMinus
        · obtain ⟨digits, isText, isDigits⟩ := isDigits_of_lexDigits lexed
          refine assemble [sign] digits (by rw [isText]; rfl) ?_ isDigits
          simp only [Bool.or_eq_true, decide_eq_true_eq] at isPlusOrMinus
          rcases isPlusOrMinus with rfl | rfl
          · exact .inr (.inr rfl)
          · exact .inr (.inl rfl)
        · obtain ⟨digits, isText, isDigits⟩ := isDigits_of_lexDigits lexed
          exact assemble [] digits isText (.inl rfl) isDigits
    · cases lexed
      refine ⟨[], rfl, .inl rfl, fun _ other isHead => ?_⟩
      cases isHead
      exact Bool.eq_false_iff.2 isSign

theorem lexExponent_of_isExponent {exponent rest : WString} (isExponent : IsExponent exponent)
    (ends : EndsNumber rest) : lexExponent (exponent ++ rest) = some rest := by
  have endsDigits : EndsDigits rest := fun unit isHead => (ends unit isHead).1
  rcases isExponent with rfl | ⟨sign, digits, isExponent, isSign, isDigits⟩
  · cases rest with
    | nil => rfl
    | cons unit rest =>
      have other := (ends unit rfl).2.2
      simp only [nil_append, lexExponent, other, Bool.false_eq_true, if_false]
  · have isDrop := lexDigits_of_isDigits isDigits endsDigits
    have behindLetter : lexExponent (101 :: (sign ++ digits ++ rest)) = some rest := by
      rcases isSign with rfl | rfl | rfl
      · obtain ⟨nonempty, allDigits⟩ := isDigits
        cases digits with
        | nil => exact absurd rfl nonempty
        | cons unit digits =>
          have isDigit := allDigits unit ((.head _) ..)
          have noSign : (decide (unit = dash) || decide (unit = 43)) = false := by
            simp only [Bool.or_eq_false_iff, decide_eq_false_iff_not]
            exact ⟨fun same => absurd (same ▸ isDigit) (by decide),
              fun same => absurd (same ▸ isDigit) (by decide)⟩
          have isLetter : isExponentSign 101 = true := by decide
          simp only [nil_append, cons_append, lexExponent, isLetter, if_true, noSign,
            Bool.false_eq_true, if_false]
          exact isDrop
      · exact isDrop
      · exact isDrop
    rcases isExponent with rfl | rfl
    · exact behindLetter
    · exact behindLetter

/-! ## The fast path -/

theorem before_append (front rest : WString) : before (front ++ rest) rest = front := by
  rw [before, length_append, Nat.add_sub_cancel, take_left]

theorem isShortInteger_eq_false {literal : WString} {unit : UChar} (isIn : unit ∈ literal)
    (other : isNumberSign unit = false) : isShortInteger literal = false := by
  rw [isShortInteger, Bool.and_eq_false_iff]
  refine .inr (Bool.eq_false_iff.2 fun all => ?_)
  rw [all_eq_true.1 all unit isIn] at other
  cases other

theorem isShortInteger_of_isInt {sign int : WString} (isSign : sign = [] ∨ sign = [45])
    (isInt : IsInt int) : isShortInteger (sign ++ int) = decide ((sign ++ int).length < 10) := by
  have ofDigit : ∀ unit, isASCIIDigit unit = true → isNumberSign unit = true := by
    intro unit isDigit
    rw [isNumberSign, isDigit, Bool.or_true]
  have allInt : int.all isNumberSign = true := by
    rw [all_eq_true]
    rcases isInt with rfl | ⟨unit, others, rfl, low, high, allDigits⟩
    · intro unit isIn
      rw [mem_singleton.1 isIn]
      decide
    · intro other isIn
      rcases mem_cons.1 isIn with rfl | isIn
      · refine ofDigit other ?_
        have lower : (48 : UChar) ≤ other := UInt16.le_trans (by decide) low
        simp only [isASCIIDigit, lower, high, decide_true, Bool.and_self]
      · exact ofDigit other (allDigits other isIn)
  have allSign : sign.all isNumberSign = true := by rcases isSign with rfl | rfl <;> decide
  rw [isShortInteger, all_append, allSign, allInt, Bool.and_self, Bool.and_true]

theorem codeNumber_eq_parseDouble {numbers : Numbers Number} {atEnd : Bool} {literal : WString}
    {unit : UChar} (isIn : unit ∈ literal) (other : isNumberSign unit = false) :
    codeNumber numbers atEnd literal = numbers.parseDouble literal := by
  rw [codeNumber, isShortInteger_eq_false isIn other, Bool.and_false]
  rfl

/-- What is read as a number is one, and the loop of the short integers only
runs in front of another character. -/
theorem isNumber_of_lexNumber {numbers : Numbers Number} {value : Number}
    (lexed : lexNumber numbers text = (.number value, rest)) :
    ∃ literal, text = literal ++ rest ∧ IsNumber literal ∧
      value = codeNumber numbers rest.isEmpty literal := by
  -- The exponent and `parseDouble`, which all branches but the fast one share.
  have finished : ∀ sign int fraction behind later, text = sign ++ int ++ fraction ++ behind →
      (sign = [] ∨ sign = [45]) → IsInt int → IsFraction fraction →
      (EndsExponent behind → fraction = [] → behind = [] ∨ 10 ≤ (sign ++ int).length) →
      lexExponent behind = some later →
      ((.number (numbers.parseDouble (before text later)), later) : Token Number × WString) =
        (.number value, rest) →
      ∃ literal, text = literal ++ rest ∧ IsNumber literal ∧
        value = codeNumber numbers rest.isEmpty literal := by
    intro sign int fraction behind later isText isSign isInt isFraction noFastPath isLater lexed
    simp only [Prod.mk.injEq, Token.number.injEq] at lexed
    obtain ⟨rfl, rfl⟩ := lexed
    obtain ⟨exponent, isBehind, isExponent, noExponent⟩ := isExponent_of_lexExponent isLater
    have isLiteral : text = sign ++ int ++ fraction ++ exponent ++ later := by
      rw [isText, isBehind]
      simp only [append_assoc]
    refine ⟨_, isLiteral, ⟨sign, int, fraction, exponent, rfl, isSign, isInt, isFraction,
      isExponent⟩, ?_⟩
    have isBefore : before text later = sign ++ int ++ fraction ++ exponent := by
      rw [isLiteral, before_append]
    have noShort : (!later.isEmpty && isShortInteger (sign ++ int ++ fraction ++ exponent)) =
        false := by
      rw [Bool.and_eq_false_iff]
      rcases isFraction with rfl | ⟨digits, rfl, -⟩
      · rcases isExponent with rfl | ⟨expSign, digits, rfl | rfl, -⟩
        · rcases noFastPath (noExponent rfl) rfl with isNil | long
          · left
            rw [isBehind] at isNil
            rw [nil_append] at isNil
            rw [isNil]
            rfl
          · right
            rw [append_nil, append_nil, isShortInteger_of_isInt isSign isInt]
            exact decide_eq_false (by omega)
        · exact .inr (@isShortInteger_eq_false _ 101 (by simp) (by decide))
        · exact .inr (@isShortInteger_eq_false _ 69 (by simp) (by decide))
      · exact .inr (@isShortInteger_eq_false _ 46 (by simp) (by decide))
    rw [isBefore, codeNumber, noShort]
    rfl
  unfold lexNumber at lexed
  split at lexed
  · simp at lexed
  -- The text ends behind the integer.
  next isBehind =>
    obtain ⟨sign, int, isText, isSign, isInt⟩ := isInt_of_lexInt isBehind
    exact finished sign int [] [] [] (by simpa using isText) isSign isInt (Or.inl rfl)
      (fun _ _ => .inl rfl) rfl lexed
  next unit behind isBehind =>
    obtain ⟨sign, int, isText, isSign, isInt⟩ := isInt_of_lexInt isBehind
    have isBefore : before text (unit :: behind) = sign ++ int := by rw [isText, before_append]
    rw [isBefore] at lexed
    split_ifs at lexed with isDot isFast
    · split at lexed
      · simp at lexed
      next later isLater =>
        obtain ⟨digits, isDigitsText, isDigits⟩ := isDigits_of_lexDigits isLater
        dsimp only at lexed
        split at lexed
        · simp at lexed
        next behindExponent isBehindExponent =>
          refine finished sign int (46 :: digits) later behindExponent ?_ isSign isInt
            (.inr ⟨digits, rfl, isDigits⟩) (fun _ isNil => by cases isNil) isBehindExponent lexed
          rw [isText, isDot, isDigitsText]
          simp [dot]
    · obtain ⟨rfl, rfl⟩ := lexed
      simp only [Bool.and_eq_true, decide_eq_true_eq] at isFast
      refine ⟨sign ++ int, isText, ⟨sign, int, [], [], by simp, isSign, isInt, Or.inl rfl,
        .inl rfl⟩, ?_⟩
      rw [codeNumber, isShortInteger_of_isInt isSign isInt, decide_eq_true isFast.2]
      rfl
    · dsimp only at lexed
      split at lexed
      · simp at lexed
      next later isLater =>
        refine finished sign int [] (unit :: behind) later (by simpa using isText) isSign isInt
          (.inl rfl) ?_ isLater lexed
        intro noExponent _
        right
        have noSign := noExponent unit rfl
        simp only [noSign, Bool.not_false, Bool.true_and, decide_eq_true_eq] at isFast
        omega

/-- A number of the grammar is read, if what is behind it does not go on with
it. -/
theorem lexNumber_of_isNumber (numbers : Numbers Number) {literal rest : WString}
    (isNumber : IsNumber literal) (ends : EndsNumber rest) : lexNumber numbers (literal ++ rest) =
      (.number (codeNumber numbers rest.isEmpty literal), rest) := by
  obtain ⟨sign, int, fraction, exponent, rfl, isSign, isInt, isFraction, isExponent⟩ := isNumber
  have isLexExponent := lexExponent_of_isExponent isExponent ends
  have endsExponent : EndsDigits (exponent ++ rest) := by
    rcases isExponent with rfl | ⟨expSign, digits, rfl | rfl, -⟩
    · exact fun unit isHead => (ends unit isHead).1
    · rintro unit ⟨⟩
      decide
    · rintro unit ⟨⟩
      decide
  rcases isFraction with rfl | ⟨digits, rfl, isDigits⟩
  · have isLexInt := lexInt_of_isInt isSign isInt endsExponent
    have isText : sign ++ int ++ [] ++ exponent ++ rest = sign ++ int ++ (exponent ++ rest) := by
      simp
    rw [isText, lexNumber, isLexInt]
    rcases isExponent with rfl | ⟨expSign, digits, isLetter, -⟩
    · cases rest with
      | nil =>
        have isBefore := before_append (sign ++ int) []
        rw [append_nil] at isBefore
        simp [lexExponent, isBefore, codeNumber]
      | cons unit rest =>
        have noDot := (ends unit rfl).2.1
        have noSign := (ends unit rfl).2.2
        have isBefore := before_append (sign ++ int) (unit :: rest)
        simp only [nil_append, append_nil, if_neg noDot, noSign, Bool.not_false,
          Bool.true_and, isBefore, decide_eq_true_eq, codeNumber, isEmpty_cons,
          isShortInteger_of_isInt isSign isInt]
        rw [nil_append] at isLexExponent
        split_ifs
        · rfl
        · rw [isLexExponent]
          simp only [isBefore]
    · have isBefore := before_append (sign ++ int ++ exponent) rest
      rw [append_assoc (sign ++ int)] at isBefore
      have isParsed : codeNumber numbers rest.isEmpty (sign ++ int ++ [] ++ exponent) =
          numbers.parseDouble (sign ++ int ++ exponent) := by
        rw [append_nil]
        rcases isLetter with rfl | rfl
        · exact @codeNumber_eq_parseDouble Number numbers _ _ 101 (by simp) (by decide)
        · exact @codeNumber_eq_parseDouble Number numbers _ _ 69 (by simp) (by decide)
      rw [isParsed]
      rcases isLetter with rfl | rfl
      all_goals
        simp only [cons_append] at isLexExponent isBefore ⊢
        have notDot : ¬(101 : UChar) = dot ∧ ¬(69 : UChar) = dot := by decide
        have isSignLetter : isExponentSign 101 = true ∧ isExponentSign 69 = true := by decide
        simp only [notDot.1, notDot.2, isSignLetter.1, isSignLetter.2, Bool.not_true,
          Bool.false_and, Bool.false_eq_true, if_false, isLexExponent, isBefore]
  · have endsFraction : EndsDigits (46 :: digits ++ (exponent ++ rest)) := by
      rintro unit ⟨⟩
      decide
    have isLexInt := lexInt_of_isInt isSign isInt endsFraction
    have isText : sign ++ int ++ 46 :: digits ++ exponent ++ rest =
        sign ++ int ++ (46 :: digits ++ (exponent ++ rest)) := by
      simp
    have isLexDigits := lexDigits_of_isDigits isDigits endsExponent
    have isBefore := before_append (sign ++ int ++ 46 :: digits ++ exponent) rest
    rw [isText] at isBefore
    have isParsed : codeNumber numbers rest.isEmpty (sign ++ int ++ 46 :: digits ++ exponent) =
        numbers.parseDouble (sign ++ int ++ 46 :: digits ++ exponent) :=
      @codeNumber_eq_parseDouble Number numbers _ _ 46 (by simp) (by decide)
    rw [isText, isParsed, lexNumber, isLexInt]
    simp only [cons_append] at isBefore ⊢
    have isDot : (46 : UChar) = dot := rfl
    simp only [if_pos isDot, isLexDigits, isLexExponent, isBefore]

end JavaScript
end PalmWebKit
