import PalmWebKit.JavaScript.ParserSoundness
import PalmWebKit.JavaScript.ShortIntegers

/-!
# The texts that are parsed

`JSON.parse` returns a value for a text exactly if the text is one of JSON, or
one of JSON with a semicolon behind it.
-/

namespace PalmWebKit
namespace JavaScript

open List WString Json

variable {Number : Type}

namespace Json

/-- A value, and what `tryLiteralParse` accepts behind it. -/
def IsAccepted (text : WString) (tree : Tree) (rest : WString) : Prop :=
  ∃ start, White text start ∧ Derives .value start tree rest ∧
    (White rest [] ∨ ∃ later, White rest (59 :: later) ∧ White later [])

/-- A JSON text with a semicolon behind it. -/
def HasSemicolon (text : WString) (tree : Tree) : Prop :=
  ∃ start rest later, White text start ∧ Derives .value start tree rest ∧
    White rest (59 :: later) ∧ White later []

end Json

section Parses

variable (numbers : Numbers Number) (is8Bit : Bool)

theorem lexerAt_of_white_nil {text : WString} (white : White text []) :
    lexerAt numbers is8Bit text = ⟨.ended, []⟩ := by
  rw [lexerAt, lex_of_white numbers is8Bit white rfl]
  rfl

theorem finishParse_iff (value result : JSValue Number) (rest : WString) :
    finishParse numbers is8Bit value (lexerAt numbers is8Bit rest) = some result ↔
      (White rest [] ∨ ∃ later, White rest (59 :: later) ∧ White later []) ∧ value = result := by
  constructor
  · intro isResult
    generalize isLexer : lexerAt numbers is8Bit rest = lexer at isResult
    obtain ⟨token, later⟩ := lexer
    have ended : ∀ text behind, lexerAt numbers is8Bit text = ⟨.ended, behind⟩ →
        White text [] := by
      intro text behind isLexer
      obtain ⟨start, white, rfl, -⟩ := lexeme_of_lexerAt isLexer
      exact white
    cases token with
    | semi =>
      have semicolon := white_of_lexerAt isLexer fun _ same => same
      cases isNext : Lexer.next numbers is8Bit ⟨.semi, later⟩ with
      | mk token behind =>
        simp only [finishParse, isNext] at isResult
        cases token with
        | ended =>
          exact ⟨.inr ⟨later, semicolon, ended later behind isNext⟩, Option.some.inj isResult⟩
        | _ => cases isResult
    | ended => exact ⟨.inl (ended rest later isLexer), Option.some.inj isResult⟩
    | _ => cases isResult
  · rintro ⟨white | ⟨later, semicolon, white⟩, rfl⟩
    · rw [lexerAt_of_white_nil numbers is8Bit white]
      rfl
    · have isLexer : lexerAt numbers is8Bit rest = ⟨.semi, later⟩ :=
        lexerAt_of_white numbers is8Bit semicolon (by decide) rfl
      have isNext : Lexer.next numbers is8Bit ⟨.semi, later⟩ = ⟨.ended, []⟩ :=
        lexerAt_of_white_nil numbers is8Bit white
      rw [isLexer]
      simp only [finishParse, isNext]

/-- The texts that are parsed, and to what. -/
theorem parsesTo_iff (text : WString) (value : JSValue Number) :
    ParsesTo numbers is8Bit text value ↔
      ∃ tree rest, IsAccepted text tree rest ∧ readValue numbers rest.isEmpty tree = value := by
  constructor
  · rintro ⟨turns, isValue⟩
    unfold tryLiteralParse at isValue
    split at isValue
    next found lexer isDone =>
      obtain ⟨fewer, rfl, isStep⟩ := exists_step_of_run isDone
      obtain ⟨start, tree, rest, white, derives, some, -, ends⟩ :=
        (soundFor fewer).expression text _ rfl isStep
      simp only [Parser.returns, Progress.run_done, Progress.done.injEq] at ends
      obtain ⟨rfl, rfl⟩ := ends
      obtain ⟨closes, isRead⟩ := (finishParse_iff ..).1 isValue
      exact ⟨tree, rest, ⟨start, white, derives, closes⟩, isRead⟩
    · cases isValue
  · rintro ⟨tree, rest, ⟨start, white, derives, closes⟩, rfl⟩
    have ends : EndsNumber rest := by
      rcases closes with white | ⟨later, semicolon, -⟩
      · exact endsNumber_of_white white endsNumber_nil
      · exact endsNumber_of_white semicolon (endsNumber_cons later (by decide))
    obtain ⟨turns, isDone⟩ := reads_of_derives derives ends text
      { state := .startParseExpression, lexer := lexerAt numbers is8Bit text } white rfl
    refine ⟨turns + 1, ?_⟩
    have isRun : Progress.run numbers is8Bit (turns + 1)
        (.running
          { state := .startParseExpression, lexer := lexerAt numbers is8Bit text }) =
        .done (readValue numbers rest.isEmpty tree) (lexerAt numbers is8Bit rest) := isDone
    rw [tryLiteralParse, isRun]
    exact (finishParse_iff ..).2 ⟨closes, rfl⟩

end Parses

/-! ## The last character of a text -/

namespace Json

/-- A character that may end a JSON text. -/
def IsSolid (unit : UChar) : Prop := isJSONWhiteSpace unit = false ∧ unit ≠ 59

theorem isSolid_of_isASCIIDigit {unit : UChar} (isDigit : isASCIIDigit unit = true) :
    IsSolid unit := by
  constructor
  · cases isWhite : isJSONWhiteSpace unit with
    | false => rfl
    | true =>
      simp only [isJSONWhiteSpace, Bool.or_eq_true, beq_iff_eq] at isWhite
      rcases isWhite with ((rfl | rfl) | rfl) | rfl <;> exact absurd isDigit (by decide)
  · rintro rfl
    exact absurd isDigit (by decide)

theorem suffix_of_white {text rest : WString} (white : White text rest) : rest <:+ text := by
  obtain ⟨front, rfl, -⟩ := white
  exact suffix_append _ _

theorem suffix_of_name {text body colon between : WString}
    (front : White text (34 :: (body ++ 34 :: colon))) (isColon : White colon (58 :: between)) :
    between <:+ text := by
  have inBody : colon <:+ 34 :: (body ++ 34 :: colon) := ⟨34 :: (body ++ [34]), by simp⟩
  have inColon : between <:+ colon := (suffix_cons _ _).trans (suffix_of_white isColon)
  exact (inColon.trans inBody).trans (suffix_of_white front)

/-- The rest of a derivation is that of its text. -/
theorem suffix_of_derives {kind : Kind} {text rest : WString} {tree : Tree}
    (derives : Derives kind text tree rest) : rest <:+ text := by
  induction derives with
  | null | true | false | number isNumber => exact suffix_append _ _
  | @string body content rest isBody => exact ⟨34 :: (body ++ [34]), by simp⟩
  | emptyArray white | emptyObject white =>
    exact ((suffix_cons _ _).trans (suffix_of_white white)).trans (suffix_cons _ _)
  | array derives inner | object derives inner =>
    exact ((suffix_cons _ _).trans inner).trans (suffix_cons _ _)
  | element front derives back inner =>
    exact ((suffix_of_white back).trans inner).trans (suffix_of_white front)
  | elements front derives back others inner otherInner =>
    exact ((((otherInner.trans (suffix_cons _ _)).trans (suffix_of_white back)).trans
      inner).trans (suffix_of_white front))
  | member front isBody isColon space derives back inner =>
    exact ((suffix_of_white back).trans inner).trans
      ((suffix_of_white space).trans (suffix_of_name front isColon))
  | members front isBody isColon space derives back others inner otherInner =>
    exact (((otherInner.trans (suffix_cons _ _)).trans (suffix_of_white back)).trans
      inner).trans ((suffix_of_white space).trans (suffix_of_name front isColon))

theorem isSolid_of_isNumber {literal : WString} (isNumber : IsNumber literal) :
    ∀ unit ∈ literal, IsSolid unit := by
  have ofDigits : ∀ digits : WString, (∀ unit ∈ digits, isASCIIDigit unit = true) →
      ∀ unit ∈ digits, IsSolid unit :=
    fun digits allDigits unit isIn => isSolid_of_isASCIIDigit (allDigits unit isIn)
  obtain ⟨sign, int, fraction, exponent, rfl, isSign, isInt, isFraction, isExponent⟩ := isNumber
  intro unit isIn
  simp only [mem_append] at isIn
  rcases isIn with ((inSign | inInt) | inFraction) | inExponent
  · rcases isSign with rfl | rfl
    · cases inSign
    · rw [mem_singleton.1 inSign]
      exact ⟨by decide, by decide⟩
  · exact ofDigits int (allDigits_of_isInt isInt) unit inInt
  · rcases isFraction with rfl | ⟨digits, rfl, -, allDigits⟩
    · cases inFraction
    · rcases mem_cons.1 inFraction with rfl | inDigits
      · exact ⟨by decide, by decide⟩
      · exact ofDigits digits allDigits unit inDigits
  · rcases isExponent with rfl | ⟨expSign, digits, isExponent, isExpSign, -, allDigits⟩
    · cases inExponent
    · have inRest : ∀ letter : UChar, IsSolid letter → unit ∈ letter :: (expSign ++ digits) →
          IsSolid unit := by
        intro letter isLetter isIn
        rcases mem_cons.1 isIn with rfl | isIn
        · exact isLetter
        rcases mem_append.1 isIn with inSign | inDigits
        · rcases isExpSign with rfl | rfl | rfl
          · cases inSign
          · rw [mem_singleton.1 inSign]
            exact ⟨by decide, by decide⟩
          · rw [mem_singleton.1 inSign]
            exact ⟨by decide, by decide⟩
        · exact ofDigits digits allDigits unit inDigits
      rcases isExponent with rfl | rfl
      · exact inRest 101 ⟨by decide, by decide⟩ inExponent
      · exact inRest 69 ⟨by decide, by decide⟩ inExponent

/-- A value ends with a character that may end a text. -/
theorem solid_of_derives {start rest : WString} {tree : Tree}
    (derives : Derives .value start tree rest) :
    ∃ front last, start = front ++ last :: rest ∧ IsSolid last := by
  have closed : ∀ (first closing : UChar) (text : WString), closing :: rest <:+ text →
      IsSolid closing → ∃ front last, first :: text = front ++ last :: rest ∧ IsSolid last := by
    rintro first closing text ⟨front, rfl⟩ isSolid
    exact ⟨first :: front, closing, rfl, isSolid⟩
  cases derives with
  | null => exact ⟨lit "nul", 108, rfl, by decide, by decide⟩
  | true => exact ⟨lit "tru", 101, rfl, by decide, by decide⟩
  | false => exact ⟨lit "fals", 101, rfl, by decide, by decide⟩
  | @number literal _ isNumber =>
    have nonempty : literal ≠ [] := by
      obtain ⟨unit, others, rfl, -⟩ := isNumberSign_of_isNumber isNumber
      exact cons_ne_nil _ _
    refine ⟨literal.dropLast, literal.getLast nonempty, ?_,
      isSolid_of_isNumber isNumber _ (getLast_mem nonempty)⟩
    rw [← singleton_append, ← append_assoc, dropLast_append_getLast]
  | @string body content _ isBody => exact ⟨34 :: body, 34, rfl, by decide, by decide⟩
  | emptyArray white => exact closed _ 93 _ (suffix_of_white white) ⟨by decide, by decide⟩
  | array derives => exact closed _ 93 _ (suffix_of_derives derives) ⟨by decide, by decide⟩
  | emptyObject white => exact closed _ 125 _ (suffix_of_white white) ⟨by decide, by decide⟩
  | object derives => exact closed _ 125 _ (suffix_of_derives derives) ⟨by decide, by decide⟩

/-- The last character in front of white space. -/
theorem dropWhile_reverse {front rest : WString} {last : UChar}
    (isLast : isJSONWhiteSpace last = false) (white : White rest []) :
    (front ++ last :: rest).reverse.dropWhile isJSONWhiteSpace = last :: front.reverse := by
  obtain ⟨spaces, rfl, allWhite⟩ := white
  have allReversed : ∀ unit ∈ (spaces ++ []).reverse, isJSONWhiteSpace unit = true := by
    intro unit isIn
    rw [append_nil, mem_reverse] at isIn
    exact allWhite unit isIn
  rw [reverse_append, reverse_cons, append_assoc,
    dropWhile_append_of_pos allReversed]
  simp only [singleton_append, dropWhile_cons, isLast, Bool.false_eq_true, if_false]

/-- A text of JSON does not end with a semicolon. -/
theorem not_hasSemicolon {text : WString} {tree other : Tree} (isText : IsText text tree) :
    ¬HasSemicolon text other := by
  rintro ⟨otherStart, rest, later, white, derives, ⟨space, isRest, -⟩, behind⟩
  obtain ⟨start, after, ⟨spaces, isStart, -⟩, isValue, isEnd⟩ := isText
  obtain ⟨front, last, isFront, isSolid, noSemicolon⟩ := solid_of_derives isValue
  obtain ⟨others, isOther⟩ := (suffix_of_derives derives).trans (suffix_of_white white)
  have isLast := @dropWhile_reverse (spaces ++ front) after last isSolid isEnd
  have isSemicolon := @dropWhile_reverse (others ++ space) later 59 (by decide) behind
  have same : spaces ++ front ++ last :: after = others ++ space ++ 59 :: later := by
    rw [append_assoc, ← isFront, ← isStart, ← isOther, isRest, append_assoc]
  rw [same, isSemicolon, List.cons.injEq] at isLast
  exact noSemicolon isLast.1.symm

end Json

end JavaScript
end PalmWebKit
