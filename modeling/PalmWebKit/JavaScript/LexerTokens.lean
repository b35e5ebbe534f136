import PalmWebKit.JavaScript.LexerNumbers
import PalmWebKit.JavaScript.LexerStrings

/-!
# Tokens as they are lexed

What a token of JSON stands for in the text, and that `lex` finds it behind
white space.
-/

namespace PalmWebKit
namespace JavaScript

open WString Json

variable {Number : Type}

/-- The text is that of a token in front of a rest; nothing is said of the
tokens that JSON has not. -/
def Lexeme (numbers : Numbers Number) : Token Number → WString → WString → Prop
  | .lBracket, text, rest => text = 91 :: rest
  | .rBracket, text, rest => text = 93 :: rest
  | .lBrace, text, rest => text = 123 :: rest
  | .rBrace, text, rest => text = 125 :: rest
  | .comma, text, rest => text = 44 :: rest
  | .colon, text, rest => text = 58 :: rest
  | .semi, text, rest => text = 59 :: rest
  | .true, text, rest => text = lit "true" ++ rest
  | .false, text, rest => text = lit "false" ++ rest
  | .null, text, rest => text = lit "null" ++ rest
  | .string token, text, rest =>
    ∃ body content, text = 34 :: (body ++ 34 :: rest) ∧ StringBody body content ∧
      token = cutString content
  | .number value, text, rest =>
    ∃ literal, text = literal ++ rest ∧ IsNumber literal ∧
      value = codeNumber numbers rest.isEmpty literal
  | .ended, text, rest => text = [] ∧ rest = []
  | _, _, _ => True

section Sound

variable {numbers : Numbers Number} {is8Bit : Bool} {text rest : WString} {token : Token Number}

theorem lexeme_of_lexString (lexed : lexString text = (token, rest)) :
    Lexeme numbers token (34 :: text) rest := by
  cases isContent : lexStringFrom [] text with
  | error message =>
    rw [lexString, isContent] at lexed
    cases lexed
    trivial
  | ok result =>
    have whole := lexed
    rw [lexString, isContent] at lexed
    cases lexed
    obtain ⟨body, content, rfl, isBody, isToken⟩ := (lexString_eq_iff _ _ _).1 whole
    exact ⟨body, content, rfl, isBody, isToken⟩

theorem lexeme_of_lexNumber (lexed : lexNumber numbers text = (token, rest)) :
    Lexeme numbers token text rest := by
  cases token with
  | number value => exact isNumber_of_lexNumber lexed
  | error message => trivial
  | _ =>
    exfalso
    unfold lexNumber at lexed
    grind

theorem lexeme_of_lexOther {unit : UChar} (lexed : lexOther is8Bit unit text = (token, rest)) :
    Lexeme numbers token (unit :: text) rest := by
  unfold lexOther at lexed
  split_ifs at lexed with isDot isAssign isSemi isLetter isQuote
  · cases lexed
    trivial
  · cases lexed
    trivial
  · cases lexed
    rw [isSemi]
    rfl
  · cases lexed
    trivial
  · cases lexed
    trivial
  · cases lexed
    trivial

/-- What `lex` finds behind white space is the text of its token. -/
theorem lexeme_of_lexToken (lexed : lexToken numbers is8Bit text = (token, rest)) :
    Lexeme numbers token text rest := by
  cases text with
  | nil =>
    cases lexed
    exact ⟨rfl, rfl⟩
  | cons unit text =>
    have behind : ∀ first others, first :: others <+: unit :: text →
        unit :: text = first :: others ++ text.drop others.length := by
      rintro first others ⟨later, isText⟩
      rw [List.cons_append] at isText
      obtain ⟨rfl, rfl⟩ := isText
      rw [List.drop_left]
      rfl
    rw [lexToken] at lexed
    by_cases lBracket : unit = 91
    · rw [if_pos lBracket] at lexed
      cases lexed
      rw [lBracket]
      rfl
    rw [if_neg lBracket] at lexed
    by_cases rBracket : unit = 93
    · rw [if_pos rBracket] at lexed
      cases lexed
      rw [rBracket]
      rfl
    rw [if_neg rBracket] at lexed
    by_cases lParen : unit = 40
    · rw [if_pos lParen] at lexed
      cases lexed
      trivial
    rw [if_neg lParen] at lexed
    by_cases rParen : unit = 41
    · rw [if_pos rParen] at lexed
      cases lexed
      trivial
    rw [if_neg rParen] at lexed
    by_cases lBrace : unit = 123
    · rw [if_pos lBrace] at lexed
      cases lexed
      rw [lBrace]
      rfl
    rw [if_neg lBrace] at lexed
    by_cases rBrace : unit = 125
    · rw [if_pos rBrace] at lexed
      cases lexed
      rw [rBrace]
      rfl
    rw [if_neg rBrace] at lexed
    by_cases comma : unit = 44
    · rw [if_pos comma] at lexed
      cases lexed
      rw [comma]
      rfl
    rw [if_neg comma] at lexed
    by_cases colon : unit = 58
    · rw [if_pos colon] at lexed
      cases lexed
      rw [colon]
      rfl
    rw [if_neg colon] at lexed
    by_cases quote : unit = doubleQuote
    · rw [if_pos quote] at lexed
      rw [quote]
      exact lexeme_of_lexString lexed
    rw [if_neg quote] at lexed
    by_cases isTrue : lit "true" <+: unit :: text
    · rw [if_pos isTrue] at lexed
      cases lexed
      exact behind _ _ isTrue
    rw [if_neg isTrue] at lexed
    by_cases isFalse : lit "false" <+: unit :: text
    · rw [if_pos isFalse] at lexed
      cases lexed
      exact behind _ _ isFalse
    rw [if_neg isFalse] at lexed
    by_cases isNull : lit "null" <+: unit :: text
    · rw [if_pos isNull] at lexed
      cases lexed
      exact behind _ _ isNull
    rw [if_neg isNull] at lexed
    by_cases isFirst : (decide (unit = dash) || isASCIIDigit unit) = true
    · rw [if_pos isFirst] at lexed
      exact lexeme_of_lexNumber lexed
    rw [if_neg isFirst] at lexed
    exact lexeme_of_lexOther lexed

/-- The token stands behind white space. -/
theorem lexeme_of_lex (lexed : lex numbers is8Bit text = (token, rest)) :
    ∃ start, White text start ∧ Lexeme numbers token start rest := by
  refine ⟨text.dropWhile isJSONWhiteSpace, ⟨text.takeWhile isJSONWhiteSpace, ?_, ?_⟩,
    lexeme_of_lexToken lexed⟩
  · rw [List.takeWhile_append_dropWhile]
  · exact fun unit isIn => List.mem_takeWhile_imp isIn

end Sound

/-! ## Texts of tokens are lexed -/

section Complete

variable (numbers : Numbers Number) (is8Bit : Bool)

/-- White space is skipped. -/
theorem lex_of_white {text start : WString} (white : White text start)
    (solid : start.dropWhile isJSONWhiteSpace = start) :
    lex numbers is8Bit text = lexToken numbers is8Bit start := by
  obtain ⟨front, rfl, allWhite⟩ := white
  rw [lex, List.dropWhile_append_of_pos allWhite, solid]

theorem lexToken_string {body content : WString} (isBody : StringBody body content)
    (rest : WString) :
    lexToken numbers is8Bit (34 :: (body ++ 34 :: rest)) = (.string (cutString content), rest) :=
  (lexString_eq_iff _ _ _).2 ⟨body, content, rfl, isBody, rfl⟩

theorem isNumberSign_of_isNumber {literal : WString} (isNumber : IsNumber literal) :
    ∃ unit others, literal = unit :: others ∧ isNumberSign unit = true := by
  obtain ⟨sign, int, fraction, exponent, rfl, isSign, isInt, -, -⟩ := isNumber
  rcases isSign with rfl | rfl
  · rcases isInt with rfl | ⟨unit, others, rfl, low, high, -⟩
    · exact ⟨48, fraction ++ exponent, rfl, by decide⟩
    · refine ⟨unit, others ++ fraction ++ exponent, rfl, ?_⟩
      have lower : (48 : UChar) ≤ unit := UInt16.le_trans (by decide) low
      simp only [isNumberSign, isASCIIDigit, lower, high, decide_true, Bool.and_self, Bool.or_true]
  · exact ⟨45, int ++ fraction ++ exponent, rfl, by decide⟩

theorem lexToken_number {literal rest : WString} (isNumber : IsNumber literal)
    (ends : EndsNumber rest) : lexToken numbers is8Bit (literal ++ rest) =
      (.number (codeNumber numbers rest.isEmpty literal), rest) := by
  rw [← lexNumber_of_isNumber numbers isNumber ends]
  obtain ⟨unit, others, rfl, isSign⟩ := isNumberSign_of_isNumber isNumber
  have differs : ∀ other, isNumberSign other = false → unit ≠ other := by
    rintro other isOther rfl
    rw [isSign] at isOther
    cases isOther
  have noWord : ∀ word : WString, (∃ first behind, word = first :: behind ∧
      isNumberSign first = false) → ¬word <+: unit :: (others ++ rest) := by
    rintro word ⟨first, behind, rfl, isOther⟩ ⟨later, isText⟩
    rw [List.cons_append, List.cons.injEq] at isText
    exact differs first isOther isText.1.symm
  have isFirst : (decide (unit = dash) || isASCIIDigit unit) = true := isSign
  rw [List.cons_append, lexToken, if_neg (differs 91 (by decide)), if_neg (differs 93 (by decide)),
    if_neg (differs 40 (by decide)), if_neg (differs 41 (by decide)),
    if_neg (differs 123 (by decide)), if_neg (differs 125 (by decide)),
    if_neg (differs 44 (by decide)), if_neg (differs 58 (by decide)),
    if_neg (differs doubleQuote (by decide)),
    if_neg (noWord (lit "true") ⟨116, _, rfl, by decide⟩),
    if_neg (noWord (lit "false") ⟨102, _, rfl, by decide⟩),
    if_neg (noWord (lit "null") ⟨110, _, rfl, by decide⟩), if_pos isFirst]

end Complete

end JavaScript
end PalmWebKit
