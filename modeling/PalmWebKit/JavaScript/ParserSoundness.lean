import PalmWebKit.JavaScript.ParserCompleteness

/-!
# What is parsed is JSON

A run of the parser that returns has read what derives a tree.  The induction
is on the number of turns; it takes the states at which expressions, arrays and
objects begin together.
-/

namespace PalmWebKit
namespace JavaScript

open WString Json

variable {Number : Type}

section Sound

variable (numbers : Numbers Number) (is8Bit : Bool) (value : JSValue Number) (lexer : Lexer Number)

/-- The parser returns within some turns. -/
def EndsWithin (turns : Nat) (progress : Progress Number) : Prop :=
  ∃ fewer ≤ turns, Progress.run numbers is8Bit fewer progress = .done value lexer

/-- What a run to the end says of the text in front of it. -/
structure SoundFor (turns : Nat) : Prop where
  expression : ∀ text (parser : Parser Number), parser.lexer = lexerAt numbers is8Bit text →
    Progress.run numbers is8Bit turns (parser.startParseExpression numbers is8Bit) =
      .done value lexer →
    ∃ start tree rest, White text start ∧ Derives .value start tree rest ∧
      EndsWithin numbers is8Bit value lexer turns
        (parser.returns (lexerAt numbers is8Bit rest) (readValue numbers rest.isEmpty tree))
  array : ∀ (parser : Parser Number) elements stack, parser.objectStack = .array elements :: stack →
    Progress.run numbers is8Bit turns (parser.doParseArrayStartExpression numbers is8Bit) =
      .done value lexer →
    (parser.lexer.currentToken ≠ .comma ∧ ∃ rest, White parser.lexer.rest (93 :: rest) ∧
      EndsWithin numbers is8Bit value lexer turns
        ({ parser with objectStack := stack }.returns (lexerAt numbers is8Bit rest)
          (.array elements))) ∨
    ∃ tree rest, Derives .elements parser.lexer.rest tree (93 :: rest) ∧
      EndsWithin numbers is8Bit value lexer turns
        ({ parser with objectStack := stack }.returns (lexerAt numbers is8Bit rest)
          (readElements numbers elements tree))
  object : ∀ (parser : Parser Number) properties stack,
    parser.objectStack = .object properties :: stack →
    Progress.run numbers is8Bit turns (parser.doParseObjectStartExpression numbers is8Bit) =
      .done value lexer →
    ∃ tree rest, Derives .members parser.lexer.rest tree (125 :: rest) ∧
      EndsWithin numbers is8Bit value lexer turns
        ({ parser with objectStack := stack }.returns (lexerAt numbers is8Bit rest)
          (readMembers numbers properties tree))

variable {numbers is8Bit value lexer}

theorem EndsWithin.mono {turns more : Nat} {progress : Progress Number}
    (ends : EndsWithin numbers is8Bit value lexer turns progress) (isLess : turns ≤ more) :
    EndsWithin numbers is8Bit value lexer more progress := by
  obtain ⟨fewer, isFewer, isDone⟩ := ends
  exact ⟨fewer, isFewer.trans isLess, isDone⟩

variable
  {turns : Nat}
  {parser : Parser Number}

/-- A run that returns has a first turn. -/
theorem exists_step_of_run
    (isDone : Progress.run numbers is8Bit turns (.running parser) = .done value lexer) :
    ∃ fewer, turns = fewer + 1 ∧
      Progress.run numbers is8Bit fewer (parser.step numbers is8Bit) = .done value lexer := by
  cases turns with
  | zero => cases isDone
  | succ fewer => exact ⟨fewer, rfl, isDone⟩

theorem run_failed_ne {error : ParseError} {other : Lexer Number} :
    Progress.run numbers is8Bit turns (.failed error other) ≠ .done value lexer := by
  rw [Progress.run_failed]
  exact fun same => nomatch same

theorem lexeme_of_lexerAt {text rest : WString} {token : Token Number}
    (isLexer : lexerAt numbers is8Bit text = ⟨token, rest⟩) :
    ∃ start, White text start ∧ Lexeme numbers token start rest := by
  refine @lexeme_of_lex _ numbers is8Bit _ _ _ ?_
  rw [Lexer.mk.injEq] at isLexer
  exact Prod.ext isLexer.1 isLexer.2

/-- White space in front of a single character. -/
theorem white_of_lexerAt {text rest : WString} {token : Token Number} {unit : UChar}
    (isLexer : lexerAt numbers is8Bit text = ⟨token, rest⟩)
    (isUnit : ∀ start, Lexeme numbers token start rest → start = unit :: rest) :
    White text (unit :: rest) := by
  obtain ⟨start, white, isLexeme⟩ := lexeme_of_lexerAt isLexer
  rw [← isUnit start isLexeme]
  exact white

/-- The element in front of the state behind it. -/
theorem sound_element (below : ∀ fewer < turns, SoundFor numbers is8Bit value lexer fewer)
    {inside : Lexer Number} {text : WString} {back : ParserState}
    (isLexer : inside = lexerAt numbers is8Bit text) {names : List WString}
    (isDone : Progress.run numbers is8Bit turns
      (.running
        { parser with
          state := .startParseExpression
          lexer := inside
          identifierStack := names
          stateStack := back :: parser.stateStack }) = .done value lexer) :
    ∃ start tree rest fewer, White text start ∧ Derives .value start tree rest ∧ fewer + 2 ≤ turns ∧
      Progress.run numbers is8Bit fewer
        (Parser.step numbers is8Bit
          (parser.behindValue back (lexerAt numbers is8Bit rest)
            (readValue numbers rest.isEmpty tree) names)) = .done value lexer := by
  obtain ⟨fewer, rfl, isStep⟩ := exists_step_of_run isDone
  obtain ⟨start, tree, rest, white, derives, behind, isFewer, isBehind⟩ :=
    (below fewer (Nat.lt_succ_self _)).expression text _ isLexer isStep
  obtain ⟨later, rfl, isLater⟩ := exists_step_of_run isBehind
  exact ⟨start, tree, rest, later, white, derives, by omega, isLater⟩

theorem readValue_of_white {rest later : WString} {unit : UChar}
    (white : White rest (unit :: later)) (tree : Tree) :
    readValue numbers rest.isEmpty tree = innerValue numbers tree := by
  have isInner : rest.isEmpty = false := by simpa using ne_nil_of_white white
  rw [isInner, readValue_false]

variable (below : ∀ fewer < turns, SoundFor numbers is8Bit value lexer fewer)
include below

theorem sound_array {elements stack : List (JSValue Number)}
    (isStack : parser.objectStack = .array elements :: stack)
    (isDone : Progress.run numbers is8Bit turns
      (parser.doParseArrayStartExpression numbers is8Bit) = .done value lexer) :
    (parser.lexer.currentToken ≠ .comma ∧ ∃ rest, White parser.lexer.rest (93 :: rest) ∧
      EndsWithin numbers is8Bit value lexer turns
        ({ parser with objectStack := stack }.returns (lexerAt numbers is8Bit rest)
          (.array elements))) ∨
    ∃ tree rest, Derives .elements parser.lexer.rest tree (93 :: rest) ∧
      EndsWithin numbers is8Bit value lexer turns
        ({ parser with objectStack := stack }.returns (lexerAt numbers is8Bit rest)
          (readElements numbers elements tree)) := by
  rw [Parser.doParseArrayStartExpression] at isDone
  generalize isNext : parser.lexer.next numbers is8Bit = next at isDone
  obtain ⟨token, rest⟩ := next
  simp only [] at isDone
  split at isDone
  · left
    have white := white_of_lexerAt isNext fun _ same => same
    split at isDone
    · exact absurd isDone run_failed_ne
    next noComma =>
      refine ⟨noComma, rest, white, turns, le_rfl, ?_⟩
      rw [← isDone]
      simp only [Parser.takeObject, isStack]
      rfl
  · right
    obtain ⟨start, tree, behind, fewer, front, derives, isFewer, isEnd⟩ :=
      sound_element below isNext.symm isDone
    change Progress.run numbers is8Bit fewer (Parser.doParseArrayEndExpression numbers is8Bit _) =
      .done value lexer at isEnd
    generalize isBehind : lexerAt numbers is8Bit behind = after at isEnd
    obtain ⟨token, later⟩ := after
    cases token with
    | comma =>
      have back := white_of_lexerAt isBehind fun _ same => same
      rw [doParseArrayEnd_of_comma isStack, readValue_of_white back] at isEnd
      obtain ⟨again, rfl, isAgain⟩ := exists_step_of_run isEnd
      rcases (below again (by omega)).array _ _ stack rfl isAgain with
        ⟨noComma, -⟩ | ⟨others, rest, isOthers, ends⟩
      · exact absurd rfl noComma
      · refine ⟨.cons tree others, rest, Derives.elements front derives back isOthers, ?_⟩
        rw [readElements_cons]
        exact ends.mono (by omega)
    | rBracket =>
      have back := white_of_lexerAt isBehind fun _ same => same
      rw [doParseArrayEnd_of_rBracket isStack, readValue_of_white back] at isEnd
      refine ⟨.cons tree .nil, later, Derives.element front derives back, fewer, by omega, ?_⟩
      rw [readElements_cons]
      simpa only [readElements, meaningElements, List.append_nil] using isEnd
    | _ => exact absurd isEnd run_failed_ne

theorem sound_object {properties : WString → Option (JSValue Number)}
    {stack : List (JSValue Number)} (isStack : parser.objectStack = .object properties :: stack)
    (isDone : Progress.run numbers is8Bit turns
      (parser.doParseObjectStartExpression numbers is8Bit) = .done value lexer) :
    ∃ tree rest, Derives .members parser.lexer.rest tree (125 :: rest) ∧
      EndsWithin numbers is8Bit value lexer turns
        ({ parser with objectStack := stack }.returns (lexerAt numbers is8Bit rest)
          (readMembers numbers properties tree)) := by
  rw [Parser.doParseObjectStartExpression] at isDone
  generalize isNext : parser.lexer.next numbers is8Bit = next at isDone
  obtain ⟨token, colon⟩ := next
  simp only [] at isDone
  split at isDone
  next identifierToken =>
    generalize isColon : Lexer.next numbers is8Bit ⟨.string identifierToken, colon⟩ = next at isDone
    obtain ⟨token, between⟩ := next
    simp only [] at isDone
    split at isDone
    · obtain ⟨nameStart, whiteName, body, name, rfl, isBody, rfl⟩ := lexeme_of_lexerAt isNext
      have whiteColon := white_of_lexerAt isColon fun _ same => same
      obtain ⟨start, tree, behind, fewer, front, derives, isFewer, isEnd⟩ :=
        sound_element below rfl isDone
      change Progress.run numbers is8Bit fewer
        (Parser.doParseObjectEndExpression numbers is8Bit _) = .done value lexer at isEnd
      generalize isBehind : lexerAt numbers is8Bit behind = after at isEnd
      obtain ⟨token, later⟩ := after
      cases token with
      | comma =>
        have back := white_of_lexerAt isBehind fun _ same => same
        rw [doParseObjectEnd_of_comma isStack, readValue_of_white back] at isEnd
        obtain ⟨again, rfl, isAgain⟩ := exists_step_of_run isEnd
        obtain ⟨others, rest, isOthers, ends⟩ :=
          (below again (by omega)).object _ _ stack rfl isAgain
        refine ⟨.member name tree others, rest,
          Derives.members whiteName isBody whiteColon front derives back isOthers, ?_⟩
        rw [readMembers_member]
        exact ends.mono (by omega)
      | rBrace =>
        have back := white_of_lexerAt isBehind fun _ same => same
        rw [doParseObjectEnd_of_rBrace isStack, readValue_of_white back] at isEnd
        refine ⟨.member name tree .nil, later,
          Derives.member whiteName isBody whiteColon front derives back, fewer, by omega, ?_⟩
        rw [readMembers_member]
        exact isEnd
      | _ => exact absurd isEnd run_failed_ne
    · exact absurd isDone run_failed_ne
  · exact absurd isDone run_failed_ne

omit below

theorem sound_objectStart (below : ∀ fewer < turns + 1, SoundFor numbers is8Bit value lexer fewer)
    {rest : WString} (isLexer : parser.lexer = ⟨.lBrace, rest⟩)
    (isDone : Progress.run numbers is8Bit turns (parser.startParseObject numbers is8Bit) =
      .done value lexer) :
    (∃ behind, White rest (125 :: behind) ∧ EndsWithin numbers is8Bit value lexer (turns + 1)
        (parser.returns (lexerAt numbers is8Bit behind) (.object fun _ => none))) ∨
    ∃ tree behind, Derives .members rest tree (125 :: behind) ∧
      EndsWithin numbers is8Bit value lexer (turns + 1)
        (parser.returns (lexerAt numbers is8Bit behind)
          (.object (meaningMembers (codeNumber numbers false) cutString tree))) := by
  have isRest : parser.lexer.next numbers is8Bit = lexerAt numbers is8Bit rest := by
    rw [Lexer.next, isLexer]
  generalize isNext : lexerAt numbers is8Bit rest = next at isRest
  obtain ⟨token, colon⟩ := next
  cases token with
  | string name =>
    right
    generalize isColon : lexerAt numbers is8Bit colon = after
    obtain ⟨token, between⟩ := after
    have isAfter : Lexer.next numbers is8Bit ⟨.string name, colon⟩ = ⟨token, between⟩ := isColon
    cases token with
    | colon =>
      rw [startParseObject_eq isRest isColon] at isDone
      obtain ⟨tree, behind, derives, ends⟩ :=
        (below turns (Nat.lt_succ_self _)).object _ _ parser.objectStack rfl isDone
      rw [readMembers_none] at ends
      simp only [isLexer] at derives
      exact ⟨tree, behind, derives, ends.mono (Nat.le_succ _)⟩
    | _ =>
      simp only [Parser.startParseObject, isRest, isAfter] at isDone
      exact absurd isDone run_failed_ne
  | rBrace =>
    left
    simp only [Parser.startParseObject, isRest, Parser.leave_eq] at isDone
    exact ⟨colon, white_of_lexerAt isNext fun _ same => same, turns, Nat.le_succ _, isDone⟩
  | _ =>
    simp only [Parser.startParseObject, isRest] at isDone
    exact absurd isDone run_failed_ne

theorem sound_expression (below : ∀ fewer < turns, SoundFor numbers is8Bit value lexer fewer)
    {text : WString} (isLexer : parser.lexer = lexerAt numbers is8Bit text)
    (isDone : Progress.run numbers is8Bit turns (parser.startParseExpression numbers is8Bit) =
      .done value lexer) : ∃ start tree rest, White text start ∧ Derives .value start tree rest ∧
      EndsWithin numbers is8Bit value lexer turns
        (parser.returns (lexerAt numbers is8Bit rest) (readValue numbers rest.isEmpty tree)) := by
  generalize isAt : lexerAt numbers is8Bit text = found at isLexer
  obtain ⟨token, rest⟩ := found
  obtain ⟨start, white, isLexeme⟩ := lexeme_of_lexerAt isAt
  rw [Parser.startParseExpression, isLexer] at isDone
  cases token with
  | null =>
    cases isLexeme
    exact ⟨_, _, rest, white, Derives.null, turns, le_rfl, isDone⟩
  | true =>
    cases isLexeme
    exact ⟨_, _, rest, white, Derives.true, turns, le_rfl, isDone⟩
  | false =>
    cases isLexeme
    exact ⟨_, _, rest, white, Derives.false, turns, le_rfl, isDone⟩
  | number read =>
    obtain ⟨literal, rfl, isNumber, rfl⟩ := isLexeme
    exact ⟨_, _, rest, white, Derives.number isNumber, turns, le_rfl, isDone⟩
  | string read =>
    obtain ⟨body, content, rfl, isBody, rfl⟩ := isLexeme
    exact ⟨_, _, rest, white, Derives.string isBody, turns, le_rfl, isDone⟩
  | lBracket =>
    cases isLexeme
    obtain ⟨one, rfl, isStep⟩ := exists_step_of_run isDone
    obtain ⟨fewer, rfl, isNextStep⟩ := exists_step_of_run isStep
    rcases (below fewer (by omega)).array _ [] parser.objectStack rfl isNextStep with
      ⟨-, behind, closing, ends⟩ | ⟨tree, behind, derives, ends⟩
    · exact ⟨_, _, behind, white, Derives.emptyArray closing, ends.mono (by omega)⟩
    · exact ⟨_, _, behind, white, Derives.array derives, ends.mono (by omega)⟩
  | lBrace =>
    cases isLexeme
    obtain ⟨fewer, rfl, isStep⟩ := exists_step_of_run isDone
    rcases sound_objectStart below rfl isStep with
      ⟨behind, closing, ends⟩ | ⟨tree, behind, derives, ends⟩
    · exact ⟨_, _, behind, white, Derives.emptyObject closing, ends⟩
    · exact ⟨_, _, behind, white, Derives.object derives, ends⟩
  | _ => exact absurd isDone run_failed_ne

/-- Every run that returns is sound. -/
theorem soundFor (turns : Nat) : SoundFor numbers is8Bit value lexer turns := by
  induction turns using Nat.strongRecOn with
  | ind turns below =>
    exact
      { expression := fun _ _ isLexer isDone => sound_expression below isLexer isDone
        array := fun _ _ _ isStack isDone => sound_array below isStack isDone
        object := fun _ _ _ isStack isDone => sound_object below isStack isDone }

end Sound

end JavaScript
end PalmWebKit
