import PalmWebKit.JavaScript.LexerTokens

/-!
# JSON is parsed

The parser reads every text that derives a tree, to the value of the tree in
its own reading of numbers and strings.  The induction is on the derivation;
what stands on the stacks is left alone below the part that is read.
-/

namespace PalmWebKit
namespace JavaScript

open WString Json

variable {Number : Type}

/-! ## The reading of the parser -/

section Reading

variable (numbers : Numbers Number)

/-- The value of a tree as the parser reads it inside of a text. -/
def innerValue : Tree → JSValue Number := meaning (codeNumber numbers false) cutString

/-- The value of a tree in front of a rest; only a number can tell it is at the
end of the text. -/
def readValue (atEnd : Bool) : Tree → JSValue Number
  | .number literal => .number (codeNumber numbers atEnd literal)
  | tree => innerValue numbers tree

theorem readValue_false (tree : Tree) : readValue numbers false tree = innerValue numbers tree := by
  cases tree with
  | number literal => rw [readValue, innerValue, meaning]
  | _ => rfl

/-- The elements that are read behind others. -/
def readElements (elements : List (JSValue Number)) (tree : Tree) : JSValue Number :=
  .array (elements ++ meaningElements (codeNumber numbers false) cutString tree)

/-- The members that are read behind others. -/
def readMembers (properties : WString → Option (JSValue Number)) (tree : Tree) : JSValue Number :=
  .object fun key => meaningMembers (codeNumber numbers false) cutString tree key <|> properties key

theorem readMembers_none (tree : Tree) : readMembers numbers (fun _ => none) tree =
      .object (meaningMembers (codeNumber numbers false) cutString tree) := by
  simp only [readMembers, JSValue.object.injEq]
  funext key
  cases meaningMembers (codeNumber numbers false) cutString tree key <;> rfl

theorem readElements_cons (elements : List (JSValue Number)) (head tail : Tree) :
    readElements numbers elements (.cons head tail) =
      readElements numbers (elements ++ [innerValue numbers head]) tail := by
  simp only [readElements, meaningElements, innerValue, List.append_assoc, List.singleton_append]

theorem readMembers_member (properties : WString → Option (JSValue Number)) (name : WString)
    (value rest : Tree) :
    readMembers numbers properties (.member name value rest) = readMembers numbers
        (Function.update properties (cutString name) (some (innerValue numbers value))) rest := by
  simp only [readMembers, JSValue.object.injEq]
  funext key
  simp only [meaningMembers, innerValue, Function.update_apply]
  cases meaningMembers (codeNumber numbers false) cutString rest key with
  | some found => rfl
  | none =>
    by_cases same : key = cutString name
    · simp only [if_pos same]
      rfl
    · simp only [if_neg same]
      rfl

end Reading

/-! ## Runs -/

/-- The parser goes on with the state below, or returns. -/
def Parser.returns (parser : Parser Number) (lexer : Lexer Number)
    (value : JSValue Number) : Progress Number :=
  match parser.stateStack with
  | [] => .done value lexer
  | state :: stateStack =>
    .running
      { state := state
        lexer := lexer
        objectStack := parser.objectStack
        lastValue := value
        stateStack := stateStack
        identifierStack := parser.identifierStack }

/-- The parser behind a value that is an element or that of a member. -/
def Parser.behindValue (parser : Parser Number) (state : ParserState) (lexer : Lexer Number)
    (value : JSValue Number) (identifierStack : List WString) : Parser Number :=
  { parser with
    state := state
    lexer := lexer
    lastValue := value
    identifierStack := identifierStack }

theorem Parser.leave_eq (parser : Parser Number) :
    parser.leave = parser.returns parser.lexer parser.lastValue := by
  cases parser.stateStack <;> rfl

section Run

variable (numbers : Numbers Number) (is8Bit : Bool)

theorem Progress.run_done (turns : Nat) (value : JSValue Number) (lexer : Lexer Number) :
    Progress.run numbers is8Bit turns (.done value lexer) = .done value lexer := by
  cases turns <;> rfl

theorem Progress.run_failed (turns : Nat) (error : ParseError) (lexer : Lexer Number) :
    Progress.run numbers is8Bit turns (.failed error lexer) = .failed error lexer := by
  cases turns <;> rfl

theorem Progress.run_add (first second : Nat) (progress : Progress Number) :
    Progress.run numbers is8Bit (first + second) progress =
      Progress.run numbers is8Bit second (Progress.run numbers is8Bit first progress) := by
  induction first generalizing progress with
  | zero => rw [Nat.zero_add, Progress.run]
  | succ first ih =>
    rw [Nat.succ_add]
    cases progress with
    | running parser => exact ih _
    | done value lexer => simp only [Progress.run, Progress.run_done]
    | failed error lexer => simp only [Progress.run, Progress.run_failed]

/-- One progress becomes another after some turns. -/
def Leads (first second : Progress Number) : Prop :=
  ∃ turns, Progress.run numbers is8Bit turns first = second

variable {numbers is8Bit}

theorem Leads.refl (progress : Progress Number) : Leads numbers is8Bit progress progress := ⟨0, rfl⟩

theorem Leads.trans {first second third : Progress Number} (one : Leads numbers is8Bit first second)
    (other : Leads numbers is8Bit second third) : Leads numbers is8Bit first third := by
  obtain ⟨turns, isSecond⟩ := one
  obtain ⟨more, isThird⟩ := other
  exact ⟨turns + more, by rw [Progress.run_add, isSecond, isThird]⟩

/-- A turn, and what it leads to. -/
theorem Leads.step {parser : Parser Number} {progress : Progress Number}
    (leads : Leads numbers is8Bit (parser.step numbers is8Bit) progress) :
    Leads numbers is8Bit (.running parser) progress := by
  obtain ⟨turns, isProgress⟩ := leads
  exact ⟨turns + 1, isProgress⟩

end Run

/-! ## The ends of arrays and objects -/

section Ends

variable {numbers : Numbers Number} {is8Bit : Bool} {parser : Parser Number}
  {stack : List (JSValue Number)} {state : ParserState} {value : JSValue Number}

variable {names : List WString}

variable {elements : List (JSValue Number)}

theorem doParseArrayEnd_of_rBracket (isStack : parser.objectStack = .array elements :: stack)
    (rest : WString) :
    (parser.behindValue state ⟨.rBracket, rest⟩ value names).doParseArrayEndExpression
        numbers is8Bit =
      { parser with objectStack := stack, identifierStack := names }.returns
        (lexerAt numbers is8Bit rest) (.array (elements ++ [value])) := by
  simp only [Parser.behindValue, Parser.doParseArrayEndExpression, Parser.changeObject, isStack,
    Parser.leave_eq]
  rfl

theorem doParseArrayEnd_of_comma (isStack : parser.objectStack = .array elements :: stack)
    (rest : WString) :
    (parser.behindValue state ⟨.comma, rest⟩ value names).doParseArrayEndExpression
        numbers is8Bit =
      .running
        { parser with
          state := .doParseArrayStartExpression
          lexer := ⟨.comma, rest⟩
          objectStack := .array (elements ++ [value]) :: stack
          lastValue := value
          identifierStack := names } := by
  simp only [Parser.behindValue, Parser.doParseArrayEndExpression, Parser.changeObject, isStack]
  rfl

variable {properties : WString → Option (JSValue Number)}

theorem doParseObjectEnd_of_rBrace {name : WString}
    (isStack : parser.objectStack = .object properties :: stack) (rest : WString) :
    (parser.behindValue state ⟨.rBrace, rest⟩ value (name :: names)).doParseObjectEndExpression
        numbers is8Bit =
      { parser with objectStack := stack, identifierStack := names }.returns
        (lexerAt numbers is8Bit rest)
        (.object (Function.update properties name (some value))) := by
  simp only [Parser.behindValue, Parser.doParseObjectEndExpression, Parser.changeObject, isStack,
    Parser.leave_eq]
  rfl

theorem doParseObjectEnd_of_comma {name : WString}
    (isStack : parser.objectStack = .object properties :: stack) (rest : WString) :
    (parser.behindValue state ⟨.comma, rest⟩ value (name :: names)).doParseObjectEndExpression
        numbers is8Bit =
      .running
        { parser with
          state := .doParseObjectStartExpression
          lexer := ⟨.comma, rest⟩
          objectStack := .object (Function.update properties name (some value)) :: stack
          lastValue := value
          identifierStack := names } := by
  simp only [Parser.behindValue, Parser.doParseObjectEndExpression, Parser.changeObject, isStack]
  rfl

/-- An object with members begins as it goes on. -/
theorem startParseObject_eq {name colon between : WString}
    (isString : parser.lexer.next numbers is8Bit = ⟨.string name, colon⟩)
    (isColon : lexerAt numbers is8Bit colon = ⟨.colon, between⟩) :
    parser.startParseObject numbers is8Bit = Parser.doParseObjectStartExpression numbers is8Bit
        { parser with objectStack := .object (fun _ => none) :: parser.objectStack } := by
  have isNext : Lexer.next numbers is8Bit ⟨.string name, colon⟩ = ⟨.colon, between⟩ := isColon
  simp only [Parser.startParseObject, Parser.doParseObjectStartExpression, isString, isNext]

end Ends

/-! ## Where a number ends -/

theorem endsNumber_of_white {text rest : WString} (white : White text rest)
    (ends : EndsNumber rest) : EndsNumber text := by
  obtain ⟨front, rfl, allWhite⟩ := white
  cases front with
  | nil => exact ends
  | cons unit front =>
    rintro _ ⟨⟩
    have isWhite := allWhite unit ((.head _) ..)
    simp only [isJSONWhiteSpace, Bool.or_eq_true, beq_iff_eq] at isWhite
    rcases isWhite with ((rfl | rfl) | rfl) | rfl <;> decide

theorem endsNumber_nil : EndsNumber [] :=
  fun _ isHead => nomatch isHead

theorem endsNumber_cons {unit : UChar} (rest : WString)
    (other : isASCIIDigit unit = false ∧ unit ≠ dot ∧ isExponentSign unit = false) :
    EndsNumber (unit :: rest) := by
  rintro _ ⟨⟩
  exact other

/-! ## What is read -/

section Read

variable (numbers : Numbers Number) (is8Bit : Bool)

theorem white_refl (text : WString) : White text text := ⟨[], rfl, fun _ isIn => nomatch isIn⟩

/-- The lexer behind white space, at a token that begins with some character. -/
theorem lexerAt_of_white {text start later : WString} {unit : UChar} {token : Token Number}
    (white : White text (unit :: start)) (solid : isJSONWhiteSpace unit = false)
    (lexed : lexToken numbers is8Bit (unit :: start) = (token, later)) :
    lexerAt numbers is8Bit text = ⟨token, later⟩ := by
  have isDrop : (unit :: start).dropWhile isJSONWhiteSpace = unit :: start := by
    simp only [List.dropWhile_cons, solid, Bool.false_eq_true, if_false]
  rw [lexerAt, lex_of_white numbers is8Bit white isDrop, lexed]

/-- From the first token of what is derived the parser goes on behind it. -/
def Reads : Kind → WString → Tree → WString → Prop
  | .value, start, tree, rest =>
    EndsNumber rest → ∀ text (parser : Parser Number), White text start →
      parser.lexer = lexerAt numbers is8Bit text →
      Leads numbers is8Bit (parser.startParseExpression numbers is8Bit)
        (parser.returns (lexerAt numbers is8Bit rest) (readValue numbers rest.isEmpty tree))
  | .elements, text, tree, rest =>
    ∀ later, rest = 93 :: later → ∀ (parser : Parser Number) elements stack,
      parser.lexer.rest = text → parser.objectStack = .array elements :: stack →
      Leads numbers is8Bit (parser.doParseArrayStartExpression numbers is8Bit)
        ({ parser with objectStack := stack }.returns (lexerAt numbers is8Bit later)
          (readElements numbers elements tree))
  | .members, text, tree, rest =>
    ∀ later, rest = 125 :: later → ∀ (parser : Parser Number) properties stack,
      parser.lexer.rest = text → parser.objectStack = .object properties :: stack →
      Leads numbers is8Bit (parser.doParseObjectStartExpression numbers is8Bit)
        ({ parser with objectStack := stack }.returns (lexerAt numbers is8Bit later)
          (readMembers numbers properties tree))

variable {numbers is8Bit}

theorem Parser.returns_ne_failed {parser : Parser Number} {lexer other : Lexer Number}
    {value : JSValue Number} {error : ParseError} :
    parser.returns lexer value ≠ .failed error other := by
  unfold Parser.returns
  cases parser.stateStack <;> exact fun same => nomatch same

/-- A value does not begin with a bracket that closes. -/
theorem currentToken_ne_rBracket {parser after : Parser Number} {lexer : Lexer Number}
    {value : JSValue Number}
    (leads : Leads numbers is8Bit (parser.startParseExpression numbers is8Bit)
      (after.returns lexer value)) : parser.lexer.currentToken ≠ .rBracket := by
  intro isClosing
  obtain ⟨turns, isReturned⟩ := leads
  rw [Parser.startParseExpression, isClosing] at isReturned
  simp only [Progress.run_failed] at isReturned
  exact Parser.returns_ne_failed isReturned.symm

variable {tree : Tree}

/-- An element is read up to the token behind it. -/
theorem leads_element {text start behind : WString} (front : White text start)
    (reads : Reads numbers is8Bit .value start tree behind) (ends : EndsNumber behind)
    (nonempty : behind ≠ []) (parser : Parser Number) (isText : parser.lexer.rest = text) :
    Leads numbers is8Bit (parser.doParseArrayStartExpression numbers is8Bit)
      (Parser.doParseArrayEndExpression numbers is8Bit
        (parser.behindValue .doParseArrayEndExpression (lexerAt numbers is8Bit behind)
          (innerValue numbers tree) parser.identifierStack)) := by
  have isNext : parser.lexer.next numbers is8Bit = lexerAt numbers is8Bit text := by
    rw [Lexer.next, isText]
  have value := reads ends text
    { parser with
      state := .startParseExpression
      lexer := lexerAt numbers is8Bit text
      stateStack := .doParseArrayEndExpression :: parser.stateStack } front rfl
  have isInner : behind.isEmpty = false := by simpa using nonempty
  rw [isInner, readValue_false] at value
  have open' := currentToken_ne_rBracket value
  rw [Parser.doParseArrayStartExpression, isNext]
  split
  next isClosing => exact absurd isClosing open'
  next => exact Leads.step (Leads.trans value (Leads.step (Leads.refl _)))

/-- A member is read up to the token behind it. -/
theorem leads_member {text body name colon between start behind : WString}
    (front : White text (34 :: (body ++ 34 :: colon))) (isBody : StringBody body name)
    (isColon : White colon (58 :: between)) (space : White between start)
    (reads : Reads numbers is8Bit .value start tree behind) (ends : EndsNumber behind)
    (nonempty : behind ≠ []) (parser : Parser Number) (isText : parser.lexer.rest = text) :
    Leads numbers is8Bit (parser.doParseObjectStartExpression numbers is8Bit)
      (Parser.doParseObjectEndExpression numbers is8Bit
        (parser.behindValue .doParseObjectEndExpression (lexerAt numbers is8Bit behind)
          (innerValue numbers tree) (cutString name :: parser.identifierStack))) := by
  have isNext : parser.lexer.next numbers is8Bit = ⟨.string (cutString name), colon⟩ := by
    rw [Lexer.next, isText]
    exact lexerAt_of_white numbers is8Bit front (by decide)
      (lexToken_string numbers is8Bit isBody _)
  have isColonToken : Lexer.next numbers is8Bit ⟨.string (cutString name), colon⟩ =
      ⟨.colon, between⟩ := lexerAt_of_white numbers is8Bit isColon (by decide) rfl
  have value := reads ends between
    { parser with
      state := .startParseExpression
      lexer := lexerAt numbers is8Bit between
      identifierStack := cutString name :: parser.identifierStack
      stateStack := .doParseObjectEndExpression :: parser.stateStack } space rfl
  have isInner : behind.isEmpty = false := by simpa using nonempty
  rw [isInner, readValue_false] at value
  simp only [Parser.doParseObjectStartExpression, isNext, isColonToken, Parser.startProperty]
  exact Leads.step (Leads.trans value (Leads.step (Leads.refl _)))

theorem members_begin {text rest : WString} (derives : Derives .members text tree rest) :
    ∃ body name colon between, White text (34 :: (body ++ 34 :: colon)) ∧ StringBody body name ∧
      White colon (58 :: between) := by
  cases derives with
  | member front isBody isColon | members front isBody isColon =>
    exact ⟨_, _, _, _, front, isBody, isColon⟩

theorem ne_nil_of_white {text start : WString} {unit : UChar} (white : White text (unit :: start)) :
    text ≠ [] := by
  rintro rfl
  obtain ⟨front, isText, -⟩ := white
  exact absurd isText.symm (by simp)

/-- What derives a tree is read. -/
theorem reads_of_derives {kind : Kind} {text rest : WString}
    (derives : Derives kind text tree rest) : Reads numbers is8Bit kind text tree rest := by
  induction derives with
  | null =>
    intro _ text parser white isLexer
    rw [@lexerAt_of_white _ numbers is8Bit _ _ _ 110 _ white (by decide) rfl] at isLexer
    simp only [Parser.startParseExpression, isLexer, Parser.leave_eq]
    exact Leads.refl _
  | true =>
    intro _ text parser white isLexer
    rw [@lexerAt_of_white _ numbers is8Bit _ _ _ 116 _ white (by decide) rfl] at isLexer
    simp only [Parser.startParseExpression, isLexer, Parser.leave_eq]
    exact Leads.refl _
  | false =>
    intro _ text parser white isLexer
    rw [@lexerAt_of_white _ numbers is8Bit _ _ _ 102 _ white (by decide) rfl] at isLexer
    simp only [Parser.startParseExpression, isLexer, Parser.leave_eq]
    exact Leads.refl _
  | @number literal rest isNumber =>
    intro ends text parser white isLexer
    have lexed := lexToken_number numbers is8Bit isNumber ends
    obtain ⟨unit, others, rfl, isSign⟩ := isNumberSign_of_isNumber isNumber
    have solid : isJSONWhiteSpace unit = false := by
      cases isWhite : isJSONWhiteSpace unit with
      | false => rfl
      | true =>
        simp only [isJSONWhiteSpace, Bool.or_eq_true, beq_iff_eq] at isWhite
        rcases isWhite with ((rfl | rfl) | rfl) | rfl <;> exact absurd isSign (by decide)
    rw [lexerAt_of_white numbers is8Bit white solid lexed] at isLexer
    simp only [Parser.startParseExpression, isLexer, Parser.leave_eq]
    exact Leads.refl _
  | string isBody =>
    intro _ text parser white isLexer
    rw [lexerAt_of_white numbers is8Bit white (by decide)
      (lexToken_string numbers is8Bit isBody _)] at isLexer
    simp only [Parser.startParseExpression, isLexer, Parser.leave_eq]
    exact Leads.refl _
  | @emptyArray inside rest closing =>
    intro _ text parser white isLexer
    rw [lexerAt_of_white numbers is8Bit white (by decide) rfl] at isLexer
    have isNext : Lexer.next numbers is8Bit ⟨.lBracket, inside⟩ = ⟨.rBracket, rest⟩ :=
      lexerAt_of_white numbers is8Bit closing (by decide) rfl
    simp only [Parser.startParseExpression, isLexer]
    refine Leads.step (Leads.step ?_)
    simp only [Parser.step, Parser.doParseArrayStartExpression, isNext, Parser.leave_eq]
    exact Leads.refl _
  | @array inside elements rest derives ih =>
    intro _ text parser white isLexer
    rw [lexerAt_of_white numbers is8Bit white (by decide) rfl] at isLexer
    have inner := ih rest rfl
      { parser with
        state := .doParseArrayStartExpression
        lexer := ⟨.lBracket, inside⟩
        objectStack := .array [] :: parser.objectStack } [] parser.objectStack rfl rfl
    simp only [Parser.startParseExpression, isLexer]
    exact Leads.step (Leads.step inner)
  | @emptyObject inside rest closing =>
    intro _ text parser white isLexer
    rw [lexerAt_of_white numbers is8Bit white (by decide) rfl] at isLexer
    have isNext : Lexer.next numbers is8Bit ⟨.lBrace, inside⟩ = ⟨.rBrace, rest⟩ :=
      lexerAt_of_white numbers is8Bit closing (by decide) rfl
    simp only [Parser.startParseExpression, isLexer]
    refine Leads.step ?_
    simp only [Parser.step, Parser.startParseObject, isNext, Parser.leave_eq]
    exact Leads.refl _
  | @object inside members rest derives ih =>
    intro _ text parser white isLexer
    rw [lexerAt_of_white numbers is8Bit white (by decide) rfl] at isLexer
    have inner := ih rest rfl
      { parser with
        state := .startParseObject
        lexer := ⟨.lBrace, inside⟩
        objectStack := .object (fun _ => none) :: parser.objectStack } (fun _ => none)
      parser.objectStack rfl rfl
    obtain ⟨body, name, colon, between, front, isBody, isColon⟩ := members_begin derives
    have isString : Lexer.next numbers is8Bit ⟨.lBrace, inside⟩ =
        ⟨.string (cutString name), colon⟩ :=
      lexerAt_of_white numbers is8Bit front (by decide)
        (lexToken_string numbers is8Bit isBody _)
    have isColonToken : lexerAt numbers is8Bit colon = ⟨.colon, between⟩ :=
      lexerAt_of_white numbers is8Bit isColon (by decide) rfl
    simp only [Parser.startParseExpression, isLexer]
    refine Leads.step ?_
    simp only [Parser.step]
    rw [startParseObject_eq isString isColonToken]
    rw [readMembers_none] at inner
    exact inner
  | @element text start value behind rest front derives back ih =>
    rintro later rfl parser elements stack isText isStack
    have ends := endsNumber_of_white back (endsNumber_cons later (by decide))
    have isLexer : lexerAt numbers is8Bit behind = ⟨.rBracket, later⟩ :=
      lexerAt_of_white numbers is8Bit back (by decide) rfl
    have read := leads_element front ih ends (ne_nil_of_white back) parser isText
    rw [isLexer, doParseArrayEnd_of_rBracket isStack] at read
    rw [readElements_cons]
    simpa only [readElements, meaningElements, List.append_nil] using read
  | @elements text start value behind more elements rest front derives back others valueHypothesis
      othersHypothesis =>
      rintro later rfl parser before stack isText isStack
      have ends := endsNumber_of_white back (endsNumber_cons more (by decide))
      have isLexer : lexerAt numbers is8Bit behind = ⟨.comma, more⟩ :=
        lexerAt_of_white numbers is8Bit back (by decide) rfl
      have read := leads_element front valueHypothesis ends (ne_nil_of_white back) parser isText
      rw [isLexer, doParseArrayEnd_of_comma isStack] at read
      rw [readElements_cons]
      exact read.trans (Leads.step (othersHypothesis later rfl _ _ stack rfl rfl))
  | @member text body name colon start value behind rest between front isBody isColon space derives
      back ih =>
      rintro later rfl parser properties stack isText isStack
      have ends := endsNumber_of_white back (endsNumber_cons later (by decide))
      have isLexer : lexerAt numbers is8Bit behind = ⟨.rBrace, later⟩ :=
        lexerAt_of_white numbers is8Bit back (by decide) rfl
      have read := leads_member front isBody isColon space ih ends
        (ne_nil_of_white back) parser isText
      rw [isLexer, doParseObjectEnd_of_rBrace isStack] at read
      rw [readMembers_member]
      exact read
  | @members text body name colon start value behind more members rest between front isBody isColon
      space derives back others valueHypothesis othersHypothesis =>
      rintro later rfl parser properties stack isText isStack
      have ends := endsNumber_of_white back (endsNumber_cons more (by decide))
      have isLexer : lexerAt numbers is8Bit behind = ⟨.comma, more⟩ :=
        lexerAt_of_white numbers is8Bit back (by decide) rfl
      have read := leads_member front isBody isColon space valueHypothesis ends
        (ne_nil_of_white back) parser isText
      rw [isLexer, doParseObjectEnd_of_comma isStack] at read
      rw [readMembers_member]
      exact read.trans (Leads.step (othersHypothesis later rfl _ _ stack rfl rfl))

end Read

end JavaScript
end PalmWebKit
