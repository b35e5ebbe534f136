import PalmWebKit.JavaScript.LiteralLexer

/-!
# The parser of JSON texts

`LiteralParser::parse` in the mode `StrictJSON` goes from state to state and
keeps stacks of its own; a step of the model is what it does between two
states.  A property list is the function from names to values.
-/

namespace PalmWebKit
namespace JavaScript

variable {Number : Type}

/-- A `JSValue`; an object whose properties are all its own data. -/
inductive JSValue (Number : Type) where
  /-- `JSValue()` -/
  | empty
  | null
  | boolean (value : Bool)
  | number (value : Number)
  | string (value : WString)
  | array (elements : List (JSValue Number))
  | object (properties : WString → Option (JSValue Number))

/-- `putDirectIndex` at the length of the array. -/
def JSValue.append (array value : JSValue Number) : JSValue Number :=
  match array with
  | .array elements => .array (elements ++ [value])
  | other => other

/-- `putDirect`, or `putDirectIndex` for a name that is an index. -/
def JSValue.put (object : JSValue Number) (name : WString) (value : JSValue Number) :
    JSValue Number :=
  match object with
  | .object properties => .object (Function.update properties name (some value))
  | other => other

/-- The states of expressions; those of statements belong to the other modes. -/
inductive ParserState where
  | startParseObject
  | startParseArray
  | startParseExpression
  | doParseObjectStartExpression
  | doParseObjectEndExpression
  | doParseArrayStartExpression
  | doParseArrayEndExpression

/-- What `m_parseErrorMessage` says. -/
inductive ParseError where
  /-- "Unexpected comma at the end of array expression" -/
  | unexpectedComma
  /-- "Expected ']'" -/
  | expectedRBracket
  /-- "Expected '}'" -/
  | expectedRBrace
  /-- "Expected ':' before value in object property definition" -/
  | expectedColonBeforeValue
  /-- "Property name must be a string literal" -/
  | propertyName
  /-- "Expected ':'" -/
  | expectedColon
  /-- "Unexpected token ']'" and so on -/
  | unexpectedToken
  /-- "Unexpected identifier \"%s\"" -/
  | unexpectedIdentifier (name : WString)
  /-- "Unexpected EOF" -/
  | unexpectedEOF
  /-- "Could not parse value expression" -/
  | noExpression

/-- `m_lexer`: its current token and the text behind it. -/
structure Lexer (Number : Type) where
  currentToken : Token Number
  rest : WString

/-- The variables of `parse`. -/
structure Parser (Number : Type) where
  state : ParserState
  lexer : Lexer Number
  objectStack : List (JSValue Number) := []
  lastValue : JSValue Number := .empty
  stateStack : List ParserState := []
  identifierStack : List WString := []

/-- A parser that goes on, or what it returned. -/
inductive Progress (Number : Type) where
  | running (parser : Parser Number)
  | done (value : JSValue Number) (lexer : Lexer Number)
  | failed (error : ParseError) (lexer : Lexer Number)

section Parse

variable (numbers : Numbers Number) (is8Bit : Bool)

/-- The lexer at the first token of a text. -/
def lexerAt (text : WString) : Lexer Number :=
  { currentToken := (lex numbers is8Bit text).1
    rest := (lex numbers is8Bit text).2 }

def Lexer.next (lexer : Lexer Number) : Lexer Number := lexerAt numbers is8Bit lexer.rest

end Parse

namespace Parser

/-- The end of the loop: return, or go on with the state on the stack. -/
def leave (parser : Parser Number) : Progress Number :=
  match parser.stateStack with
  | [] => .done parser.lastValue parser.lexer
  | state :: stateStack => .running { parser with state := state, stateStack := stateStack }

/-- The object on top of the stack is the last value. -/
def takeObject (parser : Parser Number) (lexer : Lexer Number) : Parser Number :=
  { parser with
    lexer := lexer
    lastValue := parser.objectStack.headD .empty
    objectStack := parser.objectStack.tail }

/-- Replace the object on top of the stack. -/
def changeObject (parser : Parser Number)
    (change : JSValue Number → JSValue Number) : Parser Number :=
  { parser with
    objectStack :=
      match parser.objectStack with
      | [] => []
      | object :: objectStack => change object :: objectStack }

section Step

variable (numbers : Numbers Number) (is8Bit : Bool)

/-- `DoParseArrayStartExpression` -/
def doParseArrayStartExpression (parser : Parser Number) : Progress Number :=
  let lastToken := parser.lexer.currentToken
  let lexer := parser.lexer.next numbers is8Bit
  match lexer.currentToken with
  | .rBracket =>
    match lastToken with
    | .comma => .failed .unexpectedComma lexer
    | _ => (parser.takeObject (lexer.next numbers is8Bit)).leave
  | _ =>
    .running
      { parser with
        state := .startParseExpression
        lexer := lexer
        stateStack := .doParseArrayEndExpression :: parser.stateStack }

/-- `DoParseArrayEndExpression` -/
def doParseArrayEndExpression (parser : Parser Number) : Progress Number :=
  let parser := parser.changeObject fun array => array.append parser.lastValue
  match parser.lexer.currentToken with
  | .comma => .running { parser with state := .doParseArrayStartExpression }
  | .rBracket => (parser.takeObject (parser.lexer.next numbers is8Bit)).leave
  | _ => .failed .expectedRBracket parser.lexer

/-- The value of a property, behind its name and the colon. -/
def startProperty (parser : Parser Number) (identifier : WString)
    (lexer : Lexer Number) : Progress Number :=
  .running
    { parser with
      state := .startParseExpression
      lexer := lexer.next numbers is8Bit
      identifierStack := identifier :: parser.identifierStack
      stateStack := .doParseObjectEndExpression :: parser.stateStack }

/-- `StartParseObject` -/
def startParseObject (parser : Parser Number) : Progress Number :=
  let parser := { parser with objectStack := .object (fun _ => none) :: parser.objectStack }
  let lexer := parser.lexer.next numbers is8Bit
  match lexer.currentToken with
  | .string identifierToken =>
    let colon := lexer.next numbers is8Bit
    match colon.currentToken with
    | .colon => parser.startProperty numbers is8Bit identifierToken colon
    | _ => .failed .expectedColonBeforeValue colon
  | .rBrace => (parser.takeObject (lexer.next numbers is8Bit)).leave
  | _ => .failed .expectedRBrace lexer

/-- `DoParseObjectStartExpression` -/
def doParseObjectStartExpression (parser : Parser Number) : Progress Number :=
  let lexer := parser.lexer.next numbers is8Bit
  match lexer.currentToken with
  | .string identifierToken =>
    let colon := lexer.next numbers is8Bit
    match colon.currentToken with
    | .colon => parser.startProperty numbers is8Bit identifierToken colon
    | _ => .failed .expectedColon colon
  | _ => .failed .propertyName lexer

/-- `DoParseObjectEndExpression` -/
def doParseObjectEndExpression (parser : Parser Number) : Progress Number :=
  let ident := parser.identifierStack.headD []
  let parser :=
    { parser.changeObject fun object => object.put ident parser.lastValue with
      identifierStack := parser.identifierStack.tail }
  match parser.lexer.currentToken with
  | .comma => .running { parser with state := .doParseObjectStartExpression }
  | .rBrace => (parser.takeObject (parser.lexer.next numbers is8Bit)).leave
  | _ => .failed .expectedRBrace parser.lexer

/-- `StartParseExpression` -/
def startParseExpression (parser : Parser Number) : Progress Number :=
  let next := parser.lexer.next numbers is8Bit
  match parser.lexer.currentToken with
  | .lBracket => .running { parser with state := .startParseArray }
  | .lBrace => .running { parser with state := .startParseObject }
  | .string stringToken => { parser with lexer := next, lastValue := .string stringToken }.leave
  | .number numberToken => { parser with lexer := next, lastValue := .number numberToken }.leave
  | .null => { parser with lexer := next, lastValue := .null }.leave
  | .true => { parser with lexer := next, lastValue := .boolean true }.leave
  | .false => { parser with lexer := next, lastValue := .boolean false }.leave
  | .identifier name => .failed (.unexpectedIdentifier name) parser.lexer
  | .ended => .failed .unexpectedEOF parser.lexer
  | .error _ => .failed .noExpression parser.lexer
  | _ => .failed .unexpectedToken parser.lexer

/-- One state of `parse`. -/
def step (parser : Parser Number) : Progress Number :=
  match parser.state with
  | .startParseArray =>
    .running
      { parser with
        state := .doParseArrayStartExpression
        objectStack := .array [] :: parser.objectStack }
  | .doParseArrayStartExpression => parser.doParseArrayStartExpression numbers is8Bit
  | .doParseArrayEndExpression => parser.doParseArrayEndExpression numbers is8Bit
  | .startParseObject => parser.startParseObject numbers is8Bit
  | .doParseObjectStartExpression => parser.doParseObjectStartExpression numbers is8Bit
  | .doParseObjectEndExpression => parser.doParseObjectEndExpression numbers is8Bit
  | .startParseExpression => parser.startParseExpression numbers is8Bit

end Step

end Parser

section Run

variable (numbers : Numbers Number) (is8Bit : Bool)

/-- `parse` for some number of states. -/
def Progress.run : Nat → Progress Number → Progress Number
  | 0, progress => progress
  | turns + 1, .running parser => Progress.run turns (parser.step numbers is8Bit)
  | _ + 1, .done value lexer => .done value lexer
  | _ + 1, .failed error lexer => .failed error lexer

/-- The end of `tryLiteralParse`. -/
def finishParse (value : JSValue Number) (lexer : Lexer Number) : Option (JSValue Number) :=
  let lexer :=
    match lexer.currentToken with
    | .semi => lexer.next numbers is8Bit
    | _ => lexer
  match lexer.currentToken with
  | .ended => some value
  | _ => none

/-- `tryLiteralParse`, for some number of states of `parse`; the value that is
returned unless it is `JSValue()`. -/
def tryLiteralParse (turns : Nat) (text : WString) : Option (JSValue Number) :=
  match Progress.run numbers is8Bit turns
      (.running { state := .startParseExpression, lexer := lexerAt numbers is8Bit text }) with
  | .done value lexer => finishParse numbers is8Bit value lexer
  | _ => none

/-- `JSON.parse` returns the value. -/
def ParsesTo (text : WString) (value : JSValue Number) : Prop :=
  ∃ turns, tryLiteralParse numbers is8Bit turns text = some value

end Run

end JavaScript
end PalmWebKit
