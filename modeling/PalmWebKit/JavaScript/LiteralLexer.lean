import PalmWebKit.Text.CodeUnits

/-!
# The lexer of JSON texts

`LiteralParser::Lexer` in the mode `StrictJSON`.  A position in the text is
what is left of it, so the end of the text is the empty list.  Strings are
collected run by run, and short integers are converted as they are read.  No
caller goes on behind an error, so the position there is left open.
-/

namespace PalmWebKit
namespace JavaScript

open WString

variable {Number : Type}

/-- `parseDouble`, and the conversion of an `int`. -/
structure Numbers (Number : Type) where
  parseDouble : WString → Number
  ofInt : Int → Number

/-- What `m_lexErrorMessage` says. -/
inductive LexError where
  /-- "Single quotes (\') are not allowed in JSON" -/
  | singleQuotes
  /-- "Unrecognized token '%c'" -/
  | unrecognizedToken (unit : UChar)
  /-- "Unterminated string" -/
  | unterminatedString
  /-- "\u must be followed by 4 hex digits" -/
  | shortUnicodeEscape
  /-- "\"\%s\" is not a valid unicode escape" -/
  | invalidUnicodeEscape (escape : WString)
  /-- "Invalid escape character %c" -/
  | invalidEscape (unit : UChar)
  /-- "Invalid number" -/
  | invalidNumber
  /-- "Invalid digits after decimal point" -/
  | invalidDecimals
  /-- "Exponent symbols should be followed by an optional '+' or '-' and then by at
  least one number" -/
  | invalidExponent

/-- `LiteralParserToken`: a `TokenType` and what belongs to it. -/
inductive Token (Number : Type) where
  | lBracket
  | rBracket
  | lBrace
  | rBrace
  | string (stringToken : WString)
  | identifier (stringToken : WString)
  | number (numberToken : Number)
  | colon
  | lParen
  | rParen
  | comma
  | true
  | false
  | null
  | ended
  | dot
  | assign
  | semi
  | error (message : LexError)

/-- `isJSONWhiteSpace` -/
def isJSONWhiteSpace (unit : UChar) : Bool :=
  unit == 32 || unit == 0x9 || unit == 0xA || unit == 0xD

/-- `'"'` -/
def doubleQuote : UChar := 34

/-- `'\\'` -/
def backslash : UChar := 92

/-- `isSafeStringCharacter` in the mode `StrictJSON`. -/
def isSafeStringCharacter (unit : UChar) : Bool :=
  unit ≥ 32 && unit != backslash && unit != doubleQuote

def isASCIIHexDigit (unit : UChar) : Bool :=
  isASCIIDigit unit || (97 ≤ unit ||| 32 && unit ||| 32 ≤ 102)

def toASCIIHexValue (unit : UChar) : UInt16 :=
  if unit < 65 then unit - 48 else (unit - 65 + 10) &&& 0xF

def convertHex (c1 c2 : UChar) : UInt16 := (toASCIIHexValue c1 <<< 4) ||| toASCIIHexValue c2

def convertUnicode (c1 c2 c3 c4 : UChar) : UInt16 := (convertHex c1 c2 <<< 8) ||| convertHex c3 c4

/-- The character behind a backslash: what is appended and the rest. -/
def lexEscape : WString → Except LexError (UChar × WString)
  | [] => .error .unterminatedString
  | unit :: rest =>
    if unit = doubleQuote then .ok (doubleQuote, rest)
    else if unit = backslash then .ok (backslash, rest)
    else if unit = slash then .ok (slash, rest)
    else if unit = 98 then .ok (8, rest)
    else if unit = 102 then .ok (12, rest)
    else if unit = 110 then .ok (10, rest)
    else if unit = 114 then .ok (13, rest)
    else if unit = 116 then .ok (9, rest)
    else if unit = 117 then
      match rest with
      | c1 :: c2 :: c3 :: c4 :: behind =>
        if isASCIIHexDigit c1 && isASCIIHexDigit c2 && isASCIIHexDigit c3 &&
            isASCIIHexDigit c4 then
          .ok (convertUnicode c1 c2 c3 c4, behind)
        else .error (.invalidUnicodeEscape [unit, c1, c2, c3, c4])
      | _ => .error .shortUnicodeEscape
    else .error (.invalidEscape unit)

/-- A turn of the loop of `lexString`, from `runStart` on: the `StringBuilder`
and `m_ptr` behind it. -/
def lexStringRun (builder runStart : WString) : Except LexError (WString × WString) :=
  let run := runStart.takeWhile isSafeStringCharacter
  let ptr := runStart.dropWhile isSafeStringCharacter
  let appended := if builder.length ≠ 0 then builder ++ run else builder
  match ptr with
  | [] => .ok (appended, [])
  | unit :: rest =>
    if unit = backslash then
      let filled := if appended.isEmpty && !run.isEmpty then appended ++ run else appended
      match lexEscape rest with
      | .error message => .error message
      | .ok (escaped, later) => .ok (filled ++ [escaped], later)
    else .ok (appended, ptr)

/-- The loop of `lexString` and what follows it: the content of the string and
the text behind the closing quote. -/
def lexStringFrom (builder runStart : WString) : Except LexError (WString × WString) :=
  match lexStringRun builder runStart with
  | .error message => .error message
  | .ok (builder, ptr) =>
    if ptr.length < runStart.length ∧ ptr ≠ [] ∧ ptr.head? ≠ some doubleQuote then
      lexStringFrom builder ptr
    else
      match ptr with
      | [] => .error .unterminatedString
      | unit :: rest =>
        if unit = doubleQuote then
          .ok (if builder.isEmpty then runStart.take (runStart.length - ptr.length)
            else builder, rest)
        else .error .unterminatedString
termination_by runStart.length
decreasing_by omega

/-- The bit field `stringLength` has 31 bits. -/
def cutString (content : WString) : WString := content.take (content.length % 2 ^ 31)

/-- `lexString`, behind the opening quote. -/
def lexString (text : WString) : Token Number × WString :=
  match lexStringFrom [] text with
  | .error message => (.error message, text)
  | .ok (content, rest) => (.string (cutString content), rest)

/-! ## Numbers -/

/-- The loop of the short integers. -/
def intValue (literal : WString) : Int :=
  let digits := fun text : WString =>
    text.foldl (fun result unit => result * 10 + (unit.toNat : Int) - 48) 0
  match literal with
  | [] => 0
  | unit :: rest => if unit = dash then -digits rest else digits literal

/-- The text in front of what is left of it. -/
def before (text rest : WString) : WString := text.take (text.length - rest.length)

/-- The part of a number in front of the decimal point. -/
def lexInt (text : WString) : Option WString :=
  let unsigned :=
    match text with
    | unit :: rest => if unit = dash then rest else text
    | [] => []
  match unsigned with
  | [] => none
  | unit :: rest =>
    if unit = 48 then some rest
    else if 49 ≤ unit && unit ≤ 57 then some (rest.dropWhile isASCIIDigit)
    else none

/-- At least one digit. -/
def lexDigits : WString → Option WString
  | [] => none
  | unit :: rest => if isASCIIDigit unit then some (rest.dropWhile isASCIIDigit) else none

def isExponentSign (unit : UChar) : Bool := unit = 101 || unit = 69

/-- The exponent, if there is one. -/
def lexExponent (text : WString) : Option WString :=
  match text with
  | [] => some []
  | unit :: rest =>
    if isExponentSign unit then
      match rest with
      | sign :: behind => if sign = dash || sign = 43 then lexDigits behind else lexDigits rest
      | [] => none
    else some text

section Number

variable (numbers : Numbers Number)

/-- `lexNumber`, from its first character on. -/
def lexNumber (text : WString) : Token Number × WString :=
  let finish := fun rest =>
    match lexExponent rest with
    | none => (.error .invalidExponent, rest)
    | some behind => (.number (numbers.parseDouble (before text behind)), behind)
  match lexInt text with
  | none => (.error .invalidNumber, text)
  | some [] => finish []
  | some (unit :: rest) =>
    if unit = dot then
      match lexDigits rest with
      | none => (.error .invalidDecimals, rest)
      | some behind => finish behind
    else if !isExponentSign unit && (before text (unit :: rest)).length < 10 then
      (.number (numbers.ofInt (intValue (before text (unit :: rest)))), unit :: rest)
    else finish (unit :: rest)

/-! ## Tokens -/

/-- The characters of an identifier; the text is one of `LChar` or of `UChar`. -/
def isIdentifierPart (is8Bit : Bool) (unit : UChar) : Bool :=
  isASCIIDigit unit || (97 ≤ unit ||| 32 && unit ||| 32 ≤ 122) || unit = 95 || unit = 36 ||
    (!is8Bit && (unit = 0x200C || unit = 0x200D))

def isASCIIAlpha (unit : UChar) : Bool := 97 ≤ unit ||| 32 && unit ||| 32 ≤ 122

def lexIdentifier (is8Bit : Bool) (text : WString) : Token Number × WString :=
  (.identifier (text.takeWhile (isIdentifierPart is8Bit)), text.dropWhile (isIdentifierPart is8Bit))

/-- The last cases of `lex`. -/
def lexOther (is8Bit : Bool) (unit : UChar) (rest : WString) : Token Number × WString :=
  if unit = dot then (.dot, rest)
  else if unit = equals then (.assign, rest)
  else if unit = semicolon then (.semi, rest)
  else if isASCIIAlpha unit || unit = 95 || unit = 36 then lexIdentifier is8Bit (unit :: rest)
  else if unit = 39 then (.error .singleQuotes, unit :: rest)
  else (.error (.unrecognizedToken unit), unit :: rest)

/-- `lex` behind the white space.  The value it returns is the type of the
token, except that it is `TokAssign` for a semicolon. -/
def lexToken (is8Bit : Bool) : WString → Token Number × WString
  | [] => (.ended, [])
  | unit :: rest =>
    if unit = 91 then (.lBracket, rest)
    else if unit = 93 then (.rBracket, rest)
    else if unit = 40 then (.lParen, rest)
    else if unit = 41 then (.rParen, rest)
    else if unit = 123 then (.lBrace, rest)
    else if unit = 125 then (.rBrace, rest)
    else if unit = 44 then (.comma, rest)
    else if unit = 58 then (.colon, rest)
    else if unit = doubleQuote then lexString rest
    else if lit "true" <+: unit :: rest then (.true, rest.drop 3)
    else if lit "false" <+: unit :: rest then (.false, rest.drop 4)
    else if lit "null" <+: unit :: rest then (.null, rest.drop 3)
    else if unit = dash || isASCIIDigit unit then lexNumber numbers (unit :: rest)
    else lexOther is8Bit unit rest

def lex (is8Bit : Bool) (text : WString) : Token Number × WString :=
  lexToken numbers is8Bit (text.dropWhile isJSONWhiteSpace)

end Number

end JavaScript
end PalmWebKit
