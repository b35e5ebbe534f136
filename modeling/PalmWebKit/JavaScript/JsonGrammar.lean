import PalmWebKit.JavaScript.LiteralParser

/-!
# The grammar of JSON

A text derives a syntax tree and leaves a rest.  White space may stand before
and behind every token.  A tree has a meaning for each way to read its numbers
and strings.
-/

namespace PalmWebKit
namespace JavaScript
namespace Json

open WString

variable {Number : Type}

/-- The rest of a text behind white space. -/
def White (text rest : WString) : Prop :=
  ∃ white, text = white ++ rest ∧ ∀ unit ∈ white, isJSONWhiteSpace unit = true

/-! ## Strings -/

/-- A character that stands for itself. -/
def IsPlain (unit : UChar) : Prop := 32 ≤ unit ∧ unit ≠ doubleQuote ∧ unit ≠ backslash

/-- The value of a hexadecimal digit. -/
def hexValue (unit : UChar) : Option Nat :=
  if 48 ≤ unit ∧ unit ≤ 57 then some (unit.toNat - 48)
  else if 97 ≤ unit ∧ unit ≤ 102 then some (unit.toNat - 87)
  else if 65 ≤ unit ∧ unit ≤ 70 then some (unit.toNat - 55)
  else none

/-- What may stand behind a backslash, and the character it denotes. -/
inductive Escape : WString → UChar → Prop where
  | quote : Escape [34] 34
  | backslash : Escape [92] 92
  | slash : Escape [47] 47
  | backspace : Escape [98] 8
  | formFeed : Escape [102] 12
  | lineFeed : Escape [110] 10
  | carriageReturn : Escape [114] 13
  | tab : Escape [116] 9
  | unicode {c1 c2 c3 c4 h1 h2 h3 h4}
      (digit1 : hexValue c1 = some h1) (digit2 : hexValue c2 = some h2)
      (digit3 : hexValue c3 = some h3) (digit4 : hexValue c4 = some h4) :
      Escape [117, c1, c2, c3, c4] (UInt16.ofNat (((h1 * 16 + h2) * 16 + h3) * 16 + h4))

/-- The text between the quotes of a string, and its content. -/
inductive StringBody : WString → WString → Prop where
  | nil : StringBody [] []
  | plain {unit text content}
      (isPlain : IsPlain unit) (body : StringBody text content) :
      StringBody (unit :: text) (unit :: content)
  | escaped {escape unit text content}
      (isEscape : Escape escape unit) (body : StringBody text content) :
      StringBody (92 :: (escape ++ text)) (unit :: content)

/-! ## Numbers -/

def IsDigits (text : WString) : Prop := text ≠ [] ∧ ∀ unit ∈ text, isASCIIDigit unit = true

/-- `0`, or digits that begin with another one. -/
def IsInt (text : WString) : Prop :=
  text = [48] ∨ ∃ unit rest, text = unit :: rest ∧ 49 ≤ unit ∧ unit ≤ 57 ∧
    ∀ other ∈ rest, isASCIIDigit other = true

def IsFraction (text : WString) : Prop :=
  text = [] ∨ ∃ digits, text = 46 :: digits ∧ IsDigits digits

def IsExponent (text : WString) : Prop :=
  text = [] ∨ ∃ sign digits, (text = 101 :: (sign ++ digits) ∨ text = 69 :: (sign ++ digits)) ∧
    (sign = [] ∨ sign = [43] ∨ sign = [45]) ∧ IsDigits digits

/-- A number: sign, integer, fraction and exponent. -/
def IsNumber (text : WString) : Prop :=
  ∃ sign int fraction exponent, text = sign ++ int ++ fraction ++ exponent ∧
    (sign = [] ∨ sign = [45]) ∧ IsInt int ∧ IsFraction fraction ∧ IsExponent exponent

/-! ## Values -/

/-- A syntax tree; the elements of an array and the members of an object are
trees themselves, built by `nil`, `cons` and `member`. -/
inductive Tree where
  | null
  | boolean (value : Bool)
  | number (literal : WString)
  | string (content : WString)
  | array (elements : Tree)
  | object (members : Tree)
  | nil
  | cons (head tail : Tree)
  | member (name : WString) (value rest : Tree)

/-- The nonterminals. -/
inductive Kind where
  | value
  | elements
  | members

/-- A text begins with what derives a tree, and leaves a rest. -/
inductive Derives : Kind → WString → Tree → WString → Prop where
  | null {rest} : Derives .value (lit "null" ++ rest) .null rest
  | true {rest} : Derives .value (lit "true" ++ rest) (.boolean true) rest
  | false {rest} : Derives .value (lit "false" ++ rest) (.boolean false) rest
  | number {literal rest} (isNumber : IsNumber literal) :
      Derives .value (literal ++ rest) (.number literal) rest
  | string {body content rest} (isBody : StringBody body content) :
      Derives .value (34 :: (body ++ 34 :: rest)) (.string content) rest
  | emptyArray {text rest} (white : White text (93 :: rest)) :
      Derives .value (91 :: text) (.array .nil) rest
  | array {text elements rest} (derives : Derives .elements text elements (93 :: rest)) :
      Derives .value (91 :: text) (.array elements) rest
  | emptyObject {text rest} (white : White text (125 :: rest)) :
      Derives .value (123 :: text) (.object .nil) rest
  | object {text members rest} (derives : Derives .members text members (125 :: rest)) :
      Derives .value (123 :: text) (.object members) rest
  | element {text start value behind rest}
      (front : White text start) (derives : Derives .value start value behind)
      (back : White behind rest) : Derives .elements text (.cons value .nil) rest
  | elements {text start value behind more elements rest}
      (front : White text start) (derives : Derives .value start value behind)
      (back : White behind (44 :: more)) (others : Derives .elements more elements rest) :
      Derives .elements text (.cons value elements) rest
  | member {text body name colon start value behind rest between}
      (front : White text (34 :: (body ++ 34 :: colon))) (isBody : StringBody body name)
      (isColon : White colon (58 :: between)) (space : White between start)
      (derives : Derives .value start value behind) (back : White behind rest) :
      Derives .members text (.member name value .nil) rest
  | members {text body name colon start value behind more members rest between}
      (front : White text (34 :: (body ++ 34 :: colon))) (isBody : StringBody body name)
      (isColon : White colon (58 :: between)) (space : White between start)
      (derives : Derives .value start value behind) (back : White behind (44 :: more))
      (others : Derives .members more members rest) :
      Derives .members text (.member name value members) rest

/-- The text is one JSON text with that tree. -/
def IsText (text : WString) (tree : Tree) : Prop :=
  ∃ start behind, White text start ∧ Derives .value start tree behind ∧ White behind []

/-! ## Meanings -/

section Meaning

variable (number : WString → Number) (string : WString → WString)

mutual

/-- The value of a tree, for a reading of its numbers and strings. -/
def meaning : Tree → JSValue Number
  | .null => .null
  | .boolean value => .boolean value
  | .number literal => .number (number literal)
  | .string content => .string (string content)
  | .array elements => .array (meaningElements elements)
  | .object members => .object (meaningMembers members)
  | _ => .empty

/-- The values of the elements, in their order. -/
def meaningElements : Tree → List (JSValue Number)
  | .cons head tail => meaning head :: meaningElements tail
  | _ => []

/-- The last value that is given for a name. -/
def meaningMembers : Tree → WString → Option (JSValue Number)
  | .member name value rest => fun key =>
    meaningMembers rest key <|> if key = string name then some (meaning value) else none
  | _ => fun _ => none

end

end Meaning

/-- The value that a tree denotes. -/
def denotes (numbers : Numbers Number) : Tree → JSValue Number := meaning numbers.parseDouble id

end Json
end JavaScript
end PalmWebKit
