import PalmWebKit.Text.TextCodecUTF8

/-!
# Escape sequences of URLs

`decodeURLEscapeSequences`: runs of escape sequences are decoded as UTF-8, with up to two
characters that could belong to a character of another encoding.
-/

namespace PalmWebKit
namespace Text

def percent : UChar := 37

def isASCIIHexDigit (unit : UChar) : Bool :=
  (48 ≤ unit && unit ≤ 57) || (65 ≤ unit && unit ≤ 70) || (97 ≤ unit && unit ≤ 102)

def toASCIIHexValue (unit : UChar) : UInt16 :=
  if unit < 65 then unit - 48 else (unit - 65 + 10) &&& 0xF

/-- How long the run at the start of a text is: `URLEscapeSequence::findEndOfRun`. -/
def runLength : Nat → WString → Nat
  | numberOfTrailingCharacters, unit :: rest =>
    if unit = percent then
      match rest with
      | high :: low :: rest =>
        if isASCIIHexDigit high && isASCIIHexDigit low then 3 + runLength 0 rest else 0
      | _ => 0
    else if 0x40 ≤ unit && unit ≤ 0x7F && numberOfTrailingCharacters < 2 then
      1 + runLength (numberOfTrailingCharacters + 1) rest
    else 0
  | _, [] => 0

/-- The bytes of a run. -/
def runBytes : WString → List Byte
  | unit :: rest =>
    if unit = percent then
      match rest with
      | high :: low :: rest =>
        ((toASCIIHexValue high <<< 4) ||| toASCIIHexValue low).toUInt8 :: runBytes rest
      | _ => []
    else unit.toUInt8 :: runBytes rest
  | [] => []

/-- `URLEscapeSequence::decodeRun` -/
def decodeRun (run : WString) : WString :=
  let bytes := runBytes run
  ((TextCodecUTF8.decode {} ⟨bytes.length, 8, by decide⟩ bytes true false false).map
    Decoded.text).getD []

/-- The loop of `decodeEscapeSequences`, which takes at most one step for a character. -/
def decodeEscapeSequences : Nat → WString → WString
  | 0, text => text
  | _, [] => []
  | steps + 1, unit :: rest =>
    if unit = percent then
      let length := runLength 0 (unit :: rest)
      if length = 0 then unit :: decodeEscapeSequences steps rest
      else
        let run := (unit :: rest).take length
        let decoded := decodeRun run
        (if decoded = [] then run else decoded) ++
          decodeEscapeSequences steps ((unit :: rest).drop length)
    else unit :: decodeEscapeSequences steps rest

def decodeURLEscapeSequences (text : WString) : WString := decodeEscapeSequences text.length text

example : decodeURLEscapeSequences (WString.lit "/a%2Fb") = WString.lit "/a/b" := by
  decide +kernel

end Text
end PalmWebKit
