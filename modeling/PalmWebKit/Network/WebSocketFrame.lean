import PalmWebKit.Logic.NetworkOrder
import PalmWebKit.Logic.SizeType

/-!
# WebSocket frames

`parseFrame` and `makeFrameData` on the bytes of a buffer.  Sizes are those of a
platform; every shift, sum and difference of pointers that the platform cannot
represent is an outcome of its own.
-/

namespace PalmWebKit
namespace Network

/-- `WebSocketFrame`, with the bytes of its payload. -/
structure WebSocketFrame where
  opCode : UInt8
  final : Bool
  compress : Bool
  reserved2 : Bool
  reserved3 : Bool
  masked : Bool
  payload : List UInt8
  deriving DecidableEq, Repr

namespace WebSocketFrame

def opCodeContinuation : UInt8 := 0x0
def opCodeText : UInt8 := 0x1
def opCodeBinary : UInt8 := 0x2
def opCodeClose : UInt8 := 0x8
def opCodePing : UInt8 := 0x9
def opCodePong : UInt8 := 0xA
def opCodeInvalid : UInt8 := 0x10

def finalBit : UInt8 := 0x80
def compressBit : UInt8 := 0x40
def reserved2Bit : UInt8 := 0x20
def reserved3Bit : UInt8 := 0x10
def opCodeMask : UInt8 := 0xF
def maskBit : UInt8 := 0x80
def payloadLengthMask : UInt8 := 0x7F
def maxPayloadLengthWithoutExtendedLengthField : Nat := 125
def payloadLengthWithTwoByteExtendedLengthField : Nat := 126
def payloadLengthWithEightByteExtendedLengthField : Nat := 127
def maskingKeyWidthInBytes : Nat := 4
def maxPayloadLength : Nat := 0x7FFFFFFFFFFFFFFF

/-- `ParseFrameResult` with what it leaves in its arguments. -/
inductive ParseFrameResult
  /-- The frame, and the place of its end in the buffer. -/
  | frameOK (frame : WebSocketFrame) (frameEnd : Nat)
  | frameIncomplete
  | frameError (errorString : String)
  /-- The platform cannot represent a result. -/
  | overflow
  deriving DecidableEq, Repr

/-- The four bytes of a key. -/
structure MaskingKey where
  bytes : List UInt8
  width : bytes.length = maskingKeyWidthInBytes
  deriving DecidableEq

/-- The loop over the payload, to mask or to unmask it. -/
def applyMask (maskingKey payload : List UInt8) : List UInt8 :=
  payload.mapIdx fun i byte => byte ^^^ maskingKey.getD (i % maskingKeyWidthInBytes) 0

/-- The loop over the extended length field: none where a shift loses bits. -/
def readPayloadLength : Nat → List UInt8 → Option Nat
  | payloadLength64, [] => some payloadLength64
  | payloadLength64, byte :: bytes =>
    if payloadLength64 ≥ 2 ^ 56 then none
    else readPayloadLength (payloadLength64 <<< 8 ||| byte.toNat) bytes

/-- The end of `parseFrame`: `header` has been read, `rest` follows it. -/
def parsePayload (size : SizeType) (firstByte secondByte : UInt8) (payloadLength64 : Nat)
    (header rest : List UInt8) : ParseFrameResult × List UInt8 :=
  let masked : Bool := secondByte &&& maskBit ≠ 0
  let maskingKeyLength := if masked then maskingKeyWidthInBytes else 0
  let tooLarge := ParseFrameResult.frameError
    ("WebSocket frame length too large: " ++ toString payloadLength64 ++ " bytes")
  if payloadLength64 > maxPayloadLength then (tooLarge, header ++ rest)
  else if payloadLength64 + maskingKeyLength ≥ 2 ^ 64 then (.overflow, header ++ rest)
  else if payloadLength64 + maskingKeyLength > size.max then (tooLarge, header ++ rest)
  else if rest.length > size.largestObject then (.overflow, header ++ rest)
  else if rest.length < maskingKeyLength + payloadLength64 then
    (.frameIncomplete, header ++ rest)
  else
    let maskingKey := rest.take maskingKeyLength
    let payload := (rest.drop maskingKeyLength).take payloadLength64
    let payload := if masked then applyMask maskingKey payload else payload
    let frame :=
      { opCode := firstByte &&& opCodeMask
        final := firstByte &&& finalBit ≠ 0
        compress := firstByte &&& compressBit ≠ 0
        reserved2 := firstByte &&& reserved2Bit ≠ 0
        reserved3 := firstByte &&& reserved3Bit ≠ 0
        masked
        payload }
    let frameEnd := header.length + maskingKeyLength + payloadLength64
    (.frameOK frame frameEnd,
      header ++ maskingKey ++ payload ++ rest.drop (maskingKeyLength + payloadLength64))

/-- The number of bytes of the extended length field. -/
def extendedPayloadLengthSize (payloadLength64 : Nat) : Nat :=
  if payloadLength64 = payloadLengthWithTwoByteExtendedLengthField then 2 else 8

def minimalLengthError : ParseFrameResult :=
  .frameError "The minimal number of bytes MUST be used to encode the length"

/-- The result, and the buffer behind the call. -/
def parseFrame (size : SizeType) (data : List UInt8) : ParseFrameResult × List UInt8 :=
  match data with
  | firstByte :: secondByte :: rest =>
    let payloadLength64 := (secondByte &&& payloadLengthMask).toNat
    if payloadLength64 > maxPayloadLengthWithoutExtendedLengthField then
      let fieldSize := extendedPayloadLengthSize payloadLength64
      if rest.length > size.largestObject then (.overflow, data)
      else if rest.length < fieldSize then (.frameIncomplete, data)
      else
        match readPayloadLength 0 (rest.take fieldSize) with
        | none => (.overflow, data)
        | some payloadLength64 =>
          if fieldSize = 2 ∧ payloadLength64 ≤ maxPayloadLengthWithoutExtendedLengthField then
            (minimalLengthError, data)
          else if fieldSize = 8 ∧ payloadLength64 ≤ 0xFFFF then
            (minimalLengthError, data)
          else
            parsePayload size firstByte secondByte payloadLength64
              (firstByte :: secondByte :: rest.take fieldSize) (rest.drop fieldSize)
    else
      parsePayload size firstByte secondByte payloadLength64 [firstByte, secondByte] rest
  | _ => (.frameIncomplete, data)

/-- The loop that fills the length field from its last byte. -/
def extendedPayloadLength (payloadLength : Nat) : List UInt8 := NetworkOrder.bytes 8 payloadLength

/-- `appendFramePayload`, with the key that `cryptographicallyRandomValues` gives. -/
def appendFramePayload (frame : WebSocketFrame) (maskingKey : MaskingKey)
    (frameData : List UInt8) : List UInt8 :=
  if frame.masked then
    frameData ++ maskingKey.bytes ++ applyMask maskingKey.bytes frame.payload
  else frameData ++ frame.payload

/-- The first two bytes and the length behind them. -/
def makeHeader (frame : WebSocketFrame) : List UInt8 :=
  let payloadLength := frame.payload.length
  let first := (if frame.final then finalBit else 0) |||
    (if frame.compress then compressBit else 0) ||| frame.opCode
  let second := if frame.masked then maskBit else 0
  if payloadLength ≤ maxPayloadLengthWithoutExtendedLengthField then
    [first, second ||| UInt8.ofNat payloadLength]
  else if payloadLength ≤ 0xFFFF then
    [first, second ||| UInt8.ofNat payloadLengthWithTwoByteExtendedLengthField,
      UInt8.ofNat ((payloadLength &&& 0xFF00) >>> 8), UInt8.ofNat (payloadLength &&& 0xFF)]
  else
    [first, second ||| UInt8.ofNat payloadLengthWithEightByteExtendedLengthField] ++
      extendedPayloadLength payloadLength

def makeFrameData (frame : WebSocketFrame) (maskingKey : MaskingKey) : List UInt8 :=
  appendFramePayload frame maskingKey (makeHeader frame)

end WebSocketFrame

end Network
end PalmWebKit
