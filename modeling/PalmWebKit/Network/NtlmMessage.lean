import PalmWebKit.Network.CredentialsCache
import PalmWebKit.Text.Utf8

/-!
# The Type-3 message of NTLM

`genNtlmResponse` prints the header of a Type-3 message into a buffer of 1024
bytes and copies the fields behind it.  Domain and host are empty, so the user
name is the only field of variable length; nothing compares it with the room
that is left.
-/

namespace PalmWebKit
namespace Network
namespace Ntlm

open List StdString WString

/-- `NTLMSSP_SIGNATURE` -/
def signature : StdString := [0x4e, 0x54, 0x4c, 0x4d, 0x53, 0x53, 0x50]

/-- `SHORTPAIR` -/
def shortPair (number : Nat) : StdString := [UInt8.ofNat number, UInt8.ofNat (number / 2 ^ 8)]

/-- `LONGQUARTET` -/
def longQuartet (number : UInt32) : StdString :=
  [number.toUInt8, (number >>> 8).toUInt8, (number >>> 16).toUInt8, (number >>> 24).toUInt8]

/-- `NTLMFLAG_NEGOTIATE_UNICODE` -/
def negotiateUnicode : UInt32 := 1

/-- `lmResp` or `ntResp`. -/
structure Response where
  bytes : StdString
  length_eq : bytes.length = 24

/-- Length, allocated space and offset of a field, and two zeroes. -/
def securityBuffer (length offset : Nat) : StdString :=
  shortPair length ++ shortPair length ++ shortPair offset ++ [0, 0]

/-- The bytes that `snprintf` writes before its final zero. -/
def type3Header (userLen : Nat) (ntlmFlags : UInt32) : StdString :=
  let domLen := 0
  let hostLen := 0
  let lmRespOff := 64
  let ntRespOff := lmRespOff + 0x18
  let domOff := ntRespOff + 0x18
  let userOff := domOff + domLen
  let hostOff := userOff + userLen
  signature ++ [0, 3, 0, 0, 0] ++ securityBuffer 0x18 lmRespOff ++ securityBuffer 0x18 ntRespOff ++
    securityBuffer domLen domOff ++
    securityBuffer userLen userOff ++
    securityBuffer hostLen hostOff ++
    [0, 0, 0, 0, 0, 0, 0, 0] ++
    longQuartet (ntlmFlags &&& ~~~negotiateUnicode)

/-- `ntlmBuf` and how much of it is written. -/
structure MessageBuffer where
  bytes : StdString
  size : Nat

namespace MessageBuffer

/-- `memcpy` to the end of what is written; `none` where it would write past
the buffer. -/
def copy (buffer : MessageBuffer) (source : StdString) : Option MessageBuffer :=
  if buffer.size + source.length ≤ buffer.bytes.length then
    some
      { bytes := buffer.bytes.take buffer.size ++ source ++
          buffer.bytes.drop (buffer.size + source.length)
        size := buffer.size + source.length }
  else
    none

/-- A response is copied only where the buffer has room for it. -/
def copyResponse (buffer : MessageBuffer) (response : Response) : Option MessageBuffer :=
  if buffer.size < buffer.bytes.length - 0x18 then buffer.copy response.bytes
  else some buffer

end MessageBuffer

/-- The third branch of `genNtlmResponse` up to the encoding: the message in a
buffer with some contents, `none` where a byte is written past its end. -/
def genType3Message (ntlmBuf : StdString) (lmResp ntResp : Response)
    (entry : CredentialEntry) : Option StdString := do
  let header := type3Header entry.user.length entry.ntlmFlags
  -- The final zero of `snprintf` is overwritten by what follows.
  let printed ← MessageBuffer.copy { bytes := ntlmBuf, size := 0 } (header ++ [0])
  let buffer ← ({ printed with size := header.length } : MessageBuffer).copyResponse lmResp
  let buffer ← buffer.copyResponse ntResp
  let buffer ← buffer.copy (lit "").latin1
  let buffer ← buffer.copy entry.user.latin1
  let buffer ← buffer.copy (lit "").latin1
  return buffer.bytes.take buffer.size

/-! ## What a receiver reads -/

/-- The number in two bytes of a message. -/
def readShort (message : StdString) (position : Nat) : Nat :=
  (message.getD position 0).toNat + 2 ^ 8 * (message.getD (position + 1) 0).toNat

/-- The length in a security buffer. -/
def fieldLength (message : StdString) (position : Nat) : Nat := readShort message position

/-- The offset in a security buffer. -/
def fieldOffset (message : StdString) (position : Nat) : Nat := readShort message (position + 4)

/-- The security buffer lies inside the message and delimits those bytes. -/
structure Delimits (message : StdString) (position : Nat) (bytes : StdString) : Prop where
  inside : fieldOffset message position + fieldLength message position ≤ message.length
  field : substr message (fieldOffset message position) (fieldLength message position) = bytes

/-- Two fields have no byte in common. -/
def Apart (message : StdString) (position position' : Nat) : Prop :=
  fieldOffset message position + fieldLength message position ≤ fieldOffset message position' ∨
    fieldOffset message position' + fieldLength message position' ≤ fieldOffset message position

/-- The positions of the security buffers: LanManager and NT response, domain,
user, host and session key. -/
def securityBuffers : List Nat := [12, 20, 28, 36, 44, 52]

/-- Every security buffer delimits its field, and no two fields overlap. -/
structure WellLaidOut (lmResp ntResp : Response) (entry : CredentialEntry)
    (message : StdString) : Prop where
  lm : Delimits message 12 lmResp.bytes
  nt : Delimits message 20 ntResp.bytes
  domain : Delimits message 28 []
  user : Delimits message 36 entry.user.latin1
  host : Delimits message 44 []
  sessionKey : Delimits message 52 []
  apart : securityBuffers.Pairwise (Apart message)

/-! ## Filling the buffer -/

theorem length_type3Header (userLen : Nat) (ntlmFlags : UInt32) :
    (type3Header userLen ntlmFlags).length = 64 := rfl

theorem length_latin1 (text : WString) : text.latin1.length = text.length := length_map ..

/-- The buffer has its size and begins with what was written. -/
structure Holds (buffer : MessageBuffer) (written : StdString) : Prop where
  capacity : buffer.bytes.length = 1024
  size_eq : buffer.size = written.length
  written_eq : buffer.bytes.take buffer.size = written

section Copies

variable {buffer : MessageBuffer} {written : StdString}

theorem Holds.copy (holds : Holds buffer written) {source : StdString}
    (fits : written.length + source.length ≤ 1024) :
    ∃ after, buffer.copy source = some after ∧ Holds after (written ++ source) := by
  have room : buffer.size + source.length ≤ buffer.bytes.length := by
    rw [holds.size_eq, holds.capacity]
    exact fits
  rw [MessageBuffer.copy, if_pos room]
  refine ⟨_, rfl, ?_, ?_, ?_⟩
  · simp only [length_append, length_take, length_drop]
    have capacity := holds.capacity
    omega
  · rw [length_append, holds.size_eq]
  · rw [holds.written_eq, holds.size_eq, ← length_append]
    exact take_left

theorem Holds.copy_none (holds : Holds buffer written) {source : StdString}
    (tooLong : 1024 < written.length + source.length) : buffer.copy source = none := by
  rw [MessageBuffer.copy, if_neg]
  rw [holds.size_eq, holds.capacity]
  exact Nat.not_le_of_lt tooLong

theorem Holds.copyResponse (holds : Holds buffer written) (response : Response)
    (fits : written.length < 1000) : ∃ after, buffer.copyResponse response = some after ∧
      Holds after (written ++ response.bytes) := by
  have room : buffer.size < buffer.bytes.length - 0x18 := by
    rw [holds.size_eq, holds.capacity]
    omega
  rw [MessageBuffer.copyResponse, if_pos room]
  exact holds.copy (by rw [response.length_eq]; omega)

end Copies

/-- The fields behind the header, in the order they are copied. -/
def type3Message (lmResp ntResp : Response) (entry : CredentialEntry) : StdString :=
  type3Header entry.user.length entry.ntlmFlags ++ lmResp.bytes ++ ntResp.bytes ++ entry.user.latin1

theorem length_type3Message (lmResp ntResp : Response) (entry : CredentialEntry) :
    (type3Message lmResp ntResp entry).length = 112 + entry.user.length := by
  rw [type3Message, length_append, length_append, length_append,
    length_type3Header, lmResp.length_eq, ntResp.length_eq, length_latin1]

/-- The message is built exactly when the user name fits behind the responses. -/
theorem genType3Message_eq {ntlmBuf : StdString} (capacity : ntlmBuf.length = 1024)
    (lmResp ntResp : Response) (entry : CredentialEntry) :
    genType3Message ntlmBuf lmResp ntResp entry =
      if entry.user.length ≤ 912 then some (type3Message lmResp ntResp entry) else none := by
  have headerLength := length_type3Header entry.user.length entry.ntlmFlags
  have start : Holds { bytes := ntlmBuf, size := 0 } [] := ⟨capacity, rfl, rfl⟩
  obtain ⟨printed, isPrinted, printedHolds⟩ := start.copy
    (show ([] : StdString).length + (type3Header entry.user.length entry.ntlmFlags ++ [0]).length ≤
      1024 by rw [length_append, headerLength]; decide)
  have headerHolds : Holds
      { printed with size := (type3Header entry.user.length entry.ntlmFlags).length }
      (type3Header entry.user.length entry.ntlmFlags) := by
    refine ⟨printedHolds.capacity, rfl, ?_⟩
    have whole := congrArg
      (List.take (type3Header entry.user.length entry.ntlmFlags).length) printedHolds.written_eq
    rw [printedHolds.size_eq, take_take, nil_append, take_left] at whole
    rwa [Nat.min_eq_left (by rw [length_append]; exact Nat.le_add_right _ _)] at whole
  obtain ⟨withLm, isWithLm, lmHolds⟩ := headerHolds.copyResponse lmResp (by
    rw [headerLength]; decide)
  obtain ⟨withNt, isWithNt, ntHolds⟩ := lmHolds.copyResponse ntResp (by
    rw [length_append, headerLength, lmResp.length_eq]; decide)
  have ntLength : (type3Header entry.user.length entry.ntlmFlags ++ lmResp.bytes ++
      ntResp.bytes).length = 112 := by
    rw [length_append, length_append, headerLength, lmResp.length_eq, ntResp.length_eq]
  obtain ⟨withDomain, isWithDomain, domainHolds⟩ := ntHolds.copy
    (show _ + (lit "").latin1.length ≤ 1024 by rw [ntLength]; decide)
  rw [show (lit "").latin1 = [] from rfl, append_nil] at domainHolds
  rw [genType3Message]
  simp only [isPrinted, isWithLm, isWithNt, isWithDomain, Option.bind_eq_bind, Option.bind_some]
  by_cases fits : entry.user.length ≤ 912
  · obtain ⟨withUser, isWithUser, userHolds⟩ := domainHolds.copy
      (show _ + entry.user.latin1.length ≤ 1024 by rw [length_latin1]; omega)
    obtain ⟨withHost, isWithHost, hostHolds⟩ := userHolds.copy
      (show _ + (lit "").latin1.length ≤ 1024 by
        rw [length_append, ntLength, length_latin1]
        change 112 + entry.user.length + 0 ≤ 1024
        omega)
    rw [if_pos fits, isWithUser, Option.bind_some, isWithHost]
    rw [show (lit "").latin1 = [] from rfl, append_nil] at hostHolds
    exact congrArg some hostHolds.written_eq
  · rw [if_neg fits, domainHolds.copy_none (by rw [length_latin1]; omega)]
    rfl

/-! ## The layout -/

theorem readShort_shortPair {number : Nat} (small : number < 2 ^ 16) :
    (UInt8.ofNat number).toNat + 2 ^ 8 * (UInt8.ofNat (number / 2 ^ 8)).toNat = number := by
  simp only [UInt8.toNat_ofNat']
  omega

/-- A field between what is before and what is behind it. -/
theorem substr_append (front bytes rest : StdString) :
    substr (front ++ bytes ++ rest) front.length bytes.length = bytes := by
  rw [substr, append_assoc, drop_left, take_left]

theorem getD_append_add (front rest : StdString) (position : Nat) :
    (front ++ rest).getD (front.length + position) 0 = rest.getD position 0 := by
  rw [getD_eq_getElem?_getD, getD_eq_getElem?_getD,
    getElem?_append_right (Nat.le_add_right _ _), Nat.add_sub_cancel_left]

/-- A security buffer is read back. -/
theorem read_securityBuffer {message front rest : StdString} {length offset : Nat}
    (messageEq : message = front ++ (securityBuffer length offset ++ rest))
    (shortLength : length < 2 ^ 16) (shortOffset : offset < 2 ^ 16) :
    fieldOffset message front.length = offset ∧ fieldLength message front.length = length := by
  have read (position : Nat) : readShort message (front.length + position) =
      readShort (securityBuffer length offset ++ rest) position := by
    rw [readShort, readShort, messageEq, Nat.add_assoc, getD_append_add, getD_append_add]
  constructor
  · rw [fieldOffset, read]
    exact readShort_shortPair shortOffset
  · rw [fieldLength, ← Nat.add_zero front.length, read]
    exact readShort_shortPair shortLength

section Layout

variable (lmResp ntResp : Response) {entry : CredentialEntry}

/-- Lengths and offsets as the receiver reads them. -/
theorem fields_type3Message (fits : entry.user.length ≤ 912) :
    (fieldOffset (type3Message lmResp ntResp entry) 12 = 64 ∧
      fieldLength (type3Message lmResp ntResp entry) 12 = 24) ∧
    (fieldOffset (type3Message lmResp ntResp entry) 20 = 88 ∧
      fieldLength (type3Message lmResp ntResp entry) 20 = 24) ∧
    (fieldOffset (type3Message lmResp ntResp entry) 28 = 112 ∧
      fieldLength (type3Message lmResp ntResp entry) 28 = 0) ∧
    (fieldOffset (type3Message lmResp ntResp entry) 36 = 112 ∧
      fieldLength (type3Message lmResp ntResp entry) 36 = entry.user.length) ∧
    (fieldOffset (type3Message lmResp ntResp entry) 44 = 112 + entry.user.length ∧
      fieldLength (type3Message lmResp ntResp entry) 44 = 0) ∧
    (fieldOffset (type3Message lmResp ntResp entry) 52 = 0 ∧
      fieldLength (type3Message lmResp ntResp entry) 52 = 0) := by
  let marker : StdString := signature ++ [0, 3, 0, 0, 0]
  let lm := securityBuffer 24 64
  let nt := securityBuffer 24 88
  let domain := securityBuffer 0 112
  let user := securityBuffer entry.user.length 112
  let host := securityBuffer 0 (112 + entry.user.length)
  let rest := securityBuffer 0 0 ++ (longQuartet (entry.ntlmFlags &&& ~~~negotiateUnicode) ++
    (lmResp.bytes ++ (ntResp.bytes ++ entry.user.latin1)))
  have messageEq : type3Message lmResp ntResp entry =
      marker ++ (lm ++ (nt ++ (domain ++ (user ++ (host ++ rest))))) := by
    simp only [type3Message, type3Header, append_assoc, Nat.add_zero]
    rfl
  refine ⟨?_, ?_, ?_, ?_, ?_, ?_⟩
  · exact read_securityBuffer messageEq (by decide) (by decide)
  · exact @read_securityBuffer _ (marker ++ lm) _ _ _
      (by rw [messageEq]; rfl) (by decide) (by decide)
  · exact @read_securityBuffer _ (marker ++ (lm ++ nt)) _ _ _
      (by rfl) (by decide) (by decide)
  · exact @read_securityBuffer _ (marker ++ (lm ++ (nt ++ domain))) _ _ _
      (by rfl) (by omega) (by decide)
  · exact @read_securityBuffer _ (marker ++ (lm ++ (nt ++ (domain ++ user)))) _ _ _
      (by rfl) (by decide) (by omega)
  · exact @read_securityBuffer _ (marker ++ (lm ++ (nt ++ (domain ++ (user ++ host))))) _ _ _
      (by rw [messageEq]; simp only [append_assoc]; rfl) (by decide) (by decide)

/-- An empty field delimits nothing. -/
theorem delimits_nil {message : StdString} {position : Nat}
    (empty : fieldLength message position = 0)
    (inside : fieldOffset message position ≤ message.length) : Delimits message position [] := by
  refine ⟨by rwa [empty], ?_⟩
  rw [empty, substr, take_zero]

/-- A field between what is before and what is behind it. -/
theorem delimits_of_append {message front bytes rest : StdString} {position : Nat}
    (messageEq : message = front ++ bytes ++ rest)
    (offset : fieldOffset message position = front.length)
    (length : fieldLength message position = bytes.length) : Delimits message position bytes := by
  refine ⟨?_, ?_⟩
  · rw [offset, length, messageEq, length_append, length_append]
    exact Nat.le_add_right _ _
  · rw [offset, length, messageEq, substr_append]

theorem wellLaidOut (fits : entry.user.length ≤ 912) :
    WellLaidOut lmResp ntResp entry (type3Message lmResp ntResp entry) := by
  have messageLength := length_type3Message lmResp ntResp entry
  have headerLength := length_type3Header entry.user.length entry.ntlmFlags
  obtain ⟨⟨lmOff, lmLen⟩, ⟨ntOff, ntLen⟩, ⟨domOff, domLen⟩, ⟨userOff, userLen⟩,
    ⟨hostOff, hostLen⟩, keyOff, keyLen⟩ := fields_type3Message lmResp ntResp fits
  refine ⟨?_, ?_, ?_, ?_, ?_, ?_, ?_⟩
  · refine @delimits_of_append _ (type3Header entry.user.length entry.ntlmFlags) _
      (ntResp.bytes ++ entry.user.latin1) _ ?_ ?_ ?_
    · rw [type3Message, append_assoc (_ ++ _)]
    · rw [lmOff, headerLength]
    · rw [lmLen, lmResp.length_eq]
  · refine @delimits_of_append _ (type3Header entry.user.length entry.ntlmFlags ++ lmResp.bytes) _
      entry.user.latin1 _ rfl ?_ ?_
    · rw [ntOff, length_append, headerLength, lmResp.length_eq]
    · rw [ntLen, ntResp.length_eq]
  · exact delimits_nil domLen (by omega)
  · refine @delimits_of_append _ (type3Header entry.user.length entry.ntlmFlags ++ lmResp.bytes ++
      ntResp.bytes) _ [] _ (append_nil _).symm ?_ ?_
    · rw [userOff, length_append, length_append, headerLength, lmResp.length_eq,
        ntResp.length_eq]
    · rw [userLen, length_latin1]
  · exact delimits_nil hostLen (by omega)
  · exact delimits_nil keyLen (by omega)
  · simp only [securityBuffers, pairwise_cons, forall_mem_cons, Apart]
    simp only [lmOff, lmLen, ntOff, ntLen, domOff, domLen, userOff, userLen, hostOff, hostLen,
      keyOff, keyLen]
    refine ⟨⟨?_, ?_, ?_, ?_, ?_, nofun⟩, ⟨?_, ?_, ?_, ?_, nofun⟩, ⟨?_, ?_, ?_, nofun⟩,
      ⟨?_, ?_, nofun⟩, ⟨?_, nofun⟩, nofun, .nil⟩
    all_goals omega

end Layout

/-- The message is built inside its buffer and is well laid out exactly when
the user name has at most 912 characters. -/
theorem type3_laid_out_iff {ntlmBuf : StdString} (capacity : ntlmBuf.length = 1024)
    (lmResp ntResp : Response) (entry : CredentialEntry) :
    (∃ message, genType3Message ntlmBuf lmResp ntResp entry = some message ∧
        WellLaidOut lmResp ntResp entry message) ↔
      entry.user.length ≤ 912 := by
  rw [genType3Message_eq capacity]
  constructor
  · rintro ⟨message, isBuilt, -⟩
    by_contra tooLong
    rw [if_neg tooLong] at isBuilt
    cases isBuilt
  · intro fits
    rw [if_pos fits]
    exact ⟨_, rfl, wellLaidOut lmResp ntResp fits⟩

/-- A response of zeroes. -/
def zeroResponse : Response where
  bytes := List.replicate 24 0
  length_eq := length_replicate

/-- An entry with a user name of some length. -/
def entryWithUser (length : Nat) : CredentialEntry where
  scheme := .ntlm
  protocol := lit "http"
  host := lit "a"
  port := 80
  path := lit "/"
  realm := lit "a"
  user := List.replicate length 117
  password := []

/-- The theorem on a short user name. -/
theorem type3_laid_out_iff_short :
    (∃ message, genType3Message (List.replicate 1024 0) zeroResponse zeroResponse
          (entryWithUser 4) = some message ∧
        WellLaidOut zeroResponse zeroResponse (entryWithUser 4) message) ↔
      (entryWithUser 4).user.length ≤ 912 := type3_laid_out_iff length_replicate _ _ _

/-- A user name of 913 characters is written past the buffer. -/
theorem type3_overflows :
    genType3Message (List.replicate 1024 0) zeroResponse zeroResponse (entryWithUser 913) =
      none := by
  rw [genType3Message_eq length_replicate, if_neg]
  rw [entryWithUser, length_replicate]
  decide

end Ntlm
end Network
end PalmWebKit
