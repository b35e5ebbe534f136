import PalmWebKit.DiskCache.HitCount

/-!
# Reading any file

`readFromFile` takes the size of the payload and the number of headers as they
stand in the file, and does not look at what `readIntFromFile` returns.
-/

namespace PalmWebKit
namespace DiskCache

open List

variable {env : Platform}

/-! ## The fields that are asked for -/

section Fields

variable (env) (file : StdString)

/-- The size that stands in front. -/
def frontSize : Long env := (readLong env file).1

/-- What is left behind as many bytes as the size says. -/
def behindPayload : StdString :=
  (fread (frontSize env file).toNat (readLong env file).2).2

/-- What is left behind five integers and four strings. -/
def behindStrings : StdString :=
  (Reader.many readLineFromFile 4 ((behindPayload env file).drop 20)).2

/-- The number of headers that are read. -/
def frontCount : Nat := (readHeaderCount env (behindStrings env file)).1

/-- Every field is asked for where the file has as many bytes left; a header
has one at least. -/
structure FieldsWithin : Prop where
  size : 4 ≤ file.length
  payload : 0 ≤ (frontSize env file).toInt ∧
    (frontSize env file).toNat ≤ (file.drop 4).length
  numbers : 20 ≤ (behindPayload env file).length
  count : 4 ≤ (behindStrings env file).length
  headers : frontCount env file ≤ ((behindStrings env file).drop 4).length

/-- No field is longer than what is left, and an entry is returned only for a
file that `writeToFile` writes. -/
def ReadsRobustly (diskCacheLargestObjectSize : Nat) : Prop :=
  FieldsWithin env file ∧
    ∀ entry, (readFromFile env diskCacheLargestObjectSize file).1 = some entry →
      ∃ written : DiskCacheEntry env, writeToFile written = file

end Fields

/-! ## The parts of a file -/

/-- A line with the NUL behind it. -/
def endLine (line : StdString) : StdString := line ++ [0]

/-- The bytes of a header: the UTF-8 of some string, up to a NUL. -/
def IsHeaderLine (line : StdString) : Prop :=
  ∃ header : WString, StdString.ofCString (WString.utf8 header) = line

/-- Nothing, or bytes that end with NUL. -/
def EndsWithNul (text : StdString) : Prop := text = [] ∨ text.getLast? = some 0

/-- The parts of a file; behind four lines there is more when a string that was
written has a NUL in it. -/
structure FileParts (env : Platform) where
  payload : StdString
  numbers : StdString
  lines : List StdString
  more : StdString
  headers : List StdString
  stored : env.Stored payload.length
  fiveNumbers : numbers.length = 20
  fourLines : lines.length = 4
  noNul : ∀ line ∈ lines, 0 ∉ line
  moreEnds : EndsWithNul more
  headerLines : ∀ header ∈ headers, IsHeaderLine header

namespace FileParts

/-- What stands behind the first four lines. -/
def tail (parts : FileParts env) : StdString :=
  parts.more ++ (writeHeaderCount env parts.headers.length ++ parts.headers.flatMap endLine)

def bytes (parts : FileParts env) : StdString :=
  writePayload env parts.payload ++
    (parts.numbers ++ (parts.lines.flatMap endLine ++ parts.tail))

/-- The number behind the first four lines is at most that of the bytes behind
it. -/
def Counted (parts : FileParts env) : Prop :=
  (readHeaderCount env parts.tail).1 ≤ (parts.tail.drop 4).length

end FileParts

/-! ## Integers and lines -/

theorem toNat_byteOfLong (value : Long env) {shift : Nat}
    (inside : shift + 8 ≤ env.longBits) :
    (byteOfLong value shift).toNat = value.toNat / 2 ^ shift % 2 ^ 8 := by
  have unsigned : (value.sshiftRight shift).setWidth 8 = (value >>> shift).setWidth 8 := by
    apply BitVec.eq_of_getLsbD_eq
    intro position isLess
    rw [BitVec.getLsbD_setWidth, BitVec.getLsbD_sshiftRight, BitVec.getLsbD_setWidth,
      if_pos (by omega)]
    simp [isLess, show position < env.longBits by omega]
  calc (byteOfLong value shift).toNat
    _ = ((value >>> shift).setWidth 8).toNat := by rw [byteOfLong, unsigned]; rfl
    _ = value.toNat / 2 ^ shift % 2 ^ 8 := by
        rw [BitVec.toNat_setWidth, BitVec.toNat_ushiftRight, Nat.shiftRight_eq_div_pow]

variable {bytes : StdString}

/-- Every four bytes are those of some value. -/
theorem exists_writeIntToFile (four : bytes.length = 4) :
    ∃ value : Long env, writeIntToFile value = bytes := by
  match bytes, four with
  | [first, second, third, fourth], _ =>
    have wide : 32 ≤ env.longBits := by
      cases env <;> decide
    have firstLess := first.toNat_lt
    have secondLess := second.toNat_lt
    have thirdLess := third.toNat_lt
    have fourthLess := fourth.toNat_lt
    let number := first.toNat * 2 ^ 24 + second.toNat * 2 ^ 16 + third.toNat * 2 ^ 8 + fourth.toNat
    have fits : number < 2 ^ env.longBits :=
      Nat.lt_of_lt_of_le (show number < 2 ^ 32 by omega) (Nat.pow_le_pow_right (by omega) wide)
    have value : (BitVec.ofNat env.longBits number).toNat = number := by
      rw [BitVec.toNat_ofNat, Nat.mod_eq_of_lt fits]
    have byte : ∀ {shift : Nat} {byte : UInt8}, shift + 8 ≤ env.longBits →
        number / 2 ^ shift % 2 ^ 8 = byte.toNat →
          byteOfLong (BitVec.ofNat env.longBits number) shift = byte := by
      intro shift byte inside same
      apply UInt8.toNat_inj.1
      rw [toNat_byteOfLong _ inside, value, same]
    refine ⟨BitVec.ofNat _ number, ?_⟩
    rw [writeIntToFile, byte (by omega) (show _ = first.toNat by omega),
      byte (by omega) (show _ = second.toNat by omega),
      byte (by omega) (show _ = third.toNat by omega),
      byte (by omega) (show _ = fourth.toNat by omega)]

theorem exists_writeIntToFile_append (isLong : 4 ≤ bytes.length) :
    ∃ (value : Long env) (rest : StdString), rest.length = bytes.length - 4 ∧
      bytes = writeIntToFile value ++ rest := by
  have four : (bytes.take 4).length = 4 := by rw [length_take, Nat.min_eq_left isLong]
  obtain ⟨value, written⟩ := @exists_writeIntToFile env _ four
  exact ⟨value, bytes.drop 4, length_drop, by rw [written, take_append_drop]⟩

/-- As many lines as there are NULs can be taken off the front. -/
theorem exists_lines (count : Nat) {text : StdString} (ends : EndsWithNul text)
    (many : count ≤ text.count 0) :
    ∃ (lines : List StdString) (more : StdString), lines.length = count ∧
      (∀ line ∈ lines, 0 ∉ line) ∧ EndsWithNul more ∧ text = lines.flatMap endLine ++ more := by
  induction count generalizing text with
  | zero => exact ⟨[], text, rfl, nofun, ends, rfl⟩
  | succ count ih =>
    have hasNul : (0 : UInt8) ∈ text := count_pos_iff.1 (by omega)
    obtain ⟨line, rest, rfl, noNul⟩ := eq_append_cons_of_mem hasNul
    have restEnds : EndsWithNul rest := by
      cases rest with
      | nil => exact .inl rfl
      | cons byte rest =>
        refine .inr ?_
        rw [EndsWithNul, getLast?_append] at ends
        simpa using ends
    have restMany : count ≤ rest.count 0 := by
      rw [count_append, count_cons_self, count_eq_zero_of_not_mem noNul] at many
      omega
    obtain ⟨lines, more, lengths, noNuls, moreEnds, rfl⟩ := ih restEnds restMany
    refine ⟨line :: lines, more, by rw [length_cons, lengths], ?_, moreEnds, ?_⟩
    · rintro other (_ | ⟨_, isOther⟩)
      · exact noNul
      · exact noNuls other isOther
    · simp [endLine]

theorem many_readLineFromFile {lines : List StdString} (noNul : ∀ line ∈ lines, 0 ∉ line)
    (rest : StdString) :
    (Reader.many readLineFromFile lines.length (lines.flatMap endLine ++ rest)).2 = rest := by
  induction lines with
  | nil => rfl
  | cons line lines ih =>
    have first := readLineFromFile_append (noNul line (.head _))
      (lines.flatMap endLine ++ rest)
    rw [flatMap_cons, append_assoc, length_cons, Reader.many]
    simp only [endLine] at first ⊢
    rw [first]
    exact ih fun other isOther => noNul other (.tail _ isOther)

/-! ## The parts and the fields -/

namespace FileParts

variable (parts : FileParts env)

theorem toNat_size : (payloadSize env parts.payload).toNat = parts.payload.length := by
  have stored := parts.stored
  rw [toNat_payloadSize]
  cases env <;> simp only [Platform.Stored] at stored <;> omega

theorem readLong_bytes : readLong env parts.bytes = (payloadSize env parts.payload,
      parts.payload ++ (parts.numbers ++ (parts.lines.flatMap endLine ++ parts.tail))) := by
  rw [bytes, writePayload, toNat_size, take_length, append_assoc,
    readLong_writeIntToFile, storedLong_payloadSize]

theorem behindPayload_bytes : behindPayload env parts.bytes =
      parts.numbers ++ (parts.lines.flatMap endLine ++ parts.tail) := by
  rw [behindPayload, frontSize, readLong_bytes, toNat_size]
  exact drop_left

theorem behindStrings_bytes : behindStrings env parts.bytes = parts.tail := by
  rw [behindStrings, behindPayload_bytes, ← parts.fiveNumbers, drop_left, ← parts.fourLines]
  exact many_readLineFromFile parts.noNul _

theorem frontSize_nonneg : 0 ≤ (frontSize env parts.bytes).toInt := by
  have stored := parts.stored
  have notWrapped : parts.payload.length < 2 ^ 32 := by
    cases env <;> simp only [Platform.Stored] at stored <;> omega
  rw [frontSize, readLong_bytes]
  exact Int.not_lt.1 ((payloadSize_nonneg_iff notWrapped).2 stored)

theorem length_writeHeaderCount (count : Nat) : (writeHeaderCount env count).length = 4 := rfl

theorem fieldsWithin_iff : FieldsWithin env parts.bytes ↔ parts.Counted := by
  have counted : frontCount env parts.bytes = (readHeaderCount env parts.tail).1 := by
    rw [frontCount, behindStrings_bytes]
  constructor
  · intro within
    have headers := within.headers
    rw [counted, behindStrings_bytes] at headers
    exact headers
  · intro isCounted
    have whole : parts.bytes.length = 4 + parts.payload.length +
        (20 + (parts.lines.flatMap endLine ++ parts.tail).length) := by
      rw [bytes, length_append, length_writePayload, toNat_size, length_append,
        parts.fiveNumbers]
    constructor
    · omega
    · refine ⟨parts.frontSize_nonneg, ?_⟩
      rw [frontSize, readLong_bytes, toNat_size, length_drop]
      omega
    · rw [behindPayload_bytes, length_append, parts.fiveNumbers]
      omega
    · rw [behindStrings_bytes, tail, length_append, length_append,
        length_writeHeaderCount]
      omega
    · rw [counted, behindStrings_bytes]
      exact isCounted

end FileParts

/-! ## The files that are written -/

theorem payloadSize_take (payload : StdString) :
    payloadSize env (payload.take (payloadSize env payload).toNat) =
      payloadSize env payload := by
  apply BitVec.toNat_inj.1
  rw [toNat_payloadSize, length_take, Nat.min_eq_left (length_payload_le payload),
    toNat_payloadSize, Nat.mod_mod]

theorem writePayload_take (payload : StdString) :
    writePayload env (payload.take (payloadSize env payload).toNat) =
      writePayload env payload := by
  rw [writePayload, payloadSize_take, take_take, Nat.min_self, writePayload]

theorem writeHeader_eq (header : WString) :
    writeHeader header = endLine (StdString.ofCString (WString.utf8 header)) := by
  rw [writeHeader, writeLineToFile, WString.lowBytes_ofLatin1, endLine]

theorem exists_headers {lines : List StdString} (headerLines : ∀ line ∈ lines, IsHeaderLine line) :
    ∃ headers : List WString, headers.length = lines.length ∧
      headers.flatMap writeHeader = lines.flatMap endLine := by
  induction lines with
  | nil => exact ⟨[], rfl, rfl⟩
  | cons line lines ih =>
    obtain ⟨header, isLine⟩ := headerLines line (.head _)
    obtain ⟨headers, lengths, written⟩ := ih fun other isOther =>
      headerLines other (.tail _ isOther)
    refine ⟨header :: headers, by rw [length_cons, length_cons, lengths], ?_⟩
    rw [flatMap_cons, flatMap_cons, written, writeHeader_eq, isLine]

/-- Bytes that end with NUL are those of a line. -/
theorem exists_writeLineToFile {text : StdString} (ends : text.getLast? = some 0) :
    ∃ value, writeLineToFile value = text := by
  refine ⟨WString.ofLatin1 text.dropLast, ?_⟩
  rw [writeLineToFile, WString.lowBytes_ofLatin1]
  exact dropLast_append_getLast? 0 ends

theorem exists_writeLongLong (four : bytes.length = 4) :
    ∃ value, writeLongLong env value = bytes := by
  obtain ⟨value, rfl⟩ := @exists_writeIntToFile env bytes four
  refine ⟨value.setWidth 64, ?_⟩
  rw [writeLongLong, BitVec.setWidth_setWidth_of_le _ (by cases env <;> decide),
    BitVec.setWidth_eq]

theorem FileParts.exists_written (parts : FileParts env) :
    ∃ written : DiskCacheEntry env, writeToFile written = parts.bytes := by
  obtain ⟨lastAccess, four, fourLength, fiveNumbers⟩ := @exists_writeIntToFile_append env
    parts.numbers (by rw [parts.fiveNumbers]; omega)
  rw [parts.fiveNumbers] at fourLength
  obtain ⟨expiresAt, three, threeLength, rfl⟩ := @exists_writeIntToFile_append env
    four (by omega)
  obtain ⟨accessCount, two, twoLength, rfl⟩ := @exists_writeIntToFile_append env
    three (by omega)
  obtain ⟨statusCode, one, oneLength, rfl⟩ := @exists_writeIntToFile_append env
    two (by omega)
  obtain ⟨expectedContentLength, rfl⟩ := @exists_writeLongLong env one (by omega)
  obtain ⟨headers, count, writtenHeaders⟩ := exists_headers parts.headerLines
  obtain ⟨first, second, third, fourth, isLines⟩ := length_eq_four.1 parts.fourLines
  have ends : ∀ line, (endLine line).getLast? = some 0 := fun line => getLast?_concat
  have lastEnds : (endLine fourth ++ parts.more).getLast? = some 0 := by
    rcases parts.moreEnds with isEmpty | moreEnds
    · rw [isEmpty, append_nil, ends]
    · rw [getLast?_append, moreEnds]
      rfl
  obtain ⟨mimeType, isFirst⟩ := exists_writeLineToFile (ends first)
  obtain ⟨fileName, isSecond⟩ := exists_writeLineToFile (ends second)
  obtain ⟨encodingName, isThird⟩ := exists_writeLineToFile (ends third)
  obtain ⟨setCookie, isFourth⟩ := exists_writeLineToFile lastEnds
  refine ⟨{ payload := parts.payload, lastAccess, expiresAt, accessCount, statusCode,
            expectedContentLength, mimeType, fileName, encodingName, setCookie, headers }, ?_⟩
  simp only [writeToFile, FileParts.bytes, fiveNumbers, isLines, FileParts.tail, isFirst, isSecond,
    isThird, isFourth, writeHeaders, count, writtenHeaders, flatMap_cons, flatMap_nil,
    append_assoc, nil_append]

theorem exists_parts (written : DiskCacheEntry env)
    (nonneg : ¬(payloadSize env written.payload).toInt < 0) :
    ∃ parts : FileParts env, parts.bytes = writeToFile written := by
  let text := writeLineToFile written.mimeType ++ (writeLineToFile written.fileName ++
    (writeLineToFile written.encodingName ++ writeLineToFile written.setCookie))
  have nuls : ∀ value : WString, 0 < (writeLineToFile value).count 0 := fun value =>
    count_pos_iff.2 (mem_append_right _ (.head _))
  have many : 4 ≤ text.count 0 := by
    have first := nuls written.mimeType
    have second := nuls written.fileName
    have third := nuls written.encodingName
    have fourth := nuls written.setCookie
    rw [count_append, count_append, count_append]
    omega
  have ends : EndsWithNul text := by
    refine .inr ?_
    simp only [text, writeLineToFile, ← append_assoc]
    exact getLast?_concat
  obtain ⟨lines, more, fourLines, noNul, moreEnds, isText⟩ := exists_lines 4 ends many
  have length : (written.payload.take (payloadSize env written.payload).toNat).length =
      (payloadSize env written.payload).toNat := by
    rw [length_take, Nat.min_eq_left (length_payload_le _)]
  have size : (payloadSize env written.payload).toNat < 2 ^ 32 := by
    rw [toNat_payloadSize]
    exact Nat.mod_lt _ (by decide)
  refine ⟨
    { payload := written.payload.take (payloadSize env written.payload).toNat
      numbers := writeIntToFile written.lastAccess ++ (writeIntToFile written.expiresAt ++
        (writeIntToFile written.accessCount ++ (writeIntToFile written.statusCode ++
          writeLongLong env written.expectedContentLength)))
      lines, more
      headers := written.headers.map fun header => StdString.ofCString (WString.utf8 header)
      stored := ?_
      fiveNumbers := rfl
      fourLines, noNul, moreEnds
      headerLines := ?_ }, ?_⟩
  · refine (payloadSize_nonneg_iff ?_).1 ?_
    · rw [length]
      exact size
    · rw [payloadSize_take]
      exact nonneg
  · intro line isLine
    obtain ⟨header, -, isHeader⟩ := mem_map.1 isLine
    exact ⟨header, isHeader⟩
  · have headers : (written.headers.map fun header =>
        StdString.ofCString (WString.utf8 header)).flatMap endLine =
          written.headers.flatMap writeHeader := by
      rw [flatMap_map]
      exact flatMap_congr fun header _ => (writeHeader_eq header).symm
    have strings : lines.flatMap endLine ++ more = text := isText.symm
    rw [FileParts.bytes, FileParts.tail, writePayload_take, headers, length_map,
      ← append_assoc (lines.flatMap endLine), strings]
    simp only [writeToFile, writeHeaders, text, append_assoc]

/-- An entry is returned unless the size is negative. -/
theorem exists_readFromFile {file : StdString} (nonneg : 0 ≤ (frontSize env file).toInt)
    (limit : Nat) : ∃ entry, (readFromFile env limit file).1 = some entry := by
  have size : ¬(readIntFromFile env file).1.2.toInt < 0 := Int.not_lt.2 nonneg
  rw [readFromFile_apply, readPayload, Reader.bind_apply]
  simp only [if_neg size]
  exact ⟨_, rfl⟩

/-- A file is read robustly exactly if it has the parts of a file that is
written, with a size of its payload that is read back, and a number of headers
that fits wherever it is found. -/
theorem readsRobustly_iff (diskCacheLargestObjectSize : Nat) (file : StdString) :
    ReadsRobustly env file diskCacheLargestObjectSize ↔
      ∃ parts : FileParts env, parts.Counted ∧ parts.bytes = file := by
  constructor
  · rintro ⟨within, isWritten⟩
    obtain ⟨entry, isRead⟩ := exists_readFromFile within.payload.1 diskCacheLargestObjectSize
    obtain ⟨written, rfl⟩ := isWritten entry isRead
    have nonneg : ¬(payloadSize env written.payload).toInt < 0 := by
      have size : frontSize env (writeToFile written) = payloadSize env written.payload :=
        congrArg Prod.snd (readIntFromFile_writeToFile written)
      rw [← size]
      exact Int.not_lt.2 within.payload.1
    obtain ⟨parts, same⟩ := exists_parts written nonneg
    rw [← same] at within
    exact ⟨parts, parts.fieldsWithin_iff.1 within, same⟩
  · rintro ⟨parts, isCounted, rfl⟩
    exact ⟨parts.fieldsWithin_iff.2 isCounted, fun _ _ => parts.exists_written⟩

/-- Nothing in the empty file says so, but an entry is read from it. -/
theorem not_readsRobustly_empty : ¬ReadsRobustly .ilp32 [] 6291456 := by
  intro robust
  exact absurd robust.1.size (by decide)

end DiskCache
end PalmWebKit
