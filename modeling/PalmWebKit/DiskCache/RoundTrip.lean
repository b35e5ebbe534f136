import PalmWebKit.DiskCache.EntryFile

/-!
# Round trip of cache files

Every field is read back as it was written exactly when it fits the encoding
that its reader understands: integers the four stored bytes, the plain strings
Latin-1 without NUL, and the headers ASCII without NUL, because they are
written as UTF-8 and read as Latin-1.
-/

namespace PalmWebKit
namespace DiskCache

open List

open Reader (Fits)

/-! ## Integers -/

theorem getLsbD_storedByte {width : Nat} (value : BitVec width) (shift : Nat) {position : Nat}
    (inside : position < width) :
    (((value.sshiftRight shift).setWidth 8).setWidth width <<< shift).getLsbD
        position =
      (decide (shift ≤ position ∧ position < shift + 8) &&
        value.getLsbD position) := by
  rw [BitVec.getLsbD_shiftLeft, BitVec.getLsbD_setWidth, BitVec.getLsbD_setWidth,
    BitVec.getLsbD_sshiftRight]
  by_cases low : position < shift
  · simp [low, show ¬shift ≤ position by omega]
  · have back : shift + (position - shift) = position := by omega
    by_cases high : position < shift + 8
    · simp [back, inside, low, high, show position - shift < 8 by omega,
        show shift ≤ position by omega, show position - shift < width by omega]
    · simp [low, high, show ¬position - shift < 8 by omega]

/-- The four bytes of a value put together again. -/
theorem storedBytes_eq {width : Nat} (value : BitVec width) :
    ((value.sshiftRight 24).setWidth 8).setWidth width <<< 24 |||
        ((value.sshiftRight 16).setWidth 8).setWidth width <<< 16 |||
        ((value.sshiftRight 8).setWidth 8).setWidth width <<< 8 |||
        ((value.sshiftRight 0).setWidth 8).setWidth width =
      (value.setWidth 32).setWidth width := by
  apply BitVec.eq_of_getLsbD_eq
  intro position inside
  have last := getLsbD_storedByte value 0 inside
  rw [BitVec.shiftLeft_zero] at last
  simp only [BitVec.getLsbD_or, getLsbD_storedByte _ _ inside, last,
    BitVec.getLsbD_setWidth, inside, decide_true, Bool.true_and]
  by_cases bit : value.getLsbD position = true
  · simp only [bit, Bool.and_true, ← Bool.decide_or, decide_eq_decide]
    omega
  · simp only [bit, Bool.and_false, Bool.or_false]

/-- The value that comes back from four bytes. -/
def storedLong {env : Platform} (value : Long env) : Long env :=
  (value.setWidth 32).setWidth _

variable {env : Platform}

theorem readIntFromFile_writeIntToFile (value : Long env) (rest : StdString) :
    readIntFromFile env (writeIntToFile value ++ rest) =
      ((true, storedLong value), rest) := by
  rw [storedLong, ← storedBytes_eq]
  rfl

theorem storedLong_ilp32 (value : Long .ilp32) :
    storedLong value = value := (BitVec.setWidth_eq _).trans (BitVec.setWidth_eq _)

theorem toInt_storedLong_lp64 (value : Long .lp64) :
    (storedLong value).toInt = (value.toNat % 2 ^ 32 : Nat) := by
  have small : (storedLong value).toNat = value.toNat % 2 ^ 32 := by
    rw [storedLong, BitVec.toNat_setWidth, BitVec.toNat_setWidth]
    simp only [Platform.longBits]
    omega
  rw [BitVec.toInt_eq_toNat_cond, small]
  simp only [Platform.longBits]
  omega

theorem storedLong_eq_iff (value : Long env) :
    storedLong value = value ↔ env.Stored value.toInt := by
  rw [← BitVec.toInt_inj]
  cases env with
  | ilp32 => exact iff_of_true rfl ⟨value.le_toInt, value.toInt_lt⟩
  | lp64 =>
    have bound := value.isLt
    rw [toInt_storedLong_lp64, Platform.Stored, BitVec.toInt_eq_toNat_cond]
    omega

theorem fits_long (env : Platform) : Fits writeIntToFile (readLong env)
      (fun value => env.Stored value.toInt) := by
  have read : ∀ value rest, readLong env (writeIntToFile value ++ rest) =
      (storedLong value, rest) := fun value rest =>
    congrArg (fun result => (result.1.2, result.2))
      (readIntFromFile_writeIntToFile value rest)
  constructor
  · intro value rest stored
    rw [read, (storedLong_eq_iff value).2 stored]
  · intro value rest same
    rw [read] at same
    exact (storedLong_eq_iff value).1 same

theorem fits_longLong (env : Platform) : Fits (writeLongLong env) (readLongLong env)
      (fun value => env.Stored value.toInt) := by
  have read : ∀ value rest, readLongLong env (writeLongLong env value ++ rest) =
        ((storedLong (value.setWidth _ : Long env)).signExtend 64, rest) :=
    fun value rest =>
      congrArg (fun result => (result.1.2.signExtend 64, result.2))
        (readIntFromFile_writeIntToFile (value.setWidth _ : Long env) rest)
  have same_iff : ∀ value : BitVec 64,
      (storedLong (value.setWidth _ : Long env)).signExtend 64 = value ↔
        env.Stored value.toInt := by
    intro value
    rw [← BitVec.toInt_inj, BitVec.toInt_signExtend_of_le (by cases env <;> decide)]
    cases env with
    | ilp32 =>
      have bound := value.isLt
      rw [storedLong_ilp32, Platform.Stored]
      simp only [Platform.longBits]
      rw [BitVec.toInt_setWidth, Int.bmod_def, BitVec.toInt_eq_toNat_cond]
      omega
    | lp64 =>
      rw [toInt_storedLong_lp64, Platform.Stored, BitVec.toInt_eq_toNat_cond]
      simp only [Platform.longBits, BitVec.setWidth_eq]
      omega
  constructor
  · intro value rest stored
    rw [read, (same_iff value).2 stored]
  · intro value rest same
    rw [read] at same
    exact (same_iff value).1 same

theorem fits_headerCount (env : Platform) :
    Fits (writeHeaderCount env) (readHeaderCount env)
      (fun count => env.Stored count) := by
  have read : ∀ count rest, readHeaderCount env (writeHeaderCount env count ++ rest) =
        ((storedLong (BitVec.ofNat _ count : Long env)).toInt.toNat, rest) :=
    fun count rest =>
      congrArg (fun result => (result.1.2.toInt.toNat, result.2))
        (readIntFromFile_writeIntToFile (BitVec.ofNat _ count : Long env) rest)
  have same_iff : ∀ count : Nat,
      (storedLong (BitVec.ofNat _ count : Long env)).toInt.toNat = count ↔
        env.Stored count := by
    intro count
    cases env with
    | ilp32 =>
      rw [storedLong_ilp32, Platform.Stored]
      simp only [Platform.longBits]
      rw [BitVec.toInt_ofNat', Int.bmod_def]
      omega
    | lp64 =>
      rw [toInt_storedLong_lp64, Platform.Stored, BitVec.toNat_ofNat]
      simp only [Platform.longBits]
      omega
  constructor
  · intro value rest stored
    rw [read, (same_iff value).2 stored]
  · intro value rest same
    rw [read] at same
    exact (same_iff value).1 same

/-! ## Strings -/

/-- A string that is stored whole: Latin-1 without NUL. -/
def StoredLine (value : WString) : Prop := ∀ unit ∈ value, 0 < unit.toNat ∧ unit.toNat < 0x100

/-- A header that is stored whole: ASCII without NUL. -/
def StoredHeader (header : WString) : Prop :=
  header.length ≤ WString.utf8LengthLimit ∧ ∀ unit ∈ header, 0 < unit.toNat ∧ unit.toNat < 0x80

theorem readLineFromFile_append {line : StdString} (noNul : 0 ∉ line) (rest : StdString) :
    readLineFromFile (line ++ [0] ++ rest) = (WString.ofLatin1 line, rest) := by
  have inside : ∀ byte ∈ line, decide (byte ≠ 0) = true := by
    intro byte member
    refine decide_eq_true fun isNul => noNul ?_
    rw [← isNul]
    exact member
  rw [readLineFromFile, append_assoc, takeWhile_append_of_pos inside,
    dropWhile_append_of_pos inside]
  simp

/-- The units of a line that was read are Latin-1 and not NUL. -/
theorem storedLine_of_read (file : StdString) : StoredLine (readLineFromFile file).1 := by
  intro unit member
  refine ⟨Nat.pos_of_ne_zero fun isZero => ?_, WString.toNat_lt_of_mem_ofLatin1 member⟩
  obtain rfl : unit = 0 := UInt16.toNat_inj.1 isZero
  have inLine := WString.zero_mem_of_zero_mem_ofLatin1 member
  simpa using mem_takeWhile_imp inLine

theorem zero_notMem_lowBytes {value : WString} (stored : StoredLine value) :
    0 ∉ WString.lowBytes value := by
  intro member
  obtain ⟨unit, inValue, isZero⟩ := mem_map.1 member
  have bounds := stored unit inValue
  have := congrArg UInt8.toNat isZero
  rw [UInt8.toNat_ofNat'] at this
  simp only [UInt8.toNat_zero] at this
  omega

theorem fits_line : Fits writeLineToFile readLineFromFile StoredLine where
  read_write := by
    intro value rest stored
    rw [writeLineToFile, readLineFromFile_append (zero_notMem_lowBytes stored),
      WString.ofLatin1_lowBytes fun unit member => (stored unit member).2]
  good_of_read := by
    intro value rest same
    rw [← same]
    exact storedLine_of_read _

theorem readLineFromFile_writeHeader (header : WString) (rest : StdString) :
    readLineFromFile (writeHeader header ++ rest) =
      (WString.ofLatin1 (StdString.ofCString (WString.utf8 header)), rest) := by
  rw [writeHeader, writeLineToFile, WString.lowBytes_ofLatin1,
    readLineFromFile_append (StdString.zero_notMem_ofCString _)]

theorem fits_header : Fits writeHeader readLineFromFile StoredHeader where
  read_write := by
    intro header rest stored
    have ascii : ∀ unit ∈ header, unit.toNat < 0x80 := fun unit member => (stored.2 unit member).2
    have line : StoredLine header := fun unit member =>
      ⟨(stored.2 unit member).1, lt_trans (ascii unit member) (by omega)⟩
    rw [readLineFromFile_writeHeader, WString.utf8, if_neg (not_lt.2 stored.1),
      WString.convertUTF16ToUTF8_of_ascii ascii,
      StdString.ofCString_eq_self (zero_notMem_lowBytes line),
      WString.ofLatin1_lowBytes fun unit member => (line unit member).2]
  good_of_read := by
    intro header rest same
    have line : StoredLine header := by
      rw [← same]
      exact storedLine_of_read _
    rw [readLineFromFile_writeHeader] at same
    have short : header.length ≤ WString.utf8LengthLimit := by
      by_contra long
      rw [WString.utf8, if_pos (not_le.1 long)] at same
      rw [← same] at long
      exact long (Nat.zero_le _)
    have noNul : 0 ∉ header := fun member => lt_irrefl 0 (line 0 member).1
    rw [WString.utf8, if_neg (not_lt.2 short), StdString.ofCString_eq_self
      (WString.zero_notMem_convertUTF16ToUTF8 noNul)] at same
    -- The encoding of a text that is not ASCII is longer than the text.
    have lengths := congrArg List.length same
    rw [WString.length_ofLatin1] at lengths
    have ascii := (WString.length_convertUTF16ToUTF8 header).2 lengths.le
    exact ⟨short, fun unit member => ⟨(line unit member).1, ascii unit member⟩⟩

theorem fits_headers (env : Platform) : Fits (writeHeaders env) (readHeaders env)
      (fun headers => env.Stored headers.length ∧ ∀ header ∈ headers, StoredHeader header) :=
  fits_header.counted (fits_headerCount env)

/-! ## The payload -/

/-- A payload that is stored whole and kept by `addData`. -/
def StoredPayload (env : Platform) (diskCacheLargestObjectSize : Nat)
    (payload : StdString) : Prop :=
  env.Stored payload.length ∧ (payload = [] ∨ payload.length < diskCacheLargestObjectSize)

theorem toNat_payloadSize (env : Platform) (payload : StdString) :
    (payloadSize env payload).toNat = payload.length % 2 ^ 32 := by
  rw [payloadSize, BitVec.toNat_setWidth, BitVec.toNat_ofNat]
  cases env <;> simp only [Platform.longBits] <;> omega

theorem storedLong_payloadSize (env : Platform) (payload : StdString) :
    storedLong (payloadSize env payload) = payloadSize env payload := by
  cases env with
  | ilp32 => exact storedLong_ilp32 _
  | lp64 =>
    apply BitVec.toNat_inj.1
    rw [storedLong, BitVec.toNat_setWidth, BitVec.toNat_setWidth, toNat_payloadSize]
    simp only [Platform.longBits]
    omega

/-- The size is read back as a size exactly when four bytes hold it. -/
theorem payloadSize_nonneg_iff {payload : StdString} (notWrapped : payload.length < 2 ^ 32) :
    ¬(payloadSize env payload).toInt < 0 ↔
      env.Stored payload.length := by
  rw [BitVec.toInt_eq_toNat_cond, toNat_payloadSize]
  cases env <;> simp only [Platform.longBits, Platform.Stored] <;> omega

theorem readPayload_writePayload (env : Platform) (diskCacheLargestObjectSize : Nat)
    (payload rest : StdString) : readPayload env diskCacheLargestObjectSize
        (writePayload env payload ++ rest) =
      if (payloadSize env payload).toInt < 0 then
        (none, payload.take (payload.length % 2 ^ 32) ++ rest)
      else
        (some (addData diskCacheLargestObjectSize []
          (payload.take (payload.length % 2 ^ 32))), rest) := by
  have length : (payload.take (payload.length % 2 ^ 32)).length =
      payload.length % 2 ^ 32 := by
    rw [length_take]
    omega
  rw [writePayload, append_assoc, toNat_payloadSize, readPayload,
    Reader.bind_apply, readIntFromFile_writeIntToFile, storedLong_payloadSize]
  dsimp only
  split
  · rfl
  · rw [Reader.bind_apply, fread, toNat_payloadSize, take_left' length, drop_left' length]
    rfl

theorem readPayload_of_stored {diskCacheLargestObjectSize : Nat} {payload : StdString}
    (stored : StoredPayload env diskCacheLargestObjectSize payload) (rest : StdString) :
    readPayload env diskCacheLargestObjectSize
        (writePayload env payload ++ rest) = (some payload, rest) := by
  have notWrapped : payload.length < 2 ^ 32 := by
    have inRange := stored.1
    cases env <;> simp only [Platform.Stored] at inRange <;> omega
  rw [readPayload_writePayload, if_neg ((payloadSize_nonneg_iff notWrapped).2 stored.1),
    Nat.mod_eq_of_lt notWrapped, take_length, addData]
  obtain rfl | small := stored.2
  · simp
  · rw [if_neg (by simpa using small), nil_append]

theorem stored_of_readPayload {diskCacheLargestObjectSize : Nat} {payload rest : StdString}
    (same : (readPayload env diskCacheLargestObjectSize
      (writePayload env payload ++ rest)).1 = some payload) :
    StoredPayload env diskCacheLargestObjectSize payload := by
  rw [readPayload_writePayload] at same
  split at same
  · cases same
  · rename_i nonneg
    rw [addData] at same
    split at same
    · obtain rfl : [] = payload := Option.some.inj same
      exact ⟨(payloadSize_nonneg_iff (by simp)).1 nonneg, Or.inl rfl⟩
    · rename_i kept
      have whole : payload.take (payload.length % 2 ^ 32) = payload := Option.some.inj same
      have notWrapped : payload.length < 2 ^ 32 := by
        have lengths := congrArg List.length whole
        rw [length_take] at lengths
        omega
      rw [whole] at kept
      exact ⟨(payloadSize_nonneg_iff notWrapped).1 nonneg, .inr (by simpa using kept)⟩

/-! ## Entries -/

/-- An entry all of whose fields fit their encoding. -/
structure Storable {env : Platform} (diskCacheLargestObjectSize : Nat)
    (entry : DiskCacheEntry env) : Prop where
  payload : StoredPayload env diskCacheLargestObjectSize entry.payload
  lastAccess : env.Stored entry.lastAccess.toInt
  expiresAt : env.Stored entry.expiresAt.toInt
  accessCount : env.Stored entry.accessCount.toInt
  statusCode : env.Stored entry.statusCode.toInt
  expectedContentLength : env.Stored entry.expectedContentLength.toInt
  mimeType : StoredLine entry.mimeType
  fileName : StoredLine entry.fileName
  encodingName : StoredLine entry.encodingName
  setCookie : StoredLine entry.setCookie
  headerCount : env.Stored entry.headers.length
  headers : ∀ header ∈ entry.headers, StoredHeader header

/-- The fields behind the payload, in the order of the file. -/
abbrev MetaData (env : Platform) :=
  Long env × Long env × Long env × Long env ×
    BitVec 64 × WString × WString × WString × WString × List WString

def DiskCacheEntry.metaData {env : Platform}
    (entry : DiskCacheEntry env) : MetaData env :=
  (entry.lastAccess, entry.expiresAt, entry.accessCount, entry.statusCode,
    entry.expectedContentLength, entry.mimeType, entry.fileName,
    entry.encodingName, entry.setCookie, entry.headers)

/-- The entry of a payload and meta-data. -/
def MetaData.entry {env : Platform}
    (payload : StdString) : MetaData env → DiskCacheEntry env
  | (lastAccess, expiresAt, accessCount, statusCode, expectedContentLength,
      mimeType, fileName, encodingName, setCookie, headers) =>
    { payload, lastAccess, expiresAt, accessCount, statusCode, expectedContentLength, mimeType,
      fileName, encodingName, setCookie, headers }

def writeMetaData {env : Platform} (metaData : MetaData env) : StdString :=
  writeIntToFile metaData.1 ++ (writeIntToFile metaData.2.1 ++
    (writeIntToFile metaData.2.2.1 ++ (writeIntToFile metaData.2.2.2.1 ++
      (writeLongLong env metaData.2.2.2.2.1 ++ (writeLineToFile metaData.2.2.2.2.2.1 ++
          (writeLineToFile metaData.2.2.2.2.2.2.1 ++ (writeLineToFile metaData.2.2.2.2.2.2.2.1 ++
              (writeLineToFile metaData.2.2.2.2.2.2.2.2.1 ++
                writeHeaders env metaData.2.2.2.2.2.2.2.2.2))))))))

def readMetaData (env : Platform) : FileReader (MetaData env) := do
  let lastAccess ← readLong env
  let expiresAt ← readLong env
  let accessCount ← readLong env
  let statusCode ← readLong env
  let expectedContentLength ← readLongLong env
  let mimeType ← readLineFromFile
  let fileName ← readLineFromFile
  let encodingName ← readLineFromFile
  let setCookie ← readLineFromFile
  let headers ← readHeaders env
  pure (lastAccess, expiresAt, accessCount, statusCode, expectedContentLength,
    mimeType, fileName, encodingName, setCookie, headers)

theorem readFromFile_apply (env : Platform) (diskCacheLargestObjectSize : Nat)
    (file : StdString) : (readFromFile env diskCacheLargestObjectSize file).1 =
      (readPayload env diskCacheLargestObjectSize file).1.map fun payload =>
        (readMetaData env (readPayload env diskCacheLargestObjectSize file).2).1.entry
            payload := by
  rw [readFromFile, Reader.bind_apply]
  cases (readPayload env diskCacheLargestObjectSize file).1 <;> rfl

theorem writeToFile_eq (entry : DiskCacheEntry env) : writeToFile entry =
      writePayload env entry.payload ++ writeMetaData entry.metaData := by
  simp only [writeToFile, writeMetaData, DiskCacheEntry.metaData, append_assoc]

/-- The fields of the meta-data fit one by one. -/
theorem fits_metaData (env : Platform) : Fits writeMetaData (readMetaData env)
      (fun metaData =>
        env.Stored metaData.1.toInt ∧ env.Stored metaData.2.1.toInt ∧
        env.Stored metaData.2.2.1.toInt ∧
        env.Stored metaData.2.2.2.1.toInt ∧
        env.Stored metaData.2.2.2.2.1.toInt ∧
        StoredLine metaData.2.2.2.2.2.1 ∧ StoredLine metaData.2.2.2.2.2.2.1 ∧
        StoredLine metaData.2.2.2.2.2.2.2.1 ∧
        StoredLine metaData.2.2.2.2.2.2.2.2.1 ∧
        env.Stored metaData.2.2.2.2.2.2.2.2.2.length ∧
        ∀ header ∈ metaData.2.2.2.2.2.2.2.2.2, StoredHeader header) :=
  (fits_long env).pair <| (fits_long env).pair <|
    (fits_long env).pair <| (fits_long env).pair <|
      (fits_longLong env).pair <| fits_line.pair <| fits_line.pair <|
        fits_line.pair <| fits_line.pair <| fits_headers env

theorem storable_iff (diskCacheLargestObjectSize : Nat) (entry : DiskCacheEntry env) :
    Storable diskCacheLargestObjectSize entry ↔
      StoredPayload env diskCacheLargestObjectSize entry.payload ∧
        (readMetaData env (writeMetaData entry.metaData)).1 =
          entry.metaData := by
  have fits := (fits_metaData env).read_eq_iff entry.metaData []
  rw [append_nil] at fits
  rw [fits]
  constructor
  · intro storable
    exact ⟨storable.payload, storable.lastAccess, storable.expiresAt, storable.accessCount,
      storable.statusCode, storable.expectedContentLength, storable.mimeType, storable.fileName,
      storable.encodingName, storable.setCookie, storable.headerCount, storable.headers⟩
  · rintro ⟨payload, lastAccess, expiresAt, accessCount, statusCode, expectedContentLength,
      mimeType, fileName, encodingName, setCookie, headerCount, headers⟩
    exact { payload, lastAccess, expiresAt, accessCount, statusCode, expectedContentLength,
            mimeType, fileName, encodingName, setCookie, headerCount, headers }

/-- The file of an entry reads back as the entry exactly when every field fits
its encoding. -/
theorem readFromFile_writeToFile_iff (env : Platform) (diskCacheLargestObjectSize : Nat)
    (entry : DiskCacheEntry env) :
    (readFromFile env diskCacheLargestObjectSize (writeToFile entry)).1 = some entry ↔
      Storable diskCacheLargestObjectSize entry := by
  have entry_inj : ∀ metaData : MetaData env,
      metaData.entry entry.payload = entry → metaData = entry.metaData :=
    fun metaData same => congrArg DiskCacheEntry.metaData same
  rw [storable_iff, readFromFile_apply, writeToFile_eq]
  constructor
  · intro same
    rw [Option.map_eq_some_iff] at same
    obtain ⟨payload, read, equal⟩ := same
    obtain rfl : payload = entry.payload := congrArg DiskCacheEntry.payload equal
    have stored := stored_of_readPayload read
    rw [readPayload_of_stored stored] at equal
    exact ⟨stored, entry_inj _ equal⟩
  · rintro ⟨stored, same⟩
    rw [readPayload_of_stored stored, Option.map_some, same]
    rfl

/-- A header with a character beyond ASCII comes back as the Latin-1 reading
of its UTF-8 bytes. -/
theorem accented_header_garbled :
    ¬∀ (env : Platform) (entry : DiskCacheEntry env), entry.payload.length < 6291456 →
        (readFromFile env 6291456 (writeToFile entry)).1 = some entry := by
  intro roundTrip
  have same := roundTrip .ilp32
    { payload := [1, 2, 3]
      lastAccess := 1
      expiresAt := 2
      accessCount := 0
      statusCode := 200
      expectedContentLength := 3
      mimeType := WString.lit "text/html"
      fileName := []
      encodingName := []
      setCookie := []
      headers := [WString.lit "X-Name: é"] } (by decide)
  revert same
  decide +kernel

end DiskCache
end PalmWebKit
