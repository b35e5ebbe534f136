import PalmWebKit.Logic.SequentialReader
import PalmWebKit.Text.Utf8

/-!
# Files of the disk cache

`writeToFile` and `readFromFile` of `DiskCacheDisk`.  A file holds the payload
behind its size and then the meta-data; integers are stored in four bytes and
strings up to a NUL byte.
-/

namespace PalmWebKit
namespace DiskCache

/-- The data model the code is compiled for, which decides the width of
`long` and `time_t`. -/
inductive Platform
  | ilp32
  | lp64
  deriving DecidableEq, Repr

def Platform.longBits : Platform → Nat
  | .ilp32 => 32
  | .lp64 => 64

/-- The values that four stored bytes come back as. -/
def Platform.Stored : Platform → Int → Prop
  | .ilp32, value => -2 ^ 31 ≤ value ∧ value < 2 ^ 31
  | .lp64, value => 0 ≤ value ∧ value < 2 ^ 32

instance (env : Platform) (value : Int) : Decidable (env.Stored value) := by
  cases env <;> exact inferInstanceAs (Decidable (_ ∧ _))

abbrev Long (env : Platform) := BitVec env.longBits

/-- The fields of a `DiskCacheEntry` that its file holds. -/
structure DiskCacheEntry (env : Platform) where
  payload : StdString
  lastAccess : Long env
  expiresAt : Long env
  accessCount : Long env
  statusCode : Long env
  expectedContentLength : BitVec 64
  mimeType : WString
  fileName : WString
  encodingName : WString
  setCookie : WString
  headers : List WString
  deriving DecidableEq, Repr

/-! ## Field readers -/

abbrev FileReader := Reader UInt8

/-- `fgetc`, `none` at the end of the file. -/
def fgetc : FileReader (Option UInt8)
  | [] => (none, [])
  | byte :: rest => (some byte, rest)

/-- `fread` of single bytes. -/
def fread (size : Nat) : FileReader StdString :=
  fun file => (file.take size, file.drop size)

/-- The byte as a `long`. -/
def longOfByte (env : Platform) (byte : UInt8) : Long env :=
  byte.toBitVec.setWidth _

def readIntFromFile (env : Platform) : FileReader (Bool × Long env) := do
  match ← fgetc with
  | none => pure (false, 0)
  | some first =>
    let result := longOfByte env first <<< 24
    match ← fgetc with
    | none => pure (false, result)
    | some second =>
      let result := result ||| longOfByte env second <<< 16
      match ← fgetc with
      | none => pure (false, result)
      | some third =>
        let result := result ||| longOfByte env third <<< 8
        match ← fgetc with
        | none => pure (false, result)
        | some fourth => pure (true, result ||| longOfByte env fourth)

/-- `readLineFromFile`: bytes up to a NUL, or to the end, as Latin-1. -/
def readLineFromFile : FileReader WString :=
  fun file => (WString.ofLatin1 (file.takeWhile (· ≠ 0)), (file.dropWhile (· ≠ 0)).drop 1)

/-- `(value >> shift) & 0xff` -/
def byteOfLong {env : Platform} (value : Long env) (shift : Nat) : UInt8 :=
  UInt8.ofBitVec ((value.sshiftRight shift).setWidth 8)

def writeIntToFile {env : Platform} (value : Long env) : StdString :=
  [byteOfLong value 24, byteOfLong value 16, byteOfLong value 8, byteOfLong value 0]

/-- `writeLineToFile`: `fputc` keeps the low byte of every unit. -/
def writeLineToFile (value : WString) : StdString := WString.lowBytes value ++ [0]

/-! ## Files -/

/-- `DiskCacheEntry::addData`; the payload is dropped when it gets too large. -/
def addData (diskCacheLargestObjectSize : Nat) (payload data : StdString) : StdString :=
  if diskCacheLargestObjectSize ≤ payload.length + data.length then []
  else payload ++ data

/-- The size of a payload, an `unsigned` widened to a `long`. -/
def payloadSize (env : Platform) (payload : StdString) : Long env :=
  (BitVec.ofNat 32 payload.length).setWidth _

/-- The payload of a file, `none` when a negative size is allocated. -/
def readPayload (env : Platform)
    (diskCacheLargestObjectSize : Nat) : FileReader (Option StdString) := do
  let (_, size) ← readIntFromFile env
  if size.toInt < 0 then
    pure none
  else
    let data ← fread size.toNat
    pure (some (addData diskCacheLargestObjectSize [] data))

/-- The value of an integer field; the result of `readIntFromFile` is not
looked at. -/
def readLong (env : Platform) : FileReader (Long env) := do
  let (_, value) ← readIntFromFile env
  pure value

/-- `m_expectedContentLength` is read through a `long`. -/
def readLongLong (env : Platform) : FileReader (BitVec 64) := do
  let value ← readLong env
  pure (value.signExtend 64)

/-- The number of headers that the loop over `headerCount` reads. -/
def readHeaderCount (env : Platform) : FileReader Nat := do
  let headerCount ← readLong env
  pure headerCount.toInt.toNat

def readHeaders (env : Platform) : FileReader (List WString) := do
  let headerCount ← readHeaderCount env
  Reader.many readLineFromFile headerCount

def readFromFile (env : Platform) (diskCacheLargestObjectSize : Nat) :
    FileReader (Option (DiskCacheEntry env)) := do
  match ← readPayload env diskCacheLargestObjectSize with
  | none => pure none
  | some payload =>
    let lastAccess ← readLong env
    let expiresAt ← readLong env
    let accessCount ← readLong env
    let statusCode ← readLong env
    let expectedContentLength ← readLongLong env
    let mimeType ← readLineFromFile
    let fileName ← readLineFromFile
    let encodingName ← readLineFromFile
    let setCookie ← readLineFromFile
    let headers ← readHeaders env
    pure (some
      { payload, lastAccess, expiresAt, accessCount, statusCode, expectedContentLength, mimeType,
        fileName, encodingName, setCookie, headers })

def writePayload (env : Platform) (payload : StdString) : StdString :=
  writeIntToFile (payloadSize env payload) ++ payload.take (payloadSize env payload).toNat

def writeLongLong (env : Platform) (value : BitVec 64) : StdString :=
  writeIntToFile (value.setWidth _ : Long env)

def writeHeaderCount (env : Platform) (count : Nat) : StdString :=
  writeIntToFile (BitVec.ofNat _ count : Long env)

/-- A header is written as the Latin-1 string of its UTF-8 bytes, which the
conversion from `const char*` ends at a NUL. -/
def writeHeader (header : WString) : StdString :=
  writeLineToFile
    (WString.ofLatin1 (StdString.ofCString (WString.utf8 header)))

def writeHeaders (env : Platform) (headers : List WString) : StdString :=
  writeHeaderCount env headers.length ++ headers.flatMap writeHeader

/-- `writeToFile` when the file opens and every write succeeds. -/
def writeToFile {env : Platform} (cacheItem : DiskCacheEntry env) : StdString :=
  writePayload env cacheItem.payload ++ writeIntToFile cacheItem.lastAccess ++
    writeIntToFile cacheItem.expiresAt ++
    writeIntToFile cacheItem.accessCount ++
    writeIntToFile cacheItem.statusCode ++
    writeLongLong env cacheItem.expectedContentLength ++
    writeLineToFile cacheItem.mimeType ++
    writeLineToFile cacheItem.fileName ++
    writeLineToFile cacheItem.encodingName ++
    writeLineToFile cacheItem.setCookie ++
    writeHeaders env cacheItem.headers

end DiskCache
end PalmWebKit
