import PalmWebKit.IndexedDB.KeyRoundTrip

/-!
# The keys of the backing store

Every key starts with the ids of a database, an object store and an index.
What follows depends on the ids and on a type byte.
-/

namespace PalmWebKit
namespace IndexedDB

open List

/-! ## Key prefixes -/

/-- An id the encoders accept: an `int64_t` that is not negative. -/
abbrev StoredId := { id : Int // 0 ≤ id ∧ id < 2 ^ 63 }

/-- An index id in a key prefix, for which there are four bytes. -/
abbrev StoredIndexId := { id : Int // 0 ≤ id ∧ id < 2 ^ 32 }

structure KeyPrefix where
  databaseId : Int
  objectStoreId : Int
  indexId : Int
  deriving DecidableEq, Repr

namespace KeyPrefix

def encode (keyPrefix : KeyPrefix) : List UInt8 :=
  let databaseIdString := encodeInt keyPrefix.databaseId
  let objectStoreIdString := encodeInt keyPrefix.objectStoreId
  let indexIdString := encodeInt keyPrefix.indexId
  let firstByte := (databaseIdString.length - 1) <<< 5 |||
    (objectStoreIdString.length - 1) <<< 2 ||| (indexIdString.length - 1)
  UInt8.ofNat firstByte ::
    (databaseIdString ++ objectStoreIdString ++ indexIdString)

def decode : Decoder KeyPrefix := do
  let firstByte ← decodeByte
  let databaseIdBytes := ((firstByte >>> 5) &&& 0x7).toNat + 1
  let objectStoreIdBytes := ((firstByte >>> 2) &&& 0x7).toNat + 1
  let indexIdBytes := (firstByte &&& 0x3).toNat + 1
  let databaseId ← Parser.exactly databaseIdBytes
  let objectStoreId ← Parser.exactly objectStoreIdBytes
  let indexId ← Parser.exactly indexIdBytes
  pure ⟨decodeInt databaseId, decodeInt objectStoreId, decodeInt indexId⟩

theorem firstByte_fields : ∀ (database objectStore : Fin 8) (index : Fin 4),
      let firstByte := UInt8.ofNat
        (database.val <<< 5 ||| objectStore.val <<< 2 ||| index.val)
      ((firstByte >>> 5) &&& 0x7).toNat = database.val ∧
        ((firstByte >>> 2) &&& 0x7).toNat = objectStore.val ∧
        (firstByte &&& 0x3).toNat = index.val := by
  decide

/-- The bytes of an id and their number. -/
theorem length_encodeInt_id (id : StoredId) :
    ∃ index : Fin 8, (encodeInt id).length = index.val + 1 := by
  obtain ⟨nonnegative, small⟩ := id.property
  have bounds := @length_encodeInt _ 7 nonnegative small (by norm_num; omega)
  exact ⟨⟨(encodeInt id).length - 1, by omega⟩, by simp only; omega⟩

theorem length_encodeInt_indexId (id : StoredIndexId) :
    ∃ index : Fin 4, (encodeInt id).length = index.val + 1 := by
  obtain ⟨nonnegative, small⟩ := id.property
  have bounds := @length_encodeInt _ 3 nonnegative (by omega) (by norm_num; omega)
  exact ⟨⟨(encodeInt id).length - 1, by omega⟩, by simp only; omega⟩

theorem decodeInt_encodeInt_id (id : StoredId) :
    decodeInt (encodeInt id) = id := decodeInt_encodeInt id.property.1 id.property.2

theorem decode_encode (databaseId objectStoreId : StoredId) (indexId : StoredIndexId) :
    decode.Reads (encode ⟨databaseId, objectStoreId, indexId⟩)
      ⟨databaseId, objectStoreId, indexId⟩ := by
  obtain ⟨database, databaseLength⟩ := length_encodeInt_id databaseId
  obtain ⟨objectStore, objectStoreLength⟩ := length_encodeInt_id objectStoreId
  obtain ⟨index, indexLength⟩ := length_encodeInt_indexId indexId
  obtain ⟨databaseBits, objectStoreBits, indexBits⟩ := firstByte_fields database objectStore index
  have databaseReads := Parser.Reads.exactly (encodeInt databaseId)
  have objectStoreReads := Parser.Reads.exactly (encodeInt objectStoreId)
  have indexReads := Parser.Reads.exactly (encodeInt indexId)
  rw [databaseLength] at databaseReads
  rw [objectStoreLength] at objectStoreReads
  rw [indexLength] at indexReads
  simp only [encode, databaseLength, objectStoreLength, indexLength,
    Nat.add_sub_cancel, append_assoc]
  refine (Parser.Reads.token _).bind ?_
  simp only [databaseBits, objectStoreBits, indexBits]
  refine databaseReads.bind (objectStoreReads.bind ?_)
  have decoded : decodeInt (encodeInt indexId) = indexId :=
    decodeInt_encodeInt_id ⟨indexId, indexId.property.1, lt_trans indexId.property.2 (by decide)⟩
  have ids := indexReads.bind_pure fun taken =>
    (⟨databaseId, objectStoreId, decodeInt taken⟩ : KeyPrefix)
  rw [decoded] at ids
  rw [decodeInt_encodeInt_id, decodeInt_encodeInt_id]
  exact ids

end KeyPrefix

/-! ## Keys with a type byte -/

def databaseFreeListTypeByte : UInt8 := 100
def databaseNameTypeByte : UInt8 := 201
def objectStoreMetaDataTypeByte : UInt8 := 50
def indexMetaDataTypeByte : UInt8 := 100
def objectStoreFreeListTypeByte : UInt8 := 150
def indexFreeListTypeByte : UInt8 := 151
def objectStoreNamesTypeByte : UInt8 := 200
def indexNamesKeyTypeByte : UInt8 := 201

structure DatabaseFreeListKey where
  databaseId : Int
  deriving DecidableEq, Repr

structure DatabaseNameKey where
  origin : WString
  databaseName : WString
  deriving DecidableEq, Repr

structure ObjectStoreMetaDataKey where
  objectStoreId : Int
  metaDataType : UInt8
  deriving DecidableEq, Repr

structure IndexMetaDataKey where
  objectStoreId : Int
  indexId : Int
  metaDataType : UInt8
  deriving DecidableEq, Repr

structure ObjectStoreFreeListKey where
  objectStoreId : Int
  deriving DecidableEq, Repr

structure IndexFreeListKey where
  objectStoreId : Int
  indexId : Int
  deriving DecidableEq, Repr

structure ObjectStoreNamesKey where
  objectStoreName : WString
  deriving DecidableEq, Repr

structure IndexNamesKey where
  objectStoreId : Int
  indexName : WString
  deriving DecidableEq, Repr

def DatabaseFreeListKey.encode (databaseId : Int) : List UInt8 :=
  KeyPrefix.encode ⟨0, 0, 0⟩ ++ encodeByte databaseFreeListTypeByte ++ encodeVarInt databaseId

def DatabaseFreeListKey.decode : Decoder DatabaseFreeListKey := do
  let _ ← KeyPrefix.decode
  Parser.more
  let _ ← decodeByte
  Parser.more
  let databaseId ← decodeVarInt
  pure ⟨databaseId⟩

def DatabaseNameKey.encode (origin databaseName : WString) : List UInt8 :=
  KeyPrefix.encode ⟨0, 0, 0⟩ ++ encodeByte databaseNameTypeByte ++
    encodeStringWithLength origin ++ encodeStringWithLength databaseName

def DatabaseNameKey.decode : Decoder DatabaseNameKey := do
  let _ ← KeyPrefix.decode
  Parser.more
  let _ ← decodeByte
  Parser.more
  let origin ← decodeStringWithLength
  let databaseName ← decodeStringWithLength
  pure ⟨origin, databaseName⟩

def ObjectStoreMetaDataKey.encode (databaseId objectStoreId : Int)
    (metaDataType : UInt8) : List UInt8 :=
  KeyPrefix.encode ⟨databaseId, 0, 0⟩ ++ encodeByte objectStoreMetaDataTypeByte ++
    encodeVarInt objectStoreId ++ encodeByte metaDataType

def ObjectStoreMetaDataKey.decode : Decoder ObjectStoreMetaDataKey := do
  let _ ← KeyPrefix.decode
  Parser.more
  let _ ← decodeByte
  Parser.more
  let objectStoreId ← decodeVarInt
  Parser.more
  let metaDataType ← decodeByte
  pure ⟨objectStoreId, metaDataType⟩

def IndexMetaDataKey.encode (databaseId objectStoreId indexId : Int)
    (metaDataType : UInt8) : List UInt8 :=
  KeyPrefix.encode ⟨databaseId, 0, 0⟩ ++ encodeByte indexMetaDataTypeByte ++
    encodeVarInt objectStoreId ++ encodeVarInt indexId ++ encodeByte metaDataType

def IndexMetaDataKey.decode : Decoder IndexMetaDataKey := do
  let _ ← KeyPrefix.decode
  Parser.more
  let _ ← decodeByte
  Parser.more
  let objectStoreId ← decodeVarInt
  let indexId ← decodeVarInt
  Parser.more
  let metaDataType ← decodeByte
  pure ⟨objectStoreId, indexId, metaDataType⟩

def ObjectStoreFreeListKey.encode (databaseId objectStoreId : Int) : List UInt8 :=
  KeyPrefix.encode ⟨databaseId, 0, 0⟩ ++ encodeByte objectStoreFreeListTypeByte ++
    encodeVarInt objectStoreId

def ObjectStoreFreeListKey.decode : Decoder ObjectStoreFreeListKey := do
  let _ ← KeyPrefix.decode
  Parser.more
  let _ ← decodeByte
  Parser.more
  let objectStoreId ← decodeVarInt
  pure ⟨objectStoreId⟩

def IndexFreeListKey.encode (databaseId objectStoreId indexId : Int) : List UInt8 :=
  KeyPrefix.encode ⟨databaseId, 0, 0⟩ ++ encodeByte indexFreeListTypeByte ++
    encodeVarInt objectStoreId ++ encodeVarInt indexId

def IndexFreeListKey.decode : Decoder IndexFreeListKey := do
  let _ ← KeyPrefix.decode
  Parser.more
  let _ ← decodeByte
  Parser.more
  let objectStoreId ← decodeVarInt
  let indexId ← decodeVarInt
  pure ⟨objectStoreId, indexId⟩

def ObjectStoreNamesKey.encode (databaseId : Int) (objectStoreName : WString) : List UInt8 :=
  KeyPrefix.encode ⟨databaseId, 0, 0⟩ ++ encodeByte objectStoreNamesTypeByte ++
    encodeStringWithLength objectStoreName

def ObjectStoreNamesKey.decode : Decoder ObjectStoreNamesKey := do
  let _ ← KeyPrefix.decode
  Parser.more
  let _ ← decodeByte
  let objectStoreName ← decodeStringWithLength
  pure ⟨objectStoreName⟩

def IndexNamesKey.encode (databaseId objectStoreId : Int) (indexName : WString) : List UInt8 :=
  KeyPrefix.encode ⟨databaseId, 0, 0⟩ ++ encodeByte indexNamesKeyTypeByte ++
    encodeVarInt objectStoreId ++ encodeStringWithLength indexName

def IndexNamesKey.decode : Decoder IndexNamesKey := do
  let _ ← KeyPrefix.decode
  Parser.more
  let _ ← decodeByte
  Parser.more
  let objectStoreId ← decodeVarInt
  let indexName ← decodeStringWithLength
  pure ⟨objectStoreId, indexName⟩

/-! ## Keys with encoded keys in them -/

def objectStoreDataIndexId : Int := 1
def existsEntryIndexId : Int := 2

structure ObjectStoreDataKey where
  encodedUserKey : List UInt8
  deriving DecidableEq, Repr

structure ExistsEntryKey where
  encodedUserKey : List UInt8
  deriving DecidableEq, Repr

structure IndexDataKey where
  databaseId : Int
  objectStoreId : Int
  indexId : Int
  encodedUserKey : List UInt8
  sequenceNumber : Int
  encodedPrimaryKey : List UInt8
  deriving DecidableEq, Repr

def ObjectStoreDataKey.encode (databaseId objectStoreId : Int)
    (encodedUserKey : List UInt8) : List UInt8 :=
  KeyPrefix.encode ⟨databaseId, objectStoreId, objectStoreDataIndexId⟩ ++ encodedUserKey

def ObjectStoreDataKey.decode : Decoder ObjectStoreDataKey := do
  let _ ← KeyPrefix.decode
  Parser.more
  let encodedUserKey ← extractEncodedIDBKey
  pure ⟨encodedUserKey⟩

def ExistsEntryKey.encode (databaseId objectStoreId : Int) (encodedKey : List UInt8) : List UInt8 :=
  KeyPrefix.encode ⟨databaseId, objectStoreId, existsEntryIndexId⟩ ++ encodedKey

def ExistsEntryKey.decode : Decoder ExistsEntryKey := do
  let _ ← KeyPrefix.decode
  Parser.more
  let encodedUserKey ← extractEncodedIDBKey
  pure ⟨encodedUserKey⟩

def IndexDataKey.encode (databaseId objectStoreId indexId : Int)
    (encodedUserKey encodedPrimaryKey : List UInt8) (sequenceNumber : Int) : List UInt8 :=
  KeyPrefix.encode ⟨databaseId, objectStoreId, indexId⟩ ++ encodedUserKey ++
    encodeVarInt sequenceNumber ++ encodedPrimaryKey

/-- The sequence number and the primary key are optional. -/
def IndexDataKey.decode : Decoder IndexDataKey := do
  let ids ← KeyPrefix.decode
  let encodedUserKey ← extractEncodedIDBKey
  if ← Parser.atEnd then
    pure ⟨ids.databaseId, ids.objectStoreId, ids.indexId, encodedUserKey, -1, minIDBKey⟩
  else do
    let sequenceNumber ← decodeVarInt
    if ← Parser.atEnd then
      pure ⟨ids.databaseId, ids.objectStoreId, ids.indexId, encodedUserKey,
        sequenceNumber, minIDBKey⟩
    else do
      let encodedPrimaryKey ← extractEncodedIDBKey
      pure ⟨ids.databaseId, ids.objectStoreId, ids.indexId, encodedUserKey,
        sequenceNumber, encodedPrimaryKey⟩

/-- The key in an encoded key, null when it cannot be decoded. -/
def decodedKey (encodedKey : List UInt8) : Option IDBKey := (decodeIDBKey encodedKey).map Prod.fst

def ObjectStoreDataKey.userKey (key : ObjectStoreDataKey) : Option IDBKey :=
  decodedKey key.encodedUserKey

def ExistsEntryKey.userKey (key : ExistsEntryKey) : Option IDBKey := decodedKey key.encodedUserKey

def IndexDataKey.userKey (key : IndexDataKey) : Option IDBKey := decodedKey key.encodedUserKey

def IndexDataKey.primaryKey (key : IndexDataKey) : Option IDBKey := decodedKey key.encodedPrimaryKey

/-! ## Decoding what was encoded -/

/-- Bytes that are one encoded key, as `extractEncodedIDBKey` sees it. -/
structure EncodedKey where
  bytes : List UInt8
  whole : extractEncodedIDBKey bytes = some (bytes, [])

namespace EncodedKey

def ofKey (key : ValidKey) : EncodedKey where
  bytes := encodeIDBKey key.key
  whole := (extractEncodedIDBKey_encodeIDBKey key.fits).whole

def max : EncodedKey where
  bytes := maxIDBKey
  whole := by decide

def min : EncodedKey where
  bytes := minIDBKey
  whole := by decide

theorem reads (key : EncodedKey) : extractEncodedIDBKey.Reads key.bytes key.bytes :=
  local_extractEncodedIDBKey.reads_of_whole key.whole

theorem bytes_ne_nil (key : EncodedKey) : key.bytes ≠ [] := by
  intro empty
  have whole := key.whole
  rw [empty] at whole
  cases whole

end EncodedKey

/-- A string as it can be in memory. -/
abbrev StoredString := { text : WString // text.length < 2 ^ 32 }

section Decoding

variable {Value : Type}

theorem encodeVarInt_ne_nil (n : Int) : encodeVarInt n ≠ [] := by
  rw [encodeVarInt, encodeVarIntLoop]
  split <;> exact cons_ne_nil _ _

theorem encodeStringWithLength_ne_nil (text : WString) :
    encodeStringWithLength text ≠ [] := append_ne_nil_of_left_ne_nil (encodeVarInt_ne_nil _) _

theorem reads_id (id : StoredId) :
    decodeVarInt.Reads (encodeVarInt id) id := decodeVarInt_encodeVarInt id.property.1 id.property.2

theorem reads_string (text : StoredString) :
    decodeStringWithLength.Reads (encodeStringWithLength text) text :=
  decodeStringWithLength_encodeStringWithLength text.property

/-- The prefix and the type byte of a key. -/
theorem reads_typed {parser : Decoder Value} {text : List UInt8} {value : Value}
    (databaseId : StoredId) (typeByte : UInt8) (reads : parser.Reads text value) : (do
      let _ ← KeyPrefix.decode
      Parser.more
      let _ ← decodeByte
      parser).Reads
      (KeyPrefix.encode ⟨databaseId, 0, 0⟩ ++ (encodeByte typeByte ++ text)) value := by
  have ids := KeyPrefix.decode_encode databaseId ⟨0, by decide⟩ ⟨0, by decide⟩
  refine ids.bind (Parser.Reads.more_bind ?_ ((Parser.Reads.token typeByte).bind reads))
  exact cons_ne_nil _ _

theorem DatabaseFreeListKey.decode_encode (databaseId : StoredId) :
    DatabaseFreeListKey.decode.Reads (DatabaseFreeListKey.encode databaseId)
      ⟨databaseId⟩ := by
  rw [DatabaseFreeListKey.encode, append_assoc]
  apply reads_typed ⟨0, by decide⟩
  apply Parser.Reads.more_bind (encodeVarInt_ne_nil _)
  exact (reads_id databaseId).bind_pure _

theorem DatabaseNameKey.decode_encode (origin databaseName : StoredString) :
    DatabaseNameKey.decode.Reads (DatabaseNameKey.encode origin databaseName)
      ⟨origin, databaseName⟩ := by
  rw [DatabaseNameKey.encode, append_assoc, append_assoc]
  apply reads_typed ⟨0, by decide⟩
  apply Parser.Reads.more_bind
  · exact append_ne_nil_of_left_ne_nil (encodeStringWithLength_ne_nil _) _
  · exact (reads_string origin).bind ((reads_string databaseName).bind_pure _)

variable (databaseId objectStoreId : StoredId)

theorem ObjectStoreMetaDataKey.decode_encode
    (metaDataType : UInt8) : ObjectStoreMetaDataKey.decode.Reads
      (ObjectStoreMetaDataKey.encode databaseId objectStoreId metaDataType)
      ⟨objectStoreId, metaDataType⟩ := by
  rw [ObjectStoreMetaDataKey.encode, append_assoc, append_assoc]
  apply reads_typed databaseId
  apply Parser.Reads.more_bind
  · exact append_ne_nil_of_left_ne_nil (encodeVarInt_ne_nil _) _
  · refine (reads_id objectStoreId).bind
      (Parser.Reads.more_bind (cons_ne_nil _ _) ?_)
    exact (Parser.Reads.token metaDataType).bind_pure _

theorem IndexMetaDataKey.decode_encode (databaseId objectStoreId indexId : StoredId)
    (metaDataType : UInt8) : IndexMetaDataKey.decode.Reads
      (IndexMetaDataKey.encode databaseId objectStoreId indexId metaDataType)
      ⟨objectStoreId, indexId, metaDataType⟩ := by
  rw [IndexMetaDataKey.encode, append_assoc, append_assoc, append_assoc]
  apply reads_typed databaseId
  apply Parser.Reads.more_bind
  · exact append_ne_nil_of_left_ne_nil (encodeVarInt_ne_nil _) _
  · refine (reads_id objectStoreId).bind ((reads_id indexId).bind
      (Parser.Reads.more_bind (cons_ne_nil _ _) ?_))
    exact (Parser.Reads.token metaDataType).bind_pure _

theorem ObjectStoreFreeListKey.decode_encode : ObjectStoreFreeListKey.decode.Reads
      (ObjectStoreFreeListKey.encode databaseId objectStoreId)
      ⟨objectStoreId⟩ := by
  rw [ObjectStoreFreeListKey.encode, append_assoc]
  apply reads_typed databaseId
  apply Parser.Reads.more_bind (encodeVarInt_ne_nil _)
  exact (reads_id objectStoreId).bind_pure _

theorem IndexFreeListKey.decode_encode (databaseId objectStoreId indexId : StoredId) :
    IndexFreeListKey.decode.Reads
      (IndexFreeListKey.encode databaseId objectStoreId indexId)
      ⟨objectStoreId, indexId⟩ := by
  rw [IndexFreeListKey.encode, append_assoc, append_assoc]
  apply reads_typed databaseId
  apply Parser.Reads.more_bind
  · exact append_ne_nil_of_left_ne_nil (encodeVarInt_ne_nil _) _
  · exact (reads_id objectStoreId).bind ((reads_id indexId).bind_pure _)

theorem ObjectStoreNamesKey.decode_encode (databaseId : StoredId) (objectStoreName : StoredString) :
    ObjectStoreNamesKey.decode.Reads
      (ObjectStoreNamesKey.encode databaseId objectStoreName)
      ⟨objectStoreName⟩ := by
  rw [ObjectStoreNamesKey.encode, append_assoc]
  apply reads_typed databaseId
  exact (reads_string objectStoreName).bind_pure _

theorem IndexNamesKey.decode_encode (indexName : StoredString) : IndexNamesKey.decode.Reads
      (IndexNamesKey.encode databaseId objectStoreId indexName)
      ⟨objectStoreId, indexName⟩ := by
  rw [IndexNamesKey.encode, append_assoc, append_assoc]
  apply reads_typed databaseId
  apply Parser.Reads.more_bind
  · exact append_ne_nil_of_left_ne_nil (encodeVarInt_ne_nil _) _
  · exact (reads_id objectStoreId).bind ((reads_string indexName).bind_pure _)

theorem ObjectStoreDataKey.decode_encode (userKey : EncodedKey) : ObjectStoreDataKey.decode.Reads
      (ObjectStoreDataKey.encode databaseId objectStoreId userKey.bytes)
      ⟨userKey.bytes⟩ := by
  refine (KeyPrefix.decode_encode databaseId objectStoreId ⟨1, by decide⟩).bind ?_
  exact Parser.Reads.more_bind userKey.bytes_ne_nil (userKey.reads.bind_pure _)

theorem ExistsEntryKey.decode_encode (userKey : EncodedKey) : ExistsEntryKey.decode.Reads
      (ExistsEntryKey.encode databaseId objectStoreId userKey.bytes)
      ⟨userKey.bytes⟩ := by
  refine (KeyPrefix.decode_encode databaseId objectStoreId ⟨2, by decide⟩).bind ?_
  exact Parser.Reads.more_bind userKey.bytes_ne_nil (userKey.reads.bind_pure _)

theorem IndexDataKey.decode_encode (indexId : StoredIndexId) (userKey primaryKey : EncodedKey)
    (sequenceNumber : StoredId) : IndexDataKey.decode.Reads
      (IndexDataKey.encode databaseId objectStoreId indexId userKey.bytes
        primaryKey.bytes sequenceNumber)
      ⟨databaseId, objectStoreId, indexId, userKey.bytes, sequenceNumber,
        primaryKey.bytes⟩ := by
  rw [IndexDataKey.encode, append_assoc, append_assoc]
  refine (KeyPrefix.decode_encode databaseId objectStoreId indexId).bind
    (userKey.reads.bind (Parser.Reads.atEnd_bind ?_ ?_))
  · exact append_ne_nil_of_left_ne_nil (encodeVarInt_ne_nil _) _
  · refine (reads_id sequenceNumber).bind
      (Parser.Reads.atEnd_bind primaryKey.bytes_ne_nil ?_)
    exact primaryKey.reads.bind_pure _

/-- The key in the encoding of a valid key is that key. -/
theorem decodedKey_encodeIDBKey (key : ValidKey) :
    decodedKey (encodeIDBKey key.key) = some key.key := by
  rw [decodedKey, (decodeIDBKey_encodeIDBKey key.isValid key.fits).whole, Option.map_some]

end Decoding

/-- What every decoder of keys reads from the encoding of valid arguments, in
front of whatever follows. -/
structure KeyCodecInverts : Prop where
  idbKey : ∀ (key : ValidKey) (rest : List UInt8),
    decodeIDBKey (encodeIDBKey key.key ++ rest) = some (key.key, rest)
  extracted : ∀ (key : ValidKey) (rest : List UInt8),
    extractEncodedIDBKey (encodeIDBKey key.key ++ rest) = some (encodeIDBKey key.key, rest)
  keyPrefix : ∀ (databaseId objectStoreId : StoredId) (indexId : StoredIndexId),
    KeyPrefix.decode.Reads
      (KeyPrefix.encode ⟨databaseId, objectStoreId, indexId⟩)
      ⟨databaseId, objectStoreId, indexId⟩
  databaseFreeList : ∀ databaseId : StoredId,
    DatabaseFreeListKey.decode.Reads (DatabaseFreeListKey.encode databaseId)
      ⟨databaseId⟩
  databaseName : ∀ origin databaseName : StoredString,
    DatabaseNameKey.decode.Reads (DatabaseNameKey.encode origin databaseName)
      ⟨origin, databaseName⟩
  objectStoreMetaData : ∀ (databaseId objectStoreId : StoredId)
      (metaDataType : UInt8),
    ObjectStoreMetaDataKey.decode.Reads
      (ObjectStoreMetaDataKey.encode databaseId objectStoreId metaDataType)
      ⟨objectStoreId, metaDataType⟩
  indexMetaData : ∀ (databaseId objectStoreId indexId : StoredId)
      (metaDataType : UInt8),
    IndexMetaDataKey.decode.Reads
      (IndexMetaDataKey.encode databaseId objectStoreId indexId metaDataType)
      ⟨objectStoreId, indexId, metaDataType⟩
  objectStoreFreeList : ∀ databaseId objectStoreId : StoredId, ObjectStoreFreeListKey.decode.Reads
      (ObjectStoreFreeListKey.encode databaseId objectStoreId) ⟨objectStoreId⟩
  indexFreeList : ∀ databaseId objectStoreId indexId : StoredId, IndexFreeListKey.decode.Reads
      (IndexFreeListKey.encode databaseId objectStoreId indexId)
      ⟨objectStoreId, indexId⟩
  objectStoreNames : ∀ (databaseId : StoredId) (objectStoreName : StoredString),
    ObjectStoreNamesKey.decode.Reads
      (ObjectStoreNamesKey.encode databaseId objectStoreName) ⟨objectStoreName⟩
  indexNames : ∀ (databaseId objectStoreId : StoredId)
      (indexName : StoredString),
    IndexNamesKey.decode.Reads
      (IndexNamesKey.encode databaseId objectStoreId indexName)
      ⟨objectStoreId, indexName⟩
  objectStoreData : ∀ (databaseId objectStoreId : StoredId) (userKey : EncodedKey),
    ObjectStoreDataKey.decode.Reads
      (ObjectStoreDataKey.encode databaseId objectStoreId userKey.bytes)
      ⟨userKey.bytes⟩
  existsEntry : ∀ (databaseId objectStoreId : StoredId) (userKey : EncodedKey),
    ExistsEntryKey.decode.Reads
      (ExistsEntryKey.encode databaseId objectStoreId userKey.bytes)
      ⟨userKey.bytes⟩
  indexData : ∀ (databaseId objectStoreId : StoredId) (indexId : StoredIndexId)
      (userKey primaryKey : EncodedKey) (sequenceNumber : StoredId),
    IndexDataKey.decode.Reads
      (IndexDataKey.encode databaseId objectStoreId indexId userKey.bytes
        primaryKey.bytes sequenceNumber)
      ⟨databaseId, objectStoreId, indexId, userKey.bytes, sequenceNumber, primaryKey.bytes⟩
  userKey : ∀ key : ValidKey,
    ObjectStoreDataKey.userKey ⟨(EncodedKey.ofKey key).bytes⟩ = some key.key ∧
      ExistsEntryKey.userKey ⟨(EncodedKey.ofKey key).bytes⟩ = some key.key

/-- The codec of IndexedDB keys gives back the keys and arguments it was given
and stops where they end. -/
theorem keyCodec_inverts : KeyCodecInverts where
  idbKey key := decodeIDBKey_encodeIDBKey key.isValid key.fits
  extracted key := extractEncodedIDBKey_encodeIDBKey key.fits
  keyPrefix := KeyPrefix.decode_encode
  databaseFreeList := DatabaseFreeListKey.decode_encode
  databaseName := DatabaseNameKey.decode_encode
  objectStoreMetaData := ObjectStoreMetaDataKey.decode_encode
  indexMetaData := IndexMetaDataKey.decode_encode
  objectStoreFreeList := ObjectStoreFreeListKey.decode_encode
  indexFreeList := IndexFreeListKey.decode_encode
  objectStoreNames := ObjectStoreNamesKey.decode_encode
  indexNames := IndexNamesKey.decode_encode
  objectStoreData := ObjectStoreDataKey.decode_encode
  existsEntry := ExistsEntryKey.decode_encode
  indexData := IndexDataKey.decode_encode
  userKey key := ⟨decodedKey_encodeIDBKey key, decodedKey_encodeIDBKey key⟩

end IndexedDB
end PalmWebKit
