import PalmWebKit.Logic.PartialParser

/-!
# Form data in the back/forward list

The body of a form submission is written field by field through an encoder
and read back through a decoder.  The coding of the single fields and the
parser of URLs are parameters.
-/

namespace PalmWebKit
namespace Network

variable {Symbol Double URL : Type}

/-- An `Encoder` and a `Decoder` that write and read the same kind of symbols. -/
structure FieldCoding (Symbol Double : Type) where
  encodeBytes : List UInt8 → List Symbol
  encodeBool : Bool → List Symbol
  encodeUInt32 : UInt32 → List Symbol
  encodeUInt64 : UInt64 → List Symbol
  encodeInt64 : Int64 → List Symbol
  encodeDouble : Double → List Symbol
  encodeString : List UInt16 → List Symbol
  decodeBytes : Parser Symbol (List UInt8)
  decodeBool : Parser Symbol Bool
  decodeUInt32 : Parser Symbol UInt32
  decodeUInt64 : Parser Symbol UInt64
  decodeInt64 : Parser Symbol Int64
  decodeDouble : Parser Symbol Double
  decodeString : Parser Symbol (List UInt16)

/-- Every field is read back in front of whatever follows. -/
structure FieldCoding.RoundTrips (coding : FieldCoding Symbol Double) : Prop where
  bytes : ∀ value, coding.decodeBytes.Reads (coding.encodeBytes value) value
  bool : ∀ value, coding.decodeBool.Reads (coding.encodeBool value) value
  uint32 : ∀ value, coding.decodeUInt32.Reads (coding.encodeUInt32 value) value
  uint64 : ∀ value, coding.decodeUInt64.Reads (coding.encodeUInt64 value) value
  int64 : ∀ value, coding.decodeInt64.Reads (coding.encodeInt64 value) value
  double : ∀ value, coding.decodeDouble.Reads (coding.encodeDouble value) value
  string : ∀ value, coding.decodeString.Reads (coding.encodeString value) value

/-- The text of a `KURL` and the `KURL` of a text. -/
structure URLParser (URL : Type) where
  string : URL → List UInt16
  parse : List UInt16 → URL

/-- A `FormDataElement` of each type, with the fields that its type uses. -/
inductive FormDataElement (URL Double : Type) where
  | data (bytes : List UInt8)
  | encodedFile
      (filename : List UInt16)
      (fileStart fileLength : Int64)
      (expectedFileModificationTime : Double)
      (shouldGenerateFile : Bool)
  | encodedBlob (url : URL)
  | encodedURL
      (url : URL)
      (fileStart fileLength : Int64)
      (expectedFileModificationTime : Double)

/-- A `FormData`. -/
structure FormData (URL Double : Type) where
  elements : List (FormDataElement URL Double) := []
  identifier : Int64 := 0
  hasGeneratedFiles : Bool := false
  alwaysStream : Bool := false
  boundary : List UInt8 := []
  containsPasswordData : Bool := false

/-! ## The numbers of the types -/

def dataType : UInt32 := 0
def encodedFileType : UInt32 := 1
def encodedBlobType : UInt32 := 2
def encodedURLType : UInt32 := 3

/-- `BlobDataItem::toEndOfFile` -/
def toEndOfFile : Int64 := -1

/-- `appendFile` -/
def FormData.appendFile (data : FormData URL Double) (invalidFileTime : Double)
    (filename : List UInt16) (shouldGenerateFile : Bool) : FormData URL Double :=
  { data with
    elements := data.elements ++
      [.encodedFile filename 0 toEndOfFile invalidFileTime shouldGenerateFile] }

section Coding

variable (coding : FieldCoding Symbol Double) (urls : URLParser URL)

/-- The static `encode` of one element. -/
def encode : FormDataElement URL Double → List Symbol
  | .data bytes => coding.encodeUInt32 dataType ++ coding.encodeBytes bytes
  | .encodedFile filename fileStart fileLength expectedFileModificationTime
      shouldGenerateFile =>
      coding.encodeUInt32 encodedFileType ++ (coding.encodeString filename ++
          (coding.encodeBool shouldGenerateFile ++ (coding.encodeInt64 fileStart ++
              (coding.encodeInt64 fileLength ++ coding.encodeDouble expectedFileModificationTime))))
  | .encodedBlob url => coding.encodeUInt32 encodedBlobType ++ coding.encodeString (urls.string url)
  | .encodedURL url fileStart fileLength expectedFileModificationTime =>
    coding.encodeUInt32 encodedURLType ++ (coding.encodeString (urls.string url) ++
        (coding.encodeInt64 fileStart ++ (coding.encodeInt64 fileLength ++
            coding.encodeDouble expectedFileModificationTime)))

/-- The range of a file or URL with its modification time, as it is decoded. -/
def decodeRange : Parser Symbol (Int64 × Int64 × Double) := do
  let fileStart ← coding.decodeInt64
  if fileStart < 0 then failure
  else
    let fileLength ← coding.decodeInt64
    if fileLength < fileStart then failure
    else
      let expectedFileModificationTime ← coding.decodeDouble
      pure (fileStart, fileLength, expectedFileModificationTime)

/-- The static `decode` of one element. -/
def decode : Parser Symbol (FormDataElement URL Double) := do
  let type ← coding.decodeUInt32
  if type = dataType then
    let bytes ← coding.decodeBytes
    pure (.data bytes)
  else if type = encodedFileType then
    let filename ← coding.decodeString
    let shouldGenerateFile ← coding.decodeBool
    let range ← decodeRange coding
    pure (.encodedFile filename range.1 range.2.1 range.2.2 shouldGenerateFile)
  else if type = encodedURLType then
    let url ← coding.decodeString
    let range ← decodeRange coding
    pure (.encodedURL (urls.parse url) range.1 range.2.1 range.2.2)
  else if type = encodedBlobType then
    let url ← coding.decodeString
    pure (.encodedBlob (urls.parse url))
  else failure

def encodeForBackForward (data : FormData URL Double) : List Symbol :=
  coding.encodeBool data.alwaysStream ++ (coding.encodeBytes data.boundary ++
      (coding.encodeUInt64 (UInt64.ofNat data.elements.length) ++
        ((data.elements.map (encode coding urls)).flatten ++
          (coding.encodeBool data.hasGeneratedFiles ++ coding.encodeInt64 data.identifier))))

def decodeForBackForward : Parser Symbol (FormData URL Double) := do
  let alwaysStream ← coding.decodeBool
  let boundary ← coding.decodeBytes
  let elementsSize ← coding.decodeUInt64
  let elements ← (decode coding urls).times elementsSize.toNat
  let hasGeneratedFiles ← coding.decodeBool
  let identifier ← coding.decodeInt64
  pure
    { elements := elements
      identifier := identifier
      hasGeneratedFiles := hasGeneratedFiles
      alwaysStream := alwaysStream
      boundary := boundary }

/-! ## What is read back -/

/-- The range that the decoder accepts. -/
def ValidRange (fileStart fileLength : Int64) : Prop := 0 ≤ fileStart ∧ fileStart ≤ fileLength

/-- A file or a URL with a range that the decoder accepts, or another element. -/
def FormDataElement.Valid : FormDataElement URL Double → Prop
  | .encodedFile _ fileStart fileLength _ _ => ValidRange fileStart fileLength
  | .encodedURL _ fileStart fileLength _ => ValidRange fileStart fileLength
  | _ => True

/-- The URL of an element. -/
def FormDataElement.url? : FormDataElement URL Double → Option URL
  | .encodedBlob url => some url
  | .encodedURL url _ _ _ => some url
  | _ => none

/-- The text of the element's URL is parsed as that URL. -/
def FormDataElement.Canonical (urls : URLParser URL)
    (element : FormDataElement URL Double) : Prop :=
  ∀ url ∈ element.url?, urls.parse (urls.string url) = url

variable {coding urls}

variable {fileStart fileLength : Int64}

theorem reads_range (roundTrips : coding.RoundTrips) (valid : ValidRange fileStart fileLength)
    (expectedFileModificationTime : Double) : (decodeRange coding).Reads
      (coding.encodeInt64 fileStart ++
        (coding.encodeInt64 fileLength ++ coding.encodeDouble expectedFileModificationTime))
      (fileStart, fileLength, expectedFileModificationTime) := by
  apply (roundTrips.int64 fileStart).bind
  rw [if_neg (Int64.not_lt.2 valid.1)]
  apply (roundTrips.int64 fileLength).bind
  rw [if_neg (Int64.not_lt.2 valid.2)]
  apply (roundTrips.double expectedFileModificationTime).bind_pure

theorem refuses_range (roundTrips : coding.RoundTrips) (invalid : ¬ ValidRange fileStart fileLength)
    (expectedFileModificationTime : Double) : (decodeRange coding).Refuses
      (coding.encodeInt64 fileStart ++ (coding.encodeInt64 fileLength ++
          coding.encodeDouble expectedFileModificationTime)) := by
  apply Parser.Refuses.of_reads (roundTrips.int64 fileStart)
  by_cases negative : fileStart < 0
  · rw [if_pos negative]
    apply Parser.Refuses.failure
  · rw [if_neg negative]
    have short : fileLength < fileStart := by
      rw [← Int64.not_le]
      exact fun enough => invalid ⟨Int64.not_lt.1 negative, enough⟩
    apply Parser.Refuses.of_reads (roundTrips.int64 fileLength)
    rw [if_pos short]
    apply Parser.Refuses.failure

variable {element : FormDataElement URL Double}

/-- A valid element is read back. -/
theorem reads_element (roundTrips : coding.RoundTrips) (canonical : element.Canonical urls)
    (valid : element.Valid) : (decode coding urls).Reads (encode coding urls element) element := by
  cases element with
  | data bytes =>
    apply (roundTrips.uint32 dataType).bind
    apply (roundTrips.bytes bytes).bind_pure
  | encodedFile filename fileStart fileLength expectedFileModificationTime
      shouldGenerateFile =>
      apply (roundTrips.uint32 encodedFileType).bind
      apply (roundTrips.string filename).bind
      apply (roundTrips.bool shouldGenerateFile).bind
      exact (reads_range roundTrips valid expectedFileModificationTime).bind_pure _
  | encodedBlob url =>
    have parsed : urls.parse (urls.string url) = url := canonical url rfl
    apply (roundTrips.uint32 encodedBlobType).bind
    have reads := (roundTrips.string (urls.string url)).bind_pure
      fun text => (.encodedBlob (urls.parse text) : FormDataElement URL Double)
    rwa [parsed] at reads
  | encodedURL url fileStart fileLength expectedFileModificationTime =>
    have parsed : urls.parse (urls.string url) = url := canonical url rfl
    apply (roundTrips.uint32 encodedURLType).bind
    apply (roundTrips.string (urls.string url)).bind
    have reads := (reads_range roundTrips valid expectedFileModificationTime).bind_pure
      fun range => (.encodedURL (urls.parse (urls.string url)) range.1 range.2.1 range.2.2 :
        FormDataElement URL Double)
    rwa [parsed] at reads ⊢

/-- An element with another range is refused. -/
theorem refuses_element (roundTrips : coding.RoundTrips)
    (invalid : ¬ element.Valid) : (decode coding urls).Refuses (encode coding urls element) := by
  cases element with
  | data bytes => exact absurd trivial invalid
  | encodedFile filename fileStart fileLength expectedFileModificationTime
      shouldGenerateFile =>
      apply Parser.Refuses.of_reads (roundTrips.uint32 encodedFileType)
      apply Parser.Refuses.of_reads (roundTrips.string filename)
      apply Parser.Refuses.of_reads (roundTrips.bool shouldGenerateFile)
      have refuses := (refuses_range roundTrips invalid expectedFileModificationTime).bind
        (fun range => pure (.encodedFile filename range.1 range.2.1 range.2.2
          shouldGenerateFile : FormDataElement URL Double)) []
      simpa only [List.append_nil] using refuses
  | encodedBlob url => exact absurd trivial invalid
  | encodedURL url fileStart fileLength expectedFileModificationTime =>
    apply Parser.Refuses.of_reads (roundTrips.uint32 encodedURLType)
    apply Parser.Refuses.of_reads (roundTrips.string (urls.string url))
    have refuses := (refuses_range roundTrips invalid expectedFileModificationTime).bind
      (fun range => pure (.encodedURL (urls.parse (urls.string url)) range.1 range.2.1
        range.2.2 : FormDataElement URL Double)) []
    simpa only [List.append_nil] using refuses

variable {data : FormData URL Double}

/-- The number of the elements is read back. -/
theorem reads_elementsSize (roundTrips : coding.RoundTrips) (fits : data.elements.length < 2 ^ 64) :
    ∃ elementsSize : UInt64, elementsSize.toNat = data.elements.length ∧ coding.decodeUInt64.Reads
        (coding.encodeUInt64 (UInt64.ofNat data.elements.length)) elementsSize :=
  ⟨_, UInt64.toNat_ofNat_of_lt' fits, roundTrips.uint64 _⟩

/-- Form data with valid ranges are read back without the password flag. -/
theorem reads_formData (roundTrips : coding.RoundTrips) (fits : data.elements.length < 2 ^ 64)
    (canonical : ∀ element ∈ data.elements, element.Canonical urls)
    (valid : ∀ element ∈ data.elements, element.Valid) :
    (decodeForBackForward coding urls).Reads (encodeForBackForward coding urls data)
      { data with containsPasswordData := false } := by
  obtain ⟨elementsSize, sizeEq, readsSize⟩ := reads_elementsSize roundTrips fits
  have all : List.Forall₂ (decode coding urls).Reads
      (data.elements.map (encode coding urls)) data.elements := by
    rw [List.forall₂_map_left_iff, List.forall₂_same]
    exact fun element member =>
      reads_element roundTrips (canonical element member) (valid element member)
  apply (roundTrips.bool data.alwaysStream).bind
  apply (roundTrips.bytes data.boundary).bind
  apply readsSize.bind
  rw [sizeEq]
  apply (Parser.Reads.times all).bind
  apply (roundTrips.bool data.hasGeneratedFiles).bind
  apply (roundTrips.int64 data.identifier).bind_pure

theorem refuses_formData (roundTrips : coding.RoundTrips) (fits : data.elements.length < 2 ^ 64)
    (canonical : ∀ element ∈ data.elements, element.Canonical urls)
    (invalid : ¬ ∀ element ∈ data.elements, element.Valid) :
    (decodeForBackForward coding urls).Refuses (encodeForBackForward coding urls data) := by
  obtain ⟨elementsSize, sizeEq, readsSize⟩ := reads_elementsSize roundTrips fits
  apply Parser.Refuses.of_reads (roundTrips.bool data.alwaysStream)
  apply Parser.Refuses.of_reads (roundTrips.bytes data.boundary)
  apply Parser.Refuses.of_reads readsSize
  rw [sizeEq]
  apply Parser.Refuses.bind
  exact Parser.Refuses.times
    (fun element member valid => reads_element roundTrips (canonical element member) valid)
    (fun _ => refuses_element roundTrips) invalid

/-- The form data come back as they were. -/
def Survives (coding : FieldCoding Symbol Double) (urls : URLParser URL)
    (data : FormData URL Double) : Prop :=
  decodeForBackForward coding urls (encodeForBackForward coding urls data) = some (data, [])

/-- Everything but the password flag comes back. -/
def SurvivesWithoutFlag (coding : FieldCoding Symbol Double) (urls : URLParser URL)
    (data : FormData URL Double) : Prop :=
  decodeForBackForward coding urls (encodeForBackForward coding urls data) =
    some ({ data with containsPasswordData := false }, [])

/-- Exactly the form data with valid ranges come back, without the password
flag. -/
theorem survives_iff (roundTrips : coding.RoundTrips) (data : FormData URL Double)
    (fits : data.elements.length < 2 ^ 64)
    (canonical : ∀ element ∈ data.elements, element.Canonical urls) :
    (SurvivesWithoutFlag coding urls data ↔ ∀ element ∈ data.elements, element.Valid) ∧
      (Survives coding urls data ↔
        (∀ element ∈ data.elements, element.Valid) ∧ data.containsPasswordData = false) := by
  by_cases valid : ∀ element ∈ data.elements, element.Valid
  · have read := (reads_formData roundTrips fits canonical valid).whole
    refine ⟨iff_of_true read valid, ?_⟩
    rw [Survives, read, Option.some.injEq, Prod.mk.injEq, and_iff_left rfl]
    constructor
    · intro same
      exact ⟨valid, (congrArg FormData.containsPasswordData same).symm⟩
    · rintro ⟨_, noPassword⟩
      rw [← noPassword]
  · have refused := refuses_formData roundTrips fits canonical valid []
    rw [List.append_nil] at refused
    constructor
    · refine iff_of_false ?_ valid
      rw [SurvivesWithoutFlag, refused]
      exact (Option.some_ne_none _).symm
    · refine iff_of_false ?_ fun both => valid both.1
      rw [Survives, refused]
      exact (Option.some_ne_none _).symm

end Coding

/-! ## Fields as tokens -/

/-- A field in the place of its bytes. -/
inductive Token where
  | bytes (value : List UInt8)
  | bool (value : Bool)
  | uint32 (value : UInt32)
  | uint64 (value : UInt64)
  | int64 (value : Int64)
  | double (value : UInt64)
  | string (value : List UInt16)

/-- A coding that writes each field as one symbol. -/
def tokenCoding : FieldCoding Token UInt64 where
  encodeBytes value := [.bytes value]
  encodeBool value := [.bool value]
  encodeUInt32 value := [.uint32 value]
  encodeUInt64 value := [.uint64 value]
  encodeInt64 value := [.int64 value]
  encodeDouble value := [.double value]
  encodeString value := [.string value]
  decodeBytes
    | .bytes value :: rest => some (value, rest)
    | _ => none
  decodeBool
    | .bool value :: rest => some (value, rest)
    | _ => none
  decodeUInt32
    | .uint32 value :: rest => some (value, rest)
    | _ => none
  decodeUInt64
    | .uint64 value :: rest => some (value, rest)
    | _ => none
  decodeInt64
    | .int64 value :: rest => some (value, rest)
    | _ => none
  decodeDouble
    | .double value :: rest => some (value, rest)
    | _ => none
  decodeString
    | .string value :: rest => some (value, rest)
    | _ => none

theorem tokenCoding_roundTrips : tokenCoding.RoundTrips where
  bytes := fun _ _ => rfl
  bool := fun _ _ => rfl
  uint32 := fun _ _ => rfl
  uint64 := fun _ _ => rfl
  int64 := fun _ _ => rfl
  double := fun _ _ => rfl
  string := fun _ _ => rfl

/-- URLs that are their texts. -/
def textURLs : URLParser (List UInt16) where
  string := id
  parse := id

/-- The bytes 104 and 105, a range of the file "/a" and a blob. -/
def sampleForm : FormData (List UInt16) UInt64 where
  elements := [.data [104, 105], .encodedFile [47, 97] 2 7 0 false, .encodedBlob [98]]
  identifier := 12
  boundary := [45, 45]

/-- The theorem on a form with a range of a file and a blob. -/
theorem survives_iff_sampleForm : (SurvivesWithoutFlag tokenCoding textURLs sampleForm ↔
        ∀ element ∈ sampleForm.elements, element.Valid) ∧
      (Survives tokenCoding textURLs sampleForm ↔ (∀ element ∈ sampleForm.elements, element.Valid) ∧
          sampleForm.containsPasswordData = false) :=
  survives_iff tokenCoding_roundTrips sampleForm (by decide) (fun _ _ _ _ => rfl)

/-- A form with the whole file "/a" does not come back. -/
theorem not_survives_appendFile : ¬ Survives tokenCoding textURLs
      (({} : FormData (List UInt16) UInt64).appendFile 0 [47, 97] false) := by
  intro survives
  have refused : decodeForBackForward tokenCoding textURLs (encodeForBackForward tokenCoding
      textURLs (({} : FormData (List UInt16) UInt64).appendFile 0 [47, 97] false)) = none := rfl
  exact Option.some_ne_none _ (survives.symm.trans refused)

end Network
end PalmWebKit
