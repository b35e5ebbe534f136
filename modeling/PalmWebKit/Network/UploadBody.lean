import PalmWebKit.Logic.PullSource
import PalmWebKit.Network.FormData
import PalmWebKit.Text.StdString

/-!
# The upload of a request body

curl pulls the body with `readData`, which answers from one element at a time
and whose empty answer is the end of the body.  A file is left only after a
short read, so a file whose last byte was asked for exactly, and an empty
element, end the body in front of the elements behind them.
-/

namespace PalmWebKit
namespace Network
namespace Upload

open List Logic PullSource

variable {URL Double : Type}

/-- The content of a file, with a size that an `off_t` holds. -/
structure File where
  content : List UInt8
  size_lt : content.length < 2 ^ 63

/-- The files that exist, by their names. -/
abbrev Files := List UInt16 → Option File

/-- `m_data` -/
def mData : FormDataElement URL Double → List UInt8
  | .data bytes => bytes
  | _ => []

def isFile : FormDataElement URL Double → Prop
  | .encodedFile _ _ _ _ _ => True
  | _ => False

/-! ## `readData` -/

/-- The fields of the `CurlHandle` that the callback uses; `m_file` as what is
still to be read of it. -/
structure Reader where
  cancelled : Bool := false
  file : Option (List UInt8) := none
  formDataElementIndex : Nat := 0
  formDataElementDataOffset : Nat := 0

/-- The branch for a file.  `fread` notices the end of the file only when it
reads less than it is asked for. -/
def readFile (files : Files) (filename : List UInt16) (toSend : Nat)
    (reader : Reader) : List UInt8 × Reader :=
  match reader.file <|> (files filename).map File.content with
  | none => ([], { reader with cancelled := true })
  | some unread =>
    (unread.take toSend,
      if unread.length < toSend then
        { reader with
          file := none
          formDataElementIndex := reader.formDataElementIndex + 1 }
      else { reader with file := some (unread.drop toSend) })

/-- The branch for data. -/
def readBytes (data : List UInt8) (toSend : Nat) (reader : Reader) : List UInt8 × Reader :=
  let elementSize := data.length - reader.formDataElementDataOffset
  let sent := if elementSize > toSend then toSend else elementSize
  ((data.drop reader.formDataElementDataOffset).take sent,
    if elementSize > sent then
      { reader with
        formDataElementDataOffset := reader.formDataElementDataOffset + sent }
    else
      { reader with
        formDataElementDataOffset := 0
        formDataElementIndex := reader.formDataElementIndex + 1 })

/-- `readData`, with the bytes it writes; curl's `size` is 1. -/
def readData (files : Files) (elements : List (FormDataElement URL Double)) (toSend : Nat)
    (reader : Reader) : List UInt8 × Reader :=
  if reader.cancelled then ([], reader)
  else if toSend = 0 then ([], reader)
  else
    match elements[reader.formDataElementIndex]? with
    | none => ([], reader)
    | some (.encodedFile filename _ _ _ _) => readFile files filename toSend reader
    | some element => readBytes (mData element) toSend reader

/-! ## `setupPUT` and `setupPOST` -/

inductive Method where
  | put
  | post

/-- The options of the handle and the headers that are appended. -/
structure Options where
  upload : Bool := false
  post : Bool := false
  infileSize : Option Int := none
  postFieldSize : Option Int := none
  postFields : Option (List UInt8) := none
  readCallback : Bool := false
  headers : List StdString := []

def chunkedHeader : StdString := StdString.bytes "Transfer-Encoding: chunked"

/-- The largest `curl_off_t`. -/
def maxCurlOffT : Nat := 2 ^ 63 - 1

def getFileSize (files : Files) (filename : List UInt16) : Option Nat :=
  (files filename).map fun file => file.content.length

/-- The loop over the elements: `size` and `chunkedTransfer`. -/
def totalSize (files : Files) : Int → List (FormDataElement URL Double) → Int × Bool
  | size, [] => (size, false)
  | size, .encodedFile filename _ _ _ _ :: rest =>
    match getFileSize files filename with
    | some fileSizeResult =>
      if fileSizeResult > maxCurlOffT then (size, true)
      else totalSize files (size + fileSizeResult) rest
    | none => (size, true)
  | size, element :: rest => totalSize files (size + (mData element).length) rest

/-- `FormData::flatten` -/
def flatten (elements : List (FormDataElement URL Double)) : List UInt8 := elements.flatMap mData

def setupPUT (files : Files) (elements : List (FormDataElement URL Double)) : Options :=
  let (size, chunkedTransfer) := totalSize files 0 elements
  { upload := true
    infileSize := some (if chunkedTransfer then size.bmod (2 ^ 32) else size)
    readCallback := true
    headers := if chunkedTransfer then [chunkedHeader] else [] }

def setupPOST (files : Files) (elements : List (FormDataElement URL Double)) : Options :=
  if elements.length = 1 then
    let postBytes := flatten elements
    { post := true
      postFieldSize := some postBytes.length
      postFields := if postBytes.length ≠ 0 then some postBytes else none
      headers := [StdString.bytes "Expect:"] }
  else
    let (size, chunkedTransfer) := totalSize files 0 elements
    if chunkedTransfer && size > 0 then
      { post := true
        readCallback := true
        headers := [chunkedHeader] }
    else
      { post := true
        postFieldSize := some size
        readCallback := true }

def setup (files : Files) (elements : List (FormDataElement URL Double)) : Method → Options
  | .put => setupPUT files elements
  | .post => setupPOST files elements

/-- The content length of the request, unless it is chunked. -/
def Options.contentLength (options : Options) : Option Int :=
  if chunkedHeader ∈ options.headers then none
  else if options.upload then options.infileSize
  else options.postFieldSize

/-! ## What is to be sent -/

/-- The bytes of a file from `fileStart` on, at most `fileLength` of them. -/
def fileRange (fileStart fileLength : Int64) (content : List UInt8) : List UInt8 :=
  let tail := content.drop fileStart.toInt.toNat
  if fileLength = toEndOfFile then tail else tail.take fileLength.toInt.toNat

/-- The bytes that a data or file element stands for. -/
def elementBytes (files : Files) : FormDataElement URL Double → Option (List UInt8)
  | .data bytes => some bytes
  | .encodedFile filename fileStart fileLength _ _ =>
    (files filename).map fun file => fileRange fileStart fileLength file.content
  | _ => none

/-- The concatenation of all elements. -/
def bodyBytes (files : Files) : List (FormDataElement URL Double) → Option (List UInt8)
  | [] => some []
  | element :: rest => do
      let bytes ← elementBytes files element
      let restBytes ← bodyBytes files rest
      return bytes ++ restBytes

/-- What `readData` answers before its first empty answer is the whole body,
and the announced content length is its length. -/
def UploadComplete (files : Files) (elements : List (FormDataElement URL Double)) (method : Method)
    (asks : Nat → Nat) : Prop :=
  ∃ body, bodyBytes files elements = some body ∧ Drains (readData files elements) asks {} body ∧
    (setup files elements method).contentLength = some (body.length : Int)

/-! ## The pieces of a body -/

/-- An element as the callback reads it. -/
def piece (files : Files) : FormDataElement URL Double → Piece UInt8
  | .encodedFile filename _ _ _ _ => ⟨((files filename).map File.content).getD [], false⟩
  | element => ⟨mData element, true⟩

/-- The element that the callback is in. -/
def currentPiece (files : Files) (reader : Reader) : FormDataElement URL Double → Piece UInt8
  | .encodedFile filename _ _ _ _ =>
    ⟨(reader.file <|> (files filename).map File.content).getD [], false⟩
  | element => ⟨(mData element).drop reader.formDataElementDataOffset, true⟩

/-- The pieces that are still to be read. -/
def remaining (files : Files) (elements : List (FormDataElement URL Double))
    (reader : Reader) : List (Piece UInt8) :=
  match elements.drop reader.formDataElementIndex with
  | [] => []
  | element :: rest => currentPiece files reader element :: rest.map (piece files)

/-- Nothing of another element is left in the fields. -/
def AtElement (reader : Reader) : FormDataElement URL Double → Prop
  | .encodedFile _ _ _ _ _ => reader.formDataElementDataOffset = 0
  | _ => reader.file = none

structure Coherent (elements : List (FormDataElement URL Double)) (reader : Reader) : Prop where
  notCancelled : reader.cancelled = false
  atElement : ∀ element, elements[reader.formDataElementIndex]? = some element →
    AtElement reader element

section Reading

variable {files : Files} {elements : List (FormDataElement URL Double)} {reader : Reader}

variable {element : FormDataElement URL Double}

theorem remaining_of_getElem? (isElement : elements[reader.formDataElementIndex]? = some element) :
    remaining files elements reader = currentPiece files reader element ::
        (elements.drop (reader.formDataElementIndex + 1)).map (piece files) := by
  obtain ⟨inside, rfl⟩ := List.getElem?_eq_some_iff.1 isElement
  rw [remaining, List.drop_eq_getElem_cons inside]

/-- A reader that has just come to an element has all of it before it. -/
theorem remaining_of_fresh (noFile : reader.file = none)
    (noOffset : reader.formDataElementDataOffset = 0) : remaining files elements reader =
      (elements.drop reader.formDataElementIndex).map (piece files) := by
  unfold remaining
  cases elements.drop reader.formDataElementIndex with
  | nil => rfl
  | cons element rest =>
    rw [map_cons]
    cases element with
    | encodedFile =>
      simp only [currentPiece, piece, noFile]
      rfl
    | _ => simp only [currentPiece, piece, noOffset, drop_zero]

theorem coherent_of_fresh (notCancelled : reader.cancelled = false) (noFile : reader.file = none)
    (noOffset : reader.formDataElementDataOffset = 0) : Coherent elements reader where
  notCancelled := notCancelled
  atElement element _ := by
    cases element with
    | encodedFile => exact noOffset
    | _ => exact noFile

/-- The files of the body exist. -/
def FilesExist (files : Files) (elements : List (FormDataElement URL Double)) : Prop :=
  ∀ filename start length time generated,
    .encodedFile filename start length time generated ∈ elements → (files filename).isSome = true

theorem readFile_simulates {filename : List UInt16} {start length : Int64} {time : Double}
    {generated : Bool} (exist : FilesExist files elements) (coherent : Coherent elements reader)
    (isElement : elements[reader.formDataElementIndex]? =
      some (.encodedFile filename start length time generated))
    (toSend : Nat) : Coherent elements (readFile files filename toSend reader).2 ∧
      readPieces toSend (remaining files elements reader) =
        ((readFile files filename toSend reader).1,
          remaining files elements (readFile files filename toSend reader).2) := by
  have noOffset : reader.formDataElementDataOffset = 0 := coherent.atElement _ isElement
  obtain ⟨file, isFile⟩ := Option.isSome_iff_exists.1
    (exist filename start length time generated (mem_of_getElem? isElement))
  obtain ⟨unread, isUnread⟩ :
      ∃ unread, (reader.file <|> (files filename).map File.content) = some unread := by
    cases reader.file with
    | none => exact ⟨file.content, by rw [isFile]; rfl⟩
    | some unread => exact ⟨unread, rfl⟩
  have current : remaining files elements reader =
      ⟨unread, false⟩ :: (elements.drop (reader.formDataElementIndex + 1)).map (piece files) := by
    rw [remaining_of_getElem? isElement, currentPiece, isUnread, Option.getD_some]
  rw [current, readPieces, readFile, isUnread]
  by_cases short : unread.length < toSend
  · have leaves : Piece.LeftBy ⟨unread, false⟩ toSend := .inl short
    simp only [if_pos short]
    rw [if_pos leaves]
    refine ⟨coherent_of_fresh coherent.notCancelled rfl noOffset, ?_⟩
    rw [@remaining_of_fresh _ _ files elements { reader with
      file := none
      formDataElementIndex := reader.formDataElementIndex + 1 } rfl noOffset]
  · have stays : ¬Piece.LeftBy ⟨unread, false⟩ toSend := by
      rintro (below | ⟨-, knows⟩)
      · exact short below
      · cases knows
    simp only [if_neg short]
    rw [if_neg stays]
    refine ⟨⟨coherent.notCancelled, ?_⟩, ?_⟩
    · intro other isOther
      cases isElement.symm.trans isOther
      exact noOffset
    · rw [remaining_of_getElem? (by exact isElement)]
      rfl

theorem readBytes_simulates (coherent : Coherent elements reader)
    (isElement : elements[reader.formDataElementIndex]? = some element)
    (noFile : reader.file = none) (current : ∀ reader : Reader, currentPiece files reader element =
      ⟨(mData element).drop reader.formDataElementDataOffset, true⟩)
    (keeps : ∀ reader : Reader, reader.file = none → AtElement reader element)
    (toSend : Nat) : Coherent elements (readBytes (mData element) toSend reader).2 ∧
      readPieces toSend (remaining files elements reader) =
        ((readBytes (mData element) toSend reader).1,
          remaining files elements (readBytes (mData element) toSend reader).2) := by
  rw [remaining_of_getElem? isElement, current, readPieces, readBytes]
  by_cases more : (mData element).length - reader.formDataElementDataOffset > toSend
  · have stays : ¬Piece.LeftBy
        ⟨(mData element).drop reader.formDataElementDataOffset, true⟩ toSend := by
      intro left
      have reached := left.le
      rw [length_drop] at reached
      omega
    simp only [if_pos more]
    rw [if_neg stays]
    refine ⟨⟨coherent.notCancelled, ?_⟩, ?_⟩
    · intro other isOther
      cases isElement.symm.trans isOther
      exact keeps _ noFile
    · rw [remaining_of_getElem? (by exact isElement), current, Piece.drop, drop_drop]
  · have leaves : Piece.LeftBy
        ⟨(mData element).drop reader.formDataElementDataOffset, true⟩ toSend := by
      rw [Piece.LeftBy, length_drop]
      rcases Nat.lt_or_eq_of_le (Nat.le_of_not_lt more) with below | exact
      · exact .inl below
      · exact .inr ⟨exact, rfl⟩
    simp only [if_neg more, gt_iff_lt, Nat.lt_irrefl, if_false]
    rw [if_pos leaves]
    refine ⟨coherent_of_fresh coherent.notCancelled noFile rfl, ?_⟩
    rw [take_of_length_le leaves.le, take_of_length_le (Nat.le_of_eq length_drop)]
    rw [@remaining_of_fresh _ _ files elements { reader with
      formDataElementDataOffset := 0
      formDataElementIndex := reader.formDataElementIndex + 1 } noFile rfl]

/-- A step of the callback is an answer from the pieces. -/
theorem readData_simulates (exist : FilesExist files elements) (coherent : Coherent elements reader)
    {toSend : Nat} (positive : 0 < toSend) :
    Coherent elements (readData files elements toSend reader).2 ∧
      readPieces toSend (remaining files elements reader) =
        ((readData files elements toSend reader).1,
          remaining files elements (readData files elements toSend reader).2) := by
  rw [readData, if_neg (by rw [coherent.notCancelled]; nofun), if_neg positive.ne']
  cases isElement : elements[reader.formDataElementIndex]? with
  | none =>
    refine ⟨coherent, ?_⟩
    rw [remaining, drop_eq_nil_of_le (getElem?_eq_none_iff.1 isElement), readPieces]
  | some element =>
    have atElement := coherent.atElement element isElement
    cases element with
    | encodedFile => exact readFile_simulates exist coherent isElement toSend
    | _ =>
      exact readBytes_simulates coherent isElement atElement (fun _ => rfl)
        (fun _ noFile => noFile) toSend

/-- The callback from its first call on. -/
theorem drains_readData_iff (exist : FilesExist files elements) {asks : Nat → Nat}
    (positive : ∀ call, 0 < asks call) (sent : List UInt8) :
    Drains (readData files elements) asks {} sent ↔
      Drains readPieces asks (elements.map (piece files)) sent := by
  have start : remaining files elements {} = elements.map (piece files) :=
    remaining_of_fresh rfl rfl
  rw [← start]
  exact drains_iff_of_simulation
    (fun _ _ coherent some => (readData_simulates exist coherent some).1)
    (fun _ _ coherent some => (readData_simulates exist coherent some).2)
    positive (coherent_of_fresh rfl rfl rfl) sent

end Reading

/-! ## The announced length -/

section Length

variable {files : Files} {elements : List (FormDataElement URL Double)}

/-- The element stands for the bytes that the callback reads for it. -/
def Whole (files : Files) (element : FormDataElement URL Double) : Prop :=
  elementBytes files element = some (piece files element).elements

theorem sublist_fileRange (fileStart fileLength : Int64) (content : List UInt8) :
    (fileRange fileStart fileLength content).Sublist content := by
  unfold fileRange
  split
  · exact drop_sublist _ _
  · exact (take_sublist _ _).trans (drop_sublist _ _)

variable {element : FormDataElement URL Double}

/-- An element stands for a part of what is read for it. -/
theorem sublist_elementBytes {bytes : List UInt8}
    (isBytes : elementBytes files element = some bytes) :
    bytes.Sublist (piece files element).elements := by
  cases element with
  | data content =>
    cases isBytes
    exact .refl _
  | encodedFile filename start length time generated =>
    obtain ⟨file, isFile, rfl⟩ := Option.map_eq_some_iff.1 isBytes
    rw [piece, isFile]
    exact sublist_fileRange start length file.content
  | encodedBlob url | encodedURL url start length time => cases isBytes

variable {body : List UInt8}

theorem bodyBytes_cons_eq_some (isBody : bodyBytes files (element :: elements) = some body) :
    ∃ bytes rest, elementBytes files element = some bytes ∧
      bodyBytes files elements = some rest ∧ body = bytes ++ rest := by
  obtain ⟨bytes, isBytes, isBody⟩ := Option.bind_eq_some_iff.1 isBody
  obtain ⟨rest, isRest, isBody⟩ := Option.bind_eq_some_iff.1 isBody
  cases isBody
  exact ⟨bytes, rest, isBytes, isRest, rfl⟩

theorem length_bodyBytes_le (isBody : bodyBytes files elements = some body) :
    body.length ≤ (allElements (elements.map (piece files))).length := by
  induction elements generalizing body with
  | nil =>
    cases isBody
    exact Nat.zero_le _
  | cons element elements ih =>
    obtain ⟨bytes, rest, isBytes, isRest, rfl⟩ := bodyBytes_cons_eq_some isBody
    rw [map_cons, allElements, flatMap_cons, length_append, length_append]
    exact Nat.add_le_add (sublist_elementBytes isBytes).length_le (ih isRest)

/-- A body as long as what is read consists of whole elements. -/
theorem whole_of_length (isBody : bodyBytes files elements = some body)
    (long : body.length = (allElements (elements.map (piece files))).length) :
    ∀ element ∈ elements, Whole files element := by
  induction elements generalizing body with
  | nil => exact fun _ member => nomatch member
  | cons element elements ih =>
    obtain ⟨bytes, rest, isBytes, isRest, rfl⟩ := bodyBytes_cons_eq_some isBody
    rw [map_cons, allElements, flatMap_cons, length_append,
      length_append] at long
    have part := sublist_elementBytes isBytes
    have restPart : rest.length ≤
      ((elements.map (piece files)).flatMap Piece.elements).length := length_bodyBytes_le isRest
    have bytesPart := part.length_le
    intro other member
    rcases mem_cons.1 member with rfl | member
    · rw [Whole, isBytes, part.eq_of_length (by omega)]
    · refine ih isRest ?_ other member
      rw [allElements]
      omega

theorem bodyBytes_of_whole (whole : ∀ element ∈ elements, Whole files element) :
    bodyBytes files elements = some (allElements (elements.map (piece files))) := by
  induction elements with
  | nil => rfl
  | cons element elements ih =>
    have ⟨isWhole, others⟩ := forall_mem_cons.1 whole
    rw [bodyBytes, isWhole, ih others]
    rfl

theorem filesExist_of_bodyBytes (isBody : bodyBytes files elements = some body) :
    FilesExist files elements := by
  induction elements generalizing body with
  | nil => exact fun _ _ _ _ _ member => nomatch member
  | cons element elements ih =>
    obtain ⟨bytes, rest, isBytes, isRest, rfl⟩ := bodyBytes_cons_eq_some isBody
    intro filename start length time generated member
    rcases mem_cons.1 member with rfl | member
    · obtain ⟨file, isFile, -⟩ := Option.map_eq_some_iff.1 isBytes
      rw [isFile]
      rfl
    · exact ih isRest filename start length time generated member

/-- With all files there, `size` is the sum of the sizes. -/
theorem totalSize_eq (exist : FilesExist files elements) (size : Int) :
    totalSize files size elements =
      (size + (allElements (elements.map (piece files))).length, false) := by
  induction elements generalizing size with
  | nil => exact congrArg (·, false) (Int.add_zero size).symm
  | cons element elements ih =>
    have others : FilesExist files elements :=
      fun filename start length time generated member =>
        exist filename start length time generated (.tail _ member)
    have sum (added : Nat) :
        size + ((added + (allElements (elements.map (piece files))).length : Nat) : Int) =
          size + added + (allElements (elements.map (piece files))).length := by
      rw [Int.natCast_add, Int.add_assoc]
    have split : (allElements ((element :: elements).map (piece files))).length =
        (piece files element).elements.length +
          (allElements (elements.map (piece files))).length := by
      rw [map_cons, allElements, flatMap_cons, length_append]
      rfl
    rw [split, sum]
    cases element with
    | encodedFile filename start length time generated =>
      obtain ⟨file, isFile⟩ := Option.isSome_iff_exists.1
        (exist filename start length time generated (.head _))
      have fits : ¬file.content.length > maxCurlOffT := by
        have bound := file.size_lt
        rw [maxCurlOffT]
        omega
      rw [totalSize, getFileSize, isFile, Option.map_some]
      simp only [if_neg fits]
      rw [ih others, piece, isFile]
      rfl
    | _ =>
      rw [totalSize, ih others]
      · rfl
      · nofun

end Length

section ContentLength

variable {files : Files} {elements : List (FormDataElement URL Double)}

theorem contentLength_setupPUT (exist : FilesExist files elements) :
    (setupPUT files elements).contentLength =
      some ((allElements (elements.map (piece files))).length : Int) := by
  rw [setupPUT, totalSize_eq exist, Int.zero_add]
  rfl

theorem contentLength_setupPOST (exist : FilesExist files elements)
    (streamed : elements.length ≠ 1) : (setupPOST files elements).contentLength =
      some ((allElements (elements.map (piece files))).length : Int) := by
  rw [setupPOST, if_neg streamed, totalSize_eq exist, Int.zero_add]
  rfl

theorem contentLength_setupPOST_single (element : FormDataElement URL Double) :
    (setupPOST files [element]).contentLength = some ((mData element).length : Int) := by
  have notChunked : chunkedHeader ∉ [StdString.bytes "Expect:"] := by decide
  rw [setupPOST, if_pos length_singleton, flatten, flatMap_singleton, Options.contentLength]
  rfl

variable {element : FormDataElement URL Double}

theorem mData_of_isFile (file : isFile element) : mData element = [] := by
  cases element with
  | encodedFile => rfl
  | _ => cases file

theorem piece_of_not_isFile (notFile : ¬isFile element) :
    (piece files element).elements = mData element := by
  cases element with
  | encodedFile => exact absurd trivial notFile
  | _ => rfl

end ContentLength

/-- The body is streamed whole: its elements are data and whole files, a file
alone is not flattened, and no element breaks the reading off. -/
structure StreamsWhole (files : Files) (elements : List (FormDataElement URL Double))
    (method : Method) (asks : Nat → Nat) : Prop where
  whole : ∀ element ∈ elements, Whole files element
  notFlattened : method = .post → ∀ element, elements = [element] → isFile element →
    (piece files element).elements = []
  unbroken : Unbroken asks (elements.map (piece files))

/-- The upload is complete exactly when the body is streamed whole. -/
theorem uploadComplete_iff {asks : Nat → Nat} (positive : ∀ call, 0 < asks call) (files : Files)
    (elements : List (FormDataElement URL Double)) (method : Method) :
    UploadComplete files elements method asks ↔ StreamsWhole files elements method asks := by
  constructor
  · rintro ⟨body, isBody, drains, announced⟩
    have exist := filesExist_of_bodyBytes isBody
    rw [drains_readData_iff exist positive] at drains
    by_cases flattened : method = .post ∧ elements.length = 1
    · obtain ⟨rfl, single⟩ := flattened
      obtain ⟨element, rfl⟩ := length_eq_one_iff.1 single
      have unbroken : Unbroken asks ([element].map (piece files)) := .inl rfl
      have same := drains.unique ((drains_allElements_iff positive _).2 unbroken)
      refine ⟨whole_of_length isBody (by rw [same]), ?_, unbroken⟩
      rintro - other isOther file
      cases isOther
      rw [setup, contentLength_setupPOST_single, mData_of_isFile file] at announced
      have none : body = [] :=
        length_eq_zero_iff.1 (Int.ofNat_inj.1 (Option.some_inj.1 announced)).symm
      rw [none] at same
      exact (append_eq_nil_iff.1 same.symm).1
    · have streamed : (setup files elements method).contentLength =
          some ((allElements (elements.map (piece files))).length : Int) := by
        cases method with
        | put => exact contentLength_setupPUT exist
        | post => exact contentLength_setupPOST exist fun single => flattened ⟨rfl, single⟩
      rw [streamed, Option.some_inj] at announced
      have whole := whole_of_length isBody (Int.ofNat_inj.1 announced).symm
      cases isBody.symm.trans (bodyBytes_of_whole whole)
      refine ⟨whole, ?_, (drains_allElements_iff positive _).1 drains⟩
      rintro rfl element rfl -
      exact absurd ⟨rfl, rfl⟩ flattened
  · rintro ⟨whole, notFlattened, unbroken⟩
    have isBody := bodyBytes_of_whole whole
    have exist := filesExist_of_bodyBytes isBody
    refine ⟨_, isBody, ?_, ?_⟩
    · rw [drains_readData_iff exist positive]
      exact (drains_allElements_iff positive _).2 unbroken
    · cases method with
      | put => exact contentLength_setupPUT exist
      | post =>
        by_cases single : elements.length = 1
        · obtain ⟨element, rfl⟩ := length_eq_one_iff.1 single
          have alone : allElements ([element].map (piece files)) =
              (piece files element).elements := append_nil _
          rw [setup, contentLength_setupPOST_single, alone]
          by_cases file : isFile element
          · rw [mData_of_isFile file, notFlattened rfl element rfl file]
          · rw [piece_of_not_isFile file]
        · exact contentLength_setupPOST exist single

/-- Two data elements. -/
def twoFields : List (FormDataElement Unit Unit) := [.data [97, 61], .data [98]]

/-- The theorem on two data elements. -/
theorem uploadComplete_iff_twoFields : UploadComplete (fun _ => none) twoFields .post (fun _ => 2) ↔
      StreamsWhole (fun _ => none) twoFields .post (fun _ => 2) :=
  uploadComplete_iff (fun _ => Nat.two_pos) _ _ _

/-- A file of one byte. -/
def oneByteFile : Files := fun _ => some ⟨[98], by decide⟩

/-- A file between two data elements. -/
def fileField : List (FormDataElement Unit Unit) :=
  [.data [97], .encodedFile [102] 0 toEndOfFile () false, .data [99]]

/-- A file whose last byte was asked for exactly ends the body. -/
theorem upload_truncated : ¬UploadComplete oneByteFile fileField .post (fun _ => 1) := by
  rintro ⟨body, isBody, drains, -⟩
  cases isBody
  have truncated : Drains (readData oneByteFile fileField) (fun _ => 1) {} [97, 98] :=
    Drains.received nofun (Drains.received nofun (Drains.ended rfl))
  cases drains.unique truncated

end Upload
end Network
end PalmWebKit
