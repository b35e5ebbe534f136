import PalmWebKit.Text.CodeUnits

/-!
# Document markers of a node

`DocumentMarkerController` keeps two vectors for a node: its markers and, at
the same indices, the rectangles they were painted in.  Both are walked with an
index while elements are taken out of them.
-/

namespace PalmWebKit
namespace Editing

/-- `DocumentMarker::MarkerType`; `AllMarkers` is no type of a marker. -/
inductive MarkerType
  | spelling
  | grammar
  | textMatch
  | replacement
  | shortcutReplacement
  | spellPending
  | wordCompletion
  deriving DecidableEq, Repr

def isReplacementForSpellPending : MarkerType → Bool
  | .spelling => true
  | .replacement => true
  | .shortcutReplacement => true
  | _ => false

structure DocumentMarker where
  type : MarkerType
  startOffset : Nat
  endOffset : Nat
  description : WString := []
  activeMatch : Bool := false
  deriving DecidableEq, Repr

structure IntRect where
  x : Int
  y : Int
  width : Int
  height : Int
  deriving DecidableEq, Repr

def placeholderRectForMarker : IntRect := ⟨-1, -1, -1, -1⟩

/-- `MarkerMapVectorPair` -/
structure MarkerVectors where
  markers : List DocumentMarker
  rects : List IntRect
  deriving DecidableEq, Repr

namespace MarkerVectors

/-- Take the element at an index out of both vectors. -/
def removeAt (vectors : MarkerVectors) (index : Nat) : MarkerVectors where
  markers := vectors.markers.eraseIdx index
  rects := vectors.rects.eraseIdx index

/-- Put a marker with the placeholder rectangle before an index. -/
def insertAt (vectors : MarkerVectors) (index : Nat) (marker : DocumentMarker) : MarkerVectors where
  markers := vectors.markers.insertIdx index marker
  rects := vectors.rects.insertIdx index placeholderRectForMarker

/-- A marker that waits for the spell checker gives way to its answer. -/
def answersPending (newMarker marker : DocumentMarker) : Bool :=
  marker.type == .spellPending && isReplacementForSpellPending newMarker.type

/-- The first loop of `addMarker`, over the markers that start at or before the
new one.  Every turn moves on or takes a marker out. -/
def mergeBefore : Nat → MarkerVectors → DocumentMarker → Nat → MarkerVectors × DocumentMarker × Nat
  | 0, vectors, newMarker, i => (vectors, newMarker, i)
  | turns + 1, vectors, newMarker, i =>
    match vectors.markers[i]? with
    | none => (vectors, newMarker, i)
    | some marker =>
      if marker.startOffset > newMarker.startOffset then
        (vectors, newMarker, i)
      else if marker.type = newMarker.type ∧ marker.endOffset ≥ newMarker.startOffset then
        mergeBefore turns (vectors.removeAt i)
          { newMarker with startOffset := marker.startOffset } i
      else if answersPending newMarker marker ∧ marker.endOffset ≥ newMarker.startOffset then
        mergeBefore turns (vectors.removeAt i) newMarker i
      else
        mergeBefore turns vectors newMarker (i + 1)

/-- The second loop of `addMarker`, over the markers that start at or before
the end of the new one. -/
def mergeAfter : Nat → MarkerVectors → DocumentMarker → Nat → MarkerVectors × DocumentMarker
  | 0, vectors, newMarker, _ => (vectors, newMarker)
  | turns + 1, vectors, newMarker, j =>
    match vectors.markers[j]? with
    | none => (vectors, newMarker)
    | some marker =>
      if marker.startOffset > newMarker.endOffset then (vectors, newMarker)
      else if marker.type = newMarker.type then
        if newMarker.endOffset ≤ marker.endOffset then
          mergeAfter turns (vectors.removeAt j)
            { newMarker with endOffset := marker.endOffset } j
        else
          -- no continue here: the index moves on behind the removal
          mergeAfter turns (vectors.removeAt j) newMarker (j + 1)
      else if answersPending newMarker marker then
        mergeAfter turns (vectors.removeAt j) newMarker j
      else
        mergeAfter turns vectors newMarker (j + 1)

/-- `addMarker` on the vectors of a node. -/
def addMarker (vectors : MarkerVectors) (newMarker : DocumentMarker) : MarkerVectors :=
  let (before, merged, i) := mergeBefore vectors.markers.length vectors newMarker 0
  let (after, extended) := mergeAfter before.markers.length before merged i
  after.insertAt i extended

end MarkerVectors

/-- What `removeMarkers` asks about the text: whether the words at the boundary
still begin and end where they did. -/
structure WordBoundaries where
  sameWordStart : Bool
  sameWordEnd : Bool
  deriving DecidableEq, Repr

/-- A call of `removeMarkers`; without a type it is for all markers. -/
structure MarkerRemoval where
  startOffset : Nat
  length : Int
  markerType : Option MarkerType
  words : WordBoundaries
  deriving DecidableEq, Repr

namespace MarkerRemoval

/-- The unsigned end of the range. -/
def endOffset (removal : MarkerRemoval) : Nat :=
  (removal.startOffset + removal.length.toNat) % 2 ^ 32

/-- The loop does not take the marker out. -/
def skips (removal : MarkerRemoval) (marker : DocumentMarker) : Bool :=
  marker.endOffset < removal.startOffset ||
    (removal.markerType.any (marker.type ≠ ·)) ||
    (marker.startOffset == removal.endOffset && removal.words.sameWordStart) ||
    (marker.endOffset == removal.startOffset && removal.words.sameWordEnd)

end MarkerRemoval

/-- The loop of `removeMarkers`. -/
def MarkerVectors.removeLoop (removal : MarkerRemoval) : Nat → MarkerVectors → Nat → MarkerVectors
  | 0, vectors, _ => vectors
  | turns + 1, vectors, i =>
    match vectors.markers[i]? with
    | none => vectors
    | some marker =>
      if marker.startOffset > removal.endOffset then vectors
      else if removal.skips marker then
        removeLoop removal turns vectors (i + 1)
      else
        removeLoop removal turns (vectors.removeAt i) i

/-- What the controller keeps for one node. -/
structure DocumentMarkerController where
  /-- The value of the node in `m_markers`. -/
  vectors : Option MarkerVectors
  updatingMarkersEnabled : Bool
  deriving DecidableEq, Repr

namespace DocumentMarkerController

def start : DocumentMarkerController where
  vectors := none
  updatingMarkersEnabled := true

def addMarker (controller : DocumentMarkerController)
    (newMarker : DocumentMarker) : DocumentMarkerController :=
  if newMarker.endOffset = newMarker.startOffset then controller
  else
    match controller.vectors with
    | none =>
      { controller with
        vectors := some ⟨[newMarker], [placeholderRectForMarker]⟩ }
    | some vectors => { controller with vectors := some (vectors.addMarker newMarker) }

def removeMarkers (controller : DocumentMarkerController)
    (removal : MarkerRemoval) : DocumentMarkerController :=
  if removal.length ≤ 0 then controller
  else if !controller.updatingMarkersEnabled then controller
  else
    match controller.vectors with
    | none => controller
    | some vectors =>
      let left := vectors.removeLoop removal vectors.markers.length 0
      { controller with
        vectors := if left.markers.isEmpty then none else some left }

end DocumentMarkerController

end Editing
end PalmWebKit
