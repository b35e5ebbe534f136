import Mathlib

/-!
# Regions

`Region` keeps a set of points as spans of rows, each with the coordinates of its
segments, and a bounding rectangle.  Coordinates are integers; a composition is
defined where they fit an `int`.
-/

namespace PalmWebKit
namespace Graphics

/-! ## Rectangles -/

structure IntPoint where
  x : Int
  y : Int
  deriving DecidableEq, Repr

structure IntSize where
  width : Int
  height : Int
  deriving DecidableEq, Repr

structure IntRect where
  x : Int := 0
  y : Int := 0
  width : Int := 0
  height : Int := 0
  deriving DecidableEq, Repr

namespace IntRect

def maxX (rect : IntRect) : Int := rect.x + rect.width

def maxY (rect : IntRect) : Int := rect.y + rect.height

def isEmpty (rect : IntRect) : Bool := rect.width ≤ 0 || rect.height ≤ 0

def containsPoint (rect : IntRect) (point : IntPoint) : Bool :=
  point.x ≥ rect.x && point.x < rect.maxX && point.y ≥ rect.y && point.y < rect.maxY

def contains (rect other : IntRect) : Bool :=
  rect.x ≤ other.x && rect.maxX ≥ other.maxX && rect.y ≤ other.y && rect.maxY ≥ other.maxY

def intersects (rect other : IntRect) : Bool :=
  !rect.isEmpty && !other.isEmpty &&
    rect.x < other.maxX && other.x < rect.maxX &&
    rect.y < other.maxY && other.y < rect.maxY

def unite (rect other : IntRect) : IntRect :=
  if other.isEmpty then
    rect
  else if rect.isEmpty then
    other
  else
    let l := min rect.x other.x
    let t := min rect.y other.y
    let r := max rect.maxX other.maxX
    let b := max rect.maxY other.maxY
    ⟨l, t, r - l, b - t⟩

def move (rect : IntRect) (size : IntSize) : IntRect :=
  { rect with x := rect.x + size.width, y := rect.y + size.height }

end IntRect

/-! ## Shapes -/

/-- A span with the part of `m_segments` between its index and the next one. -/
structure Span where
  y : Int
  segments : List Int
  deriving DecidableEq, Repr

/-- The spans of a shape. -/
abbrev Shape := List Span

namespace Shape

/-- `m_segments` -/
def segments (shape : Shape) : List Int := shape.flatMap Span.segments

def isRect (shape : Shape) : Bool := shape.length ≤ 2 && shape.segments.length ≤ 2

def ofRect (rect : IntRect) : Shape := [⟨rect.y, [rect.x, rect.maxX]⟩, ⟨rect.maxY, []⟩]

def canCoalesce (shape : Shape) (segments : List Int) : Bool :=
  match shape.getLast? with
  | none => false
  | some last => last.segments == segments

def appendSpan (shape : Shape) (y : Int) (segments : List Int) : Shape :=
  if shape.canCoalesce segments then shape else shape ++ [⟨y, segments⟩]

def appendSpans (shape : Shape) : List Span → Shape
  | [] => shape
  | span :: later => appendSpans (shape.appendSpan span.y span.segments) later

def translate (shape : Shape) (offset : IntSize) : Shape :=
  shape.map fun span => ⟨span.y + offset.height, span.segments.map (· + offset.width)⟩

/-- `std::numeric_limits<int>::max()` -/
def intMax : Int := 2147483647

/-- `std::numeric_limits<int>::min()` -/
def intMin : Int := -2147483648

/-- The loop of `bounds`.  The pointers of a span without segments are at the first
segment of the later spans and at the last one of the earlier spans. -/
def boundsLoop (earlier : List Int) (minX maxX : Int) : List Span → Int × Int
  | [] | [_] => (minX, maxX)
  | span :: next :: later =>
    let firstSegment := (span.segments ++ segments (next :: later)).head?
    let lastSegment := (earlier ++ span.segments).getLast?
    match firstSegment, lastSegment with
    | some first, some last =>
      boundsLoop (earlier ++ span.segments) (if first < minX then first else minX)
        (if last > maxX then last else maxX) (next :: later)
    | _, _ => boundsLoop (earlier ++ span.segments) minX maxX (next :: later)

def bounds (shape : Shape) : IntRect :=
  match shape.head?, shape.getLast? with
  | some first, some last =>
    let minY := first.y
    let maxY := last.y
    let (minX, maxX) := boundsLoop [] intMax intMin shape
    ⟨minX, minY, maxX - minX, maxY - minY⟩
  | _, _ => {}

/-! ### Operations -/

/-- The constants of an operation; its flags are 1 inside the first shape and 2 inside
the second one. -/
structure Operation where
  opCode : Nat
  shouldAddRemainingSegmentsFromSpan1 : Bool
  shouldAddRemainingSegmentsFromSpan2 : Bool
  shouldAddRemainingSpansFromShape1 : Bool
  shouldAddRemainingSpansFromShape2 : Bool
  trySimpleOperation : Shape → Shape → Option Shape

def unionOperation : Operation where
  opCode := 0
  shouldAddRemainingSegmentsFromSpan1 := true
  shouldAddRemainingSegmentsFromSpan2 := true
  shouldAddRemainingSpansFromShape1 := true
  shouldAddRemainingSpansFromShape2 := true
  trySimpleOperation shape1 shape2 := if shape1.isEmpty then some shape2 else none

def intersectOperation : Operation where
  opCode := 3
  shouldAddRemainingSegmentsFromSpan1 := false
  shouldAddRemainingSegmentsFromSpan2 := false
  shouldAddRemainingSpansFromShape1 := false
  shouldAddRemainingSpansFromShape2 := false
  trySimpleOperation _ _ := none

def subtractOperation : Operation where
  opCode := 1
  shouldAddRemainingSegmentsFromSpan1 := true
  shouldAddRemainingSegmentsFromSpan2 := false
  shouldAddRemainingSpansFromShape1 := true
  shouldAddRemainingSpansFromShape2 := false
  trySimpleOperation _ _ := none

section Operations

variable (op : Operation)

/-- The loop over the segments of two spans, and the remaining segments.  `oldFlag` is
the flag before the turn. -/
def operateSegments (flag : Nat) (s1 s2 : List Int) : List Int :=
  match s1, s2 with
  | x1 :: later1, x2 :: later2 =>
    let test := x1 - x2
    let flag1 := if test ≤ 0 then flag ^^^ 1 else flag
    let flag2 := if test ≥ 0 then flag1 ^^^ 2 else flag1
    let x := if test ≥ 0 then x2 else x1
    let rest := operateSegments flag2 (if test ≤ 0 then later1 else x1 :: later1)
      (if test ≥ 0 then later2 else x2 :: later2)
    if flag2 = op.opCode ∨ flag = op.opCode then x :: rest else rest
  | _, _ =>
    if op.shouldAddRemainingSegmentsFromSpan1 ∧ s1 ≠ [] then s1
    else if op.shouldAddRemainingSegmentsFromSpan2 ∧ s2 ≠ [] then s2
    else []
termination_by s1.length + s2.length
decreasing_by
  repeat' split
  all_goals
    simp only [List.length_cons]
    omega

/-- The loop over the spans, and the remaining spans. -/
def operateSpans (segments1 segments2 : List Int) (result spans1 spans2 : Shape) : Shape :=
  match spans1, spans2 with
  | span1 :: later1, span2 :: later2 =>
    let test := span1.y - span2.y
    let y := if test ≥ 0 then span2.y else span1.y
    let newSegments1 := if test ≤ 0 then span1.segments else segments1
    let newSegments2 := if test ≥ 0 then span2.segments else segments2
    let segments := operateSegments op 0 newSegments1 newSegments2
    let newResult :=
      if ¬segments.isEmpty ∨ ¬result.isEmpty then result.appendSpan y segments else result
    operateSpans newSegments1 newSegments2 newResult
      (if test ≤ 0 then later1 else span1 :: later1)
      (if test ≥ 0 then later2 else span2 :: later2)
  | _, _ =>
    if op.shouldAddRemainingSpansFromShape1 ∧ spans1 ≠ [] then
      result.appendSpans spans1
    else if op.shouldAddRemainingSpansFromShape2 ∧ spans2 ≠ [] then
      result.appendSpans spans2
    else
      result
termination_by spans1.length + spans2.length
decreasing_by
  repeat' split
  all_goals
    simp only [List.length_cons]
    omega

def shapeOperation (shape1 shape2 : Shape) : Shape :=
  match op.trySimpleOperation shape1 shape2 with
  | some result => result
  | none => operateSpans op [] [] [] shape1 shape2

end Operations

def unionShapes : Shape → Shape → Shape := shapeOperation unionOperation

def intersectShapes : Shape → Shape → Shape := shapeOperation intersectOperation

def subtractShapes : Shape → Shape → Shape := shapeOperation subtractOperation

/-! ### Comparisons -/

/-- The cases of a comparison.  `some` is the result with which it returns. -/
structure CompareOperation where
  defaultResult : Bool
  aOutsideB : Option Bool
  bOutsideA : Option Bool
  aOverlapsB : Option Bool

def compareContainsOperation : CompareOperation where
  defaultResult := true
  aOutsideB := none
  bOutsideA := some false
  aOverlapsB := none

def compareIntersectsOperation : CompareOperation where
  defaultResult := false
  aOutsideB := none
  bOutsideA := none
  aOverlapsB := some true

section Comparisons

variable (compare : CompareOperation)

/-- The result of a case, where its condition holds. -/
def returnIf (condition : Bool) (result : Option Bool) : Option Bool :=
  if condition then result else none

/-- The loop over the segments of two spans that overlap. -/
def compareSegments (aSegments bSegments : List Int) : Option Bool :=
  match aSegments, bSegments with
  | aX :: aMaxX :: aLater, bX :: bMaxX :: bLater =>
    let segmentsOverlap : Bool := bMaxX > aX && bX < aMaxX
    returnIf segmentsOverlap compare.aOverlapsB <|>
      returnIf (aX < bX) compare.aOutsideB <|>
      returnIf (bX < aX) compare.bOutsideA <|>
      if aMaxX < bMaxX then compareSegments aLater (bX :: bMaxX :: bLater)
      else if bMaxX < aMaxX then compareSegments (aX :: aMaxX :: aLater) bLater
      else compareSegments aLater bLater
  | _, _ =>
    returnIf (!aSegments.isEmpty) compare.aOutsideB <|>
      returnIf (!bSegments.isEmpty) compare.bOutsideA
termination_by aSegments.length + bSegments.length

/-- The loop over the spans. -/
def compareSpans (aHadSegmentInPreviousSpan bHadSegmentInPreviousSpan : Bool)
    (aSpans bSpans : Shape) : Bool :=
  match aSpans, bSpans with
  | aSpan :: aNext :: aLater, bSpan :: bNext :: bLater =>
    let aHasSegmentInSpan := !aSpan.segments.isEmpty
    let bHasSegmentInSpan := !bSpan.segments.isEmpty
    let spansOverlap : Bool := bNext.y > aSpan.y && bSpan.y < aNext.y
    let returned :=
      returnIf (aSpan.y < bSpan.y && !bHadSegmentInPreviousSpan && aHasSegmentInSpan)
          compare.aOutsideB <|>
        returnIf (bSpan.y < aSpan.y && !aHadSegmentInPreviousSpan && bHasSegmentInSpan)
          compare.bOutsideA <|>
        if spansOverlap then compareSegments compare aSpan.segments bSpan.segments else none
    match returned with
    | some result => result
    | none =>
      if aNext.y < bNext.y then
        compareSpans aHasSegmentInSpan bHasSegmentInSpan (aNext :: aLater)
          (bSpan :: bNext :: bLater)
      else if bNext.y < aNext.y then
        compareSpans aHasSegmentInSpan bHasSegmentInSpan (aSpan :: aNext :: aLater)
          (bNext :: bLater)
      else
        compareSpans aHasSegmentInSpan bHasSegmentInSpan (aNext :: aLater)
          (bNext :: bLater)
  | _, _ =>
    (returnIf (aSpans.length ≥ 2) compare.aOutsideB <|>
      returnIf (bSpans.length ≥ 2) compare.bOutsideA).getD compare.defaultResult
termination_by aSpans.length + bSpans.length

def compareShapes (aShape bShape : Shape) : Bool := compareSpans compare false false aShape bShape

end Comparisons

end Shape

/-! ## Regions -/

structure Region where
  bounds : IntRect := {}
  shape : Shape := []
  deriving DecidableEq, Repr

namespace Region

def ofRect (rect : IntRect) : Region := ⟨rect, Shape.ofRect rect⟩

def isEmpty (region : Region) : Bool := region.bounds.isEmpty

def isRect (region : Region) : Bool := region.shape.isRect

/-- The inner loop of `rects`. -/
def segmentRects (y height : Int) : List Int → List IntRect
  | x :: maxX :: later => ⟨x, y, maxX - x, height⟩ :: segmentRects y height later
  | _ => []

/-- The loop of `rects`. -/
def spanRects : Shape → List IntRect
  | span :: next :: later =>
    segmentRects span.y (next.y - span.y) span.segments ++ spanRects (next :: later)
  | _ => []

def rects (region : Region) : List IntRect := spanRects region.shape

/-- The inner loop of `contains(const IntPoint&)`. -/
def segmentsContain (x : Int) : List Int → Bool
  | first :: maxX :: later =>
    if first > x then false else if maxX > x then true else segmentsContain x later
  | _ => false

/-- The loop of `contains(const IntPoint&)`. -/
def spansContain (point : IntPoint) : Shape → Bool
  | span :: next :: later =>
    if span.y > point.y then false
    else if next.y ≤ point.y then spansContain point (next :: later)
    else if segmentsContain point.x span.segments then true
    else spansContain point (next :: later)
  | _ => false

def containsPoint (region : Region) (point : IntPoint) : Bool :=
  if !region.bounds.containsPoint point then false else spansContain point region.shape

def contains (region other : Region) : Bool :=
  if !region.bounds.contains other.bounds then false
  else Shape.compareShapes Shape.compareContainsOperation region.shape other.shape

def intersects (region other : Region) : Bool :=
  if !region.bounds.intersects other.bounds then false
  else Shape.compareShapes Shape.compareIntersectsOperation region.shape other.shape

def intersect (this region : Region) : Region :=
  if this.bounds.isEmpty then
    this
  else if !this.bounds.intersects region.bounds then
    {}
  else
    let intersectedShape := Shape.intersectShapes this.shape region.shape
    ⟨intersectedShape.bounds, intersectedShape⟩

def unite (this region : Region) : Region :=
  if region.isEmpty then
    this
  else if this.isRect && this.bounds.contains region.bounds then
    this
  else if region.isRect && region.bounds.contains this.bounds then
    region
  else if !this.isRect && this.contains region then
    this
  else
    ⟨this.bounds.unite region.bounds, Shape.unionShapes this.shape region.shape⟩

def subtract (this region : Region) : Region :=
  if this.bounds.isEmpty then
    this
  else if region.isEmpty then
    this
  else if !this.bounds.intersects region.bounds then
    this
  else
    let subtractedShape := Shape.subtractShapes this.shape region.shape
    ⟨subtractedShape.bounds, subtractedShape⟩

def translate (this : Region) (offset : IntSize) : Region :=
  ⟨this.bounds.move offset, this.shape.translate offset⟩

end Region

/-! ## Compositions -/

/-- Whether a coordinate fits an `int`. -/
def fitsInt (coordinate : Int) : Bool := Shape.intMin ≤ coordinate && coordinate ≤ Shape.intMax

/-- Whether all coordinates of a region fit an `int`. -/
def Region.fits (region : Region) : Bool :=
  fitsInt region.bounds.x && fitsInt region.bounds.y && fitsInt region.bounds.width &&
    fitsInt region.bounds.height && fitsInt region.bounds.maxX &&
    fitsInt region.bounds.maxY &&
    region.shape.all fun span => fitsInt span.y && span.segments.all fitsInt

/-- The regions that are built from rectangles of non-negative size by the operations. -/
inductive Composition
  | empty
  | rect (rect : IntRect) (nonNegative : 0 ≤ rect.width ∧ 0 ≤ rect.height)
  | unite (first second : Composition)
  | intersect (first second : Composition)
  | subtract (first second : Composition)
  | translate (first : Composition) (offset : IntSize)

namespace Composition

/-- The region, if its coordinates fit. -/
def checked (region : Region) : Option Region :=
  if region.fits then some region else none

/-- The region of a composition; `none` where a coordinate does not fit. -/
def evaluate : Composition → Option Region
  | empty => some {}
  | .rect area _ => checked (Region.ofRect area)
  | unite first second => do checked ((← evaluate first).unite (← evaluate second))
  | intersect first second => do checked ((← evaluate first).intersect (← evaluate second))
  | subtract first second => do checked ((← evaluate first).subtract (← evaluate second))
  | translate first offset => do checked ((← evaluate first).translate offset)

/-- The points that a composition stands for. -/
def points : Composition → Set IntPoint
  | empty => ∅
  | .rect area _ => {point | area.x ≤ point.x ∧ point.x < area.maxX ∧
      area.y ≤ point.y ∧ point.y < area.maxY}
  | unite first second => points first ∪ points second
  | intersect first second => points first ∩ points second
  | subtract first second => points first \ points second
  | translate first offset =>
    {point | ⟨point.x - offset.width, point.y - offset.height⟩ ∈ points first}

end Composition

end Graphics
end PalmWebKit
