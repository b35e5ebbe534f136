import PalmWebKit.Graphics.RegionSets

/-!
# Canonical regions

A region is exact when its spans are canonical and its bounds are those of its points;
an exact empty region has no bounds.  The operations keep exact regions exact, and two
of them are equal when they have the same points.
-/

namespace PalmWebKit
namespace Graphics

open Shape

namespace Region

/-- The spans and segments of a shape are sorted, no span repeats the one before it, the
last one is empty, and the bounds are those of the shape. -/
structure IsCanonical (region : Region) : Prop where
  increasing : region.shape.Pairwise fun span later => span.y < later.y
  rows : ∀ span ∈ region.shape, Row span.segments
  adjacent : region.shape.IsChain fun span next => span.segments ≠ next.segments
  last : ∀ last, region.shape.getLast? = some last → last.segments = []
  bounds_nil : region.shape = [] → region.bounds = {}
  bounds_cons : region.shape ≠ [] → IsBoundingBox region.bounds region.shape.points

/-- The region keeps its points in the only canonical way. -/
def Exact (region : Region) (points : Set IntPoint) : Prop :=
  Outlines region points ∨ (region = {} ∧ points = ∅)

variable
  {this region : Region}
  {points more : Set IntPoint}

theorem isChain_of_alternating {current : List Int} {spans : Shape}
    (changes : Steps.Alternating Span.segments current spans) :
    spans.IsChain fun span next => span.segments ≠ next.segments := by
  induction spans generalizing current with
  | nil => exact List.IsChain.nil
  | cons span later ih =>
    cases later with
    | nil => exact List.IsChain.singleton span
    | cons next later => exact List.IsChain.cons_cons changes.2.1.symm (ih changes.2)

theorem Exact.isCanonical (exact : Exact region points) : IsCanonical region := by
  rcases exact with outlines | ⟨rfl, _⟩
  · have canonical := outlines.canonical
    refine ⟨canonical.sorted, canonical.rows, isChain_of_alternating canonical.changes,
      fun last isLast => (canonical.last isLast).1,
      fun nothing => absurd nothing outlines.shape_ne_nil, fun _ => ?_⟩
    rw [outlines.points_eq]
    exact outlines.box
  · refine ⟨.nil, fun _ isMem => absurd isMem List.not_mem_nil, List.IsChain.nil,
      fun last isLast => ?_, fun _ => rfl, fun notEmpty => absurd rfl notEmpty⟩
    cases isLast

theorem Exact.denotes (exact : Exact region points) : Denotes region points := by
  rcases exact with outlines | ⟨rfl, nothing⟩
  · exact .inl outlines
  · exact .inr ⟨blank_empty, nothing⟩

theorem Exact.eq_empty (exact : Exact region points)
    (isEmpty : region.isEmpty = true) : region = {} := by
  rcases exact with outlines | ⟨rfl, _⟩
  · rw [outlines.isEmpty_eq] at isEmpty
    cases isEmpty
  · rfl

theorem Exact.canonical (exact : Exact region points) : Canonical region.shape := by
  rcases exact with outlines | ⟨rfl, _⟩
  · exact outlines.canonical
  · exact canonical_nil

/-- Two exact regions of the same points are equal. -/
theorem Exact.eq_iff (exact : Exact this points)
    (otherExact : Exact region more) : this = region ↔ points = more := by
  rcases exact with outlines | ⟨rfl, rfl⟩ <;>
    rcases otherExact with otherOutlines | ⟨rfl, rfl⟩
  · constructor
    · rintro rfl
      rw [← outlines.points_eq, ← otherOutlines.points_eq]
    · rintro rfl
      have shapes := eq_of_points outlines.canonical otherOutlines.canonical
        (outlines.points_eq.trans otherOutlines.points_eq.symm)
      have bounds := outlines.box.unique otherOutlines.box
      cases this
      cases region
      exact congr (congrArg Region.mk bounds) shapes
  · refine iff_of_false ?_ outlines.box.nonempty.ne_empty
    rintro rfl
    exact outlines.shape_ne_nil rfl
  · refine iff_of_false ?_ otherOutlines.box.nonempty.ne_empty.symm
    rintro rfl
    exact otherOutlines.shape_ne_nil rfl
  · exact iff_of_true rfl rfl

/-- A rectangle with sorted rows is not empty. -/
theorem positive_of_rows {rect : IntRect}
    (increasing : (Shape.ofRect rect).Pairwise fun span later => span.y < later.y)
    (rows : ∀ span ∈ Shape.ofRect rect, Row span.segments) : 0 < rect.width ∧ 0 < rect.height := by
  have isLower : rect.y < rect.maxY :=
    (List.pairwise_cons.1 increasing).1 _ (List.mem_singleton_self _)
  have isLess : rect.x < rect.maxX := List.pairwise_pair.1 (rows _ (.head _)).sorted
  simp only [IntRect.maxX, IntRect.maxY] at isLower isLess
  omega

/-- A region with a canonical shape, which has no bounds if it has no spans. -/
theorem exact_of_denotes (denotes : Denotes region points) (canonical : Canonical region.shape)
    (noBounds : region.shape = [] → region.bounds = {}) : Exact region points := by
  rcases denotes with outlines | ⟨blank, nothing⟩
  · exact .inl outlines
  · rcases blank.shape_eq with noSpans | isRect
    · refine .inr ⟨?_, nothing⟩
      have isBounds := noBounds noSpans
      cases region
      exact congr (congrArg Region.mk isBounds) noSpans
    · rw [isRect] at canonical
      have positive := positive_of_rows canonical.sorted canonical.rows
      have isEmpty := blank.isEmpty
      rw [IntRect.isEmpty, Bool.or_eq_true, decide_eq_true_eq, decide_eq_true_eq] at isEmpty
      omega

/-- The operations that compute the bounds of a shape. -/
theorem exact_of_bounds {shape : Shape} (denotes : Denotes region points)
    (canonical : Canonical shape)
    (isResult : region = {} ∨ region = ⟨shape.bounds, shape⟩) : Exact region points := by
  rcases isResult with rfl | rfl
  · exact exact_of_denotes denotes canonical_nil fun _ => rfl
  · refine exact_of_denotes denotes canonical fun nothing => ?_
    subst nothing
    rfl

variable
  (exact : Exact this points)
  (otherExact : Exact region more)

include exact otherExact

theorem Exact.intersect (fits : ShapeFits (this.intersect region).shape) :
    Exact (this.intersect region) (points ∩ more) := by
  have denotes := exact.denotes.intersect otherExact.denotes fits
  have canonical := (intersectShapes_spec exact.canonical otherExact.canonical).1
  refine exact_of_bounds denotes canonical ?_
  rw [Region.intersect]
  split
  next isEmpty => exact .inl (exact.eq_empty isEmpty)
  next =>
    split
    · exact .inl rfl
    · exact .inr rfl

theorem Exact.subtract (fits : ShapeFits (this.subtract region).shape) :
    Exact (this.subtract region) (points \ more) := by
  have denotes := exact.denotes.subtract otherExact.denotes fits
  have canonical := (subtractShapes_spec exact.canonical otherExact.canonical).1
  have isResult : this.subtract region = this ∨
      this.subtract region = ⟨(subtractShapes this.shape region.shape).bounds,
        subtractShapes this.shape region.shape⟩ := by
    rw [Region.subtract]
    split
    · exact .inl rfl
    · split
      · exact .inl rfl
      · split
        · exact .inl rfl
        · exact .inr rfl
  rcases isResult with same | isBounds
  · rw [same] at denotes ⊢
    exact exact_of_denotes denotes exact.canonical exact.isCanonical.bounds_nil
  · exact exact_of_bounds denotes canonical (.inr isBounds)

theorem Exact.unite : Exact (this.unite region) (points ∪ more) := by
  have step : unitesWell this region = true := by
    rw [unitesWell]
    cases isEmpty : this.isEmpty with
    | false => rfl
    | true =>
      rw [exact.eq_empty isEmpty]
      rfl
  rcases exact.denotes.unite otherExact.denotes step with outlines | ⟨blank, nothing⟩
  · exact .inl outlines
  · obtain ⟨noPoints, noOther⟩ := Set.union_empty_iff.1 nothing
    have isEmpty : region.isEmpty = true := otherExact.denotes.isEmpty_iff.2 noOther
    have isThisEmpty : this.isEmpty = true := exact.denotes.isEmpty_iff.2 noPoints
    refine .inr ⟨?_, nothing⟩
    rw [Region.unite, if_pos isEmpty]
    exact exact.eq_empty isThisEmpty

omit exact otherExact in
theorem Exact.translate {offset : IntSize} (exact : Exact this points)
    (notMoved : points = ∅ → offset = ⟨0, 0⟩) :
    Exact (this.translate offset) (translatePoints offset points) := by
  rcases exact with outlines | ⟨rfl, rfl⟩
  · rcases Denotes.translate offset (.inl outlines) with moved | ⟨_, nothing⟩
    · exact .inl moved
    · obtain ⟨point, isPoint⟩ := (isBoundingBox_move offset outlines.box).nonempty
      rw [nothing] at isPoint
      cases isPoint
  · rw [notMoved rfl]
    exact .inr ⟨rfl, rfl⟩

end Region

end Graphics
end PalmWebKit
