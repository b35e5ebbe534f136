import PalmWebKit.Graphics.RegionCanonical

/-!
# Compositions of regions

The queries of a composed region agree with its set of points where no step unites
spans without points with a region that has some.  The representation is canonical
where no step starts from an empty rectangle or moves an empty region.
-/

namespace PalmWebKit
namespace Graphics

open List Shape Region

namespace Composition

/-! ## Evaluation -/

/-- A composition and those it is made of. -/
def parts : Composition → List Composition
  | empty => [empty]
  | .rect area nonNegative => [.rect area nonNegative]
  | unite first second => unite first second :: (parts first ++ parts second)
  | intersect first second => intersect first second :: (parts first ++ parts second)
  | subtract first second => subtract first second :: (parts first ++ parts second)
  | translate first offset => translate first offset :: parts first

theorem self_mem_parts (composition : Composition) : composition ∈ composition.parts := by
  cases composition <;> exact .head _

theorem checked_eq_some {region result : Region}
    (isResult : checked region = some result) : result = region ∧ ShapeFits result.shape := by
  unfold checked at isResult
  split at isResult
  next fits =>
    obtain rfl := Option.some.inj isResult
    refine ⟨rfl, fun span isSpan x isX => ?_⟩
    rw [Region.fits, Bool.and_eq_true, all_eq_true] at fits
    have spanFits := fits.2 span isSpan
    rw [Bool.and_eq_true, all_eq_true] at spanFits
    have xFits := spanFits.2 x isX
    rw [fitsInt, Bool.and_eq_true, decide_eq_true_eq, decide_eq_true_eq] at xFits
    exact xFits
  next => cases isResult

/-- The operands of an operation that gives a region. -/
theorem evaluate_binary {operate : Region → Region → Region} {first second : Option Region}
    {result : Region} (isResult : (do checked (operate (← first) (← second))) = some result) :
    ∃ this region, first = some this ∧ second = some region ∧ result = operate this region ∧
      ShapeFits result.shape := by
  obtain ⟨this, isThis, isRest⟩ := Option.bind_eq_some_iff.1 isResult
  obtain ⟨region, isRegion, isChecked⟩ := Option.bind_eq_some_iff.1 isRest
  obtain ⟨same, fits⟩ := checked_eq_some isChecked
  exact ⟨this, region, isThis, isRegion, same, fits⟩

theorem evaluate_translate {first : Composition} {offset : IntSize} {result : Region}
    (isResult : (translate first offset).evaluate = some result) :
    ∃ this, first.evaluate = some this ∧ result = this.translate offset := by
  obtain ⟨this, isThis, isChecked⟩ := Option.bind_eq_some_iff.1 isResult
  exact ⟨this, isThis, (checked_eq_some isChecked).1⟩

/-! ## Regions as sets -/

/-- The step keeps spans without points out of regions with points. -/
def UnitesWell : Composition → Prop
  | unite first second => ∀ this region, first.evaluate = some this →
      second.evaluate = some region → unitesWell this region = true
  | _ => True

variable {composition : Composition}

theorem denotes_evaluate {region : Region} (meets : ∀ part ∈ composition.parts, part.UnitesWell)
    (isResult : composition.evaluate = some region) : Denotes region composition.points := by
  induction composition generalizing region with
  | empty =>
    obtain rfl := Option.some.inj isResult
    exact .inr ⟨blank_empty, rfl⟩
  | rect area nonNegative =>
    rw [(checked_eq_some isResult).1]
    exact denotes_ofRect nonNegative
  | unite first second firstHypothesis secondHypothesis =>
    obtain ⟨this, other, isThis, isOther, rfl, _⟩ := evaluate_binary isResult
    have step := meets _ (self_mem_parts _) this other isThis isOther
    exact (firstHypothesis (fun part isPart => meets part
      (.tail _ (mem_append_left _ isPart))) isThis).unite
      (secondHypothesis (fun part isPart => meets part
        (.tail _ (mem_append_right _ isPart))) isOther) step
  | intersect first second firstHypothesis secondHypothesis =>
    obtain ⟨this, other, isThis, isOther, rfl, fits⟩ := evaluate_binary isResult
    exact (firstHypothesis (fun part isPart => meets part
      (.tail _ (mem_append_left _ isPart))) isThis).intersect
      (secondHypothesis (fun part isPart => meets part
        (.tail _ (mem_append_right _ isPart))) isOther) fits
  | subtract first second firstHypothesis secondHypothesis =>
    obtain ⟨this, other, isThis, isOther, rfl, fits⟩ := evaluate_binary isResult
    exact (firstHypothesis (fun part isPart => meets part
      (.tail _ (mem_append_left _ isPart))) isThis).subtract
      (secondHypothesis (fun part isPart => meets part
        (.tail _ (mem_append_right _ isPart))) isOther) fits
  | translate first offset ih =>
    obtain ⟨this, isThis, rfl⟩ := evaluate_translate isResult
    exact (ih (fun part isPart => meets part
      (.tail _ isPart)) isThis).translate offset

/-- The queries of two composed regions agree with their sets.  Of the arguments without
points, those without spans are inside where their bounds are. -/
theorem queries_agree (first second : Composition) (region other : Region)
    (isRegion : first.evaluate = some region) (isOther : second.evaluate = some other)
    (firstMeets : ∀ part ∈ first.parts, part.UnitesWell)
    (secondMeets : ∀ part ∈ second.parts, part.UnitesWell) :
    (∀ point, region.containsPoint point = true ↔ point ∈ first.points) ∧
      Region.Disjoint region.rects ∧
      (∀ point, (∃ rect ∈ region.rects, point ∈ rect.points) ↔ point ∈ first.points) ∧
      (region.intersects other = true ↔ (first.points ∩ second.points).Nonempty) ∧
      ((other.isEmpty = true → other.shape = []) →
        ((region.contains other = true ↔ second.points ⊆ first.points) ↔
          (other.isEmpty = true → region.bounds.contains other.bounds = true))) := by
  have denotes := denotes_evaluate firstMeets isRegion
  have otherDenotes := denotes_evaluate secondMeets isOther
  exact ⟨denotes.containsPoint_iff, denotes.rects_spec.1, denotes.rects_spec.2,
    denotes.intersects_iff otherDenotes, denotes.contains_iff otherDenotes⟩

theorem queries_agree_cross :
    ((Region.mk ⟨0, 0, 9, 9⟩ [⟨0, [3, 6]⟩, ⟨3, [0, 9]⟩, ⟨6, [3, 6]⟩, ⟨9, []⟩]).contains
        (Region.ofRect ⟨1, 4, 7, 1⟩) = true ↔
      (rect ⟨1, 4, 7, 1⟩ (by decide)).points ⊆
        (unite (rect ⟨3, 0, 3, 9⟩ (by decide)) (rect ⟨0, 3, 9, 3⟩ (by decide))).points) := by
  have agree := queries_agree
    (unite (rect ⟨3, 0, 3, 9⟩ (by decide)) (rect ⟨0, 3, 9, 3⟩ (by decide)))
    (rect ⟨1, 4, 7, 1⟩ (by decide))
    (Region.mk ⟨0, 0, 9, 9⟩ [⟨0, [3, 6]⟩, ⟨3, [0, 9]⟩, ⟨6, [3, 6]⟩, ⟨9, []⟩])
    (Region.ofRect ⟨1, 4, 7, 1⟩) (by decide +kernel) (by decide +kernel)
    (by
      intro part isPart
      simp only [parts, mem_cons, cons_append, nil_append, not_mem_nil,
        or_false] at isPart
      rcases isPart with rfl | rfl | rfl
      · intro this region isThis isRegion
        obtain rfl := (checked_eq_some isThis).1
        obtain rfl := (checked_eq_some isRegion).1
        decide
      · trivial
      · trivial)
    (by
      intro part isPart
      obtain rfl := mem_singleton.1 isPart
      trivial)
  exact (agree.2.2.2.2 (by decide)).2 (by decide)

/-- The empty region is not inside a square away from the origin. -/
theorem contains_misses_empty : ¬∀ (first second : Composition) (region other : Region),
      first.evaluate = some region → second.evaluate = some other →
        (region.contains other = true ↔ second.points ⊆ first.points) := by
  intro agrees
  have isInside := (agrees (rect ⟨5, 5, 3, 3⟩ (by decide)) empty (Region.ofRect ⟨5, 5, 3, 3⟩) {}
    (by decide +kernel) rfl).2 (Set.empty_subset _)
  revert isInside
  decide +kernel

/-! ## Canonical regions -/

/-- The step does not start from an empty rectangle or move an empty set. -/
def StaysExact : Composition → Prop
  | .rect area _ => area.isEmpty = false
  | translate first offset => first.points = ∅ → offset = ⟨0, 0⟩
  | _ => True

/-- The parts that give a region stay exact. -/
def MeetsExact (composition : Composition) : Prop :=
  ∀ part ∈ composition.parts, part.evaluate ≠ none → part.StaysExact

/-- Every region on the way is canonical. -/
def KeepsCanonical (composition : Composition) : Prop :=
  ∀ part ∈ composition.parts, ∀ region, part.evaluate = some region → region.IsCanonical

variable {composition part : Composition}

theorem parts_trans
    (isPart : part ∈ composition.parts) : ∀ inner ∈ part.parts, inner ∈ composition.parts := by
  induction composition with
  | empty | rect area nonNegative =>
    obtain rfl := mem_singleton.1 isPart
    exact fun _ isInner => isInner
  | unite first second firstHypothesis secondHypothesis
  | intersect first second firstHypothesis secondHypothesis
  | subtract first second firstHypothesis secondHypothesis =>
    rcases mem_cons.1 isPart with rfl | isInside
    · exact fun _ isInner => isInner
    · intro inner isInner
      refine .tail _ (mem_append.2 ?_)
      rcases mem_append.1 isInside with isFirst | isSecond
      · exact .inl (firstHypothesis isFirst inner isInner)
      · exact .inr (secondHypothesis isSecond inner isInner)
  | translate first offset ih =>
    rcases mem_cons.1 isPart with rfl | isInside
    · exact fun _ isInner => isInner
    · exact fun inner isInner => .tail _ (ih isInside inner isInner)

theorem meetsExact_part (meets : composition.MeetsExact)
    (isPart : part ∈ composition.parts) : part.MeetsExact :=
  fun inner isInner => meets inner (parts_trans isPart inner isInner)

section Parts

variable {first second : Composition} {offset : IntSize} {property : Composition → Prop}

theorem forall_parts_binary {whole : Composition}
    (isParts : whole.parts = whole :: (first.parts ++ second.parts)) :
    (∀ part ∈ whole.parts, property part) ↔ property whole ∧ (∀ part ∈ first.parts, property part) ∧
        ∀ part ∈ second.parts, property part := by
  rw [isParts, forall_mem_cons, forall_mem_append]

theorem forall_parts_translate : (∀ part ∈ (translate first offset).parts, property part) ↔
      property (translate first offset) ∧ ∀ part ∈ first.parts, property part :=
  forall_mem_cons

end Parts

theorem exact_evaluate {region : Region} (meets : composition.MeetsExact)
    (isResult : composition.evaluate = some region) : Exact region composition.points := by
  have reached : composition.evaluate ≠ none := by
    rw [isResult]
    exact Option.some_ne_none region
  induction composition generalizing region with
  | empty =>
    obtain rfl := Option.some.inj isResult
    exact .inr ⟨rfl, rfl⟩
  | rect area nonNegative =>
    have notEmpty := meets _ (self_mem_parts _) reached
    rw [StaysExact, IntRect.isEmpty, Bool.or_eq_false_iff, decide_eq_false_iff_not,
      decide_eq_false_iff_not, not_le, not_le] at notEmpty
    rw [(checked_eq_some isResult).1]
    exact .inl ⟨canonical_ofRect notEmpty, points_ofRect notEmpty, isBoundingBox_points notEmpty⟩
  | unite first second firstHypothesis secondHypothesis =>
    obtain ⟨_, firstMeets, secondMeets⟩ := (forall_parts_binary rfl).1 meets
    obtain ⟨this, other, isThis, isOther, rfl, _⟩ := evaluate_binary isResult
    exact (firstHypothesis firstMeets isThis (by simp [isThis])).unite
      (secondHypothesis secondMeets isOther (by simp [isOther]))
  | intersect first second firstHypothesis secondHypothesis =>
    obtain ⟨_, firstMeets, secondMeets⟩ := (forall_parts_binary rfl).1 meets
    obtain ⟨this, other, isThis, isOther, rfl, fits⟩ := evaluate_binary isResult
    exact (firstHypothesis firstMeets isThis (by simp [isThis])).intersect
      (secondHypothesis secondMeets isOther (by simp [isOther])) fits
  | subtract first second firstHypothesis secondHypothesis =>
    obtain ⟨_, firstMeets, secondMeets⟩ := (forall_parts_binary rfl).1 meets
    obtain ⟨this, other, isThis, isOther, rfl, fits⟩ := evaluate_binary isResult
    exact (firstHypothesis firstMeets isThis (by simp [isThis])).subtract
      (secondHypothesis secondMeets isOther (by simp [isOther])) fits
  | translate first offset ih =>
    obtain ⟨step, firstMeets⟩ := forall_parts_translate.1 meets
    obtain ⟨this, isThis, rfl⟩ := evaluate_translate isResult
    exact (ih firstMeets isThis (by simp [isThis])).translate (step reached)

/-- A composition with canonical regions only stays exact at every step. -/
theorem meetsExact_of_keepsCanonical
    (keeps : composition.KeepsCanonical) : composition.MeetsExact := by
  induction composition with
  | empty =>
    intro part isPart _
    obtain rfl := mem_singleton.1 isPart
    trivial
  | rect area nonNegative =>
    intro part isPart reached
    obtain rfl := mem_singleton.1 isPart
    obtain ⟨region, isResult⟩ := Option.ne_none_iff_exists'.1 reached
    have canonical := keeps _ (self_mem_parts _) region isResult
    rw [(checked_eq_some isResult).1] at canonical
    have positive := positive_of_rows canonical.increasing canonical.rows
    rw [StaysExact, IntRect.isEmpty, Bool.or_eq_false_iff, decide_eq_false_iff_not,
      decide_eq_false_iff_not]
    omega
  | unite first second firstHypothesis secondHypothesis
  | intersect first second firstHypothesis secondHypothesis
  | subtract first second firstHypothesis secondHypothesis =>
    obtain ⟨_, firstKeeps, secondKeeps⟩ := (forall_parts_binary rfl).1 keeps
    exact (forall_parts_binary rfl).2
      ⟨fun _ => trivial, firstHypothesis firstKeeps, secondHypothesis secondKeeps⟩
  | translate first offset ih =>
    obtain ⟨step, firstKeeps⟩ := forall_parts_translate.1 keeps
    have firstMeets := ih firstKeeps
    refine forall_parts_translate.2 ⟨fun reached noPoints => ?_, firstMeets⟩
    obtain ⟨region, isResult⟩ := Option.ne_none_iff_exists'.1 reached
    have canonical := step region isResult
    obtain ⟨this, isThis, rfl⟩ := evaluate_translate isResult
    have exact := exact_evaluate firstMeets isThis
    obtain rfl := exact.eq_empty (exact.denotes.isEmpty_iff.2 noPoints)
    have noBounds := canonical.bounds_nil rfl
    obtain ⟨width, height⟩ := offset
    have moved := IntRect.mk.inj noBounds
    rw [Int.zero_add, Int.zero_add] at moved
    exact congr (congrArg IntSize.mk moved.1) moved.2.1

/-- The regions on the way are canonical, and two of them are equal exactly when they have
the same points, if and only if no step starts from an empty rectangle or moves an empty
set. -/
theorem canonical_iff (first second : Composition) : (first.KeepsCanonical ∧ second.KeepsCanonical ∧
        ∀ part ∈ first.parts, ∀ other ∈ second.parts, ∀ region otherRegion,
          part.evaluate = some region → other.evaluate = some otherRegion →
            (region = otherRegion ↔ part.points = other.points)) ↔
      first.MeetsExact ∧ second.MeetsExact := by
  constructor
  · rintro ⟨firstKeeps, secondKeeps, _⟩
    exact ⟨meetsExact_of_keepsCanonical firstKeeps, meetsExact_of_keepsCanonical secondKeeps⟩
  · rintro ⟨firstMeets, secondMeets⟩
    refine ⟨fun part isPart region isRegion => ?_, fun part isPart region isRegion => ?_, ?_⟩
    · exact (exact_evaluate (meetsExact_part firstMeets isPart) isRegion).isCanonical
    · exact (exact_evaluate (meetsExact_part secondMeets isPart) isRegion).isCanonical
    · intro part isPart other isOther region otherRegion isRegion isOtherRegion
      exact (exact_evaluate (meetsExact_part firstMeets isPart) isRegion).eq_iff
        (exact_evaluate (meetsExact_part secondMeets isOther) isOtherRegion)

/-- A rectangle without a width keeps its segment, so it differs from the empty region. -/
theorem empty_rect_differs : ¬∀ (first second : Composition) (region other : Region),
      first.evaluate = some region → second.evaluate = some other →
        region.IsCanonical ∧ (region = other ↔ first.points = second.points) := by
  intro agrees
  have canonical := (agrees (rect ⟨5, 5, 0, 3⟩ (by decide)) empty (Region.ofRect ⟨5, 5, 0, 3⟩) {}
    (by decide +kernel) rfl).1
  have sorted := (canonical.rows ⟨5, [5, 5]⟩ (.head _)).sorted
  revert sorted
  decide

end Composition

end Graphics
end PalmWebKit
