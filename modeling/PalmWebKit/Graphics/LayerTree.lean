import PalmWebKit.Logic.Runs

/-!
# The layer tree

Every `LayerPalm` keeps a vector of its sublayers and a pointer to its
superlayer.  The calls that move layers about change both, in any aliasing of
parent, child and sibling.
-/

namespace PalmWebKit
namespace Graphics

open List

/-- The sublayers and the superlayer of every layer, and for each insertion
into a vector of sublayers the index used and the size the vector then had. -/
structure LayerTree (Layer : Type*) where
  sublayers : Layer → List Layer
  superlayer : Layer → Option Layer
  insertions : List (Nat × Nat)

/-- The calls on layers; a layer is destroyed by `removeAllSublayers` too. -/
inductive LayerCall (Layer : Type*)
  | addSublayer (parent sublayer : Layer)
  | insertSublayer (parent sublayer : Layer) (index : Nat)
  | replaceSublayer (parent reference : Layer) (newLayer : Option Layer)
  | removeFromSuperlayer (layer : Layer)
  | removeAllSublayers (parent : Layer)

namespace LayerTree

variable {Layer : Type*}

/-- Layers as they are constructed. -/
def unconnected : LayerTree Layer where
  sublayers _ := []
  superlayer _ := none
  insertions := []

variable [DecidableEq Layer]

def setSuperlayer (tree : LayerTree Layer) (layer : Layer)
    (superlayer : Option Layer) : LayerTree Layer :=
  { tree with superlayer := Function.update tree.superlayer layer superlayer }

def setSublayers (tree : LayerTree Layer) (parent : Layer)
    (sublayers : List Layer) : LayerTree Layer :=
  { tree with sublayers := Function.update tree.sublayers parent sublayers }

def indexOfSublayer (tree : LayerTree Layer) (parent reference : Layer) : Option Nat :=
  (tree.sublayers parent).idxOf? reference

def removeSublayer (tree : LayerTree Layer) (parent sublayer : Layer) : LayerTree Layer :=
  match tree.indexOfSublayer parent sublayer with
  | none => tree
  | some foundIndex =>
    (tree.setSuperlayer sublayer none).setSublayers parent
      ((tree.sublayers parent).eraseIdx foundIndex)

def removeFromSuperlayer (tree : LayerTree Layer) (layer : Layer) : LayerTree Layer :=
  match tree.superlayer layer with
  | none => tree
  | some parent => tree.removeSublayer parent layer

/-- `Vector::insert` on the sublayers, which asserts that the index is at most
the size; what happens behind the end is left open. -/
def insertAt (tree : LayerTree Layer) (parent sublayer : Layer) (index : Nat) : LayerTree Layer :=
  { tree.setSublayers parent ((tree.sublayers parent).insertIdx index sublayer) with
    insertions := (index, (tree.sublayers parent).length) :: tree.insertions }

def insertSublayer (tree : LayerTree Layer) (parent sublayer : Layer)
    (index : Nat) : LayerTree Layer :=
  -- the index is cut to the size before the sublayer leaves its old parent
  let index := min index (tree.sublayers parent).length
  ((tree.removeFromSuperlayer sublayer).setSuperlayer sublayer (some parent)).insertAt
    parent sublayer index

def addSublayer (tree : LayerTree Layer) (parent sublayer : Layer) : LayerTree Layer :=
  tree.insertSublayer parent sublayer (tree.sublayers parent).length

def replaceSublayer (tree : LayerTree Layer) (parent reference : Layer)
    (newLayer : Option Layer) : LayerTree Layer :=
  if newLayer = some reference then tree
  else
    match tree.indexOfSublayer parent reference with
    | none => tree
    | some referenceIndex =>
      let tree := tree.removeFromSuperlayer reference
      match newLayer with
      | none => tree
      | some newLayer =>
        (tree.removeFromSuperlayer newLayer).insertSublayer parent newLayer
          referenceIndex

/-- The loop of `removeAllSublayers`, which takes the first sublayer away from
its superlayer until there is none. -/
def removeFirstSublayers (parent : Layer) : Nat → LayerTree Layer → LayerTree Layer
  | 0, tree => tree
  | turns + 1, tree =>
    match tree.sublayers parent with
    | [] => tree
    | layer :: _ => removeFirstSublayers parent turns (tree.removeFromSuperlayer layer)

def removeAllSublayers (tree : LayerTree Layer) (parent : Layer) : LayerTree Layer :=
  removeFirstSublayers parent (tree.sublayers parent).length tree

def step (tree : LayerTree Layer) : LayerCall Layer → LayerTree Layer
  | .addSublayer parent sublayer => tree.addSublayer parent sublayer
  | .insertSublayer parent sublayer index => tree.insertSublayer parent sublayer index
  | .replaceSublayer parent reference newLayer => tree.replaceSublayer parent reference newLayer
  | .removeFromSuperlayer layer => tree.removeFromSuperlayer layer
  | .removeAllSublayers parent => tree.removeAllSublayers parent

/-- Every layer stands at most once in at most one list of sublayers, the one
of its superlayer. -/
structure Consistent (tree : LayerTree Layer) : Prop where
  nodup : ∀ parent, (tree.sublayers parent).Nodup
  parent_unique : ∀ layer first second,
    layer ∈ tree.sublayers first → layer ∈ tree.sublayers second → first = second
  mem_iff : ∀ parent layer, layer ∈ tree.sublayers parent ↔ tree.superlayer layer = some parent

/-- Every insertion was at an index within the vector. -/
def InBounds (tree : LayerTree Layer) : Prop :=
  ∀ insertion ∈ tree.insertions, insertion.1 ≤ insertion.2

/-- The layers a call moves. -/
def named (tree : LayerTree Layer) : LayerCall Layer → List Layer
  | .addSublayer _ sublayer => [sublayer]
  | .insertSublayer _ sublayer _ => [sublayer]
  | .replaceSublayer _ reference newLayer => reference :: newLayer.toList
  | .removeFromSuperlayer layer => [layer]
  | .removeAllSublayers parent => tree.sublayers parent

/-- A call leaves the other layers in every list, in the same order. -/
def OrderKept (tree : LayerTree Layer) (call : LayerCall Layer) : Prop :=
  ∀ parent, ((tree.step call).sublayers parent).filter (· ∉ tree.named call) =
      (tree.sublayers parent).filter (· ∉ tree.named call)

/-- A sublayer that is already a child of the parent is given an index before
the end of the list, which `addSublayer` never does. -/
def IndexBeforeEnd (tree : LayerTree Layer) : LayerCall Layer → Prop
  | .addSublayer parent sublayer => sublayer ∉ tree.sublayers parent
  | .insertSublayer parent sublayer index =>
    sublayer ∈ tree.sublayers parent → index < (tree.sublayers parent).length
  | _ => True

/-! ## Taking a layer out and putting it in -/

theorem removeSublayer_eq (tree : LayerTree Layer) (parent sublayer : Layer) :
    tree.removeSublayer parent sublayer =
      if sublayer ∈ tree.sublayers parent then
        (tree.setSuperlayer sublayer none).setSublayers parent
          ((tree.sublayers parent).erase sublayer)
      else tree := by
  rw [removeSublayer, indexOfSublayer, erase_eq_eraseIdx]
  cases found : (tree.sublayers parent).idxOf? sublayer with
  | none => rw [if_neg (idxOf?_eq_none_iff.1 found)]
  | some foundIndex =>
    have isMember : sublayer ∈ tree.sublayers parent := by
      rw [← isSome_idxOf?, found]
      rfl
    rw [if_pos isMember]

namespace Consistent

variable {tree : LayerTree Layer}

/-- In a consistent tree a layer leaves every list it is in. -/
theorem removeFromSuperlayer_eq (consistent : tree.Consistent) (layer : Layer) :
    tree.removeFromSuperlayer layer =
      { sublayers := fun parent => (tree.sublayers parent).erase layer
        superlayer := Function.update tree.superlayer layer none
        insertions := tree.insertions } := by
  rw [removeFromSuperlayer]
  cases superlayerEqual : tree.superlayer layer with
  | none =>
    have unchanged : ∀ parent,
        (tree.sublayers parent).erase layer = tree.sublayers parent := by
      intro parent
      apply erase_of_not_mem
      rw [consistent.mem_iff, superlayerEqual]
      simp
    simp only [unchanged]
    rw [← superlayerEqual, Function.update_eq_self]
  | some parent =>
    have isMember : layer ∈ tree.sublayers parent :=
      (consistent.mem_iff parent layer).2 superlayerEqual
    simp only [removeSublayer_eq, if_pos isMember, setSuperlayer, setSublayers]
    congr 1
    funext other
    by_cases same : other = parent
    · rw [same, Function.update_self]
    · rw [Function.update_of_ne same]
      refine (erase_of_not_mem ?_).symm
      intro isOther
      exact same (consistent.parent_unique layer other parent isOther isMember)

omit [DecidableEq Layer] in
theorem of_mem_iff (nodup : ∀ parent, (tree.sublayers parent).Nodup)
    (mem_iff : ∀ parent layer,
      layer ∈ tree.sublayers parent ↔ tree.superlayer layer = some parent) : tree.Consistent where
  nodup := nodup
  parent_unique := by
    intro layer first second inFirst inSecond
    rw [mem_iff] at inFirst inSecond
    exact Option.some.inj (inFirst.symm.trans inSecond)
  mem_iff := mem_iff

omit [DecidableEq Layer] in
theorem unconnected : (unconnected : LayerTree Layer).Consistent :=
  of_mem_iff (fun _ => .nil) (by simp [LayerTree.unconnected])

theorem removeFromSuperlayer (consistent : tree.Consistent) (layer : Layer) :
    (tree.removeFromSuperlayer layer).Consistent := by
  rw [consistent.removeFromSuperlayer_eq]
  apply of_mem_iff
  · exact fun parent => (consistent.nodup parent).erase layer
  · intro parent other
    rw [(consistent.nodup parent).mem_erase_iff, consistent.mem_iff]
    by_cases same : other = layer <;> simp [same]

/-- A layer without superlayer can be put into a list at any index within it. -/
theorem insertAt (consistent : tree.Consistent) {parent sublayer : Layer} {index : Nat}
    (detached : tree.superlayer sublayer = none) (inside : index ≤ (tree.sublayers parent).length) :
    ((tree.setSuperlayer sublayer (some parent)).insertAt parent sublayer
      index).Consistent := by
  have notMember : ∀ other, sublayer ∉ tree.sublayers other := by
    intro other
    rw [consistent.mem_iff, detached]
    simp
  apply of_mem_iff
  · intro other
    by_cases same : other = parent
    · simp only [LayerTree.insertAt, setSublayers, setSuperlayer, same, Function.update_self]
      rw [(perm_insertIdx sublayer _ inside).nodup_iff, nodup_cons]
      exact ⟨notMember parent, consistent.nodup parent⟩
    · simpa [LayerTree.insertAt, setSublayers, setSuperlayer,
        Function.update_of_ne same] using consistent.nodup other
  · intro other layer
    by_cases same : other = parent
    · simp only [LayerTree.insertAt, setSublayers, setSuperlayer, same,
        Function.update_self, mem_insertIdx inside, consistent.mem_iff]
      by_cases isSublayer : layer = sublayer <;> simp [isSublayer]
    · simp only [LayerTree.insertAt, setSublayers, setSuperlayer,
        Function.update_of_ne same, consistent.mem_iff]
      by_cases isSublayer : layer = sublayer
      · simp [isSublayer, detached, Ne.symm same]
      · simp [isSublayer]

/-- The vector of the parent shrinks under the index when the sublayer was in
it. -/
theorem insertSublayer (consistent : tree.Consistent) {parent sublayer : Layer} {index : Nat}
    (beforeEnd : sublayer ∈ tree.sublayers parent → index < (tree.sublayers parent).length) :
    (tree.insertSublayer parent sublayer index).Consistent := by
  apply (consistent.removeFromSuperlayer sublayer).insertAt
  · rw [consistent.removeFromSuperlayer_eq]
    simp
  · rw [consistent.removeFromSuperlayer_eq]
    rw [length_erase]
    split
    · have := beforeEnd ‹_›
      omega
    · omega

theorem not_mem_removeFromSuperlayer (consistent : tree.Consistent) (parent layer : Layer) :
    layer ∉ (tree.removeFromSuperlayer layer).sublayers parent := by
  rw [consistent.removeFromSuperlayer_eq]
  exact (consistent.nodup parent).not_mem_erase

theorem replaceSublayer (consistent : tree.Consistent) (parent reference : Layer)
    (newLayer : Option Layer) : (tree.replaceSublayer parent reference newLayer).Consistent := by
  rw [LayerTree.replaceSublayer]
  split
  · exact consistent
  cases tree.indexOfSublayer parent reference with
  | none => exact consistent
  | some referenceIndex =>
    have detached := consistent.removeFromSuperlayer reference
    cases newLayer with
    | none => exact detached
    | some newLayer =>
      apply (detached.removeFromSuperlayer newLayer).insertSublayer
      intro isMember
      exact absurd isMember (detached.not_mem_removeFromSuperlayer _ _)

theorem removeFirstSublayers (consistent : tree.Consistent) (parent : Layer) (turns : Nat) :
    (removeFirstSublayers parent turns tree).Consistent := by
  induction turns generalizing tree with
  | zero => exact consistent
  | succ turns ih =>
    rw [LayerTree.removeFirstSublayers]
    split
    · exact consistent
    · exact ih (consistent.removeFromSuperlayer _)

end Consistent

/-! ## Indices of the insertions -/

@[simp] theorem insertions_removeFromSuperlayer (tree : LayerTree Layer) (layer : Layer) :
    (tree.removeFromSuperlayer layer).insertions = tree.insertions := by
  rw [removeFromSuperlayer]
  split
  · rfl
  · rw [removeSublayer_eq]
    split <;> rfl

theorem insertions_insertSublayer (tree : LayerTree Layer) (parent sublayer : Layer) (index : Nat) :
    (tree.insertSublayer parent sublayer index).insertions =
      (min index (tree.sublayers parent).length,
        ((tree.removeFromSuperlayer sublayer).sublayers parent).length) ::
          tree.insertions := by
  simp [insertSublayer, insertAt, setSuperlayer, setSublayers]

@[simp] theorem insertions_removeFirstSublayers (parent : Layer) (turns : Nat)
    (tree : LayerTree Layer) :
    (removeFirstSublayers parent turns tree).insertions = tree.insertions := by
  induction turns generalizing tree with
  | zero => rfl
  | succ turns ih =>
    rw [removeFirstSublayers]
    split
    · rfl
    · rw [ih, insertions_removeFromSuperlayer]

variable {tree : LayerTree Layer}

/-- Where the index of an insertion lies is decided by whether the sublayer
was in the vector when the index was cut to its size. -/
theorem Consistent.inBounds_insertSublayer_iff (consistent : tree.Consistent)
    (inBounds : tree.InBounds) (parent sublayer : Layer) (index : Nat) :
    (tree.insertSublayer parent sublayer index).InBounds ↔ (sublayer ∈ tree.sublayers parent →
        index < (tree.sublayers parent).length) := by
  rw [InBounds, insertions_insertSublayer, forall_mem_cons]
  refine (and_iff_left inBounds).trans ?_
  rw [consistent.removeFromSuperlayer_eq]
  rw [length_erase]
  split
  · have := length_pos_of_mem ‹sublayer ∈ tree.sublayers parent›
    simp only [*, true_implies]
    omega
  · simp only [*, false_implies, iff_true]
    exact Nat.min_le_right _ _

theorem Consistent.inBounds_replaceSublayer (consistent : tree.Consistent)
    (inBounds : tree.InBounds) (parent reference : Layer) (newLayer : Option Layer) :
    (tree.replaceSublayer parent reference newLayer).InBounds := by
  rw [LayerTree.replaceSublayer]
  split
  · exact inBounds
  cases tree.indexOfSublayer parent reference with
  | none => exact inBounds
  | some referenceIndex =>
    have detached := consistent.removeFromSuperlayer reference
    cases newLayer with
    | none => simpa [InBounds] using inBounds
    | some newLayer =>
      apply ((detached.removeFromSuperlayer newLayer).inBounds_insertSublayer_iff
        (by simpa [InBounds] using inBounds) _ _ _).2
      intro isMember
      exact absurd isMember (detached.not_mem_removeFromSuperlayer _ _)

/-! ## Order of the other layers -/

/-- Two trees whose lists agree up to some layers. -/
def AgreeApart (moved : List Layer) (first second : LayerTree Layer) : Prop :=
  ∀ parent, (first.sublayers parent).filter (· ∉ moved) =
      (second.sublayers parent).filter (· ∉ moved)

namespace AgreeApart

variable {moved : List Layer} {tree : LayerTree Layer}

theorem refl : AgreeApart moved tree tree :=
  fun _ => rfl

theorem trans {first second third : LayerTree Layer} (agree : AgreeApart moved first second)
    (agreeAfter : AgreeApart moved second third) : AgreeApart moved first third :=
  fun parent => (agree parent).trans (agreeAfter parent)

theorem setSublayers {parent : Layer} {layers : List Layer}
    (agree : layers.filter (· ∉ moved) = (tree.sublayers parent).filter (· ∉ moved)) :
    AgreeApart moved (tree.setSublayers parent layers) tree := by
  intro other
  by_cases same : other = parent
  · simp only [LayerTree.setSublayers, same, Function.update_self]
    exact agree
  · simp only [LayerTree.setSublayers, Function.update_of_ne same]

theorem removeFromSuperlayer {layer : Layer} (isMoved : layer ∈ moved) :
    AgreeApart moved (tree.removeFromSuperlayer layer) tree := by
  rw [LayerTree.removeFromSuperlayer]
  split
  · exact refl
  · rw [removeSublayer_eq]
    split
    · refine trans (setSublayers ?_) fun _ => rfl
      have notKept : layer ∉ (tree.sublayers ‹_›).filter (· ∉ moved) := by simp [isMoved]
      dsimp only [setSuperlayer]
      rw [← erase_filter, erase_of_not_mem notKept]
    · exact refl

theorem filter_insertIdx {layer : Layer} (isMoved : layer ∈ moved) (layers : List Layer)
    (index : Nat) : (layers.insertIdx index layer).filter (· ∉ moved) =
      layers.filter (· ∉ moved) := by
  induction layers generalizing index with
  | nil => cases index <;> simp [isMoved]
  | cons head tail ih =>
    cases index with
    | zero => simp [isMoved]
    | succ index => rw [insertIdx_succ_cons, filter_cons, filter_cons, ih]

theorem insertSublayer {parent sublayer : Layer} {index : Nat} (isMoved : sublayer ∈ moved) :
    AgreeApart moved (tree.insertSublayer parent sublayer index) tree := by
  refine trans ?_ (removeFromSuperlayer isMoved)
  exact setSublayers (filter_insertIdx isMoved _ _)

theorem replaceSublayer {parent reference : Layer} {newLayer : Option Layer}
    (referenceMoved : reference ∈ moved)
    (newMoved : ∀ layer, newLayer = some layer → layer ∈ moved) :
    AgreeApart moved (tree.replaceSublayer parent reference newLayer) tree := by
  rw [LayerTree.replaceSublayer]
  split
  · exact refl
  cases tree.indexOfSublayer parent reference with
  | none => exact refl
  | some referenceIndex =>
    refine trans ?_ (removeFromSuperlayer referenceMoved)
    cases newLayer with
    | none => exact refl
    | some newLayer =>
      exact (insertSublayer (newMoved newLayer rfl)).trans
        (removeFromSuperlayer (newMoved newLayer rfl))

/-- A layer the loop takes out was in the list from the start. -/
theorem removeFirstSublayers {parent : Layer} (turns : Nat)
    (areMoved : tree.sublayers parent ⊆ moved) :
    AgreeApart moved (removeFirstSublayers parent turns tree) tree := by
  induction turns generalizing tree with
  | zero => exact refl
  | succ turns ih =>
    rw [LayerTree.removeFirstSublayers]
    cases layersEqual : tree.sublayers parent with
    | nil => exact refl
    | cons layer layers =>
      have layerMoved : layer ∈ moved := by
        apply areMoved
        simp [layersEqual]
      refine trans (ih ?_) (removeFromSuperlayer layerMoved)
      intro other isOther
      by_contra notMoved
      have kept : other ∈
          ((tree.removeFromSuperlayer layer).sublayers parent).filter
            (· ∉ moved) := by
        simp [isOther, notMoved]
      rw [removeFromSuperlayer layerMoved parent] at kept
      exact notMoved (areMoved (mem_filter.1 kept).1)

end AgreeApart

theorem orderKept (tree : LayerTree Layer) (call : LayerCall Layer) : tree.OrderKept call := by
  cases call with
  | addSublayer parent sublayer | insertSublayer parent sublayer index =>
    exact AgreeApart.insertSublayer (by simp [named])
  | replaceSublayer parent reference newLayer =>
    refine AgreeApart.replaceSublayer (by simp [named]) ?_
    intro layer equal
    simp [named, equal]
  | removeFromSuperlayer layer => exact AgreeApart.removeFromSuperlayer (by simp [named])
  | removeAllSublayers parent => exact AgreeApart.removeFirstSublayers _ (List.Subset.refl _)

/-! ## Runs -/

theorem Consistent.step (consistent : tree.Consistent) (inBounds : tree.InBounds)
    {call : LayerCall Layer} (beforeEnd : tree.IndexBeforeEnd call) :
    (tree.step call).Consistent ∧ (tree.step call).InBounds := by
  cases call with
  | addSublayer parent sublayer =>
    have indexBefore : sublayer ∈ tree.sublayers parent →
        (tree.sublayers parent).length < (tree.sublayers parent).length :=
      fun isMember => absurd isMember beforeEnd
    exact ⟨consistent.insertSublayer indexBefore,
      (consistent.inBounds_insertSublayer_iff inBounds _ _ _).2 indexBefore⟩
  | insertSublayer parent sublayer index =>
    exact ⟨consistent.insertSublayer beforeEnd,
      (consistent.inBounds_insertSublayer_iff inBounds _ _ _).2 beforeEnd⟩
  | replaceSublayer parent reference newLayer =>
    exact ⟨consistent.replaceSublayer parent reference newLayer,
      consistent.inBounds_replaceSublayer inBounds parent reference newLayer⟩
  | removeFromSuperlayer layer =>
    exact ⟨consistent.removeFromSuperlayer layer,
      by simpa [LayerTree.step, InBounds] using inBounds⟩
  | removeAllSublayers parent =>
    exact ⟨consistent.removeFirstSublayers parent _,
      by simpa [LayerTree.step, removeAllSublayers, InBounds] using inBounds⟩

/-- An insertion behind the end shows that the sublayer was taken out of the
very list the index was cut for. -/
theorem Consistent.indexBeforeEnd_of_inBounds (consistent : tree.Consistent)
    (inBounds : tree.InBounds) {call : LayerCall Layer}
    (inBoundsAfter : (tree.step call).InBounds) : tree.IndexBeforeEnd call := by
  cases call with
  | addSublayer parent sublayer =>
    intro isMember
    exact absurd ((consistent.inBounds_insertSublayer_iff inBounds _ _ _).1
      inBoundsAfter isMember) (Nat.lt_irrefl _)
  | insertSublayer parent sublayer index =>
    exact (consistent.inBounds_insertSublayer_iff inBounds _ _ _).1 inBoundsAfter
  | replaceSublayer parent reference newLayer | removeFromSuperlayer layer
  | removeAllSublayers parent => trivial

/-- Over a run of calls the tree stays consistent, insertions stay within the
vectors and the other layers keep their order, exactly when no layer is put at
the end of the list it is already in. -/
theorem consistent_run_iff (calls : List (LayerCall Layer)) :
    ((∀ tree ∈ Runs.visited step unconnected calls, Consistent tree ∧ InBounds tree) ∧
      Runs.StepsMeet step OrderKept (unconnected : LayerTree Layer) calls) ↔
      Runs.StepsMeet step IndexBeforeEnd (unconnected : LayerTree Layer) calls := by
  rw [and_iff_left (Runs.stepsMeet_of_forall orderKept _ _)]
  exact Runs.visited_iff_stepsMeet_of_invariant
    (fun (tree : LayerTree Layer) (both : tree.Consistent ∧ tree.InBounds) => both)
    (fun _ _ both met => both.1.step both.2 met)
    (fun _ _ both bothAfter => both.1.indexBeforeEnd_of_inBounds both.2 bothAfter.2)
    calls ⟨Consistent.unconnected, by simp [InBounds, unconnected]⟩

/-- Adding the only child once more inserts behind the end of the list. -/
theorem added_twice_behind_end :
    ¬ ∀ calls : List (LayerCall Nat), (∀ tree ∈ Runs.visited step unconnected calls,
        Consistent tree ∧ InBounds tree) ∧
      Runs.StepsMeet step OrderKept (unconnected : LayerTree Nat) calls := by
  intro always
  have inBounds := ((always [.addSublayer 0 1, .addSublayer 0 1]).1 _
    (Runs.final_mem_visited _ _)).2
  revert inBounds
  simp only [InBounds]
  decide

end LayerTree
end Graphics
end PalmWebKit
