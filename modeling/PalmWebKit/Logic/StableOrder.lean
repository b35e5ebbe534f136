import Mathlib

/-!
# The order of a stable sort

A stable sort of a list without duplicates is the only rearrangement in which
elements stand in the sorting relation and tied elements stand as they did in
the list.
-/

namespace PalmWebKit
namespace StableOrder

open List

variable {Element : Type*}

/-- The relation between an earlier and a later element of the sorted list:
elements that tie keep the order of the original list. -/
def StablyBefore (relation : Element → Element → Prop) (original : List Element)
    (first second : Element) : Prop :=
  relation first second ∧ (relation second first → [first, second] <+ original)

section Order

variable {relation : Element → Element → Prop} {original : List Element}

variable {first second : Element}

/-- In a list without duplicates one of two elements comes first. -/
theorem pair_not_sublist_swap (nodup : original.Nodup) (inOrder : [first, second] <+ original) :
    ¬[second, first] <+ original := by
  induction original with
  | nil => cases inOrder
  | cons head rest ih =>
    obtain ⟨fresh, restNodup⟩ := nodup_cons.1 nodup
    intro swapped
    rcases cons_sublist_cons'.1 inOrder with inRest | ⟨rfl, secondInRest⟩
    · rcases cons_sublist_cons'.1 swapped with alsoInRest | ⟨rfl, -⟩
      · exact ih restNodup inRest alsoInRest
      · exact fresh (inRest.subset (by simp))
    · rcases cons_sublist_cons'.1 swapped with alsoInRest | ⟨rfl, -⟩
      · exact fresh (alsoInRest.subset (by simp))
      · exact fresh (singleton_sublist.1 secondInRest)

theorem pair_sublist_or_swap (firstMember : first ∈ original) (secondMember : second ∈ original)
    (ne : first ≠ second) : [first, second] <+ original ∨ [second, first] <+ original := by
  induction original with
  | nil => cases firstMember
  | cons head rest ih =>
    rcases mem_cons.1 firstMember with rfl | firstInRest
    · have secondInRest := mem_of_ne_of_mem ne.symm secondMember
      exact .inl ((singleton_sublist.2 secondInRest).cons_cons first)
    · rcases mem_cons.1 secondMember with rfl | secondInRest
      · exact .inr ((singleton_sublist.2 firstInRest).cons_cons second)
      · exact (ih firstInRest secondInRest).imp
          (fun inRest => inRest.cons head) (fun inRest => inRest.cons head)

theorem StablyBefore.antisymm (nodup : original.Nodup)
    (before : StablyBefore relation original first second) :
    ¬StablyBefore relation original second first :=
  fun after => pair_not_sublist_swap nodup
    (before.2 after.1) (after.2 before.1)

section Sorting

variable [DecidableRel relation] [Std.Total relation] [IsTrans Element relation]

theorem pairwise_stablyBefore_insertionSort (nodup : original.Nodup) :
    (original.insertionSort relation).Pairwise
      (StablyBefore relation original) := by
  have permutation := perm_insertionSort relation original
  have sortedNodup := permutation.nodup_iff.2 nodup
  rw [pairwise_iff_forall_sublist]
  intro first second inOrder
  refine ⟨pairwise_iff_forall_sublist.1
    (pairwise_insertionSort relation original) inOrder, fun tied => ?_⟩
  have ne : first ≠ second := by
    rintro rfl
    exact absurd (sortedNodup.sublist inOrder) (by simp)
  have members := inOrder.subset
  rcases pair_sublist_or_swap
      (permutation.mem_iff.1 (members (by simp)))
      (permutation.mem_iff.1 (members (by simp))) ne with
    kept | swapped
  · exact kept
  · exact absurd (pair_sublist_insertionSort tied swapped)
      (pair_not_sublist_swap sortedNodup inOrder)

/-- A rearrangement and the stable sort agree on the elements with a property
exactly when these stand in the rearrangement as the stable sort puts them. -/
theorem filter_eq_filter_insertionSort_iff (nodup : original.Nodup) {rearranged : List Element}
    (permutation : rearranged.Perm original) (property : Element → Bool) :
    rearranged.filter property = (original.insertionSort relation).filter property ↔
      (rearranged.filter property).Pairwise
        (StablyBefore relation original) := by
  have sorted : ((original.insertionSort relation).filter property).Pairwise
      (StablyBefore relation original) :=
    (pairwise_stablyBefore_insertionSort nodup).sublist filter_sublist
  constructor
  · intro same
    rw [same]
    exact sorted
  · intro inOrder
    refine Perm.eq_of_pairwise ?_ inOrder sorted
      ((permutation.trans (perm_insertionSort relation original).symm).filter property)
    intro first second _ _ before after
    exact absurd after (before.antisymm nodup)

end Sorting

end Order

end StableOrder
end PalmWebKit
