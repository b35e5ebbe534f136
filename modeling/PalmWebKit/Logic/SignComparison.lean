import Mathlib

/-!
# Comparisons that return a sign

A comparison of two values is an integer, negative when the first one comes
first.  Comparing two lists element by element and then by their lengths keeps
what makes a comparison an order.
-/

namespace PalmWebKit
namespace SignComparison

variable {Value Rank : Type*} [LinearOrder Rank]

/-- Three values are compared transitively, and strictly when one of the two
steps is strict. -/
def TransitiveAt (compare : Value → Value → Int) (first second third : Value) : Prop :=
  compare first second ≤ 0 → compare second third ≤ 0 → compare first third ≤ 0 ∧
      (compare first third = 0 → compare first second = 0 ∧ compare second third = 0)

/-- Element by element; a list comes before its extensions. -/
def lexicographic (compare : Value → Value → Int) : List Value → List Value → Int
  | [], [] => 0
  | [], _ :: _ => -1
  | _ :: _, [] => 1
  | first :: firsts, second :: seconds =>
    if compare first second ≠ 0 then compare first second
    else lexicographic compare firsts seconds

/-- Values compared by where they stand in a linear order. -/
def byRank (rank : Value → Rank) (first second : Value) : Int :=
  if rank first < rank second then -1
  else if rank second < rank first then 1
  else 0

section ByRank

variable {rank : Value → Rank}

variable {first second : Value}

theorem byRank_of_lt (before : rank first < rank second) :
    byRank rank first second = -1 := if_pos before

theorem byRank_of_gt (after : rank second < rank first) : byRank rank first second = 1 := by
  rw [byRank, if_neg (lt_asymm after), if_pos after]

theorem byRank_of_eq (same : rank first = rank second) : byRank rank first second = 0 := by
  rw [byRank, if_neg same.not_lt, if_neg same.symm.not_lt]

theorem byRank_swap (first second : Value) :
    byRank rank second first = -byRank rank first second := by
  rcases lt_trichotomy (rank first) (rank second) with before | same | after
  · rw [byRank_of_lt before, byRank_of_gt before]
    rfl
  · rw [byRank_of_eq same, byRank_of_eq same.symm]
    rfl
  · rw [byRank_of_gt after, byRank_of_lt after]

theorem byRank_nonpos_iff {first second : Value} :
    byRank rank first second ≤ 0 ↔ rank first ≤ rank second := by
  rcases lt_trichotomy (rank first) (rank second) with before | same | after
  · rw [byRank_of_lt before]
    exact iff_of_true (by decide) before.le
  · rw [byRank_of_eq same]
    exact iff_of_true (le_refl _) same.le
  · rw [byRank_of_gt after]
    exact iff_of_false (by decide) (not_le.2 after)

theorem byRank_eq_zero_iff {first second : Value} :
    byRank rank first second = 0 ↔ rank first = rank second := by
  rcases lt_trichotomy (rank first) (rank second) with before | same | after
  · rw [byRank_of_lt before]
    exact iff_of_false (by decide) before.ne
  · rw [byRank_of_eq same]
    exact iff_of_true rfl same
  · rw [byRank_of_gt after]
    exact iff_of_false (by decide) after.ne'

theorem byRank_transitiveAt (first second third : Value) :
    TransitiveAt (byRank rank) first second third := by
  rw [TransitiveAt, byRank_nonpos_iff, byRank_nonpos_iff, byRank_nonpos_iff,
    byRank_eq_zero_iff, byRank_eq_zero_iff, byRank_eq_zero_iff]
  intro firstStep secondStep
  refine ⟨firstStep.trans secondStep, ?_⟩
  intro same
  exact ⟨le_antisymm firstStep (secondStep.trans same.ge),
    le_antisymm secondStep (same.ge.trans firstStep)⟩

end ByRank

variable {compare : Value → Value → Int}

variable {firsts seconds : List Value}

theorem lexicographic_swap
    (swap : ∀ first ∈ firsts, ∀ second ∈ seconds, compare second first = -compare first second) :
    lexicographic compare seconds firsts =
      -lexicographic compare firsts seconds := by
  induction firsts generalizing seconds with
  | nil => cases seconds <;> rfl
  | cons first firsts ih =>
    cases seconds with
    | nil => rfl
    | cons second seconds =>
      have heads := swap first (.head _) second (.head _)
      have tails := @ih seconds fun other otherMember
        another anotherMember => swap other (.tail _ otherMember)
          another (.tail _ anotherMember)
      rw [lexicographic, lexicographic, heads]
      by_cases same : compare first second = 0
      · rw [if_neg (by omega), if_neg (by omega), tails]
      · rw [if_pos (by omega), if_pos same]

/-- Lists compare as equal when their images are equal, if their elements do. -/
theorem lexicographic_eq_zero_iff {Image : Type*} {image : Value → Image}
    (zero : ∀ first ∈ firsts, ∀ second ∈ seconds,
      compare first second = 0 ↔ image first = image second) :
    lexicographic compare firsts seconds = 0 ↔
      firsts.map image = seconds.map image := by
  induction firsts generalizing seconds with
  | nil => cases seconds <;> simp [lexicographic]
  | cons first firsts ih =>
    cases seconds with
    | nil => simp [lexicographic]
    | cons second seconds =>
      have heads := zero first (.head _) second (.head _)
      have tails := @ih seconds fun other otherMember
        another anotherMember => zero other (.tail _ otherMember)
          another (.tail _ anotherMember)
      rw [lexicographic, List.map_cons, List.map_cons, List.cons.injEq, ← heads, ← tails]
      by_cases same : compare first second = 0
      · rw [if_neg (by omega)]
        exact (and_iff_right same).symm
      · rw [if_pos same]
        exact iff_of_false same fun both => same both.1

theorem lexicographic_transitiveAt {firsts seconds thirds : List Value}
    (transitive : ∀ first ∈ firsts, ∀ second ∈ seconds, ∀ third ∈ thirds,
      TransitiveAt compare first second third) :
    TransitiveAt (lexicographic compare) firsts seconds thirds := by
  induction firsts generalizing seconds thirds with
  | nil =>
    intro before after
    cases seconds with
    | nil =>
      cases thirds with
      | nil => exact ⟨le_refl _, fun _ => ⟨rfl, rfl⟩⟩
      | cons third thirds => exact ⟨after, fun same => by cases same⟩
    | cons second seconds =>
      cases thirds with
      | nil => cases after
      | cons third thirds => exact ⟨before, fun same => by cases same⟩
  | cons first firsts ih =>
    intro before after
    cases seconds with
    | nil => cases before
    | cons second seconds =>
      cases thirds with
      | nil => cases after
      | cons third thirds =>
        have heads := transitive first (.head _) second
          (.head _) third (.head _)
        have tails := @ih seconds thirds
          fun a aMember b bMember c cMember => transitive
            a (.tail _ aMember)
            b (.tail _ bMember)
            c (.tail _ cMember)
        rw [lexicographic] at before after ⊢
        rw [lexicographic, lexicographic]
        have firstStep : compare first second ≤ 0 := by
          by_contra positive
          rw [if_pos (by omega)] at before
          exact positive before
        have secondStep : compare second third ≤ 0 := by
          by_contra positive
          rw [if_pos (by omega)] at after
          exact positive after
        obtain ⟨both, strict⟩ := heads firstStep secondStep
        by_cases same : compare first third = 0
        · obtain ⟨firstSame, secondSame⟩ := strict same
          rw [if_neg (by omega)] at before after
          rw [if_neg (by omega), if_neg (by omega), if_neg (by omega)]
          exact tails before after
        · rw [if_pos same]
          exact ⟨both, fun zero => absurd zero same⟩

end SignComparison
end PalmWebKit
