import Mathlib

/-!
# Sorted coordinates as sets

A list of coordinates stands for the points behind an odd number of them: the
coordinates are the starts and ends of half-open intervals in turn.  A strictly
sorted list is determined by its points.
-/

namespace PalmWebKit
namespace Toggles

variable {Point : Type*} [LinearOrder Point]

/-- Whether a point is behind an odd number of the coordinates. -/
def inside : List Point → Point → Bool
  | [], _ => false
  | coordinate :: later, point => (decide (coordinate ≤ point)) ^^ inside later point

@[simp]
theorem inside_nil (point : Point) : inside [] point = false := rfl

theorem inside_cons (coordinate : Point) (later : List Point) (point : Point) :
    inside (coordinate :: later) point = (decide (coordinate ≤ point) ^^ inside later point) := rfl

theorem inside_of_lt {coordinates : List Point} {point : Point}
    (isBefore : ∀ coordinate ∈ coordinates, point < coordinate) :
    inside coordinates point = false := by
  induction coordinates with
  | nil => rfl
  | cons coordinate later ih =>
    have first := isBefore coordinate (.head _)
    rw [inside_cons, decide_eq_false (not_le.2 first), Bool.false_xor]
    exact ih fun other mem => isBefore other (.tail coordinate mem)

theorem inside_of_le {coordinates : List Point} {point : Point}
    (isBehind : ∀ coordinate ∈ coordinates, coordinate ≤ point) :
    inside coordinates point = decide (coordinates.length % 2 = 1) := by
  induction coordinates with
  | nil => rfl
  | cons coordinate later ih =>
    have rest := ih fun other mem => isBehind other (.tail coordinate mem)
    rw [inside_cons, decide_eq_true (isBehind coordinate List.mem_cons_self), rest]
    rcases Nat.mod_two_eq_zero_or_one later.length with even | odd
    · simp [even, Nat.add_mod]
    · simp [odd, Nat.add_mod]

theorem inside_append (coordinates other : List Point) (point : Point) :
    inside (coordinates ++ other) point =
      (inside coordinates point ^^ inside other point) := by
  induction coordinates with
  | nil => exact (Bool.false_xor _).symm
  | cons coordinate later ih => rw [List.cons_append, inside_cons, inside_cons, ih, Bool.xor_assoc]

/-- At its first coordinate a strictly sorted list begins. -/
theorem inside_head {coordinate : Point} {later : List Point}
    (sorted : (coordinate :: later).Pairwise (· < ·)) :
    inside (coordinate :: later) coordinate = true := by
  rw [List.pairwise_cons] at sorted
  rw [inside_cons, inside_of_lt sorted.1, decide_eq_true le_rfl]
  rfl

theorem eq_of_inside {coordinates other : List Point} (sorted : coordinates.Pairwise (· < ·))
    (otherSorted : other.Pairwise (· < ·))
    (same : ∀ point, inside coordinates point = inside other point) : coordinates = other := by
  induction coordinates generalizing other with
  | nil =>
    cases other with
    | nil => rfl
    | cons coordinate later =>
      have begins := inside_head otherSorted
      rw [← same coordinate] at begins
      cases begins
  | cons coordinate later ih =>
    cases other with
    | nil =>
      have begins := inside_head sorted
      rw [same coordinate] at begins
      cases begins
    | cons otherCoordinate otherLater =>
      have begins := inside_head sorted
      have otherBegins := inside_head otherSorted
      have heads : coordinate = otherCoordinate := by
        rcases lt_trichotomy coordinate otherCoordinate with isBefore | equal | isBehind
        · rw [same coordinate, inside_of_lt] at begins
          · cases begins
          · intro any mem
            rcases List.mem_cons.1 mem with rfl | isLater
            · exact isBefore
            · exact isBefore.trans ((List.pairwise_cons.1 otherSorted).1 any isLater)
        · exact equal
        · rw [← same otherCoordinate, inside_of_lt] at otherBegins
          · cases otherBegins
          · intro any mem
            rcases List.mem_cons.1 mem with rfl | isLater
            · exact isBehind
            · exact isBehind.trans ((List.pairwise_cons.1 sorted).1 any isLater)
      subst heads
      congr 1
      apply ih (List.pairwise_cons.1 sorted).2
        (List.pairwise_cons.1 otherSorted).2
      intro point
      have equal := same point
      exact Bool.xor_right_inj.1 equal

theorem inside_map {shift : Point → Point}
    (monotone : ∀ first second, shift first ≤ shift second ↔ first ≤ second)
    (coordinates : List Point) (point : Point) :
    inside (coordinates.map shift) (shift point) = inside coordinates point := by
  induction coordinates with
  | nil => rfl
  | cons coordinate later ih =>
    rw [List.map_cons, inside_cons, inside_cons, ih]
    simp only [monotone]

end Toggles
end PalmWebKit
