import Mathlib

/-!
# The heap algorithms of the standard library

`push_heap` and `pop_heap` on the first positions of a container that is
written one position at a time.  The item that is placed is held aside while
a hole moves to the place where it belongs; the comparison is "less" with the
largest item in front.
-/

namespace PalmWebKit
namespace BinaryHeap

open List

variable {State Item : Type*}

/-- A container of items written one position at a time. -/
structure Writer (State Item : Type*) where
  contents : State → List Item
  write : State → Nat → Item → State
  contents_write : ∀ state position item,
    contents (write state position item) = (contents state).set position item

section Algorithms

variable
  (writer : Writer State Item)
  (less : Item → Item → Bool)

/-- The item at a position; the default is never read inside the container. -/
def read (state : State) (default : Item) (position : Nat) : Item :=
  (writer.contents state)[position]?.getD default

/-- Move the hole up while the parent is less than the value, and place it. -/
def siftUp (value : Item) : Nat → Nat → State → State
  | 0, hole, state => writer.write state hole value
  | fuel + 1, hole, state =>
    let parent := (hole - 1) / 2
    if 0 < hole ∧ less (read writer state value parent) value then
      siftUp value fuel parent (writer.write state hole (read writer state value parent))
    else writer.write state hole value

/-- Put the last of `count` items where it belongs among those before it. -/
def pushHeap (count : Nat) (state : State) : State :=
  match (writer.contents state)[count - 1]? with
  | none => state
  | some value => siftUp writer less value (count - 1) (count - 1) state

/-- Move the hole down to a leaf along the larger children, and the value up
from there. -/
def adjustHeap (count : Nat) (value : Item) : Nat → Nat → State → State
  | 0, hole, state => siftUp writer less value hole hole state
  | fuel + 1, hole, state =>
    if hole < (count - 1) / 2 then
      let second := 2 * (hole + 1)
      let child :=
        if less (read writer state value second) (read writer state value (second - 1)) then
          second - 1
        else second
      adjustHeap count value fuel child
        (writer.write state hole (read writer state value child))
    else if count % 2 = 0 ∧ hole = (count - 2) / 2 then
      let child := 2 * (hole + 1) - 1
      siftUp writer less value child child
        (writer.write state hole (read writer state value child))
    else siftUp writer less value hole hole state

/-- Exchange the first of `count` items with the last one and order the others. -/
def popHeap (count : Nat) (state : State) : State :=
  if 1 < count then
    match (writer.contents state)[0]?, (writer.contents state)[count - 1]? with
    | some first, some value =>
      adjustHeap writer less (count - 1) value (count - 1) 0
        (writer.write state (count - 1) first)
    | _, _ => state
  else state

end Algorithms

/-! ## Moves of the hole -/

/-- The states in which a hole below `count` is moved, with the hole. -/
inductive Moved (writer : Writer State Item) (count : Nat) (state : State) (hole : Nat) :
    State → Nat → Prop
  | start : Moved writer count state hole state hole
  | move
      {reached : State}
      {current source : Nat}
      {item : Item}
      (earlier : Moved writer count state hole reached current)
      (below : source < count)
      (ne : source ≠ current)
      (isItem : (writer.contents reached)[source]? = some item) :
      Moved writer count state hole (writer.write reached current item) source

theorem Moved.trans {writer : Writer State Item} {count : Nat} {first second third : State}
    {firstHole secondHole thirdHole : Nat}
    (early : Moved writer count first firstHole second secondHole)
    (late : Moved writer count second secondHole third thirdHole) :
    Moved writer count first firstHole third thirdHole := by
  induction late with
  | start => exact early
  | move _ below ne isItem ih => exact .move ih below ne isItem

/-- A move of the hole exchanges two items of the list in which it is filled. -/
theorem set_move_perm {items : List Item} {hole source : Nat} {item value : Item}
    (ne : source ≠ hole) (inside : hole < items.length)
    (isItem : items[source]? = some item) :
    ((items.set hole item).set source value).Perm (items.set hole value) := by
  obtain ⟨sourceInside, rfl⟩ := List.getElem?_eq_some_iff.1 isItem
  have exchanged := @List.set_set_perm _ (items.set hole value) hole source
    (by simpa using inside) (by simpa using sourceInside)
  rw [getElem_set_self, getElem_set_ne (Ne.symm ne), set_set] at exchanged
  exact exchanged

section Moves

variable
  {writer : Writer State Item}
  {count : Nat}
  {state reached : State}
  {hole current : Nat}

variable (moved : Moved writer count state hole reached current)
include moved

theorem Moved.length_eq :
    (writer.contents reached).length = (writer.contents state).length := by
  induction moved with
  | start => rfl
  | move _ _ _ _ ih => rw [writer.contents_write, length_set, ih]

theorem Moved.current_lt (below : hole < count) : current < count := by
  cases moved with
  | start => exact below
  | move _ sourceBelow _ _ => exact sourceBelow

/-- The items of the container with the hole filled stay the same. -/
theorem Moved.perm (below : hole < count) (countLe : count ≤ (writer.contents state).length)
    (value : Item) :
    ((writer.contents reached).set current value).Perm
      ((writer.contents state).set hole value) := by
  induction moved with
  | start => exact .refl _
  | move earlier _ ne isItem ih =>
    refine List.Perm.trans ?_ ih
    rw [writer.contents_write]
    refine set_move_perm ne ?_ isItem
    rw [earlier.length_eq]
    exact Nat.lt_of_lt_of_le (earlier.current_lt below) countLe

/-- The positions from `count` on keep their items. -/
theorem Moved.frame (below : hole < count) {position : Nat} (outside : count ≤ position) :
    (writer.contents reached)[position]? = (writer.contents state)[position]? := by
  induction moved with
  | start => rfl
  | move earlier _ _ _ ih =>
    have := earlier.current_lt below
    rw [writer.contents_write, getElem?_set_ne (by omega), ih]

end Moves

/-! ## The order -/

section Order

variable {Key : Type*} [LinearOrder Key] (key : Item → Key)

/-- Every item below `count` is at or after its parent. -/
def Ordered (count : Nat) (items : List Item) : Prop :=
  ∀ position above item, 0 < position → position < count →
    items[(position - 1) / 2]? = some above → items[position]? = some item →
    key above ≤ key item

/-- The items are in order but for those at the hole: around it, its children
are at or after its parent. -/
structure OrderedAround (count : Nat) (items : List Item) (hole : Nat) : Prop where
  except : ∀ position above item, 0 < position → position < count →
    position ≠ hole → (position - 1) / 2 ≠ hole →
    items[(position - 1) / 2]? = some above → items[position]? = some item →
    key above ≤ key item
  across : ∀ position above item, 0 < hole → 0 < position → position < count →
    (position - 1) / 2 = hole →
    items[(hole - 1) / 2]? = some above → items[position]? = some item →
    key above ≤ key item

/-- The children of the hole are at or after the value. -/
def AboveChildren (count : Nat) (items : List Item) (hole : Nat) (value : Item) : Prop :=
  ∀ position item, 0 < position → position < count → (position - 1) / 2 = hole →
    items[position]? = some item → key value ≤ key item

variable {key}
variable {count hole : Nat} {items : List Item}

theorem Ordered.around (ordered : Ordered key count items) (hole : Nat)
    (inside : hole < items.length) (below : hole < count) : OrderedAround key count items hole where
  except := fun position above item positive positionBelow _ _ =>
    ordered position above item positive positionBelow
  across := fun position above item holePositive positive positionBelow isChild isAbove isItem =>
    (ordered hole above items[hole] holePositive below isAbove
      (getElem?_eq_getElem inside)).trans
      (ordered position items[hole] item positive positionBelow
        (by rw [isChild]; exact getElem?_eq_getElem inside) isItem)

/-- The hole moves to its parent. -/
theorem OrderedAround.moveUp (around : OrderedAround key count items hole) (holePositive : 0 < hole)
    {above value : Item} (isAbove : items[(hole - 1) / 2]? = some above)
    (smaller : key value ≤ key above) (inside : hole < items.length) :
    OrderedAround key count (items.set hole above) ((hole - 1) / 2) ∧
      AboveChildren key count (items.set hole above) ((hole - 1) / 2) value := by
  have atHole : (items.set hole above)[hole]? = some above := by rw [getElem?_set_self inside]
  have elsewhere {position : Nat} (ne : position ≠ hole) :
      (items.set hole above)[position]? = items[position]? := getElem?_set_ne (Ne.symm ne)
  -- the items below the parent of the hole are at or after it
  have siblings {position : Nat} {item : Item} (positive : 0 < position)
      (positionBelow : position < count) (ne : position ≠ hole)
      (isChild : (position - 1) / 2 = (hole - 1) / 2) (isItem : items[position]? = some item) :
      key above ≤ key item :=
    around.except position above item positive positionBelow ne (by omega)
      (isChild ▸ isAbove) isItem
  refine ⟨⟨?_, ?_⟩, ?_⟩
  · intro position parent item positive positionBelow ne parentDifferent isParent isItem
    by_cases isHole : position = hole
    · exact absurd (congrArg (fun position => (position - 1) / 2) isHole) parentDifferent
    · rw [elsewhere isHole] at isItem
      by_cases parentHole : (position - 1) / 2 = hole
      · rw [parentHole, atHole] at isParent
        cases isParent
        exact around.across position above item holePositive positive positionBelow parentHole
          isAbove isItem
      · rw [elsewhere parentHole] at isParent
        exact around.except position parent item positive positionBelow isHole parentHole
          isParent isItem
  · intro position grand item parentPositive positive positionBelow isChild isGrand isItem
    rw [elsewhere (by omega)] at isGrand
    have grandLe : key grand ≤ key above :=
      around.except _ grand above parentPositive (by omega) (by omega) (by omega) isGrand isAbove
    by_cases isHole : position = hole
    · rw [isHole, atHole] at isItem
      cases isItem
      exact grandLe
    · rw [elsewhere isHole] at isItem
      exact grandLe.trans (siblings positive positionBelow isHole isChild isItem)
  · intro position item positive positionBelow isChild isItem
    by_cases isHole : position = hole
    · rw [isHole, atHole] at isItem
      cases isItem
      exact smaller
    · rw [elsewhere isHole] at isItem
      exact smaller.trans (siblings positive positionBelow isHole isChild isItem)

/-- The hole moves to the child that is before the other one. -/
theorem OrderedAround.moveDown (around : OrderedAround key count items hole) {child : Nat}
    (positive : 0 < child) (below : child < count) (isChild : (child - 1) / 2 = hole) {item : Item}
    (isItem : items[child]? = some item) (first : AboveChildren key count items hole item)
    (inside : hole < items.length) : OrderedAround key count (items.set hole item) child := by
  have atHole : (items.set hole item)[hole]? = some item := by rw [getElem?_set_self inside]
  have elsewhere {position : Nat} (ne : position ≠ hole) :
      (items.set hole item)[position]? = items[position]? := getElem?_set_ne (Ne.symm ne)
  refine ⟨?_, ?_⟩
  · intro position parent other positionPositive positionBelow ne parentDifferent
      isParent isOther
    by_cases isHole : position = hole
    · subst isHole
      rw [atHole] at isOther
      cases isOther
      rw [elsewhere (by omega)] at isParent
      exact around.across child parent item positionPositive positive below isChild isParent
        isItem
    · rw [elsewhere isHole] at isOther
      by_cases parentHole : (position - 1) / 2 = hole
      · rw [parentHole, atHole] at isParent
        cases isParent
        exact first position other positionPositive positionBelow parentHole isOther
      · rw [elsewhere parentHole] at isParent
        exact around.except position parent other positionPositive positionBelow isHole
          parentHole isParent isOther
  · intro position parent other _ positionPositive positionBelow isGrandchild isParent isOther
    rw [isChild, atHole] at isParent
    cases isParent
    rw [elsewhere (by omega)] at isOther
    exact around.except position item other positionPositive positionBelow (by omega) (by omega)
      (isGrandchild ▸ isItem) isOther

variable {value : Item}

/-- The value is placed in the hole. -/
theorem OrderedAround.place (around : OrderedAround key count items hole)
    (children : AboveChildren key count items hole value)
    (parent : ∀ above, 0 < hole → items[(hole - 1) / 2]? = some above → key above ≤ key value)
    (inside : hole < items.length) : Ordered key count (items.set hole value) := by
  intro position above item positive positionBelow isAbove isItem
  by_cases isHole : position = hole
  · subst isHole
    rw [getElem?_set_self inside] at isItem
    cases isItem
    rw [getElem?_set_ne (by omega)] at isAbove
    exact parent above positive isAbove
  · rw [getElem?_set_ne (Ne.symm isHole)] at isItem
    by_cases parentHole : (position - 1) / 2 = hole
    · rw [parentHole, getElem?_set_self inside] at isAbove
      cases isAbove
      exact children position item positive positionBelow parentHole isItem
    · rw [getElem?_set_ne (Ne.symm parentHole)] at isAbove
      exact around.except position above item positive positionBelow isHole parentHole isAbove
        isItem

/-! ## The algorithms -/

/-- On different items of the list the comparison puts the larger key first. -/
structure Agrees (less : Item → Item → Bool) (key : Item → Key) (items : List Item) : Prop where
  nodup : items.Nodup
  less_iff : ∀ first ∈ items, ∀ second ∈ items, first ≠ second →
    (less first second = true ↔ key second < key first)

variable {less : Item → Item → Bool}

theorem Agrees.of_perm {first second : List Item} (agrees : Agrees less key first)
    (perm : second.Perm first) : Agrees less key second where
  nodup := perm.nodup_iff.2 agrees.nodup
  less_iff := fun one oneMember other otherMember =>
    agrees.less_iff one (perm.subset oneMember) other (perm.subset otherMember)

/-- Two different positions hold different items. -/
theorem Agrees.ne (agrees : Agrees less key items) {first second : Nat} {one other : Item}
    (ne : first ≠ second) (isOne : items[first]? = some one)
    (isOther : items[second]? = some other) : one ≠ other := by
  rintro rfl
  obtain ⟨firstInside, firstEq⟩ := List.getElem?_eq_some_iff.1 isOne
  obtain ⟨secondInside, secondEq⟩ := List.getElem?_eq_some_iff.1 isOther
  exact ne ((List.Nodup.getElem_inj_iff agrees.nodup).1 (firstEq.trans secondEq.symm))

variable {writer : Writer State Item} {less : Item → Item → Bool}

variable {state : State}

theorem read_eq {default item : Item} {position : Nat}
    (isItem : (writer.contents state)[position]? = some item) :
    read writer state default position = item := by
  rw [read, isItem, Option.getD_some]

/-- The result of moving the hole and placing the value. -/
def Placed (writer : Writer State Item) (key : Item → Key) (count : Nat) (value : Item)
    (state : State) (hole : Nat) (result : State) : Prop :=
  ∃ reached current, Moved writer count state hole reached current ∧
      result = writer.write reached current value ∧
      Ordered key count (writer.contents result)

theorem Placed.of_moved {state reached result : State} {current : Nat}
    (moved : Moved writer count state hole reached current)
    (placed : Placed writer key count value reached current result) :
    Placed writer key count value state hole result := by
  obtain ⟨last, lastHole, later, resultEq, ordered⟩ := placed
  exact ⟨last, lastHole, moved.trans later, resultEq, ordered⟩

/-- The value is placed where the hole is. -/
theorem OrderedAround.placed (around : OrderedAround key count (writer.contents state) hole)
    (children : AboveChildren key count (writer.contents state) hole value)
    (parent : ∀ above, 0 < hole → (writer.contents state)[(hole - 1) / 2]? = some above →
      key above ≤ key value)
    (inside : hole < (writer.contents state).length) :
    Placed writer key count value state hole (writer.write state hole value) := by
  refine ⟨state, hole, .start, rfl, ?_⟩
  rw [writer.contents_write]
  exact around.place children parent inside

theorem siftUp_placed {fuel hole : Nat} (enough : hole ≤ fuel) (below : hole < count)
    (countLe : count ≤ (writer.contents state).length)
    (agrees : Agrees less key ((writer.contents state).set hole value))
    (around : OrderedAround key count (writer.contents state) hole)
    (children : AboveChildren key count (writer.contents state) hole value) :
    Placed writer key count value state hole (siftUp writer less value fuel hole state) := by
  have inside : hole < (writer.contents state).length := Nat.lt_of_lt_of_le below countLe
  induction fuel generalizing hole state with
  | zero =>
    exact around.placed children
      (fun _ positive => absurd enough (Nat.not_le_of_lt positive)) inside
  | succ fuel ih =>
    rw [siftUp]
    by_cases positive : 0 < hole
    · have parentInside : (hole - 1) / 2 < (writer.contents state).length := by omega
      have isAbove := getElem?_eq_getElem parentInside
      rw [read_eq isAbove]
      generalize (writer.contents state)[(hole - 1) / 2] = above at isAbove
      have lessIff : less above value = true ↔ key value < key above := by
        have aboveSet : ((writer.contents state).set hole value)[(hole - 1) / 2]? =
            some above := by
          rw [getElem?_set_ne (by omega), isAbove]
        have valueSet : ((writer.contents state).set hole value)[hole]? = some value := by
          rw [getElem?_set_self inside]
        exact agrees.less_iff above (mem_of_getElem? aboveSet) value
          (mem_of_getElem? valueSet) (agrees.ne (by omega) aboveSet valueSet)
      by_cases isLess : less above value = true
      · rw [if_pos ⟨positive, isLess⟩]
        have moved : Moved writer count state hole (writer.write state hole above)
            ((hole - 1) / 2) := .move .start (by omega) (by omega) isAbove
        obtain ⟨nextAround, nextChildren⟩ := around.moveUp positive isAbove
          (lessIff.mp isLess).le inside
        rw [← writer.contents_write] at nextAround nextChildren
        have nextAgrees := agrees.of_perm (moved.perm below countLe value)
        have nextCountLe : count ≤ (writer.contents (writer.write state hole above)).length := by
          rw [moved.length_eq]
          exact countLe
        refine Placed.of_moved moved (ih (by omega) (by omega) nextCountLe
          nextAgrees nextAround nextChildren (by omega))
      · rw [if_neg fun both => isLess both.2]
        refine around.placed children (fun other _ isOther => ?_) inside
        cases isAbove.symm.trans isOther
        exact not_lt.1 fun smaller => isLess (lessIff.mpr smaller)
    · rw [if_neg fun both => positive both.1]
      exact around.placed children (fun _ isPositive => absurd isPositive positive) inside

/-- `pushHeap` on a beginning of an ordered list whose last item became
smaller orders the whole list. -/
theorem pushHeap_placed (below : hole < count) (countLe : count ≤ (writer.contents state).length)
    (isValue : (writer.contents state)[hole]? = some value)
    (agrees : Agrees less key (writer.contents state))
    (around : OrderedAround key count (writer.contents state) hole)
    (children : AboveChildren key count (writer.contents state) hole value) :
    Placed writer key count value state hole (pushHeap writer less (hole + 1) state) := by
  obtain ⟨inside, valueEq⟩ := List.getElem?_eq_some_iff.1 isValue
  have filled : (writer.contents state).set hole value = writer.contents state := by
    rw [← valueEq, List.set_getElem_self]
  rw [pushHeap, Nat.add_sub_cancel, isValue]
  exact siftUp_placed (Nat.le_refl _) below countLe (filled.symm ▸ agrees) around children

theorem adjustHeap_placed {fuel hole : Nat} (enough : count ≤ fuel + hole) (below : hole < count)
    (countLe : count ≤ (writer.contents state).length)
    (agrees : Agrees less key ((writer.contents state).set hole value))
    (around : OrderedAround key count (writer.contents state) hole) :
    Placed writer key count value state hole
      (adjustHeap writer less count value fuel hole state) := by
  induction fuel generalizing hole state with
  | zero => exact absurd enough (by omega)
  | succ fuel ih =>
    have inside : hole < (writer.contents state).length := Nat.lt_of_lt_of_le below countLe
    -- one move to a child that is before its sibling
    have move {child : Nat} {item : Item} (childBelow : child < count) (positive : 0 < child)
        (isChild : (child - 1) / 2 = hole) (isItem : (writer.contents state)[child]? = some item)
        (first : AboveChildren key count (writer.contents state) hole item) :
        Moved writer count state hole (writer.write state hole item) child ∧
          count ≤ (writer.contents (writer.write state hole item)).length ∧
          Agrees less key ((writer.contents (writer.write state hole item)).set child value) ∧
          OrderedAround key count (writer.contents (writer.write state hole item)) child := by
      have moved : Moved writer count state hole (writer.write state hole item) child :=
        .move .start childBelow (by omega) isItem
      refine ⟨moved, by rw [moved.length_eq]; exact countLe,
        agrees.of_perm (moved.perm below countLe value), ?_⟩
      rw [writer.contents_write]
      exact around.moveDown positive childBelow isChild isItem first inside
    rw [adjustHeap]
    by_cases twoChildren : hole < (count - 1) / 2
    · rw [if_pos twoChildren]
      have secondInside : 2 * (hole + 1) < (writer.contents state).length := by omega
      have firstInside : 2 * (hole + 1) - 1 < (writer.contents state).length := by omega
      have isSecond := getElem?_eq_getElem secondInside
      have isFirst := getElem?_eq_getElem firstInside
      generalize (writer.contents state)[2 * (hole + 1)] = second at isSecond
      generalize (writer.contents state)[2 * (hole + 1) - 1] = first at isFirst
      have lessIff : less second first = true ↔ key first < key second := by
        have secondSet : ((writer.contents state).set hole value)[2 * (hole + 1)]? =
            some second := by
          rw [getElem?_set_ne (by omega), isSecond]
        have firstSet : ((writer.contents state).set hole value)[2 * (hole + 1) - 1]? =
            some first := by
          rw [getElem?_set_ne (by omega), isFirst]
        exact agrees.less_iff second (mem_of_getElem? secondSet) first
          (mem_of_getElem? firstSet) (agrees.ne (by omega) secondSet firstSet)
      have children {item : Item} (firstLe : key item ≤ key first)
          (secondLe : key item ≤ key second) :
          AboveChildren key count (writer.contents state) hole item := by
        intro position other positive _ isChild isOther
        have either : position = 2 * (hole + 1) ∨ position = 2 * (hole + 1) - 1 := by omega
        rcases either with rfl | rfl
        · cases isSecond.symm.trans isOther
          exact secondLe
        · cases isFirst.symm.trans isOther
          exact firstLe
      simp only [read_eq isSecond, read_eq isFirst]
      by_cases isLess : less second first = true
      · obtain ⟨moved, nextCountLe, nextAgrees, nextAround⟩ :=
          move (by omega) (by omega) (by omega) isFirst (children le_rfl (lessIff.mp isLess).le)
        rw [if_pos isLess, read_eq isFirst]
        exact Placed.of_moved moved (ih (by omega) (by omega) nextCountLe
          nextAgrees nextAround)
      · obtain ⟨moved, nextCountLe, nextAgrees, nextAround⟩ :=
          move (by omega) (by omega) (by omega) isSecond
            (children (not_lt.1 fun smaller => isLess (lessIff.mpr smaller)) le_rfl)
        rw [if_neg isLess, read_eq isSecond]
        exact Placed.of_moved moved (ih (by omega) (by omega) nextCountLe
          nextAgrees nextAround)
    · rw [if_neg twoChildren]
      by_cases oneChild : count % 2 = 0 ∧ hole = (count - 2) / 2
      · rw [if_pos oneChild]
        have childInside : 2 * (hole + 1) - 1 < (writer.contents state).length := by omega
        have isChild := getElem?_eq_getElem childInside
        generalize (writer.contents state)[2 * (hole + 1) - 1] = child at isChild
        obtain ⟨moved, nextCountLe, nextAgrees, nextAround⟩ :=
          move (by omega) (by omega) (by omega) isChild (by
            intro position other positive positionBelow isBelow isOther
            have isLast : position = 2 * (hole + 1) - 1 := by omega
            subst isLast
            cases isChild.symm.trans isOther
            exact le_rfl)
        simp only [read_eq isChild]
        refine Placed.of_moved moved (siftUp_placed (Nat.le_refl _) (by omega) nextCountLe nextAgrees
          nextAround ?_)
        intro position other positive positionBelow isBelow _
        omega
      · rw [if_neg oneChild]
        refine siftUp_placed (Nat.le_refl _) below countLe agrees around ?_
        intro position other positive positionBelow isBelow _
        omega

/-- `popHeap` on the whole list: the first item ends at the last position, the
others are in order before it. -/
theorem popHeap_placed {first last : Item} (several : 1 < count)
    (countEq : (writer.contents state).length = count)
    (isFirst : (writer.contents state)[0]? = some first)
    (isLast : (writer.contents state)[count - 1]? = some last)
    (agrees : Agrees less key (writer.contents state))
    (around : OrderedAround key (count - 1) (writer.contents state) 0) :
    Placed writer key (count - 1) last (writer.write state (count - 1) first) 0
      (popHeap writer less count state) := by
  have exchanged : ((writer.contents state).set (count - 1) first).set 0 last |>.Perm
      (writer.contents state) := by
    have perm := @set_move_perm _ (writer.contents state) (count - 1) 0 first last (by omega)
      (by omega) isFirst
    obtain ⟨lastInside, lastEq⟩ := List.getElem?_eq_some_iff.1 isLast
    rw [← lastEq, List.set_getElem_self] at perm
    rw [← lastEq]
    exact perm
  rw [popHeap, if_pos several, isFirst, isLast]
  refine adjustHeap_placed (by omega) (by omega) ?_ ?_ ?_
  · rw [writer.contents_write, length_set]
    omega
  · rw [writer.contents_write]
    exact agrees.of_perm exchanged
  · rw [writer.contents_write]
    refine ⟨?_, fun _ _ _ positive => absurd positive (Nat.lt_irrefl 0)⟩
    intro position above item positive below ne parentDifferent isAbove isItem
    rw [getElem?_set_ne (by omega)] at isAbove isItem
    exact around.except position above item positive below ne parentDifferent isAbove
      isItem

/-- The first item of an ordered list is before every other one. -/
theorem Ordered.first_le (ordered : Ordered key count items) (countLe : count ≤ items.length)
    {first : Item} (isFirst : items[0]? = some first) {position : Nat} (below : position < count)
    {item : Item} (isItem : items[position]? = some item) : key first ≤ key item := by
  induction position using Nat.strongRecOn generalizing item with
  | ind position ih =>
  rcases Nat.eq_zero_or_pos position with rfl | positive
  · cases isFirst.symm.trans isItem
    exact le_rfl
  · have parentInside : (position - 1) / 2 < items.length := by omega
    have isParent := getElem?_eq_getElem parentInside
    exact (ih _ (by omega) (by omega) isParent).trans
      (ordered position _ item positive below isParent isItem)

end Order

end BinaryHeap
end PalmWebKit
