import Mathlib

/-!
# Doubly linked lists threaded through their members

The members of an intrusive list carry the links themselves, so that one member
is taken out without a search.  Several lists may share one pair of link fields.
`Represents` says which sequence a pair of ends stands for; insertion at the
front and removal are the two operations, and each keeps every other list.
-/

namespace PalmWebKit
namespace Logic
namespace IntrusiveList

open List

variable {Node : Type*}

/-- The link fields of every possible member. -/
structure Links (Node : Type*) where
  next : Node → Option Node
  prev : Node → Option Node

/-- The two ends of one list. -/
structure Ends (Node : Type*) where
  head : Option Node
  tail : Option Node
deriving DecidableEq

/-- The list without members. -/
def Ends.empty : Ends Node where
  head := none
  tail := none

/-- `nodes` are linked in this order, between `before` and `after`. -/
def Chain (links : Links Node) (before after : Option Node) : List Node → Prop
  | [] => True
  | node :: rest =>
    links.prev node = before ∧ links.next node = rest.head?.or after ∧
        Chain links (some node) after rest

/-- The ends and the links stand for the sequence `nodes`. -/
structure Represents (links : Links Node) (ends : Ends Node) (nodes : List Node) : Prop where
  head_eq : ends.head = nodes.head?
  tail_eq : ends.tail = nodes.getLast?
  nodup : nodes.Nodup
  chain : Chain links none none nodes

/-- A node that is in no list has no links. -/
def Unlinked (links : Links Node) (node : Node) : Prop :=
  links.next node = none ∧ links.prev node = none

section Updates

variable [DecidableEq Node]

/-- Write one `next` field. -/
def Links.setNext (links : Links Node) (node : Node) (value : Option Node) : Links Node :=
  { links with next := Function.update links.next node value }

/-- Write one `prev` field. -/
def Links.setPrev (links : Links Node) (node : Node) (value : Option Node) : Links Node :=
  { links with prev := Function.update links.prev node value }

variable (links : Links Node)

@[simp]
theorem Links.setNext_prev (node : Node) (value : Option Node) :
    (links.setNext node value).prev = links.prev := rfl

@[simp]
theorem Links.setPrev_next (node : Node) (value : Option Node) :
    (links.setPrev node value).next = links.next := rfl

@[simp]
theorem Links.setNext_next (node other : Node) (value : Option Node) :
    (links.setNext node value).next other =
      if other = node then value else links.next other := by
  simp [Links.setNext, Function.update_apply]

@[simp]
theorem Links.setPrev_prev (node other : Node) (value : Option Node) :
    (links.setPrev node value).prev other =
      if other = node then value else links.prev other := by
  simp [Links.setPrev, Function.update_apply]

/-- Write the `next` field of a node that may be absent. -/
def Links.setNextOf (links : Links Node) (node : Option Node) (value : Option Node) : Links Node :=
  match node with
  | some node => links.setNext node value
  | none => links

/-- Write the `prev` field of a node that may be absent. -/
def Links.setPrevOf (links : Links Node) (node : Option Node) (value : Option Node) : Links Node :=
  match node with
  | some node => links.setPrev node value
  | none => links

@[simp]
theorem Links.setNextOf_prev (node value : Option Node) :
    (links.setNextOf node value).prev = links.prev := by
  cases node <;> rfl

@[simp]
theorem Links.setPrevOf_next (node value : Option Node) :
    (links.setPrevOf node value).next = links.next := by
  cases node <;> rfl

@[simp]
theorem Links.setNextOf_next (node value : Option Node) (other : Node) :
    (links.setNextOf node value).next other =
      if some other = node then value else links.next other := by
  cases node with
  | none | some node => simp [Links.setNextOf]

@[simp]
theorem Links.setPrevOf_prev (node value : Option Node) (other : Node) :
    (links.setPrevOf node value).prev other =
      if some other = node then value else links.prev other := by
  cases node with
  | none | some node => simp [Links.setPrevOf]

/-- Put `node` before the first member. -/
def insertFront (links : Links Node) (ends : Ends Node) (node : Node) : Links Node × Ends Node :=
  let linked := (links.setNext node ends.head).setPrevOf ends.head (some node)
  (linked,
    { head := some node
      tail := if linked.next node = none then some node else ends.tail })

/-- Take `node` out: nothing is done for a node without links that is not the
head, and an end moves only when it is `node`. -/
def remove (links : Links Node) (ends : Ends Node) (node : Node) : Links Node × Ends Node :=
  let next := links.next node
  let prev := links.prev node
  if next = none ∧ prev = none ∧ ends.head ≠ some node then (links, ends)
  else
    let cleared := (links.setNext node none).setPrev node none
    ((cleared.setPrevOf next prev).setNextOf prev next,
      { head := if prev = none ∧ ends.head = some node then next else ends.head
        tail := if next = none ∧ ends.tail = some node then prev else ends.tail })

end Updates

/-! ## Chains -/

variable {nodes : List Node}

/-- A chain depends on the links of its own members. -/
theorem Chain.congr {links others : Links Node} {before after : Option Node}
    (chain : Chain links before after nodes)
    (sameNext : ∀ node ∈ nodes, others.next node = links.next node)
    (samePrev : ∀ node ∈ nodes, others.prev node = links.prev node) :
    Chain others before after nodes := by
  induction nodes generalizing before with
  | nil => trivial
  | cons node rest ih =>
    obtain ⟨prevEq, nextEq, restChain⟩ := chain
    refine ⟨?_, ?_, ?_⟩
    · rw [samePrev node mem_cons_self, prevEq]
    · rw [sameNext node mem_cons_self, nextEq]
    · exact ih restChain
        (fun other member => sameNext other (.tail _ member))
        (fun other member => samePrev other (.tail _ member))

/-- Two chains in a row are one chain, each next to the other's nearest member. -/
theorem chain_append (links : Links Node) (before after : Option Node) (front back : List Node) :
    Chain links before after (front ++ back) ↔ Chain links before (back.head?.or after) front ∧
        Chain links (front.getLast?.or before) after back := by
  induction front generalizing before with
  | nil => simp [Chain]
  | cons node rest ih =>
    have lastEq : (node :: rest).getLast?.or before =
        rest.getLast?.or (some node) := by
      cases rest with
      | nil => simp
      | cons _ _ => simp [getLast?_cons]
    have headEq : (rest ++ back).head?.or after =
        rest.head?.or (back.head?.or after) := by
      cases rest <;> simp
    simp only [cons_append, Chain, ih, lastEq, headEq]
    tauto

/-! ## Lists -/

theorem Represents.empty (links : Links Node) : Represents links Ends.empty [] where
  head_eq := rfl
  tail_eq := rfl
  nodup := .nil
  chain := trivial

variable {ends : Ends Node}

/-- A list depends on the links of its own members. -/
theorem Represents.congr {links others : Links Node} (represents : Represents links ends nodes)
    (sameNext : ∀ node ∈ nodes, others.next node = links.next node)
    (samePrev : ∀ node ∈ nodes, others.prev node = links.prev node) :
    Represents others ends nodes :=
  { represents with chain := represents.chain.congr sameNext samePrev }

variable {links : Links Node}

/-- A list whose head is `none` has no members. -/
theorem Represents.eq_nil_of_head (represents : Represents links ends nodes)
    (headless : ends.head = none) : nodes = [] := by
  have := represents.head_eq
  rw [headless] at this
  exact head?_eq_none_iff.1 this.symm

theorem represents_nil_iff : Represents links ends [] ↔ ends = Ends.empty := by
  constructor
  · intro represents
    cases ends
    have headEq := represents.head_eq
    have tailEq := represents.tail_eq
    simp_all [Ends.empty]
  · rintro rfl
    exact Represents.empty links

variable {node : Node}

/-- What a member's links point at. -/
theorem Represents.links_of_mem {front back : List Node}
    (represents : Represents links ends (front ++ node :: back)) :
    links.next node = back.head? ∧ links.prev node = front.getLast? := by
  obtain ⟨_, prevEq, nextEq, _⟩ := (chain_append _ _ _ _ _).1 represents.chain
  exact ⟨by simpa using nextEq, by simpa using prevEq⟩

/-! ## Updated ends of a chain -/

variable [DecidableEq Node]

/-- Writing `next` of the last member changes what the chain ends at. -/
theorem Chain.setNextOf_getLast {links : Links Node} {before after : Option Node}
    {nodes : List Node} (chain : Chain links before after nodes) (nodup : nodes.Nodup)
    (value : Option Node) : Chain (links.setNextOf nodes.getLast? value) before value nodes := by
  rcases eq_nil_or_concat nodes with rfl | ⟨front, last, rfl⟩
  · trivial
  rw [concat_eq_append] at chain nodup ⊢
  obtain ⟨frontChain, lastChain⟩ := (chain_append _ _ _ _ _).1 chain
  have lastOutside : last ∉ front := by
    intro member
    exact (nodup_append.1 nodup).2.2 last member last (by simp) rfl
  refine (chain_append _ _ _ _ _).2 ⟨?_, ?_⟩
  · refine Chain.congr frontChain (fun node member => ?_) (fun node member => ?_)
    · have ne : node ≠ last := fun equal => lastOutside (equal ▸ member)
      simp [ne]
    · simp
  · refine ⟨?_, ?_, trivial⟩
    · simpa using lastChain.1
    · simp

/-- Writing `prev` of the first member changes what the chain starts at. -/
theorem Chain.setPrevOf_head {links : Links Node} {before after : Option Node} {nodes : List Node}
    (chain : Chain links before after nodes) (nodup : nodes.Nodup) (value : Option Node) :
    Chain (links.setPrevOf nodes.head? value) value after nodes := by
  cases nodes with
  | nil => trivial
  | cons first rest =>
    obtain ⟨_, nextEq, restChain⟩ := chain
    refine ⟨by simp, by simpa using nextEq, ?_⟩
    refine Chain.congr restChain (fun node member => ?_) (fun node member => ?_)
    · simp
    · have ne : node ≠ first := by
        intro equal
        exact (nodup_cons.1 nodup).1 (equal ▸ member)
      simp [ne]

/-! ## Insertion -/

/-- Insertion puts the node before the members. -/
theorem Represents.insertFront (represents : Represents links ends nodes)
    (unlinked : Unlinked links node) (fresh : node ∉ nodes) :
    Represents (insertFront links ends node).1 (insertFront links ends node).2
      (node :: nodes) where
  head_eq := rfl
  tail_eq := by
    simp only [IntrusiveList.insertFront, Links.setPrevOf_next, Links.setNext_next]
    cases nodes with
    | nil => simp [represents.head_eq]
    | cons first rest => simp [represents.head_eq, represents.tail_eq, getLast?_cons]
  nodup := nodup_cons.2 ⟨fresh, represents.nodup⟩
  chain := by
    have noSelf : some node ≠ ends.head := by
      rw [represents.head_eq]
      intro equal
      exact fresh (mem_of_mem_head? equal.symm)
    refine ⟨?_, ?_, ?_⟩
    · simp [IntrusiveList.insertFront, noSelf, unlinked.2]
    · simp [IntrusiveList.insertFront, represents.head_eq]
    · simp only [IntrusiveList.insertFront, represents.head_eq]
      refine @Chain.setPrevOf_head _ _ _ none _ _ ?_ represents.nodup _
      refine represents.chain.congr (fun other member => ?_) (fun other member => ?_)
      · have ne : other ≠ node := fun equal => fresh (equal ▸ member)
        simp [ne]
      · simp

/-- Insertion keeps the `next` links outside the list it changes. -/
theorem insertFront_next_of_ne {node other : Node}
    (ne : other ≠ node) : (insertFront links ends node).1.next other = links.next other := by
  simp [insertFront, ne]

/-- Insertion keeps the `prev` links outside the list it changes. -/
theorem Represents.insertFront_prev_of_not_mem {other : Node}
    (represents : Represents links ends nodes) (node : Node) (outside : other ∉ nodes) :
    (IntrusiveList.insertFront links ends node).1.prev other = links.prev other := by
  have notHead : some other ≠ ends.head := by
    rw [represents.head_eq]
    intro equal
    exact outside (mem_of_mem_head? equal.symm)
  simp [IntrusiveList.insertFront, notHead]

/-! ## Removal -/

/-- Removal of a member that stands between `front` and `back`. -/
theorem remove_of_split {front back : List Node}
    (represents : Represents links ends (front ++ node :: back)) :
    remove links ends node = ((((links.setNext node none).setPrev node none).setPrevOf back.head?
          front.getLast?).setNextOf front.getLast? back.head?,
        { head := (front ++ back).head?
          tail := (front ++ back).getLast? }) := by
  obtain ⟨nextEq, prevEq⟩ := represents.links_of_mem
  have headEq := represents.head_eq
  have tailEq := represents.tail_eq
  have notSkipped : ¬ (links.next node = none ∧ links.prev node = none ∧
      ends.head ≠ some node) := by
    rintro ⟨_, prevNone, notHead⟩
    rw [prevEq, getLast?_eq_none_iff] at prevNone
    rw [headEq, prevNone] at notHead
    exact notHead rfl
  rw [remove, if_neg notSkipped, nextEq, prevEq]
  refine Prod.ext rfl ?_
  simp only [Ends.mk.injEq]
  constructor
  · cases front with
    | nil => simp [headEq]
    | cons first rest => simp [headEq, getLast?_cons]
  · rcases eq_nil_or_concat back with rfl | ⟨before, last, rfl⟩
    · simp [tailEq]
    · rw [concat_eq_append] at tailEq ⊢
      have notNone : (before ++ [last]).head? ≠ none := by simp
      rw [if_neg (fun both => notNone both.1), tailEq]
      rw [← cons_append, ← append_assoc, ← append_assoc,
        getLast?_concat, getLast?_concat]

/-- Removal takes the node out of the sequence. -/
theorem Represents.remove {links : Links Node} {ends : Ends Node} {nodes : List Node} {node : Node}
    (represents : Represents links ends nodes) (member : node ∈ nodes) :
    Represents (remove links ends node).1 (remove links ends node).2
      (nodes.erase node) := by
  obtain ⟨front, back, rfl⟩ := append_of_mem member
  have nodup := represents.nodup
  have outside : node ∉ front := by
    intro inFront
    exact (nodup_append.1 nodup).2.2 node inFront node (by simp) rfl
  have outsideBack : node ∉ back := by exact (nodup_cons.1 (nodup_append.1 nodup).2.1).1
  have nodupFront : front.Nodup := (nodup_append.1 nodup).1
  have nodupBack : back.Nodup := (nodup_cons.1 (nodup_append.1 nodup).2.1).2
  have apart : ∀ other ∈ front, other ∉ back := by
    intro other inFront inBack
    exact (nodup_append.1 nodup).2.2 other inFront other
      (.tail _ inBack) rfl
  have erased : (front ++ node :: back).erase node = front ++ back := by
    rw [erase_append_right _ outside, erase_cons_head]
  obtain ⟨frontChain, _, _, backChain⟩ := (chain_append _ _ _ _ _).1 represents.chain
  rw [remove_of_split represents, erased]
  refine ⟨rfl, rfl, ?_, (chain_append _ _ _ _ _).2 ⟨?_, ?_⟩⟩
  · exact List.Nodup.append nodupFront nodupBack apart
  · rw [Option.or_none]
    refine @Chain.setNextOf_getLast _ _ _ _ (some node) _ ?_ nodupFront _
    refine Chain.congr (by simpa using frontChain) (fun other inFront => ?_)
      (fun other inFront => ?_)
    · have ne : other ≠ node := fun equal => outside (equal ▸ inFront)
      simp [ne]
    · have ne : other ≠ node := fun equal => outside (equal ▸ inFront)
      have notHead : some other ≠ back.head? := by
        intro equal
        exact apart other inFront (mem_of_mem_head? equal.symm)
      simp [ne, notHead]
  · rw [Option.or_none]
    have backLinked : Chain
        (((links.setNext node none).setPrev node none).setPrevOf back.head?
          front.getLast?) front.getLast? none back := by
      refine @Chain.setPrevOf_head _ _ _ (some node) _ _ ?_ nodupBack _
      refine Chain.congr backChain (fun other inBack => ?_) (fun other inBack => ?_)
      all_goals
        have ne : other ≠ node := fun equal => outsideBack (equal ▸ inBack)
        simp [ne]
    refine Chain.congr backLinked (fun other inBack => ?_) (fun other _ => by simp)
    have notLast : some other ≠ front.getLast? := by
      intro equal
      exact apart other (mem_of_getLast? equal.symm) inBack
    simp [notLast]

/-- A removed member has no links. -/
theorem Represents.unlinked_remove (represents : Represents links ends nodes)
    (member : node ∈ nodes) : Unlinked (IntrusiveList.remove links ends node).1 node := by
  obtain ⟨front, back, rfl⟩ := append_of_mem member
  have nodup := represents.nodup
  have notLast : some node ≠ front.getLast? := by
    intro equal
    exact (nodup_append.1 nodup).2.2 node (mem_of_getLast? equal.symm) node
      (by simp) rfl
  have notHead : some node ≠ back.head? := by
    intro equal
    exact (nodup_cons.1 (nodup_append.1 nodup).2.1).1
      (mem_of_mem_head? equal.symm)
  rw [remove_of_split represents]
  constructor <;> simp [notLast, notHead]

/-- Removal keeps the links outside the list it changes. -/
theorem Represents.remove_links_of_not_mem {node other : Node}
    (represents : Represents links ends nodes) (member : node ∈ nodes) (outside : other ∉ nodes) :
    (IntrusiveList.remove links ends node).1.next other = links.next other ∧
      (IntrusiveList.remove links ends node).1.prev other = links.prev other := by
  obtain ⟨front, back, rfl⟩ := append_of_mem member
  have ne : other ≠ node := by
    rintro rfl
    exact outside member
  have notLast : some other ≠ front.getLast? := by
    intro equal
    exact outside (mem_append_left _ (mem_of_getLast? equal.symm))
  have notHead : some other ≠ back.head? := by
    intro equal
    exact outside (mem_append_right _
      (.tail _ (mem_of_mem_head? equal.symm)))
  rw [remove_of_split represents]
  constructor <;> simp [ne, notLast, notHead]

/-- Removal of a node that is in no list does nothing. -/
theorem remove_of_unlinked (unlinked : Unlinked links node) (notHead : ends.head ≠ some node) :
    remove links ends node = (links, ends) := by
  rw [remove, if_pos ⟨unlinked.1, unlinked.2, notHead⟩]

end IntrusiveList
end Logic
end PalmWebKit
