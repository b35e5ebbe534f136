import PalmWebKit.Network.HostMatch

/-!
# What the strict match accepts

The strict match accepts a name for a host exactly when their labels match one
by one, with three restrictions that the code makes on purpose: a wildcard
stands at the front or at the back of its label, the host has no wildcard, and
no label is empty but for both first ones.  A segment behind a front wildcard
is looked for at its first occurrence only.
-/

namespace PalmWebKit
namespace StdString

/-- A string is found at its first occurrence. -/
theorem findString_eq_some_iff {pattern text : StdString} {found : Nat} :
    findString pattern text = some found ↔ found ≤ text.length ∧ pattern <+: text.drop found ∧
        ∀ earlier < found, ¬ pattern <+: text.drop earlier := by
  induction text generalizing found with
  | nil =>
    rw [findString]
    split_ifs with empty
    · rw [Option.some.injEq, eq_comm]
      constructor
      · rintro rfl
        rw [empty]
        exact ⟨le_refl _, List.nil_prefix, fun earlier below => absurd below earlier.not_lt_zero⟩
      · rintro ⟨bound, -⟩
        exact Nat.le_zero.1 bound
    · refine iff_of_false not_false ?_
      rintro ⟨-, isPrefix, -⟩
      rw [List.drop_nil] at isPrefix
      exact empty (List.prefix_nil.1 isPrefix)
  | cons byte rest ih =>
    rw [findString]
    split_ifs with here
    · rw [List.isPrefixOf_iff_prefix] at here
      rw [Option.some.injEq, eq_comm]
      constructor
      · rintro rfl
        exact ⟨Nat.zero_le _, here, fun earlier below => absurd below earlier.not_lt_zero⟩
      · rintro ⟨-, -, first⟩
        by_contra later
        exact first 0 (Nat.pos_of_ne_zero later) here
    · rw [List.isPrefixOf_iff_prefix] at here
      cases found with
      | zero =>
        refine iff_of_false (fun shifted => ?_) (fun both => here both.2.1)
        obtain ⟨position, -, impossible⟩ := Option.map_eq_some_iff.1 shifted
        exact Nat.succ_ne_zero position impossible
      | succ found =>
        have shifted : Option.map (· + 1) (findString pattern rest) = some (found + 1) ↔
            findString pattern rest = some found := by
          rw [Option.map_eq_some_iff]
          constructor
          · rintro ⟨position, isFound, same⟩
            rw [isFound, Nat.succ.inj same]
          · exact fun isFound => ⟨found, isFound, rfl⟩
        rw [shifted, ih, List.length_cons, Nat.succ_le_succ_iff]
        refine and_congr_right fun _ => and_congr_right fun _ => ?_
        constructor
        · intro first earlier below
          cases earlier with
          | zero => exact here
          | succ earlier => exact first earlier (Nat.lt_of_succ_lt_succ below)
        · exact fun first earlier below => first (earlier + 1) (Nat.succ_lt_succ below)

variable {byte : UInt8}

theorem rfind_here {text : StdString} {pos : Nat} (here : text[pos]? = some byte) :
    rfind text byte pos = some pos := by
  cases pos with
  | zero | succ pos => rw [rfind, if_pos here]

/-- A byte that a string starts with is found there from the back when it is
nowhere else. -/
theorem rfind_cons {rest : StdString} (nowhere : byte ∉ rest) :
    rfind (byte :: rest) byte rest.length = some 0 := by
  cases found : rfind (byte :: rest) byte rest.length with
  | none =>
    have missing := not_mem_take_of_rfind found
    exact absurd (.head _) missing
  | some position =>
    obtain ⟨-, atPosition, -⟩ := rfind_eq_some found
    cases position with
    | zero => rfl
    | succ position =>
      rw [List.getElem?_cons_succ] at atPosition
      exact absurd (List.mem_of_getElem? atPosition) nowhere

theorem find_cons (byte : UInt8) (rest : StdString) : find (byte :: rest) byte 0 = some 0 := by
  simp [find, List.findIdx?_cons]

/-- A byte behind a string without it. -/
theorem find_snoc {front : StdString} (nowhere : byte ∉ front) :
    find (front ++ [byte]) byte 0 = some front.length := by
  have noneInFront : front.findIdx? (· = byte) = none := by
    rw [List.findIdx?_eq_none_iff]
    exact fun other member => decide_eq_false fun same => nowhere (same ▸ member)
  rw [find, List.drop_zero, List.findIdx?_append, noneInFront]
  simp [List.findIdx?_cons]

end StdString

namespace Network

open StdString

/-! ## One label -/

/-- Behind its front wildcard the pattern has a segment that occurs in the label
before the label's end. -/
def FoundEarly (pattern label : StdString) : Prop :=
  ∃ segment, segment ≠ [] ∧ pattern = star :: segment ∧
    ∃ position < label.length - segment.length, segment <+: label.drop position

/-- The branch for a wildcard at the front. -/
theorem frontWildcard_iff {segment label : StdString} (nonempty : segment ≠ []) :
    (match findString segment label with
      | none => false
      | some position => !decide (position < label.length - segment.length)) = true ↔
      segment <:+ label ∧ ¬ FoundEarly (star :: segment) label := by
  have early : FoundEarly (star :: segment) label ↔
      ∃ position < label.length - segment.length, segment <+: label.drop position := by
    constructor
    · rintro ⟨other, -, same, occurs⟩
      rwa [← (List.cons.inj same).2] at occurs
    · exact fun occurs => ⟨segment, nonempty, rfl, occurs⟩
  rw [early]
  cases found : findString segment label with
  | none =>
    refine iff_of_false Bool.false_ne_true fun both => ?_
    have occurs := (findString_isSome_iff segment label).2 both.1.isInfix
    rw [found] at occurs
    cases occurs
  | some position =>
    obtain ⟨-, isPrefix, first⟩ := findString_eq_some_iff.1 found
    have room := findString_add_length_le found
    simp only [Bool.not_eq_true', decide_eq_false_iff_not, not_lt]
    constructor
    · intro atEnd
      have whole : segment = label.drop position :=
        isPrefix.eq_of_length (by rw [List.length_drop]; omega)
      refine ⟨whole ▸ List.drop_suffix _ _, ?_⟩
      rintro ⟨earlier, below, occurs⟩
      exact first earlier (by omega) occurs
    · rintro ⟨-, notEarly⟩
      by_contra below
      exact notEarly ⟨position, Nat.lt_of_not_le below, isPrefix⟩

section Fragments

variable {segment label : StdString}

theorem nameFragmentMatched_of_star_mem (pattern : StdString) (exactMatchOnly : Bool)
    (wild : star ∈ label) : nameFragmentMatched pattern label exactMatchOnly = false := by
  have nonempty : ¬ (pattern.length = 0 ∧ label.length = 0) := fun empty => by
    rw [List.length_eq_zero_iff.1 empty.2] at wild
    exact List.not_mem_nil wild
  rw [nameFragmentMatched, if_neg nonempty, if_pos wild]

/-- A pattern without a wildcard matches itself only. -/
theorem nameFragmentMatched_plain {pattern : StdString} (exactMatchOnly : Bool)
    (plainPattern : star ∉ pattern) (plainLabel : star ∉ label) :
    nameFragmentMatched pattern label exactMatchOnly = decide (pattern = label) := by
  have notWild : ¬ (pattern = [star] ∧ !exactMatchOnly) := fun wild => by
    rw [wild.1] at plainPattern
    exact plainPattern (.head _)
  have missing : find pattern star 0 = none := by
    rw [find, Option.map_eq_none_iff, List.findIdx?_eq_none_iff]
    exact fun byte member => decide_eq_false fun same => plainPattern (same ▸ member)
  by_cases bothEmpty : pattern.length = 0 ∧ label.length = 0
  · rw [nameFragmentMatched, List.length_eq_zero_iff.1 bothEmpty.1,
      List.length_eq_zero_iff.1 bothEmpty.2]
    rfl
  · rw [nameFragmentMatched, if_neg bothEmpty, if_neg plainLabel, if_neg notWild, missing]

theorem nameFragmentMatched_star (plainLabel : star ∉ label) :
    nameFragmentMatched [star] label false = true := by
  rw [nameFragmentMatched, if_neg (fun empty => Nat.one_ne_zero empty.1), if_neg plainLabel,
    if_pos ⟨rfl, rfl⟩]

/-- A wildcard at the front of a segment. -/
theorem nameFragmentMatched_front (nonempty : segment ≠ []) (plainSegment : star ∉ segment)
    (plainLabel : star ∉ label) : nameFragmentMatched (star :: segment) label false = true ↔
      segment <:+ label ∧ ¬ FoundEarly (star :: segment) label := by
  have notWild : ¬ (star :: segment = [star] ∧ !false) := fun wild =>
    nonempty (List.cons.inj wild.1).2
  have single : ¬ (some 0 ≠ rfind (star :: segment) star ((star :: segment).length - 1)) :=
    not_not.2 (rfind_cons plainSegment).symm
  rw [← frontWildcard_iff nonempty, nameFragmentMatched,
    if_neg (fun empty => Nat.succ_ne_zero _ empty.1), if_neg plainLabel, if_neg notWild,
    find_cons]
  dsimp only
  rw [if_neg Bool.false_ne_true, if_neg single]
  rfl

/-- A wildcard at the back of a segment. -/
theorem nameFragmentMatched_back (nonempty : segment ≠ []) (plainSegment : star ∉ segment)
    (plainLabel : star ∉ label) :
    nameFragmentMatched (segment ++ [star]) label false = true ↔ segment <+: label := by
  have notWild : ¬ (segment ++ [star] = [star] ∧ !false) := fun wild =>
    nonempty (List.append_left_eq_self.1 wild.1)
  have notEmpty : ¬ ((segment ++ [star]).length = 0 ∧ label.length = 0) := fun empty => by
    rw [List.length_append] at empty
    exact Nat.succ_ne_zero _ empty.1
  have lastPosition : (segment ++ [star]).length - 1 = segment.length := by
    rw [List.length_append]
    exact Nat.add_sub_cancel _ _
  have single : ¬ (some segment.length ≠
      rfind (segment ++ [star]) star ((segment ++ [star]).length - 1)) := by
    rw [lastPosition, rfind_here (List.getElem?_concat_length ..)]
    exact not_not.2 rfl
  have notFront : segment.length ≠ 0 := fun empty => nonempty (List.length_eq_zero_iff.1 empty)
  rw [nameFragmentMatched, if_neg notEmpty, if_neg plainLabel, if_neg notWild,
    find_snoc plainSegment]
  dsimp only
  rw [if_neg Bool.false_ne_true, if_neg single, if_neg (fun outer => outer.2 lastPosition.symm),
    if_neg notFront, lastPosition, substr, List.drop_zero, List.take_left]
  cases found : findString segment label with
  | none =>
    refine iff_of_false Bool.false_ne_true fun isPrefix => ?_
    have occurs := (findString_isSome_iff segment label).2 isPrefix.isInfix
    rw [found] at occurs
    cases occurs
  | some position =>
    obtain ⟨-, isPrefix, first⟩ := findString_eq_some_iff.1 found
    rw [decide_eq_true_iff]
    constructor
    · rintro rfl
      exact isPrefix
    · intro atFront
      by_contra later
      exact first 0 (Nat.pos_of_ne_zero later) atFront

end Fragments

/-- A label is accepted exactly when it has no wildcard, the pattern matches it
and is not found too early. -/
theorem nameFragmentMatched_iff (pattern label : StdString) (exactMatchOnly : Bool) :
    nameFragmentMatched pattern label exactMatchOnly = true ↔
      star ∉ label ∧ LabelMatches exactMatchOnly pattern label ∧ ¬ FoundEarly pattern label := by
  by_cases wild : star ∈ label
  · rw [nameFragmentMatched_of_star_mem _ _ wild]
    exact iff_of_false Bool.false_ne_true fun all => all.1 wild
  rw [and_iff_right wild]
  constructor
  · intro isMatched
    have matching := nameFragmentMatched_sound isMatched
    refine ⟨matching, ?_⟩
    obtain same | ⟨rfl, segment, plain, ⟨rfl, -⟩ | ⟨rfl, -⟩⟩ := matching
    · rintro ⟨segment, -, isWild, -⟩
      rw [← same, isWild] at wild
      exact wild (.head _)
    · by_cases nonempty : segment = []
      · rintro ⟨other, otherNonempty, same, -⟩
        exact otherNonempty ((List.cons.inj same).2.symm.trans nonempty)
      · exact ((nameFragmentMatched_front nonempty plain wild).1 isMatched).2
    · rintro ⟨other, otherNonempty, same, -⟩
      cases segment with
      | nil => exact otherNonempty (List.cons.inj same).2.symm
      | cons byte segment =>
        rw [List.cons_append, List.cons.injEq] at same
        rw [same.1] at plain
        exact plain (.head _)
  · rintro ⟨matching, notEarly⟩
    obtain rfl | ⟨rfl, segment, plain, ⟨rfl, ends⟩ | ⟨rfl, starts⟩⟩ := matching
    · rw [nameFragmentMatched_plain _ wild wild]
      exact decide_eq_true rfl
    · by_cases nonempty : segment = []
      · rw [nonempty]
        exact nameFragmentMatched_star wild
      · exact (nameFragmentMatched_front nonempty plain wild).2 ⟨ends, notEarly⟩
    · by_cases nonempty : segment = []
      · rw [nonempty]
        exact nameFragmentMatched_star wild
      · exact (nameFragmentMatched_back nonempty plain wild).2 starts

/-! ## All labels -/

/-- What the loop accepts, label by label.  No label is empty, but the first ones
may both be. -/
structure LabelsAccepted (lastExact : Bool) (names hosts : List StdString) : Prop where
  matched : ∃ frontNames lastName frontHosts lastHost,
    names = frontNames ++ [lastName] ∧ hosts = frontHosts ++ [lastHost] ∧
      nameFragmentMatched lastName lastHost lastExact = true ∧
      List.Forall₂ (fun name host => nameFragmentMatched name host false = true)
        frontNames frontHosts
  nonempty : [] ∉ hosts.tail
  first : hosts.head? = some [] → names.head? = some []

variable
  {lastExact : Bool}
  {names hosts : List StdString}

theorem LabelsAccepted.length_eq (accepted : LabelsAccepted lastExact names hosts) :
    names.length = hosts.length := by
  obtain ⟨frontNames, lastName, frontHosts, lastHost, rfl, rfl, -, others⟩ := accepted.matched
  rw [List.length_append, List.length_append, others.length_eq]
  rfl

variable {name host : StdString}

theorem labelsAccepted_singleton : LabelsAccepted lastExact [name] [host] ↔
      nameFragmentMatched name host lastExact = true ∧ (host = [] → name = []) := by
  constructor
  · rintro ⟨⟨frontNames, lastName, frontHosts, lastHost, nameEq, hostEq, isMatched, -⟩, -, first⟩
    rw [← List.nil_append [name]] at nameEq
    rw [← List.nil_append [host]] at hostEq
    obtain ⟨-, nameEq⟩ := List.append_inj' nameEq rfl
    obtain ⟨-, hostEq⟩ := List.append_inj' hostEq rfl
    rw [← List.singleton_inj.1 nameEq, ← List.singleton_inj.1 hostEq] at isMatched
    exact ⟨isMatched, fun empty => Option.some.inj (first (congrArg some empty))⟩
  · rintro ⟨isMatched, first⟩
    refine ⟨⟨[], name, [], host, rfl, rfl, isMatched, List.Forall₂.nil⟩, List.not_mem_nil, ?_⟩
    exact fun empty => congrArg some (first (Option.some.inj empty))

theorem forall₂_snoc {relation : StdString → StdString → Prop} :
    List.Forall₂ relation (names ++ [name]) (hosts ++ [host]) ↔
      relation name host ∧ List.Forall₂ relation names hosts := by
  rw [← List.forall₂_reverse_iff, List.reverse_concat, List.reverse_concat, List.forall₂_cons,
    List.forall₂_reverse_iff]

/-- One more label on the right. -/
theorem labelsAccepted_snoc (namesNonempty : names ≠ []) (hostsNonempty : hosts ≠ []) :
    LabelsAccepted lastExact (names ++ [name]) (hosts ++ [host]) ↔
      nameFragmentMatched name host lastExact = true ∧ host ≠ [] ∧
        LabelsAccepted false names hosts := by
  have tail : [] ∉ (hosts ++ [host]).tail ↔ [] ∉ hosts.tail ∧ host ≠ [] := by
    rw [List.tail_append_of_ne_nil hostsNonempty, List.mem_append, List.mem_singleton, not_or,
      eq_comm]
  have head : (hosts ++ [host]).head? = hosts.head? := List.head?_append_of_ne_nil _ hostsNonempty
  have nameHead : (names ++ [name]).head? = names.head? :=
    List.head?_append_of_ne_nil _ namesNonempty
  constructor
  · rintro ⟨⟨frontNames, lastName, frontHosts, lastHost, nameEq, hostEq, isMatched, others⟩,
      nonempty, first⟩
    obtain ⟨rfl, lastNameEq⟩ := List.append_inj' nameEq rfl
    obtain ⟨rfl, lastHostEq⟩ := List.append_inj' hostEq rfl
    rw [← List.singleton_inj.1 lastNameEq, ← List.singleton_inj.1 lastHostEq] at isMatched
    obtain ⟨frontNonempty, hostNonempty⟩ := tail.1 nonempty
    rw [head, nameHead] at first
    refine ⟨isMatched, hostNonempty, ?_, frontNonempty, first⟩
    rw [← List.dropLast_concat_getLast namesNonempty,
      ← List.dropLast_concat_getLast hostsNonempty] at others ⊢
    obtain ⟨lastMatched, others⟩ := forall₂_snoc.1 others
    exact ⟨_, _, _, _, rfl, rfl, lastMatched, others⟩
  · rintro ⟨isMatched, hostNonempty, ⟨frontNames, lastName, frontHosts, lastHost, nameEq, hostEq,
      lastMatched, others⟩, nonempty, first⟩
    refine ⟨⟨names, name, hosts, host, rfl, rfl, isMatched, ?_⟩, tail.2 ⟨nonempty, hostNonempty⟩, ?_⟩
    · rw [nameEq, hostEq]
      exact forall₂_snoc.2 ⟨lastMatched, others⟩
    · rw [head, nameHead]
      exact first

theorem labels_ne_nil (name : StdString) : labels name ≠ [] := List.splitOn_ne_nil _ _

/-- The last label is empty exactly where its dot is the last byte. -/
theorem segment_eq_nil_iff {name : StdString} {pos found : Nat} (inside : pos ≤ name.length - 1)
    (isFound : rfind name dot pos = some found) :
    tolower (substr name (found + 1) (pos - found)) = [] ↔ found = pos := by
  obtain ⟨bound, atFound, -⟩ := rfind_eq_some isFound
  obtain ⟨foundInside, -⟩ := List.getElem?_eq_some_iff.1 atFound
  rw [tolower_eq_nil, substr, ← List.length_eq_zero_iff, List.length_take, List.length_drop]
  omega

theorem labels_tolower_take_zero (name : StdString) : labels (tolower (name.take 0)) = [[]] := rfl

/-- A front that is not empty has no empty label alone. -/
theorem labels_ne_singleton_nil {front : StdString} (nonempty : front ≠ []) :
    labels front ≠ [[]] := by
  intro empty
  have joined : [dot].intercalate (front.splitOn dot) = front := List.intercalate_splitOn dot
  rw [labels] at empty
  rw [empty] at joined
  exact nonempty joined.symm

theorem eq_nil_of_nil_matched {label : StdString} {exactMatchOnly : Bool}
    (isMatched : nameFragmentMatched [] label exactMatchOnly = true) : label = [] := by
  obtain same | ⟨-, segment, -, ⟨same, -⟩ | ⟨same, -⟩⟩ := nameFragmentMatched_sound isMatched
  · exact same.symm
  · cases same
  · exact absurd same.symm (List.append_ne_nil_of_right_ne_nil _ (List.cons_ne_nil _ _))

/-- Where one of two accepted fronts is empty, both are. -/
theorem LabelsAccepted.take_eq_zero {cname hname : StdString} {lengthC lengthH : Nat}
    (accepted : LabelsAccepted false (labels (tolower (cname.take lengthC)))
      (labels (tolower (hname.take lengthH))))
    (insideC : lengthC < cname.length)
    (insideH : lengthH < hname.length)
    (oneEmpty : lengthC = 0 ∨ lengthH = 0) : lengthC = 0 ∧ lengthH = 0 := by
  have front_eq_zero {name : StdString} {length : Nat} (inside : length < name.length)
      (empty : labels (tolower (name.take length)) = [[]]) : length = 0 := by
    by_contra positive
    refine labels_ne_singleton_nil ?_ empty
    rw [Ne, tolower_eq_nil, List.take_eq_nil_iff]
    rintro (isZero | isNil)
    · exact positive isZero
    · rw [isNil] at inside
      exact Nat.not_lt_zero _ inside
  have sameLength := accepted.length_eq
  obtain rfl | rfl := oneEmpty
  · rw [labels_tolower_take_zero] at accepted sameLength
    obtain ⟨host, hostEq⟩ := List.length_eq_one_iff.1 sameLength.symm
    rw [hostEq, labelsAccepted_singleton] at accepted
    rw [eq_nil_of_nil_matched accepted.1] at hostEq
    exact ⟨rfl, front_eq_zero insideH hostEq⟩
  · rw [labels_tolower_take_zero] at accepted sameLength
    obtain ⟨name, nameEq⟩ := List.length_eq_one_iff.1 sameLength
    rw [nameEq, labelsAccepted_singleton] at accepted
    rw [accepted.2 rfl] at nameEq
    exact ⟨front_eq_zero insideC nameEq, rfl⟩

theorem strictLoop_iff (cname hname : StdString) (endCName endHName : Nat) (firstSegment : Bool)
    (insideC : endCName ≤ cname.length - 1) (insideH : endHName ≤ hname.length - 1)
    (start : firstSegment = true ∨ hname ≠ []) :
    strictLoop cname hname endCName endHName firstSegment = true ↔
      LabelsAccepted firstSegment (labels (tolower (cname.take (endCName + 1))))
        (labels (tolower (hname.take (endHName + 1)))) := by
  fun_induction strictLoop with
  | case1 endCName endHName firstSegment foundCName foundHName =>
    rw [labels_tolower_of_not_mem foundCName, labels_tolower_of_not_mem foundHName,
      labelsAccepted_singleton, iff_self_and]
    intro isMatched empty
    rw [empty] at isMatched
    obtain isExact | hostNonempty := start
    · rw [isExact] at isMatched
      exact ((nameFragmentMatched_sound isMatched).resolve_right fun wild => by cases wild.1)
    · rw [tolower_eq_nil, substr] at empty
      exact absurd (List.take_eq_nil_iff.1 empty) (by simpa using hostNonempty)
  | case2 endCName endHName firstSegment dotCName dotHName foundCName foundHName malformed =>
    rw [labels_tolower_take foundCName, labels_tolower_take foundHName,
      labelsAccepted_snoc (labels_ne_nil _) (labels_ne_nil _)]
    refine iff_of_false Bool.false_ne_true ?_
    rintro ⟨isMatched, hostNonempty, -⟩
    obtain atEnd | atEnd := malformed
    · rw [(segment_eq_nil_iff insideC foundCName).2 atEnd] at isMatched
      exact hostNonempty (eq_nil_of_nil_matched isMatched)
    · exact hostNonempty ((segment_eq_nil_iff insideH foundHName).2 atEnd)
  | case3 endCName endHName firstSegment dotCName dotHName foundCName foundHName wellFormed
      mismatch =>
      rw [labels_tolower_take foundCName, labels_tolower_take foundHName,
        labelsAccepted_snoc (labels_ne_nil _) (labels_ne_nil _)]
      refine iff_of_false Bool.false_ne_true fun accepted => ?_
      simp only [Bool.not_eq_true'] at mismatch
      rw [mismatch] at accepted
      exact Bool.false_ne_true accepted.1
  | case4 endCName endHName firstSegment dotCName dotHName foundCName foundHName wellFormed
      fragments atStart =>
      -- Both names begin with a dot.
      have frontC : dotCName = 0 := by omega
      have frontH : dotHName = 0 := by omega
      subst frontC
      subst frontH
      rw [labels_tolower_take foundCName, labels_tolower_take foundHName,
        labelsAccepted_snoc (labels_ne_nil _) (labels_ne_nil _), labels_tolower_take_zero,
        labels_tolower_take_zero, labelsAccepted_singleton]
      refine iff_of_true rfl ⟨by simpa using fragments, ?_, rfl, fun empty => empty⟩
      rw [Ne, segment_eq_nil_iff insideH foundHName]
      exact fun atEnd => wellFormed (.inr atEnd)
  | case5 endCName endHName firstSegment dotCName dotHName foundCName foundHName wellFormed
      fragments notBoth oneAtStart =>
      rw [labels_tolower_take foundCName, labels_tolower_take foundHName,
        labelsAccepted_snoc (labels_ne_nil _) (labels_ne_nil _)]
      refine iff_of_false Bool.false_ne_true ?_
      rintro ⟨-, -, accepted⟩
      obtain ⟨insideCName, -⟩ := List.getElem?_eq_some_iff.1 (rfind_eq_some foundCName).2.1
      obtain ⟨insideHName, -⟩ := List.getElem?_eq_some_iff.1 (rfind_eq_some foundHName).2.1
      have bothEmpty := accepted.take_eq_zero insideCName insideHName (by omega)
      omega
  | case6 endCName endHName firstSegment dotCName dotHName foundCName foundHName wellFormed
      fragments notBoth notShort ih =>
      have stepC : dotCName + 1 - 2 + 1 = dotCName := by omega
      have stepH : dotHName + 1 - 2 + 1 = dotHName := by omega
      have boundC := (rfind_eq_some foundCName).1
      have boundH := (rfind_eq_some foundHName).1
      have hostNonempty : hname ≠ [] := fun empty => by
        have atFound := (rfind_eq_some foundHName).2.1
        rw [empty] at atFound
        cases atFound
      have earlier := ih (by omega) (by omega) (.inr hostNonempty)
      rw [stepC, stepH] at earlier
      rw [earlier, labels_tolower_take foundCName, labels_tolower_take foundHName,
        labelsAccepted_snoc (labels_ne_nil _) (labels_ne_nil _)]
      have segmentNonempty :
          ¬ tolower (substr hname (dotHName + 1) (endHName - dotHName)) = [] := by
        rw [segment_eq_nil_iff insideH foundHName]
        exact fun atEnd => wellFormed (.inr atEnd)
      rw [and_iff_right (by simpa using fragments), and_iff_right segmentNonempty]
  | case7 endCName endHName firstSegment notBothNone notBothSome =>
    refine iff_of_false Bool.false_ne_true fun accepted => ?_
    have sameLength := accepted.length_eq
    cases foundCName : rfind cname dot endCName with
    | none =>
      cases foundHName : rfind hname dot endHName with
      | none => exact notBothNone foundCName foundHName
      | some dotHName =>
        rw [labels_tolower_of_not_mem foundCName, labels_tolower_take foundHName,
          List.length_append] at sameLength
        have positive := List.length_pos_of_ne_nil
          (labels_ne_nil (tolower (hname.take dotHName)))
        simp only [List.length_singleton] at sameLength
        omega
    | some dotCName =>
      cases foundHName : rfind hname dot endHName with
      | none =>
        rw [labels_tolower_take foundCName, labels_tolower_of_not_mem foundHName,
          List.length_append] at sameLength
        have positive := List.length_pos_of_ne_nil
          (labels_ne_nil (tolower (cname.take dotCName)))
        simp only [List.length_singleton] at sameLength
        omega
      | some dotHName => exact notBothSome _ _ foundCName foundHName

/-! ## The rule that the code implements -/

/-- The pattern matches the label, but the segment behind its wildcard occurs in
the label before the end too. -/
def SuffixMissed (pattern label : StdString) : Prop :=
  LabelMatches false pattern label ∧ FoundEarly pattern label

theorem LabelMatches.relax {exactMatchOnly : Bool} {pattern label : StdString}
    (matching : LabelMatches exactMatchOnly pattern label) : LabelMatches false pattern label :=
  matching.imp_right fun wild => ⟨rfl, wild.2⟩

theorem nameFragmentMatched_iff_not_suffixMissed (pattern label : StdString)
    (exactMatchOnly : Bool) : nameFragmentMatched pattern label exactMatchOnly = true ↔
      star ∉ label ∧ LabelMatches exactMatchOnly pattern label ∧
        ¬ SuffixMissed pattern label := by
  rw [nameFragmentMatched_iff]
  refine and_congr_right fun _ => and_congr_right fun matching => ?_
  rw [SuffixMissed, and_iff_right matching.relax]

/-- The rule as the code means it, on names in lower case: the labels match one
by one, the host has no wildcard and no empty label behind a dot, and its first
label is empty only beside an empty one. -/
structure AcceptedByDesign (name host : StdString) : Prop where
  matching : LabelsMatch true name host
  plain : ∀ label ∈ labels host, star ∉ label
  nonempty : [] ∉ (labels host).tail
  first : (labels host).head? = some [] → (labels name).head? = some []

/-- Some pair of labels is missed. -/
def SomeSuffixMissed (name host : StdString) : Prop :=
  ∃ pair ∈ (labels name).zip (labels host), SuffixMissed pair.1 pair.2

theorem forall₂_nameFragmentMatched_iff (names hosts : List StdString) :
    List.Forall₂ (fun name host => nameFragmentMatched name host false = true) names hosts ↔
      List.Forall₂ (LabelMatches false) names hosts ∧ (∀ host ∈ hosts, star ∉ host) ∧
        ∀ pair ∈ names.zip hosts, ¬ SuffixMissed pair.1 pair.2 := by
  induction names generalizing hosts with
  | nil =>
    rw [List.forall₂_nil_left_iff, List.forall₂_nil_left_iff]
    constructor
    · rintro rfl
      exact ⟨rfl, nofun, nofun⟩
    · exact fun all => all.1
  | cons name names ih =>
    cases hosts with
    | nil =>
      refine iff_of_false nofun ?_
      rintro ⟨impossible, -⟩
      cases impossible
    | cons host hosts =>
      rw [List.forall₂_cons, List.forall₂_cons, ih, List.forall_mem_cons,
        List.zip_cons_cons, List.forall_mem_cons, nameFragmentMatched_iff_not_suffixMissed]
      constructor
      · rintro ⟨⟨plain, matching, notMissed⟩, others, plainOthers, noneMissed⟩
        exact ⟨⟨matching, others⟩, ⟨plain, plainOthers⟩, notMissed, noneMissed⟩
      · rintro ⟨⟨matching, others⟩, ⟨plain, plainOthers⟩, notMissed, noneMissed⟩
        exact ⟨⟨plain, matching, notMissed⟩, others, plainOthers, noneMissed⟩

theorem labelsAccepted_iff (name host : StdString) :
    LabelsAccepted true (labels name) (labels host) ↔
      AcceptedByDesign name host ∧ ¬ SomeSuffixMissed name host := by
  constructor
  · rintro ⟨⟨names, lastName, hosts, lastHost, nameEq, hostEq, lastMatched, others⟩,
      nonempty, first⟩
    obtain ⟨lastPlain, lastMatching, lastFound⟩ :=
      (nameFragmentMatched_iff_not_suffixMissed _ _ _).1 lastMatched
    obtain ⟨matching, plain, found⟩ := (forall₂_nameFragmentMatched_iff _ _).1 others
    refine ⟨⟨⟨names, lastName, hosts, lastHost, nameEq, hostEq, lastMatching, matching⟩,
      ?_, nonempty, first⟩, ?_⟩
    · rw [hostEq, List.forall_mem_append, List.forall_mem_singleton]
      exact ⟨plain, lastPlain⟩
    · rintro ⟨pair, isPair, missed⟩
      rw [nameEq, hostEq, List.zip_append others.length_eq, List.mem_append] at isPair
      obtain isFront | isLast := isPair
      · exact found pair isFront missed
      · rw [List.mem_singleton.1 isLast] at missed
        exact lastFound missed
  · rintro ⟨⟨⟨names, lastName, hosts, lastHost, nameEq, hostEq, lastMatching, matching⟩,
      plain, nonempty, first⟩, noneMissed⟩
    rw [hostEq, List.forall_mem_append, List.forall_mem_singleton] at plain
    have found : ∀ pair ∈ names.zip hosts ++ [(lastName, lastHost)],
        ¬ SuffixMissed pair.1 pair.2 := fun pair isPair missed => by
      refine noneMissed ⟨pair, ?_, missed⟩
      rw [nameEq, hostEq, List.zip_append matching.length_eq]
      exact isPair
    rw [List.forall_mem_append, List.forall_mem_singleton] at found
    refine ⟨⟨names, lastName, hosts, lastHost, nameEq, hostEq, ?_, ?_⟩, nonempty, first⟩
    · exact (nameFragmentMatched_iff_not_suffixMissed _ _ _).2
        ⟨plain.2, lastMatching, found.2⟩
    · exact (forall₂_nameFragmentMatched_iff _ _).2 ⟨matching, plain.1, found.1⟩

/-- The strict match, for every name and every host. -/
theorem sslVerificationCNameToHostnameMatchStrict_iff (cname hname : StdString) :
    sslVerificationCNameToHostnameMatchStrict cname hname = true ↔
      AcceptedByDesign (tolower cname) (tolower hname) ∧
        ¬ SomeSuffixMissed (tolower cname) (tolower hname) := by
  have whole := strictLoop_iff cname hname (cname.length - 1) (hname.length - 1) true
    (le_refl _) (le_refl _) (.inl rfl)
  rw [List.take_of_length_le (by omega), List.take_of_length_le (by omega)] at whole
  rw [sslVerificationCNameToHostnameMatchStrict, whole, labelsAccepted_iff]

/-- Where no suffix is missed, the strict match accepts exactly what its rule
says. -/
theorem strict_iff_acceptedByDesign {cname hname : StdString}
    (noneMissed : ¬ SomeSuffixMissed (tolower cname) (tolower hname)) :
    sslVerificationCNameToHostnameMatchStrict cname hname = true ↔
      AcceptedByDesign (tolower cname) (tolower hname) := by
  rw [sslVerificationCNameToHostnameMatchStrict_iff, and_iff_left noneMissed]

/-- The theorem on a name without wildcards. -/
theorem strict_iff_acceptedByDesign_plain :
    sslVerificationCNameToHostnameMatchStrict (bytes "a.B") (bytes "A.b") = true ↔
      AcceptedByDesign (tolower (bytes "a.B")) (tolower (bytes "A.b")) :=
  strict_iff_acceptedByDesign (by
    rintro ⟨pair, isPair, -, segment, -, isWild, -⟩
    have pairs : (labels (tolower (bytes "a.B"))).zip (labels (tolower (bytes "A.b"))) =
        [(bytes "a", bytes "a"), (bytes "b", bytes "b")] := by decide
    rw [pairs, List.mem_pair] at isPair
    obtain rfl | rfl := isPair
    · exact absurd (List.cons.inj isWild).1 (by decide)
    · exact absurd (List.cons.inj isWild).1 (by decide))

/-! ## A more liberal rule -/

/-- A label matches itself; a single wildcard anywhere in a label stands for any
text between what is before and what is behind it. -/
def LabelMatchesLiberally (pattern label : StdString) : Prop :=
  pattern = label ∨
    ∃ before after, StdString.star ∉ before ∧ StdString.star ∉ after ∧ pattern = before ++ StdString.star :: after ∧
      before <+: label ∧ after <:+ label

/-- Equally many labels, the last ones equal, ignoring case. -/
def LiberalRule (name host : StdString) : Prop :=
  ∃ names hosts last,
    labels (tolower name) = names ++ [last] ∧ labels (tolower host) = hosts ++ [last] ∧
      List.Forall₂ LabelMatchesLiberally names hosts

/-- A wildcard inside a label, a host with a wildcard and a name with an empty
label are refused. -/
theorem strict_not_liberal : (LiberalRule (bytes "a*b.com") (bytes "axb.com") ∧
      sslVerificationCNameToHostnameMatchStrict (bytes "a*b.com") (bytes "axb.com") = false) ∧
    (LiberalRule (bytes "*.com") (bytes "*.com") ∧
      sslVerificationCNameToHostnameMatchStrict (bytes "*.com") (bytes "*.com") = false) ∧
    (LiberalRule (bytes "a..com") (bytes "a..com") ∧
      sslVerificationCNameToHostnameMatchStrict (bytes "a..com") (bytes "a..com") = false) := by
  refine ⟨⟨⟨[bytes "a*b"], [bytes "axb"], bytes "com", by decide, by decide, ?_⟩, ?_⟩,
    ⟨⟨[bytes "*"], [bytes "*"], bytes "com", by decide, by decide, ?_⟩, ?_⟩,
    ⟨⟨[bytes "a", []], [bytes "a", []], bytes "com", by decide, by decide, ?_⟩, ?_⟩⟩
  · exact List.Forall₂.cons (.inr ⟨bytes "a", bytes "b", by decide⟩) List.Forall₂.nil
  · decide +kernel
  · exact List.Forall₂.cons (.inl rfl) List.Forall₂.nil
  · decide +kernel
  · exact List.Forall₂.cons (.inl rfl) (List.Forall₂.cons (.inl rfl) List.Forall₂.nil)
  · decide +kernel

end Network
end PalmWebKit
