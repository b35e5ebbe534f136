import Mathlib

/-!
# Byte strings

`std::string` as the list of its bytes, with the searches and the case folding
that the network layer applies to names from certificates and from the wire.
-/

namespace PalmWebKit

open List

/-- The contents of a `std::string`. -/
abbrev StdString := List UInt8

namespace StdString

/-- The bytes of an ASCII literal in the source. -/
def bytes (text : String) : StdString :=
  text.toList.map fun character => UInt8.ofNat character.toNat

/-- `'*'` -/
def star : UInt8 := 42

/-- `'.'` -/
def dot : UInt8 := 46

/-- `tolower` of the C locale. -/
def toLowerByte (byte : UInt8) : UInt8 :=
  if 65 ≤ byte && byte ≤ 90 then byte + 32 else byte

/-- `std::transform` with `tolower`. -/
def tolower (text : StdString) : StdString := text.map toLowerByte

def substr (text : StdString) (pos len : Nat) : StdString := (text.drop pos).take len

/-- `find` of a byte from a position on. -/
def find (text : StdString) (byte : UInt8) (pos : Nat) : Option Nat :=
  ((text.drop pos).findIdx? (· = byte)).map (· + pos)

/-- `rfind` of a byte from a position down. -/
def rfind (text : StdString) (byte : UInt8) : Nat → Option Nat
  | 0 => if text[0]? = some byte then some 0 else none
  | pos + 1 =>
    if text[pos + 1]? = some byte then some (pos + 1)
    else rfind text byte pos

/-- `find` of a string. -/
def findString (pattern : StdString) : StdString → Option Nat
  | [] => if pattern = [] then some 0 else none
  | byte :: rest =>
    if pattern.isPrefixOf (byte :: rest) then some 0
    else (findString pattern rest).map (· + 1)

/-- The string of a C pointer: the bytes before the first NUL. -/
def ofCString (text : StdString) : StdString := text.takeWhile (· ≠ 0)

variable (text : StdString)

theorem zero_notMem_ofCString : 0 ∉ ofCString text := by
  intro member
  simpa using mem_takeWhile_imp member

variable {text : StdString}

theorem ofCString_eq_self (noNul : 0 ∉ text) : ofCString text = text := by
  rw [ofCString, takeWhile_eq_self_iff]
  intro byte member
  refine decide_eq_true fun isNul => noNul ?_
  rw [← isNul]
  exact member

/-! ## Searches -/

variable
  {byte : UInt8}
  {pos found : Nat}

theorem rfind_eq_some (isFound : rfind text byte pos = some found) :
    found ≤ pos ∧ text[found]? = some byte ∧
      ∀ later, found < later → later ≤ pos → text[later]? ≠ some byte := by
  induction pos with
  | zero =>
    rw [rfind] at isFound
    split_ifs at isFound with here
    cases isFound
    exact ⟨le_refl _, here, fun later _ _ => by omega⟩
  | succ pos ih =>
    rw [rfind] at isFound
    split_ifs at isFound with here
    · cases isFound
      exact ⟨le_refl _, here, fun later _ _ => by omega⟩
    · obtain ⟨bound, atFound, after⟩ := ih isFound
      refine ⟨bound.trans (Nat.le_succ _), atFound, ?_⟩
      intro later isLater laterBound
      rcases Nat.lt_or_ge pos later with beyond | within
      · have atEnd : later = pos + 1 := by omega
        rw [atEnd]
        exact here
      · exact after later isLater within

theorem rfind_eq_none {pos : Nat} (missing : rfind text byte pos = none) :
    ∀ earlier ≤ pos, text[earlier]? ≠ some byte := by
  induction pos with
  | zero =>
    rw [rfind] at missing
    split_ifs at missing with here
    intro earlier bound
    rw [Nat.le_zero.1 bound]
    exact here
  | succ pos ih =>
    rw [rfind] at missing
    split_ifs at missing with here
    intro earlier bound
    rcases Nat.lt_or_ge pos earlier with beyond | within
    · have atEnd : earlier = pos + 1 := by omega
      rw [atEnd]
      exact here
    · exact ih missing earlier within

/-- Splitting a string at the last occurrence of a byte. -/
theorem take_eq_of_rfind (isFound : rfind text byte pos = some found) :
    text.take (pos + 1) = text.take found ++ byte :: substr text (found + 1) (pos - found) ∧
      byte ∉ substr text (found + 1) (pos - found) := by
  obtain ⟨bound, atFound, after⟩ := rfind_eq_some isFound
  obtain ⟨inside, atFound⟩ := List.getElem?_eq_some_iff.1 atFound
  constructor
  · have whole : pos + 1 = found + (1 + (pos - found)) := by omega
    rw [whole, List.take_add, List.drop_eq_getElem_cons inside, atFound, Nat.add_comm 1]
    rfl
  · intro member
    obtain ⟨index, indexBound, atIndex⟩ := getElem_of_mem member
    simp only [substr, length_take, length_drop] at indexBound
    refine after (found + 1 + index) (by omega) (by omega) ?_
    rw [getElem?_eq_some_iff]
    refine ⟨by omega, ?_⟩
    simpa [substr] using atIndex

theorem not_mem_take_of_rfind {pos : Nat} (missing : rfind text byte pos = none) :
    byte ∉ text.take (pos + 1) := by
  intro member
  obtain ⟨index, indexBound, atIndex⟩ := getElem_of_mem member
  simp only [length_take] at indexBound
  refine rfind_eq_none missing index (by omega) ?_
  rw [getElem?_eq_some_iff]
  refine ⟨by omega, ?_⟩
  simpa using atIndex

/-- Splitting a string at the next occurrence of a byte. -/
theorem drop_eq_of_find (isFound : find text byte pos = some found) :
    text.drop pos = substr text pos (found - pos) ++ byte :: text.drop (found + 1) ∧
      byte ∉ substr text pos (found - pos) ∧ found < text.length := by
  obtain ⟨offset, atOffset, rfl⟩ := Option.map_eq_some_iff.1 isFound
  obtain ⟨inside, isByte, earlier⟩ := findIdx?_eq_some_iff_getElem.1 atOffset
  have here : (text.drop pos)[offset] = byte := by simpa using isByte
  have length_drop := inside
  rw [List.length_drop] at length_drop
  refine ⟨?_, ?_, by omega⟩
  · rw [substr, Nat.add_sub_cancel, ← here]
    have later : text.drop (offset + pos + 1) =
        (text.drop pos).drop (offset + 1) := by
      rw [drop_drop]
      congr 1
      omega
    rw [later, ← drop_eq_getElem_cons inside, take_append_drop]
  · rw [substr]
    intro member
    obtain ⟨index, indexBound, atIndex⟩ := getElem_of_mem member
    rw [length_take] at indexBound
    refine earlier index (by omega) ?_
    simpa using atIndex

theorem not_mem_drop_of_find {pos : Nat} (missing : find text byte pos = none) :
    byte ∉ text.drop pos := by
  intro member
  have unlike := findIdx?_eq_none_iff.1
    (Option.map_eq_none_iff.1 missing) byte member
  simp at unlike

/-- The part of a list before the first occurrence of an element is unique. -/
theorem append_cons_inj {Element : Type*} {byte : Element}
    {before before' after after' : List Element}
    (same : before ++ byte :: after = before' ++ byte :: after') (isFirst : byte ∉ before)
    (isFirst' : byte ∉ before') : before = before' ∧ after = after' := by
  rcases append_eq_append_iff.1 same with
    ⟨middle, rfl, rest⟩ | ⟨middle, rfl, rest⟩
  · cases middle with
    | nil => simpa using rest
    | cons head middle =>
      cases rest
      simp at isFirst'
  · cases middle with
    | nil => simpa using rest.symm
    | cons head middle =>
      cases rest
      simp at isFirst

theorem findString_isPrefix {pattern text : StdString} {found : Nat}
    (isFound : findString pattern text = some found) : pattern <+: text.drop found := by
  induction text generalizing found with
  | nil =>
    rw [findString] at isFound
    split_ifs at isFound with empty
    rw [empty]
    exact nil_prefix
  | cons byte rest ih =>
    rw [findString] at isFound
    split_ifs at isFound with here
    · cases isFound
      exact List.isPrefixOf_iff_prefix.1 here
    · obtain ⟨before, isBefore, rfl⟩ := Option.map_eq_some_iff.1 isFound
      exact ih isBefore

theorem findString_add_length_le {pattern text : StdString} {found : Nat}
    (isFound : findString pattern text = some found) : found + pattern.length ≤ text.length := by
  induction text generalizing found with
  | nil =>
    rw [findString] at isFound
    split_ifs at isFound with empty
    cases isFound
    simp [empty]
  | cons byte rest ih =>
    rw [findString] at isFound
    split_ifs at isFound with here
    · cases isFound
      rw [Nat.zero_add]
      exact (List.isPrefixOf_iff_prefix.1 here).length_le
    · obtain ⟨before, isBefore, rfl⟩ := Option.map_eq_some_iff.1 isFound
      have bound := ih isBefore
      rw [length_cons]
      omega

/-- A string is found exactly when it occurs. -/
theorem findString_isSome_iff (pattern text : StdString) :
    (findString pattern text).isSome ↔ pattern <:+: text := by
  induction text with
  | nil =>
    rw [findString]
    split_ifs with empty <;> simp [empty]
  | cons byte rest ih =>
    rw [findString, infix_cons_iff, ← ih]
    split_ifs with here
    · simp [List.isPrefixOf_iff_prefix.1 here]
    · rw [List.isPrefixOf_iff_prefix] at here
      simp [here]

/-! ## Case folding -/

@[simp] theorem toLowerByte_eq_dot (byte : UInt8) : toLowerByte byte = dot ↔ byte = dot := by
  unfold toLowerByte dot
  split_ifs with upper
  · simp only [Bool.and_eq_true, decide_eq_true_eq, UInt8.le_iff_toNat_le] at upper
    simp only [← UInt8.toNat_inj, UInt8.toNat_add]
    simp at upper ⊢
    omega
  · rfl

theorem toLowerByte_idem (byte : UInt8) : toLowerByte (toLowerByte byte) = toLowerByte byte := by
  unfold toLowerByte
  split_ifs with upper again
  · simp only [Bool.and_eq_true, decide_eq_true_eq, UInt8.le_iff_toNat_le,
      UInt8.toNat_add] at upper again
    simp at upper again
    omega
  · rfl
  · rfl

@[simp] theorem tolower_append (first second : StdString) :
    tolower (first ++ second) = tolower first ++ tolower second := map_append

@[simp] theorem tolower_dot_cons (rest : StdString) :
    tolower (dot :: rest) = dot :: tolower rest := rfl

@[simp] theorem dot_mem_tolower : dot ∈ tolower text ↔ dot ∈ text := by
  simp [tolower]

@[simp] theorem tolower_eq_nil : tolower text = [] ↔ text = [] := by
  simp [tolower]

@[simp] theorem tolower_tolower : tolower (tolower text) = tolower text := by
  simp [tolower, toLowerByte_idem]

end StdString
end PalmWebKit
