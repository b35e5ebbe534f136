import Mathlib

/-!
# Sequential readers

A reader takes a value off the front of a stream.  A writer and a reader fit
on a set of values when reading what was written gives the value back and
leaves the rest of the stream exactly on that set; this is kept by writing
fields one after the other and by writing a count and that many items.
-/

namespace PalmWebKit

open List

/-- A reader of values from a stream of symbols. -/
def Reader (Symbol : Type*) (Value : Type*) := List Symbol → Value × List Symbol

namespace Reader

variable {Symbol First Second Value : Type*}

instance : Monad (Reader Symbol) where
  pure value := fun stream => (value, stream)
  bind reader next := fun stream => next (reader stream).1 (reader stream).2

@[simp] theorem pure_apply (value : Value) (stream : List Symbol) :
    (pure value : Reader Symbol Value) stream = (value, stream) := rfl

@[simp] theorem bind_apply {First Second : Type} (reader : Reader Symbol First)
    (next : First → Reader Symbol Second) (stream : List Symbol) :
    (reader >>= next) stream = next (reader stream).1 (reader stream).2 := rfl

/-- Read a number of items. -/
def many (reader : Reader Symbol Value) : Nat → Reader Symbol (List Value)
  | 0 => fun stream => ([], stream)
  | count + 1 => fun stream =>
    (((reader stream).1 :: (many reader count (reader stream).2).1),
      (many reader count (reader stream).2).2)

@[simp] theorem length_many (reader : Reader Symbol Value) (count : Nat) (stream : List Symbol) :
    (many reader count stream).1.length = count := by
  induction count generalizing stream with
  | zero => rfl
  | succ count ih => simp only [many, length_cons, ih]

/-- Reading what was written gives the value back and leaves the rest of the
stream on the good values, and gives it back on no others. -/
structure Fits (write : Value → List Symbol) (read : Reader Symbol Value)
    (good : Value → Prop) : Prop where
  read_write : ∀ value rest, good value → read (write value ++ rest) = (value, rest)
  good_of_read : ∀ value rest, (read (write value ++ rest)).1 = value → good value

namespace Fits

variable {write : Value → List Symbol} {read : Reader Symbol Value}
  {good : Value → Prop}

theorem read_eq_iff (fits : Fits write read good) (value : Value) (rest : List Symbol) :
    (read (write value ++ rest)).1 = value ↔ good value := by
  constructor
  · exact fits.good_of_read value rest
  · intro isGood
    rw [fits.read_write value rest isGood]

/-- Two fields one after the other. -/
theorem pair {writeFirst : First → List Symbol} {readFirst : Reader Symbol First}
    {goodFirst : First → Prop} {writeSecond : Second → List Symbol}
    {readSecond : Reader Symbol Second} {goodSecond : Second → Prop}
    (first : Fits writeFirst readFirst goodFirst)
    (second : Fits writeSecond readSecond goodSecond) : Fits
      (fun both : First × Second => writeFirst both.1 ++ writeSecond both.2)
      (fun stream => (((readFirst stream).1, (readSecond (readFirst stream).2).1),
        (readSecond (readFirst stream).2).2))
      (fun both => goodFirst both.1 ∧ goodSecond both.2) where
  read_write := by
    intro both rest isGood
    simp only [append_assoc, first.read_write _ _ isGood.1, second.read_write _ _ isGood.2]
  good_of_read := by
    intro both rest same
    simp only [append_assoc] at same
    have goodFirst : goodFirst both.1 := first.good_of_read _ _ (congrArg Prod.fst same)
    rw [first.read_write _ _ goodFirst] at same
    exact ⟨goodFirst, second.good_of_read _ _ (congrArg Prod.snd same)⟩

/-- Items one after the other, their number known. -/
theorem many (fits : Fits write read good) (values : List Value) (rest : List Symbol) :
    ((∀ value ∈ values, good value) →
        read.many values.length (values.flatMap write ++ rest) = (values, rest)) ∧
      ((read.many values.length (values.flatMap write ++ rest)).1 = values →
        ∀ value ∈ values, good value) := by
  induction values with
  | nil => simp [Reader.many]
  | cons value values ih =>
    simp only [forall_mem_cons, length_cons, flatMap_cons,
      append_assoc, Reader.many]
    constructor
    · intro allGood
      simp only [fits.read_write _ _ allGood.1, ih.1 allGood.2]
    · intro same
      have goodValue : good value := fits.good_of_read _ _ (head_eq_of_cons_eq same)
      rw [fits.read_write _ _ goodValue] at same
      exact ⟨goodValue, ih.2 (tail_eq_of_cons_eq same)⟩

/-- A count and that many items. -/
theorem counted (fits : Fits write read good) {writeCount : Nat → List Symbol}
    {readCount : Reader Symbol Nat} {goodCount : Nat → Prop}
    (count : Fits writeCount readCount goodCount) : Fits
      (fun values => writeCount values.length ++ values.flatMap write)
      (fun stream => read.many (readCount stream).1 (readCount stream).2)
      (fun values => goodCount values.length ∧ ∀ value ∈ values, good value) where
  read_write := by
    intro values rest allGood
    simp only [append_assoc, count.read_write _ _ allGood.1]
    exact (fits.many values rest).1 allGood.2
  good_of_read := by
    intro values rest same
    simp only [append_assoc] at same
    have goodLength : goodCount values.length := by
      apply count.good_of_read _ (values.flatMap write ++ rest)
      have lengths := congrArg List.length same
      rwa [length_many] at lengths
    rw [count.read_write _ _ goodLength] at same
    exact ⟨goodLength, (fits.many values rest).2 same⟩

end Fits

end Reader
end PalmWebKit
