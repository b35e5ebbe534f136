import Mathlib

/-!
# Parsers that may fail

A parser takes a value off the front of a stream or fails.  It reads a text as
a value when it does so in front of every continuation; it is local when
whatever it takes it also reads as the same value in front of anything else.
-/

namespace PalmWebKit

open List

/-- A parser of values from a stream of symbols. -/
abbrev Parser (Symbol : Type) := StateT (List Symbol) Option

namespace Parser

variable {Symbol First Second Value : Type}

/-- Take one symbol. -/
def token : Parser Symbol Symbol
  | [] => none
  | symbol :: stream => some (symbol, stream)

/-- Take a number of symbols. -/
def exactly (count : Nat) : Parser Symbol (List Symbol) := fun stream =>
  if stream.length < count then none
  else some (stream.take count, stream.drop count)

/-- Whether the stream has ended. -/
def atEnd : Parser Symbol Bool := fun stream =>
  some (stream.isEmpty, stream)

/-- Fail at the end of the stream. -/
def more : Parser Symbol Unit := fun stream =>
  if stream.isEmpty then none else some ((), stream)

/-- Take a number of values, one after the other. -/
def times (parser : Parser Symbol Value) : Nat → Parser Symbol (List Value)
  | 0 => pure []
  | count + 1 => do
      let value ← parser
      let values ← times parser count
      pure (value :: values)

/-- A parser that starts with a symbol and may call itself on what follows it,
at most so deep. -/
def nestedWithin (payload : Symbol → Parser Symbol Value → Parser Symbol Value) :
    Nat → Parser Symbol Value
  | 0 => failure
  | depth + 1 => token >>= fun symbol => payload symbol (nestedWithin payload depth)

/-- Every level of nesting takes a symbol, so that the length of the stream is
deep enough. -/
def nested (payload : Symbol → Parser Symbol Value → Parser Symbol Value) : Parser Symbol Value :=
  fun stream => nestedWithin payload stream.length stream

/-- Give back what another parser takes. -/
def taken (parser : Parser Symbol Value) : Parser Symbol (List Symbol) :=
  fun stream => (parser stream).map fun result =>
    (stream.take (stream.length - result.2.length), result.2)

theorem bind_apply (parser : Parser Symbol First) (next : First → Parser Symbol Second)
    (stream : List Symbol) :
    (parser >>= next) stream = (parser stream).bind fun result => next result.1 result.2 := rfl

/-- In front of every continuation the text is taken off as the value. -/
def Reads (parser : Parser Symbol Value) (text : List Symbol) (value : Value) : Prop :=
  ∀ rest, parser (text ++ rest) = some (value, rest)

/-- Whatever is taken is a text that is read as the same value everywhere. -/
def Local (parser : Parser Symbol Value) : Prop :=
  ∀ stream value rest, parser stream = some (value, rest) →
    ∃ text, stream = text ++ rest ∧ parser.Reads text value

/-! ## Reading -/

namespace Reads

theorem pure (value : Value) :
    (Pure.pure value : Parser Symbol Value).Reads [] value := fun _ => rfl

variable {parser : Parser Symbol First}

theorem bind {next : First → Parser Symbol Second} {text nextText : List Symbol} {first : First}
    {second : Second} (reads : parser.Reads text first)
    (readsNext : (next first).Reads nextText second) :
    (parser >>= next).Reads (text ++ nextText) second := by
  intro rest
  rw [bind_apply, append_assoc, reads]
  exact readsNext rest

variable {text : List Symbol}

/-- The last parser of a sequence may be followed by a value made from its
result. -/
theorem bind_pure {first : First} (reads : parser.Reads text first)
    (result : First → Second) : (parser >>= fun value => Pure.pure (result value)).Reads text
      (result first) := by
  intro rest
  rw [bind_apply, reads]
  rfl

theorem token (symbol : Symbol) : Parser.token.Reads [symbol] symbol := fun _ => rfl

theorem exactly (text : List Symbol) : (Parser.exactly text.length).Reads text text := by
  intro rest
  rw [Parser.exactly, if_neg]
  · rw [take_left, drop_left]
  · rw [length_append]
    omega

variable
  {parser : Parser Symbol Value}
  {value : Value}

/-- A test for the end in front of a text that is not empty. -/
theorem more_bind (nonempty : text ≠ []) (reads : parser.Reads text value) :
    (more >>= fun _ => parser).Reads text value := by
  intro rest
  rw [bind_apply, more, if_neg]
  · exact reads rest
  · simp [nonempty]

theorem atEnd_bind {next : Bool → Parser Symbol Value} (nonempty : text ≠ [])
    (reads : (next false).Reads text value) : (atEnd >>= next).Reads text value := by
  intro rest
  have notEmpty : (text ++ rest).isEmpty = false := by simp [nonempty]
  rw [bind_apply, atEnd, notEmpty]
  exact reads rest

theorem times {texts : List (List Symbol)} {values : List Value}
    (all : List.Forall₂ parser.Reads texts values) :
    (parser.times values.length).Reads texts.flatten values := by
  induction all with
  | nil => exact Reads.pure []
  | cons reads _ ih => exact reads.bind (ih.bind_pure _)

theorem taken (reads : parser.Reads text value) : parser.taken.Reads text text := by
  intro rest
  rw [Parser.taken, reads, Option.map_some, length_append, Nat.add_sub_cancel, take_left]

/-- The whole text is taken when nothing follows. -/
theorem whole (reads : parser.Reads text value) : parser text = some (value, []) := by
  simpa only [append_nil] using reads []

end Reads

/-! ## Refusing -/

/-- In front of every continuation the text is not accepted. -/
def Refuses (parser : Parser Symbol Value) (text : List Symbol) : Prop :=
  ∀ rest, parser (text ++ rest) = none

namespace Refuses

theorem failure (text : List Symbol) :
    (Alternative.failure : Parser Symbol Value).Refuses text := fun _ => rfl

variable {parser : Parser Symbol First}

theorem bind {text : List Symbol} (refuses : parser.Refuses text)
    (next : First → Parser Symbol Second) (more : List Symbol) :
    (parser >>= next).Refuses (text ++ more) := by
  intro rest
  rw [bind_apply, append_assoc, refuses]
  rfl

theorem of_reads {next : First → Parser Symbol Second} {text nextText : List Symbol} {first : First}
    (reads : parser.Reads text first)
    (refuses : (next first).Refuses nextText) : (parser >>= next).Refuses (text ++ nextText) := by
  intro rest
  rw [bind_apply, append_assoc, reads]
  exact refuses rest

/-- One refused text among those of a list refuses the list. -/
theorem times {parser : Parser Symbol Value} {write : Value → List Symbol} {good : Value → Prop}
    {values : List Value} (reads : ∀ value ∈ values, good value → parser.Reads (write value) value)
    (refuses : ∀ value, ¬ good value → parser.Refuses (write value))
    (bad : ¬ ∀ value ∈ values, good value) :
    (parser.times values.length).Refuses (values.map write).flatten := by
  induction values with
  | nil => exact absurd (fun _ member => absurd member not_mem_nil) bad
  | cons value values ih =>
    by_cases isGood : good value
    · apply of_reads (reads value (.head _) isGood)
      have rest := ih
        (fun later member => reads later (.tail _ member))
        (fun allGood => bad (forall_mem_cons.2 ⟨isGood, allGood⟩))
      simpa only [append_nil] using rest.bind _ []
    · exact (refuses value isGood).bind _ _

end Refuses

/-! ## Locality -/

namespace Local

theorem pure (value : Value) : (Pure.pure value : Parser Symbol Value).Local := by
  intro stream result rest taken
  obtain ⟨rfl, rfl⟩ := Prod.mk.inj (Option.some.inj taken)
  exact ⟨[], rfl, Reads.pure _⟩

theorem failure : (Alternative.failure : Parser Symbol Value).Local := by
  intro stream result rest taken
  cases taken

theorem bind {parser : Parser Symbol First} {next : First → Parser Symbol Second}
    (isLocal : parser.Local) (nextLocal : ∀ first, (next first).Local) :
    (parser >>= next).Local := by
  intro stream second rest taken
  rw [bind_apply, Option.bind_eq_some_iff] at taken
  obtain ⟨⟨first, middle⟩, takenFirst, takenSecond⟩ := taken
  obtain ⟨text, rfl, reads⟩ := isLocal _ _ _ takenFirst
  obtain ⟨nextText, rfl, readsNext⟩ := nextLocal first _ _ _ takenSecond
  exact ⟨text ++ nextText, (append_assoc _ _ _).symm, reads.bind readsNext⟩

theorem ite {condition : Prop} [Decidable condition] {parser other : Parser Symbol Value}
    (isLocal : parser.Local) (otherLocal : other.Local) :
    (if condition then parser else other).Local := by
  split
  · exact isLocal
  · exact otherLocal

theorem token : (Parser.token : Parser Symbol Symbol).Local := by
  intro stream symbol rest taken
  cases stream with
  | nil => cases taken
  | cons first stream =>
    obtain ⟨rfl, rfl⟩ := Prod.mk.inj (Option.some.inj taken)
    exact ⟨[first], rfl, Reads.token first⟩

theorem exactly (count : Nat) : (Parser.exactly count : Parser Symbol (List Symbol)).Local := by
  intro stream text rest taken
  rw [Parser.exactly] at taken
  split at taken
  case isTrue => cases taken
  case isFalse enough =>
    obtain ⟨rfl, rfl⟩ := Prod.mk.inj (Option.some.inj taken)
    refine ⟨stream.take count, (take_append_drop count stream).symm, ?_⟩
    have full : (stream.take count).length = count := by
      rw [length_take]
      omega
    have reads := Reads.exactly (stream.take count)
    rwa [full] at reads

variable {parser : Parser Symbol Value}

theorem times (isLocal : parser.Local) (count : Nat) : (parser.times count).Local := by
  induction count with
  | zero => exact Local.pure []
  | succ count ih =>
    exact isLocal.bind fun value => ih.bind fun values => Local.pure (value :: values)

theorem taken (isLocal : parser.Local) : parser.taken.Local := by
  intro stream text rest takenText
  rw [Parser.taken, Option.map_eq_some_iff] at takenText
  obtain ⟨⟨value, remaining⟩, takenValue, same⟩ := takenText
  obtain ⟨used, rfl, reads⟩ := isLocal _ _ _ takenValue
  simp only [length_append, Nat.add_sub_cancel, take_left, Prod.mk.injEq] at same
  obtain ⟨rfl, rfl⟩ := same
  exact ⟨used, rfl, reads.taken⟩

/-- A local parser that takes a whole text reads it. -/
theorem reads_of_whole (isLocal : parser.Local) {text : List Symbol} {value : Value}
    (whole : parser text = some (value, [])) : parser.Reads text value := by
  obtain ⟨used, rfl, reads⟩ := isLocal _ _ _ whole
  rwa [append_nil]

end Local

/-! ## Nested formats -/

/-- What a parser with an inner one takes, it reads with every other inner
parser that reads no less on texts that are not longer. -/
def Uses (outer : Parser Symbol First → Parser Symbol Value) : Prop :=
  ∀ inner : Parser Symbol First, inner.Local →
    ∀ stream value rest, outer inner stream = some (value, rest) → ∃ text, stream = text ++ rest ∧
        ∀ other : Parser Symbol First, (∀ innerText first, innerText.length ≤ text.length →
            inner.Reads innerText first → other.Reads innerText first) →
          (outer other).Reads text value

namespace Uses

theorem of_local {parser : Parser Symbol Value} (isLocal : parser.Local) :
    Uses fun _ : Parser Symbol First => parser := by
  intro inner _ stream value rest taken
  obtain ⟨text, same, reads⟩ := isLocal _ _ _ taken
  exact ⟨text, same, fun _ _ => reads⟩

theorem bind {outer : Parser Symbol First → Parser Symbol Second}
    {next : Second → Parser Symbol First → Parser Symbol Value} (uses : Uses outer)
    (usesNext : ∀ second, Uses (next second)) :
    Uses fun inner => outer inner >>= fun second => next second inner := by
  intro inner innerLocal stream value rest taken
  change ((outer inner) stream).bind _ = some (value, rest) at taken
  rw [Option.bind_eq_some_iff] at taken
  obtain ⟨⟨second, middle⟩, takenSecond, takenValue⟩ := taken
  obtain ⟨text, rfl, reads⟩ := uses inner innerLocal _ _ _ takenSecond
  obtain ⟨nextText, rfl, readsNext⟩ := usesNext second inner innerLocal _ _ _ takenValue
  refine ⟨text ++ nextText, (append_assoc _ _ _).symm, ?_⟩
  intro other agrees
  refine (reads other ?_).bind (readsNext other ?_)
  · intro innerText first short
    apply agrees
    rw [length_append]
    omega
  · intro innerText first short
    apply agrees
    rw [length_append]
    omega

theorem ite {condition : Prop} [Decidable condition]
    {outer other : Parser Symbol First → Parser Symbol Value} (uses : Uses outer)
    (otherUses : Uses other) :
    Uses fun inner => if condition then outer inner else other inner := by
  by_cases met : condition
  · simpa only [if_pos met] using uses
  · simpa only [if_neg met] using otherUses

theorem self : Uses fun inner : Parser Symbol Value => inner := by
  intro inner innerLocal stream value rest taken
  obtain ⟨text, same, reads⟩ := innerLocal _ _ _ taken
  exact ⟨text, same, fun other agrees => agrees text value (Nat.le_refl _) reads⟩

theorem times (count : Nat) : Uses fun inner : Parser Symbol Value => inner.times count := by
  induction count with
  | zero => exact of_local (Local.pure [])
  | succ count ih =>
    exact self.bind fun value =>
      ih.bind fun values => of_local (Local.pure (value :: values))

/-- With a local inner parser the outer one is local. -/
theorem isLocal {outer : Parser Symbol First → Parser Symbol Value} (uses : Uses outer)
    {inner : Parser Symbol First} (innerLocal : inner.Local) : (outer inner).Local := by
  intro stream value rest taken
  obtain ⟨text, same, reads⟩ := uses inner innerLocal _ _ _ taken
  exact ⟨text, same, reads inner fun _ _ _ innerReads => innerReads⟩

end Uses

section Nested

variable {payload : Symbol → Parser Symbol Value → Parser Symbol Value}

theorem local_nestedWithin (uses : ∀ symbol, Uses (payload symbol)) (depth : Nat) :
    (nestedWithin payload depth).Local := by
  induction depth with
  | zero => exact Local.failure
  | succ depth ih =>
    exact Local.token.bind fun symbol => (uses symbol).isLocal ih

variable
  {text : List Symbol}
  {value : Value}

variable (uses : ∀ symbol, Uses (payload symbol))
include uses

/-- What is taken at some depth is read at every depth that is not below the
length of the text. -/
theorem reads_nestedWithin {depth other : Nat}
    (reads : (nestedWithin payload depth).Reads text value) (deep : text.length ≤ other) :
    (nestedWithin payload other).Reads text value := by
  induction other generalizing depth text value with
  | zero =>
    obtain rfl : text = [] := length_eq_zero_iff.1 (by omega)
    cases depth with
    | zero | succ depth => cases reads []
  | succ other ih =>
    cases depth with
    | zero => cases reads []
    | succ depth =>
      cases text with
      | nil => cases reads []
      | cons symbol text =>
        have taken : payload symbol (nestedWithin payload depth) text =
            some (value, []) := reads.whole
        obtain ⟨used, same, readsWith⟩ := uses symbol _
          (local_nestedWithin uses depth) _ _ _ taken
        rw [append_nil] at same
        subst same
        rw [length_cons] at deep
        refine (Reads.token symbol).bind (readsWith _ ?_)
        intro innerText first short innerReads
        exact ih innerReads (by omega)

theorem reads_nested_iff :
    (nested payload).Reads text value ↔
      ∃ depth, (nestedWithin payload depth).Reads text value := by
  constructor
  · intro reads
    refine ⟨text.length, ?_⟩
    exact (local_nestedWithin uses text.length).reads_of_whole reads.whole
  · rintro ⟨depth, reads⟩ rest
    refine reads_nestedWithin uses reads ?_ rest
    rw [length_append]
    exact Nat.le_add_right _ _

theorem local_nested : (nested payload).Local := by
  intro stream value rest taken
  obtain ⟨text, same, reads⟩ := local_nestedWithin uses _ _ _ _ taken
  exact ⟨text, same, (reads_nested_iff uses).2 ⟨_, reads⟩⟩

/-- The nested parser calls itself without a bound. -/
theorem nested_eq :
    nested payload = token >>= fun symbol => payload symbol (nested payload) := by
  funext stream
  cases stream with
  | nil => rfl
  | cons symbol stream =>
    change payload symbol (nestedWithin payload stream.length) stream =
      payload symbol (nested payload) stream
    apply Option.ext
    rintro ⟨value, rest⟩
    constructor
    · intro taken
      obtain ⟨text, rfl, readsWith⟩ := uses symbol _
        (local_nestedWithin uses _) _ _ _ taken
      exact readsWith _ (fun innerText first _ reads => (reads_nested_iff uses).2 ⟨_, reads⟩) rest
    · intro taken
      obtain ⟨text, rfl, readsWith⟩ := uses symbol _
        (local_nested uses) _ _ _ taken
      refine readsWith _ ?_ rest
      intro innerText first short reads
      obtain ⟨depth, readsWithin⟩ := (reads_nested_iff uses).1 reads
      refine reads_nestedWithin uses readsWithin ?_
      rw [length_append]
      omega

omit uses

/-- A symbol and a payload are read by reading the payload. -/
theorem Reads.nested (uses : ∀ symbol, Uses (payload symbol)) {symbol : Symbol}
    (reads : (payload symbol (Parser.nested payload)).Reads text value) :
    (Parser.nested payload).Reads (symbol :: text) value := by
  rw [nested_eq uses]
  exact (Reads.token symbol).bind reads

end Nested

end Parser
end PalmWebKit
