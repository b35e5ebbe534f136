import PalmWebKit.Text.CodeUnits

/-!
# Domains and paths of cookies

A cookie domain is stored in two columns: everything up to the second dot from
the right is the head, the rest is the tail.  Lookups select by tail and then
test the whole domain against the host and the cookie path against the path
of the URL.
-/

namespace PalmWebKit
namespace Cookie

open WString

/-- The loop of `secondDotFromTailPos`.  The first code unit is never looked
at: position zero also means that there is no second dot. -/
def secondDotLoop (chars : WString) : Nat → Nat → Nat
  | 0, _ => 0
  | position + 1, numDots =>
    if charAt chars (position + 1) = dot then
      if numDots + 1 = 2 then position + 1
      else secondDotLoop chars position (numDots + 1)
    else
      secondDotLoop chars position numDots

/-- Position of the second dot from the right. -/
def secondDotFromTailPos (text : WString) : Nat := secondDotLoop text (text.length - 1) 0

/-- `a` ends with the domain `b`, or is `b` without its leading dot. -/
def domainTailMatch (a b : WString) : Bool := endsWith a b || lit "." ++ a == b

/-- The path `b` is `a` or one of its ancestors. -/
def subPathMatch (a b : WString) : Bool :=
  if a.length < b.length then false
  else if a.take b.length ≠ b then false
  else if a.length = b.length then true
  else if b ≠ [] ∧ charAt a (b.length - 1) = slash then true
  else decide (charAt a b.length = slash)

/-- The host of a URL as a domain: without a trailing dot and with a leading
one.  Empty when the URL has no host. -/
def getDomainForUrl (url : KURL) : WString :=
  let domain :=
    if endsWith url.host (lit ".") then url.host.take (url.host.length - 1)
    else url.host
  if domain.isEmpty then []
  else if startsWith domain (lit ".") then domain
  else lit "." ++ domain

/-- Head and tail of a domain with a second dot. -/
def splitDomain (domain : WString) : Option (WString × WString) :=
  let secondDotPos := secondDotFromTailPos domain
  if 0 < secondDotPos then
    some (left domain (secondDotPos + 1), domain.drop (secondDotPos + 1))
  else
    none

/-- The tail under which the cookies of a host are looked up. -/
def hostTail (host : WString) : WString :=
  let secondDotPos := secondDotFromTailPos host
  if secondDotPos = 0 then host else host.drop (secondDotPos + 1)

theorem secondDotLoop_le (chars : WString) (position numDots : Nat) :
    secondDotLoop chars position numDots ≤ position := by
  induction position generalizing numDots with
  | zero => simp [secondDotLoop]
  | succ position ih =>
    simp only [secondDotLoop]
    split_ifs with isDot isSecond
    · exact le_refl _
    · exact (ih _).trans (Nat.le_succ _)
    · exact (ih _).trans (Nat.le_succ _)

/-- A second dot lies strictly before the position where counting started. -/
theorem secondDotLoop_lt (chars : WString) (position : Nat)
    (found : 0 < secondDotLoop chars position 0) : secondDotLoop chars position 0 < position := by
  induction position with
  | zero => simp [secondDotLoop] at found
  | succ position ih =>
    simp only [secondDotLoop] at found ⊢
    split_ifs at found ⊢ with isDot isSecond
    · omega
    · exact Nat.lt_succ_of_le (secondDotLoop_le _ _ _)
    · exact (ih found).trans (Nat.lt_succ_self _)

theorem secondDotFromTailPos_add_one_lt {text : WString} (long : 2 ≤ text.length) :
    secondDotFromTailPos text + 1 < text.length := by
  unfold secondDotFromTailPos
  rcases Nat.eq_zero_or_pos (secondDotLoop text (text.length - 1) 0) with
    none | found
  · omega
  · have := secondDotLoop_lt text (text.length - 1) found
    omega

/-- The tail of a domain with at least two code units is not empty. -/
theorem drop_secondDot_ne_nil {domain : WString} (long : 2 ≤ domain.length) :
    domain.drop (secondDotFromTailPos domain + 1) ≠ [] := by
  have := secondDotFromTailPos_add_one_lt long
  simpa [List.drop_eq_nil_iff] using this

theorem hostTail_ne_nil {host : WString} (nonempty : host ≠ []) : hostTail host ≠ [] := by
  unfold hostTail
  simp only
  split_ifs with noDot
  · exact nonempty
  · apply drop_secondDot_ne_nil
    by_contra short
    have positive : 0 < secondDotFromTailPos host := Nat.pos_of_ne_zero noDot
    have bound := secondDotLoop_le host (host.length - 1) 0
    unfold secondDotFromTailPos at positive
    omega

example : hostTail (lit "www.amazon.com") = lit "amazon.com" := by decide

end Cookie
end PalmWebKit
