import PalmWebKit.Cookie.Entry

/-!
# The cookie table

The table `Cookies` in the order of its rowids, with the statements that
`CookieService` prepares for it.  The table declares
`UNIQUE (domain_head, domain_tail, path, name) ON CONFLICT REPLACE`.
-/

namespace PalmWebKit
namespace Cookie

/-- Two rows agree on the columns of the `UNIQUE` constraint. -/
def CookieEntry.SameRow (first second : CookieEntry) : Prop :=
  first.domainTail = second.domainTail ∧ first.SameCookie second

instance (first second : CookieEntry) : Decidable (first.SameRow second) :=
  inferInstanceAs (Decidable (_ ∧ _))

/-- The table `Cookies`. -/
structure CookieTable where
  rows : List CookieEntry
  /-- The `UNIQUE` constraint. -/
  unique : rows.Pairwise fun first second => ¬first.SameRow second

/-- `LENGTH(X)` of a text: its characters before the first NUL, a surrogate
pair being one character. -/
def sqlLength : WString → Nat
  | [] => 0
  | [unit] => if unit = 0 then 0 else 1
  | unit :: next :: rest =>
    if unit = 0 then 0
    else if (0xD800 ≤ unit ∧ unit ≤ 0xDBFF) ∧ (0xDC00 ≤ next ∧ next ≤ 0xDFFF) then
      1 + sqlLength rest
    else
      1 + sqlLength (next :: rest)

/-- `ORDER BY LENGTH(domain_head) DESC, LENGTH(path) DESC`. -/
def OrderedBefore (first second : CookieEntry) : Prop :=
  sqlLength second.domainHead < sqlLength first.domainHead ∨
    (sqlLength second.domainHead = sqlLength first.domainHead ∧
      sqlLength second.path ≤ sqlLength first.path)

instance : DecidableRel OrderedBefore :=
  fun _ _ => inferInstanceAs (Decidable (_ ∨ _))

namespace CookieTable

def empty : CookieTable where
  rows := []
  unique := .nil

/-- `INSERT INTO Cookies VALUES (...)`, replacing a conflicting row. -/
def insert (table : CookieTable) (row : CookieEntry) : CookieTable where
  rows := table.rows.filter (fun old => ¬old.SameRow row) ++ [row]
  unique := by
    rw [List.pairwise_append]
    refine ⟨table.unique.sublist List.filter_sublist, List.pairwise_singleton _ _, ?_⟩
    intro old oldMember new newMember
    rw [List.mem_singleton.1 newMember]
    simpa using (List.mem_filter.1 oldMember).2

/-- A `DELETE` with a `WHERE` clause. -/
def delete (table : CookieTable) (condition : CookieEntry → Bool) : CookieTable where
  rows := table.rows.filter fun row => !condition row
  unique := table.unique.sublist List.filter_sublist

/-- `DELETE FROM Cookies WHERE domain_tail = (?) AND domain_head = (?) AND
name = (?) AND path = (?)`, with the four texts in the order they are bound. -/
def deleteCookie (table : CookieTable) (domainTail domainHead name path : WString) : CookieTable :=
  table.delete fun row =>
    row.domainTail = domainTail ∧ row.domainHead = domainHead ∧ row.name = name ∧ row.path = path

/-- `DELETE FROM Cookies WHERE domain_tail = (?) AND domain_head = (?)`. -/
def deleteDomain (table : CookieTable) (domainTail domainHead : WString) :
    CookieTable := table.delete fun row => row.domainTail = domainTail ∧ row.domainHead = domainHead

/-- `DELETE FROM Cookies WHERE expires = -1`. -/
def deleteSession (table : CookieTable) : CookieTable := table.delete fun row => row.expires = -1

/-- `INSERT INTO Cookies ... SELECT (?), (?), path, name, value, expires,
secure FROM Cookies WHERE domain_head = (?) AND domain_tail = (?)`. -/
def copyDomain (table : CookieTable)
    (dstDomainHead dstDomainTail srcDomainHead srcDomainTail : WString) : CookieTable :=
  (table.rows.filter fun row =>
      row.domainHead = srcDomainHead ∧ row.domainTail = srcDomainTail).foldl
    (fun copied row => copied.insert
      { row with domainHead := dstDomainHead, domainTail := dstDomainTail })
    table

/-- The rows of a tail, in rowid order. -/
def rowsOf (table : CookieTable) (domainTail : WString) : List CookieEntry :=
  table.rows.filter fun row => row.domainTail = domainTail

/-- `m_selectCookieStmt`: the rows of a tail, longer heads and then longer
paths first, rows that tie in rowid order. -/
def select (table : CookieTable) (domainTail : WString) : List CookieEntry :=
  (table.rowsOf domainTail).insertionSort OrderedBefore

section Rows

variable {table : CookieTable} {row stored : CookieEntry} {domainTail : WString}

theorem mem_rows_insert : stored ∈ (table.insert row).rows ↔
      stored = row ∨ (stored ∈ table.rows ∧ ¬stored.SameRow row) := by
  simp [insert, or_comm]

theorem mem_rows_delete {condition : CookieEntry → Bool} : stored ∈ (table.delete condition).rows ↔
      stored ∈ table.rows ∧ condition stored = false := by
  simp [delete]

theorem mem_rowsOf : stored ∈ table.rowsOf domainTail ↔
      stored ∈ table.rows ∧ stored.domainTail = domainTail := by
  simp [rowsOf]

theorem mem_select : stored ∈ table.select domainTail ↔
      stored ∈ table.rows ∧ stored.domainTail = domainTail := by
  rw [select, List.mem_insertionSort, mem_rowsOf]

/-- The rows of one tail are for distinct cookies. -/
theorem distinct_rowsOf (table : CookieTable) (domainTail : WString) :
    DistinctCookies (table.rowsOf domainTail) := by
  have unique : (table.rowsOf domainTail).Pairwise
      fun first second => ¬first.SameRow second := table.unique.sublist List.filter_sublist
  refine List.Pairwise.imp_of_mem ?_ unique
  intro first second firstMember secondMember ne same
  exact ne ⟨(mem_rowsOf.1 firstMember).2.trans (mem_rowsOf.1 secondMember).2.symm, same⟩

theorem distinct_select (table : CookieTable) (domainTail : WString) :
    DistinctCookies (table.select domainTail) := by
  exact ((List.perm_insertionSort OrderedBefore _).pairwise_iff
    fun unlike like => unlike like.symm).2
      (table.distinct_rowsOf domainTail)

end Rows

end CookieTable
end Cookie
end PalmWebKit
