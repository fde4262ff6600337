import TableAccess.Comparison
import TableAccess.Error
/-!
# Filters, orders and pages

What narrows a statement on a table.  A filter is either a list of SQL fragments or a
row of entries that are read as comparisons; if any fragment is not blank the fragments
count, and the entries are values that the fragments may name.

Main results:

- Theorem `hasFragments_iff`: fragments count exactly if one of them is not blank.
- Theorem `ofCount_zero`: a limit of zero rows means no limit.
-/

namespace TableAccess

open Text

/-! ## Choices -/

/-- How the operands of comparisons reach the server. -/
inductive OperandStyle where
  /-- Every operand is bound to a placeholder. -/
  | parameterized
  /-- Operands are written into the SQL text. -/
  | inline
deriving DecidableEq, Repr, Inhabited

/-- How conditions are joined. -/
inductive Joiner where
  | and
  | or
deriving DecidableEq, Repr, Inhabited

/-- A joiner in SQL. -/
def Joiner.sql : Joiner → String
  | .and => "AND"
  | .or => "OR"

/-! ## Filters -/

/-- The conditions of a statement. -/
structure Filter where
  fragments : List String
  values : Row
  joiner : Joiner
deriving Inhabited

namespace Filter

/-- The filter that every row passes. -/
def all : Filter := ⟨[], .empty, .and⟩

/-- The filter given by SQL fragments. -/
def ofFragments (fragments : List String) : Filter :=
  { all with fragments := fragments }

/-- The filter given by entries that are read as comparisons. -/
def ofRow (values : Row) : Filter :=
  { all with values := values }

/-- A filter with one more entry. -/
def add (filter : Filter) (name : String) (value : Value) : Filter :=
  { filter with values := filter.values.insert name value }

/-- A filter whose conditions are alternatives. -/
def alternatives (filter : Filter) : Filter :=
  { filter with joiner := .or }

/-- The name under which the value of an exact filter is bound. -/
def keyName : String := "__key"

/-- The filter for one exact value of a column.  The value is never read as a comparison,
so a sign at its front has no meaning. -/
def ofKey (column : String) (value : Value) : Filter :=
  (ofFragments [column ++ " = :" ++ keyName]).add keyName value

/-- The fragments that are not blank, without the blanks around them. -/
def liveFragments (filter : Filter) : List String :=
  (filter.fragments.map trim).filter fun s => !s.isEmpty

/-- Whether the fragments count. -/
def hasFragments (filter : Filter) : Bool :=
  !filter.liveFragments.isEmpty

/-- Whether a filter has no condition. -/
def isEmpty (filter : Filter) : Bool :=
  !filter.hasFragments && filter.values.isEmpty

/-- Fragments count exactly if one of them is not blank. -/
theorem hasFragments_iff (filter : Filter) :
    filter.hasFragments = true ↔ ∃ s ∈ filter.fragments, (trim s).isEmpty = false := by
  simp [hasFragments, liveFragments]

end Filter

/-! ## Orders -/

/-- A sort direction. -/
inductive Direction where
  | ascending
  | descending
deriving DecidableEq, Repr, Inhabited

namespace Direction

/-- A direction in SQL. -/
def sql : Direction → String
  | ascending => "ASC"
  | descending => "DESC"

/-- The lower-case form of an ASCII letter; every other character is kept. -/
def lowerAscii (c : Char) : Char :=
  if 'A' ≤ c && c ≤ 'Z' then Char.ofNat (c.toNat + 32) else c

/-- Read a direction in either letter case; nothing but blanks means ascending. -/
def read (s : String) : Except AccessError Direction :=
  let word := trim s
  let lower := String.ofList (word.toList.map lowerAscii)
  if lower = "" ∨ lower = "asc" then .ok ascending
  else if lower = "desc" then .ok descending
  else .error (.validation ("invalid sort direction '" ++ word ++ "'"))

end Direction

/-- The columns to sort by, each with its direction. -/
structure Order where
  terms : List (String × Direction)
deriving DecidableEq, Repr, Inhabited

namespace Order

/-- No order. -/
def unordered : Order := ⟨[]⟩

/-- Whether there is nothing to sort by. -/
def isEmpty (order : Order) : Bool :=
  order.terms.isEmpty

/-- An order with one more column to sort by. -/
def thenBy (order : Order) (column : String) (direction : Direction) : Order :=
  ⟨order.terms ++ [(column, direction)]⟩

/-- Read an order from columns and the words for their directions. -/
def read (pairs : List (String × String)) : Except AccessError Order :=
  (pairs.mapM fun p => (Direction.read p.2).map fun d => (p.1, d)).map Order.mk

end Order

/-! ## Pages -/

/-- The greatest number of rows wanted. -/
inductive Limit where
  | all
  | rows (count : Nat) (positive : 0 < count)
deriving DecidableEq, Repr, Inhabited

namespace Limit

/-- The limit of so many rows; zero means no limit. -/
def ofCount (count : Nat) : Limit :=
  if h : 0 < count then rows count h else all

/-- A limit in SQL. -/
def sql : Limit → String
  | all => "ALL"
  | rows count _ => natText count

/-- A limit of zero rows means no limit. -/
@[simp]
theorem ofCount_zero : ofCount 0 = all :=
  rfl

/-- Any other limit is kept. -/
theorem ofCount_of_pos {count : Nat} (h : 0 < count) : ofCount count = rows count h := by
  simp [ofCount, h]

end Limit

/-- A window of the ordered rows. -/
structure Page where
  limit : Limit
  offset : Nat
deriving DecidableEq, Repr, Inhabited

/-- The window of all rows. -/
def Page.whole : Page := ⟨.all, 0⟩

/-- Everything that narrows a select statement. -/
structure Selection where
  filter : Filter
  order : Order
  page : Page
deriving Inhabited

/-- The selection of all rows in no order. -/
def Selection.everything : Selection := ⟨.all, .unordered, .whole⟩

end TableAccess
