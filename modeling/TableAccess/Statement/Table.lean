import TableAccess.Placeholder.Name
import TableAccess.Statement.Clause
/-!
# Statements on a table

Inserting, updating, selecting, deleting and truncating.  Every name is checked before
it becomes part of the text, and every value that is written is bound to a placeholder
named after its column, or after the position of its column if the column's name cannot
be a placeholder.

Main results:

- Theorem `insert_empty`: an insert without values is refused.
- Theorem `update_empty`: so is an update without values.
-/

namespace TableAccess.Statement

/-! ## Columns with placeholders -/

/-- The name of the placeholder for the column at a position. -/
def placeholderFor (column : String) (position : Nat) : String :=
  if Placeholder.isName column.toList then column else "__c" ++ Text.natText position

/-- Check all columns of a row. -/
def checkColumns : List String → Except AccessError Unit
  | [] => .ok ()
  | name :: r => do
    let _ ← Identifier.checkColumn name
    checkColumns r

/-- Append a placeholder for every entry, with commas between them; `position` counts the
entries before. -/
def pushValues : (position : Nat) → List (String × Value) → Statement → Statement
  | _, [], s => s
  | position, (column, value) :: r, s =>
    let s := if position = 0 then s else s.push ", "
    pushValues (position + 1) r (s.pushPlaceholder (placeholderFor column position) value)

/-- Append an assignment for every entry, with commas between them; `position` counts the
entries before. -/
def pushAssignments : (position : Nat) → List (String × Value) → Statement →
    Except AccessError Statement
  | _, [], s => .ok s
  | position, (name, value) :: r, s => do
    let column ← Identifier.checkColumn name
    let s := if position = 0 then s else s.push ", "
    pushAssignments (position + 1) r
      (((s.push column).push "=").pushPlaceholder (placeholderFor column position) value)

/-! ## Writing -/

/-- The statement that inserts one record. -/
def insert (table : String) (values : Row) : Except AccessError Statement := do
  let table ← Identifier.checkTable table
  if values.isEmpty then
    .error (.emptyInput ("no column values supplied for insert into " ++ table))
  else
    checkColumns values.names
    let columns := String.intercalate ", " values.names
    let s := ofSql ("INSERT INTO " ++ table ++ " (" ++ columns ++ ") VALUES (")
    return (pushValues 0 values.entries s).push ")"

/-- The statement that updates the records that pass a filter and returns them. -/
def update (table : String) (values : Row) (filter : Filter) (style : OperandStyle) :
    Noted Statement := do
  let table ← Identifier.checkTable table
  if values.isEmpty then
    Noted.ofExcept (.error (.emptyInput ("no column values supplied for update of " ++ table)))
  else
    let s ← pushAssignments 0 values.entries (ofSql ("UPDATE " ++ table ++ " SET "))
    Noted.giveIf filter.isEmpty (.unfiltered table)
    let s ← pushWhere style filter s
    return s.returning "*"

/-- The statement that deletes the records whose column compares with a value. -/
def delete (table key : String) (value : Value) (style : OperandStyle) :
    Except AccessError Statement := do
  let table ← Identifier.checkTable table
  let entry := Comparison.ofEntry key value
  let column ← Identifier.checkColumn entry.1
  return (ofSql ("DELETE FROM " ++ table ++ " WHERE ")).pushComparison style column entry.2

/-- How a table is truncated. -/
structure Truncation where
  restartIdentity : Bool
  cascade : Bool
deriving DecidableEq, Repr

/-- Truncation that restarts the table's sequences and includes dependent tables. -/
def Truncation.full : Truncation := ⟨true, true⟩

/-- The statement that empties a table. -/
def truncate (table : String) (options : Truncation) : Except AccessError Statement := do
  let table ← Identifier.checkTable table
  let identity := if options.restartIdentity then "RESTART IDENTITY" else "CONTINUE IDENTITY"
  let dependents := if options.cascade then "CASCADE" else "RESTRICT"
  return ofSql ("TRUNCATE " ++ table ++ " " ++ identity ++ " " ++ dependents)

/-! ## Reading -/

/-- The list of columns to select; none means all. -/
def selectList (columns : List String) : Except AccessError String :=
  if columns.isEmpty then
    .ok "*"
  else
    (columns.mapM Identifier.checkSelectItem).map (String.intercalate ", ")

/-- The statement that selects records.  A page has an effect only together with an
order. -/
def select (table : String) (columns : List String) (selection : Selection)
    (style : OperandStyle) : Noted Statement := do
  let table ← Identifier.checkTable table
  let columns ← selectList columns
  let s ← pushWhere style selection.filter (ofSql ("SELECT " ++ columns ++ " FROM " ++ table))
  if selection.order.isEmpty then
    Noted.giveIf (selection.page ≠ .whole) (.unordered table)
    return s
  else
    let s ← pushOrder selection.order s
    return pushPage selection.page s

/-- The statement of a caller's own SQL, with every entry bound by its name. -/
def raw (sql : String) (values : Row) : Statement :=
  values.entries.foldl (fun s e => s.bind (bareName e.1) e.2) (ofSql sql)

/-! ## Refusals -/

/-- An insert without values is refused. -/
theorem insert_empty {table : String} (h : Identifier.checkTable table = .ok table) :
    insert table .empty =
      .error (.emptyInput ("no column values supplied for insert into " ++ table)) := by
  simp only [insert, h]
  rfl

/-- An update without values is refused. -/
theorem update_empty {table : String} (h : Identifier.checkTable table = .ok table)
    (filter : Filter) (style : OperandStyle) :
    (update table .empty filter style).result =
      .error (.emptyInput ("no column values supplied for update of " ++ table)) := by
  simp only [update, h, Noted.result_bind]
  rfl

end TableAccess.Statement
