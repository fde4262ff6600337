import TableAccess.Statement.Table
import TableAccess.Transaction
/-!
# Sessions

A session gives access to the tables behind a connection.  Each of its operations builds a
statement and runs it in a transaction of its own; inserting a record and reading it back
are two transactions.  A session without a connection refuses every operation.

Main results:

- Theorem `insert_run_of_key_error`: a record is not inserted if the name of its key column
  is not valid.
- Theorem `insertList_append`: inserting two lists of records is inserting one list and
  then the other.
- Theorem `selectAll_eq_select`: reading a whole table is selecting without conditions.
-/

namespace TableAccess

/-! ## Settings -/

/-- How a session works. -/
structure Settings where
  /-- How the operands of comparisons reach the server. -/
  operandStyle : OperandStyle
  /-- The greatest number of octets of SQL that is reported, if there is a limit. -/
  reportLimit : Option Nat
deriving DecidableEq, Repr

/-- Operands are bound, and up to two hundred octets of SQL are reported. -/
def Settings.standard : Settings := ⟨.parameterized, some 200⟩

/-- Access to the tables behind a connection, if there is one. -/
structure Session (σ π : Type) where
  connection : Option (Connection σ π)
  settings : Settings

namespace Session

open Access

variable {σ π : Type} (session : Session σ π)

/-- Whether there is a connection. -/
def isConnected : Bool :=
  session.connection.isSome

/-! ## Statements of a session -/

/-- Run a statement for its rows. -/
def query (operation : String) (statement : Statement) : Access σ (List Row) :=
  Transaction.query session.connection session.settings.reportLimit operation statement

/-- Run a statement for the number of affected rows. -/
def execute (operation : String) (statement : Statement) : Access σ Nat :=
  Transaction.execute session.connection session.settings.reportLimit operation statement

/-! ## Reading -/

/-- Select the columns of a table's records; no columns means all. -/
def select (table : String) (columns : List String) (selection : Selection) :
    Access σ (List Row) := do
  let statement ← Statement.select table columns selection session.settings.operandStyle
  session.query "fetch" statement

/-- All records of a table in the given order. -/
def selectAll (table : String) (order : Order) : Access σ (List Row) :=
  session.select table [] { Selection.everything with order := order }

/-! ## Writing -/

/-- The first value of the first row of a result. -/
def firstValue? (rows : List Row) : Option Value :=
  rows.head?.bind fun row => row.values.head?

/-- Insert a record, and read it back by the value that the server gave to its key
column. -/
def insert (table : String) (values : Row) (key : String) : Access σ (List Row) := do
  let _ ← Identifier.checkColumn key
  let statement ← Statement.insert table values
  let returned ← session.query "insert" (statement.returning key)
  match firstValue? returned with
  | none => fail (.execution none ("insert into " ++ table ++ " returned no " ++ key))
  | some id =>
    session.select table ["*"] { Selection.everything with filter := .ofKey key id }

/-- Insert a record whose values are given in the order of the columns. -/
def insertPositional (table : String) (columns : List String) (key : String)
    (values : List Value) : Access σ (List Row) :=
  match Row.zip columns values with
  | some record => session.insert table record key
  | none =>
    fail (.validation ("row has " ++ Text.natText values.length ++ " values for " ++
      Text.natText columns.length ++ " columns"))

/-- Insert records whose values are given in the order of the columns, one by one; a record
that fails does not stop the others. -/
def insertList (table : String) (columns : List String) (records : List (List Value))
    (key : String) : Access σ (List (Except AccessError (List Row))) :=
  attemptAll (records.map (session.insertPositional table columns key))

/-- Update the records that pass a filter, and return them. -/
def update (table : String) (values : Row) (filter : Filter) : Access σ (List Row) := do
  let statement ← Statement.update table values filter session.settings.operandStyle
  session.query "update" statement

/-- Insert a record; if that fails when it is run, update the record with the same key. -/
def insertOrUpdate (table : String) (values : Row) (key : String) : Access σ (List Row) := do
  match ← attempt (session.insert table values key) with
  | .ok rows => return rows
  | .error e =>
    if e.isExecution then
      give (.updatingInstead table e)
      match values.find? key with
      | none => fail (.emptyInput ("no value for identifier field " ++ key))
      | some id => session.update table values (.ofKey key id.coerceInteger)
    else
      fail e

/-- Delete the records whose column compares with a value. -/
def delete (table key : String) (value : Value) : Access σ Nat := do
  let statement ← Statement.delete table key value session.settings.operandStyle
  session.execute "delete" statement

/-- Delete all records of a table. -/
def truncate (table : String) (options : Statement.Truncation) : Access σ Nat := do
  let statement ← Statement.truncate table options
  session.execute "delete_all" statement

/-! ## SQL of the caller -/

/-- Run a caller's own SQL for the number of affected rows. -/
def executeRaw (sql : String) (values : Row) : Access σ Nat :=
  session.execute "raw_query" (Statement.raw sql values)

/-- Run a caller's own SQL for its rows. -/
def queryRaw (sql : String) (values : Row) : Access σ (List Row) :=
  session.query "raw_fetch" (Statement.raw sql values)

/-- The value that a sequence gave last. -/
def lastInsertId : Access σ Int64 :=
  match session.connection with
  | none => fail (.connectionUnavailable Transaction.noConnection)
  | some c => c.askingLastInsertId

/-! ## Laws -/

/-- A record is not inserted if the name of its key column is not valid. -/
theorem insert_run_of_key_error {key : String} {e : AccessError}
    (h : Identifier.checkColumn key = .error e) (table : String) (values : Row) (s : σ) :
    (session.insert table values key).run s = ⟨.error e, s, []⟩ := by
  simp only [insert, h]
  rfl

/-- Inserting two lists of records is inserting one list and then the other. -/
theorem insertList_append (table : String) (columns : List String)
    (a b : List (List Value)) (key : String) :
    session.insertList table columns (a ++ b) key = do
      let first ← session.insertList table columns a key
      let second ← session.insertList table columns b key
      return first ++ second := by
  simp [insertList, attemptAll_append]

/-- Reading a whole table is selecting without conditions. -/
theorem selectAll_eq_select (table : String) (order : Order) :
    session.selectAll table order = session.select table [] ⟨.all, order, .whole⟩ :=
  rfl

end Session

end TableAccess
