import TableAccess.Connection
import TableAccess.Placeholder.Positional
import TableAccess.Text.Octets
/-!
# Transactions

Every statement runs in a transaction of its own: the transaction is opened, the statement
is prepared and run, and the transaction is committed.  If preparing or running fails, the
transaction is rolled back, and the error is the result; if the rollback fails as well, a
note about it is appended.  A transaction that cannot be opened is not rolled back, and
neither is one that cannot be committed.

Main results:

- Theorem `loggedSql_of_le`: SQL within the limit is reported whole.
- Theorem `undo_run_result`: undoing a transaction ends with the error that caused it,
  which has the note of a failed rollback if there was one.
- Theorem `enclosed_run_of_begin_error`: if no transaction can be opened, nothing else is
  done.
-/

namespace TableAccess.Transaction

open Access

variable {σ π α : Type}

/-! ## Reported SQL -/

/-- The mark at the end of SQL that is not reported whole. -/
def ellipsis : String := "..."

/-- SQL as it is reported: within a limit of octets, if there is one. -/
def loggedSql (limit : Option Nat) (sql : String) : String :=
  match limit with
  | none => sql
  | some limit =>
    if Text.utf8Length sql.toList ≤ limit then
      sql
    else
      String.ofList (Text.truncate limit sql.toList) ++ ellipsis

/-- Without a limit SQL is reported whole. -/
@[simp]
theorem loggedSql_none (sql : String) : loggedSql none sql = sql :=
  rfl

/-- SQL within the limit is reported whole. -/
theorem loggedSql_of_le {limit : Nat} {sql : String}
    (h : Text.utf8Length sql.toList ≤ limit) : loggedSql (some limit) sql = sql := by
  simp [loggedSql, h]

/-! ## Running in a transaction -/

/-- Roll back because of an error, and fail with it. -/
def undo (c : Connection σ π) (operation : String) (cause : AccessError) : Access σ α := do
  give (.rollingBack operation cause)
  match ← attempt c.rollingBack with
  | .ok () => fail cause
  | .error rollback =>
    give (.rollbackFailed operation rollback)
    fail (cause.withRollbackFailure rollback)

/-- Run an action in a transaction; `affected` says how many rows its result concerns. -/
def enclosed (c : Connection σ π) (operation : String) (affected : α → Nat)
    (action : Access σ α) : Access σ α := do
  c.beginning
  match ← attempt action with
  | .ok a =>
    c.committing
    give (.committed operation (affected a))
    return a
  | .error cause => undo c operation cause

/-- The words for a connection that was never made. -/
def noConnection : String := "no database connection established"

/-- Compile a statement and run it in a transaction by the given action.  Without a
connection nothing is done. -/
def ofStatement (connection : Option (Connection σ π)) (limit : Option Nat)
    (operation : String) (affected : α → Nat) (statement : Statement)
    (action : Connection σ π → Positional → Access σ α) : Access σ α := do
  match connection with
  | none => fail (.connectionUnavailable noConnection)
  | some c =>
    let compiled ← Positional.compileNoted statement
    give (.executing operation (loggedSql limit compiled.sql) compiled.parameters.length)
    enclosed c operation affected (action c compiled)

/-- Prepare and run a statement for its rows. -/
def queryPrepared (c : Connection σ π) (compiled : Positional) : Access σ (List Row) := do
  let prepared ← c.preparing compiled.sql
  c.querying compiled.sql prepared compiled.parameters

/-- Prepare and run a statement for the number of affected rows. -/
def executePrepared (c : Connection σ π) (compiled : Positional) : Access σ Nat := do
  let prepared ← c.preparing compiled.sql
  c.executing compiled.sql prepared compiled.parameters

/-- Run a statement in a transaction for its rows. -/
def query (connection : Option (Connection σ π)) (limit : Option Nat) (operation : String)
    (statement : Statement) : Access σ (List Row) :=
  ofStatement connection limit operation List.length statement queryPrepared

/-- Run a statement in a transaction for the number of affected rows. -/
def execute (connection : Option (Connection σ π)) (limit : Option Nat) (operation : String)
    (statement : Statement) : Access σ Nat :=
  ofStatement connection limit operation id statement executePrepared

/-! ## Failures -/

/-- Undoing a transaction ends with the error that caused it, which has the note of a
failed rollback if there was one. -/
theorem undo_run_result (c : Connection σ π) (operation : String) (cause : AccessError) (s : σ) :
    ((undo c operation cause : Access σ α).run s).result =
      match (c.rollback s).1 with
      | .ok () => .error cause
      | .error rollback => .error (cause.withRollbackFailure rollback) := by
  cases h : (c.rollback s).1 <;> simp [undo, bind_run, Connection.rollingBack, h]

/-- If no transaction can be opened, nothing else is done. -/
theorem enclosed_run_of_begin_error {c : Connection σ π} {s : σ} {e : AccessError}
    (h : (c.begin s).1 = .error e) (operation : String) (affected : α → Nat)
    (action : Access σ α) :
    (enclosed c operation affected action).run s =
      ⟨.error e, (c.begin s).2, [.call .begin (.error e)]⟩ := by
  simp [enclosed, bind_run, Connection.beginning, h, Except.map]

/-- Without a connection nothing is done. -/
theorem ofStatement_none_run (limit : Option Nat) (operation : String) (affected : α → Nat)
    (statement : Statement) (action : Connection σ π → Positional → Access σ α) (s : σ) :
    (ofStatement none limit operation affected statement action).run s =
      ⟨.error (.connectionUnavailable noConnection), s, []⟩ :=
  rfl

end TableAccess.Transaction
