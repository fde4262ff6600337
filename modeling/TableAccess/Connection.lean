import TableAccess.Access
/-!
# Connections

A connection opens and ends transactions, prepares statements, and runs prepared
statements for their rows or for the number of affected rows.  It is given by what each
call answers in each state, so that nothing else is assumed of the server behind it.

Main results:

- Theorem `calls_beginning` and its companions: every action of a connection makes exactly
  one call.
-/

namespace TableAccess

/-- A connection with states of type `σ` and prepared statements of type `π`. -/
structure Connection (σ π : Type) where
  /-- Open a transaction. -/
  begin : σ → Except AccessError Unit × σ
  /-- Make the open transaction permanent. -/
  commit : σ → Except AccessError Unit × σ
  /-- Undo the open transaction. -/
  rollback : σ → Except AccessError Unit × σ
  /-- Prepare a statement with numbered parameters. -/
  prepare : String → σ → Except AccessError π × σ
  /-- Run a prepared statement for its rows. -/
  query : π → List Value → σ → Except AccessError (List Row) × σ
  /-- Run a prepared statement for the number of affected rows. -/
  execute : π → List Value → σ → Except AccessError Nat × σ
  /-- The value that a sequence gave last. -/
  lastInsertId : σ → Except AccessError Int64 × σ

namespace Connection

variable {σ π : Type} (c : Connection σ π)

/-! ## Calls as actions -/

/-- The action that opens a transaction. -/
def beginning : Access σ Unit :=
  .make .begin (fun _ => .done) c.begin

/-- The action that makes a transaction permanent. -/
def committing : Access σ Unit :=
  .make .commit (fun _ => .done) c.commit

/-- The action that undoes a transaction. -/
def rollingBack : Access σ Unit :=
  .make .rollback (fun _ => .done) c.rollback

/-- The action that prepares a statement. -/
def preparing (sql : String) : Access σ π :=
  .make (.prepare sql) (fun _ => .done) (c.prepare sql)

/-- The action that runs a prepared statement, whose text was `sql`, for its rows. -/
def querying (sql : String) (prepared : π) (parameters : List Value) : Access σ (List Row) :=
  .make (.query sql parameters) .rows (c.query prepared parameters)

/-- The action that runs a prepared statement, whose text was `sql`, for the number of
affected rows. -/
def executing (sql : String) (prepared : π) (parameters : List Value) : Access σ Nat :=
  .make (.execute sql parameters) .affected (c.execute prepared parameters)

/-- The action that asks for the value that a sequence gave last. -/
def askingLastInsertId : Access σ Int64 :=
  .make .lastInsertId .identifier c.lastInsertId

/-! ## One call each -/

@[simp]
theorem calls_beginning (s : σ) : (c.beginning.run s).journal.calls = [.begin] :=
  rfl

@[simp]
theorem calls_committing (s : σ) : (c.committing.run s).journal.calls = [.commit] :=
  rfl

@[simp]
theorem calls_rollingBack (s : σ) : (c.rollingBack.run s).journal.calls = [.rollback] :=
  rfl

@[simp]
theorem calls_preparing (sql : String) (s : σ) :
    ((c.preparing sql).run s).journal.calls = [.prepare sql] :=
  rfl

@[simp]
theorem calls_querying (sql : String) (prepared : π) (parameters : List Value) (s : σ) :
    ((c.querying sql prepared parameters).run s).journal.calls = [.query sql parameters] :=
  rfl

@[simp]
theorem calls_executing (sql : String) (prepared : π) (parameters : List Value) (s : σ) :
    ((c.executing sql prepared parameters).run s).journal.calls = [.execute sql parameters] :=
  rfl

@[simp]
theorem calls_askingLastInsertId (s : σ) :
    (c.askingLastInsertId.run s).journal.calls = [.lastInsertId] :=
  rfl

end Connection

end TableAccess
