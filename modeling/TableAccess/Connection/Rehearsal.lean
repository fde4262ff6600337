import TableAccess.Connection
/-!
# Rehearsed connections

A rehearsed connection needs no server.  Its answers are arranged beforehand: the rows of
the queries and the counts of the executions to come, the errors with which steps fail, and
one sequence value.  Where nothing is arranged, a query gives no rows and an execution
affects none.

Main results:

- Theorem `takeFailure_nil`: without arranged errors every step succeeds.
- Theorem `length_takeFailure`: a step uses up at most one error.
-/

namespace TableAccess

/-- A step that can be made to fail. -/
inductive Step where
  | begin
  | commit
  | rollback
  | prepare
  | query
  | execute
deriving DecidableEq, Repr

/-- The answers that are arranged for the steps to come. -/
structure Rehearsal where
  /-- The rows of each query. -/
  rows : List (List Row)
  /-- The number of rows that each execution affects. -/
  affected : List Nat
  /-- The errors with which steps fail; each is used once. -/
  failures : List (Step × AccessError)
  /-- The value that a sequence gave last. -/
  lastId : Int64

namespace Rehearsal

/-! ## Failures -/

/-- The first error arranged for a step, and the errors that are left. -/
def takeFailure (step : Step) :
    List (Step × AccessError) → Option AccessError × List (Step × AccessError)
  | [] => (none, [])
  | (other, e) :: r =>
    if other = step then
      (some e, r)
    else
      let taken := takeFailure step r
      (taken.1, (other, e) :: taken.2)

/-- Make a step; if no error is arranged for it, `succeed` says what it gives. -/
def take {α : Type} (step : Step) (succeed : Rehearsal → α × Rehearsal) (s : Rehearsal) :
    Except AccessError α × Rehearsal :=
  let taken := takeFailure step s.failures
  let s := { s with failures := taken.2 }
  match taken.1 with
  | some e => (.error e, s)
  | none =>
    let given := succeed s
    (.ok given.1, given.2)

/-- Make a step that gives nothing. -/
def takeStep (step : Step) : Rehearsal → Except AccessError Unit × Rehearsal :=
  take step fun s => ((), s)

/-! ## Answers -/

/-- The rows of the next query. -/
def nextRows (s : Rehearsal) : List Row × Rehearsal :=
  match s.rows with
  | [] => ([], s)
  | rows :: r => (rows, { s with rows := r })

/-- The number of rows that the next execution affects. -/
def nextAffected (s : Rehearsal) : Nat × Rehearsal :=
  match s.affected with
  | [] => (0, s)
  | count :: r => (count, { s with affected := r })

/-- The connection that gives the arranged answers. -/
def connection : Connection Rehearsal Unit where
  begin := takeStep .begin
  commit := takeStep .commit
  rollback := takeStep .rollback
  prepare _ := takeStep .prepare
  query _ _ := take .query nextRows
  execute _ _ := take .execute nextAffected
  lastInsertId s := (.ok s.lastId, s)

/-! ## Laws -/

/-- Without arranged errors every step succeeds. -/
@[simp]
theorem takeFailure_nil (step : Step) : takeFailure step [] = (none, []) :=
  rfl

/-- A step uses up at most one error. -/
theorem length_takeFailure (step : Step) (failures : List (Step × AccessError)) :
    (takeFailure step failures).2.length + (takeFailure step failures).1.toList.length =
      failures.length := by
  induction failures with
  | nil => rfl
  | cons entry r ih =>
    obtain ⟨other, e⟩ := entry
    unfold takeFailure
    split
    · simp
    · simp only [List.length_cons]
      omega

end Rehearsal

end TableAccess
