import TableAccess.Session
/-!
# Operations

Everything that can be asked of a session, as data, so that whole histories of use can be
told.  The operations of a history follow one another on the same connection, and an
operation that fails does not stop those after it.

Main results:

- Theorem `history_nil`: nothing happens where nothing is asked.
- Theorem `history_append`: a history goes on where its first part ended.
-/

namespace TableAccess

/-- Something to ask of a session. -/
inductive Operation where
  | insert (table : String) (values : Row) (key : String)
  | insertList (table : String) (columns : List String) (records : List (List Value))
      (key : String)
  | insertOrUpdate (table : String) (values : Row) (key : String)
  | update (table : String) (values : Row) (filter : Filter)
  | select (table : String) (columns : List String) (selection : Selection)
  | selectAll (table : String) (order : Order)
  | delete (table key : String) (value : Value)
  | truncate (table : String) (options : Statement.Truncation)
  | executeRaw (sql : String) (values : Row)
  | queryRaw (sql : String) (values : Row)
  | lastInsertId

/-- What an operation gives. -/
inductive Answer where
  | rows (rows : List Row)
  | affected (count : Nat)
  | identifier (id : Int64)
  | list (results : List (Except AccessError (List Row)))

namespace Session

variable {σ π : Type} (session : Session σ π)

/-- Do what an operation asks for. -/
def perform : Operation → Access σ Answer
  | .insert table values key => .rows <$> session.insert table values key
  | .insertList table columns records key =>
    .list <$> session.insertList table columns records key
  | .insertOrUpdate table values key => .rows <$> session.insertOrUpdate table values key
  | .update table values filter => .rows <$> session.update table values filter
  | .select table columns selection => .rows <$> session.select table columns selection
  | .selectAll table order => .rows <$> session.selectAll table order
  | .delete table key value => .affected <$> session.delete table key value
  | .truncate table options => .affected <$> session.truncate table options
  | .executeRaw sql values => .affected <$> session.executeRaw sql values
  | .queryRaw sql values => .rows <$> session.queryRaw sql values
  | .lastInsertId => .identifier <$> session.lastInsertId

/-- Do what operations ask for, one after the other. -/
def history (operations : List Operation) (s : σ) : List (Outcome σ Answer) :=
  Access.outcomes (operations.map session.perform) s

/-- Nothing happens where nothing is asked. -/
@[simp]
theorem history_nil (s : σ) : session.history [] s = [] :=
  rfl

/-- The first operation is followed by all others, which start from the state that it
leaves. -/
theorem history_cons (operation : Operation) (r : List Operation) (s : σ) :
    session.history (operation :: r) s =
      (session.perform operation).run s ::
        session.history r ((session.perform operation).run s).state :=
  rfl

/-- The state in which outcomes leave a connection. -/
def finalState (s : σ) : List (Outcome σ Answer) → σ
  | [] => s
  | outcome :: r => finalState outcome.state r

/-- A history goes on where its first part ended. -/
theorem history_append (a b : List Operation) (s : σ) :
    session.history (a ++ b) s =
      session.history a s ++ session.history b (finalState s (session.history a s)) := by
  induction a generalizing s with
  | nil => rfl
  | cons operation r ih =>
    simp only [List.cons_append, history_cons, ih, finalState]

end Session

end TableAccess
