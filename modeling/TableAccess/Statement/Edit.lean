import TableAccess.Statement
/-!
# Edits of a statement

What can be done to a statement, as data, so that the whole history of a statement can be told.
Every edit says which text it appends and which name it binds; a name is either written, in
place of its earlier value, or offered a value that it takes only if it has none.

Main results:

- Theorem `result_history_append`: a history goes on where its first part ended.
-/

namespace TableAccess.Statement

/-- Something to do to a statement. -/
inductive Edit where
  /-- Append text. -/
  | push (text : String)
  /-- Bind a value to a name, in place of an earlier value. -/
  | bind (name : String) (value : Value)
  /-- Bind a value to a name unless the name is bound already. -/
  | bindIfAbsent (name : String) (value : Value)
  /-- Append a placeholder and bind a value to its name. -/
  | pushPlaceholder (name : String) (value : Value)
  /-- Append the list of columns that the statement returns. -/
  | returning (columns : String)

namespace Edit

/-- The text that an edit appends. -/
def text : Edit → String
  | push text => text
  | pushPlaceholder name _ => ":" ++ name
  | returning columns => " RETURNING " ++ columns
  | bind _ _ | bindIfAbsent _ _ => ""

/-- The name for which an edit has a value. -/
def name? : Edit → Option String
  | bind name _ | bindIfAbsent name _ | pushPlaceholder name _ => some name
  | push _ | returning _ => none

/-- The name that an edit binds whether it is bound or not, with its value. -/
def written? : Edit → Option (String × Value)
  | bind name value | pushPlaceholder name value => some (name, value)
  | push _ | bindIfAbsent _ _ | returning _ => none

/-- The name that an edit binds only if it is not bound, with its value. -/
def offered? : Edit → Option (String × Value)
  | bindIfAbsent name value => some (name, value)
  | push _ | bind _ _ | pushPlaceholder _ _ | returning _ => none

end Edit

/-- Do an edit. -/
def edit (s : Statement) : Edit → Noted Statement
  | .push text => Pure.pure (s.push text)
  | .bind name value => Pure.pure (s.bind name value)
  | .bindIfAbsent name value => s.bindIfAbsent name value
  | .pushPlaceholder name value => Pure.pure (s.pushPlaceholder name value)
  | .returning columns => Pure.pure (s.returning columns)

/-- Do edits one after the other. -/
def history (s : Statement) : List Edit → Noted Statement
  | [] => Pure.pure s
  | e :: r => do
    let t ← s.edit e
    t.history r

/-- A history goes on where its first part ended. -/
theorem result_history_append (s : Statement) (a b : List Edit) :
    (s.history (a ++ b)).result = (s.history a).result >>= fun t => (t.history b).result := by
  induction a generalizing s with
  | nil => rfl
  | cons e r ih => simp only [List.cons_append, history, Noted.result_bind, ih, bind_assoc]

end TableAccess.Statement
