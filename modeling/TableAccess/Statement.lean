import TableAccess.Filter
import TableAccess.Noted
/-!
# Statements

A statement is SQL text with named placeholders, the values bound to those names, and a
count of the names that were made up for it.  It is built by appending text and binding
values.

Main results:

- Theorems `bound?_bind_self` and `bound?_bind_of_ne`: a bound name has its new value, and
  all other names keep theirs.
- Theorem `sql_pushPlaceholder`: a placeholder is written as a colon and its name.
-/

namespace TableAccess

/-- SQL text with named placeholders and the values bound to them. -/
structure Statement where
  sql : String
  binds : Row
  generated : Nat
deriving Inhabited

namespace Statement

/-- The statement of a text without bound values. -/
def ofSql (sql : String) : Statement := ⟨sql, .empty, 0⟩

/-- The value bound to a name. -/
def bound? (s : Statement) (name : String) : Option Value :=
  s.binds.find? name

/-- Append text. -/
def push (s : Statement) (text : String) : Statement :=
  { s with sql := s.sql ++ text }

/-- Bind a value to a name, in place of an earlier value. -/
def bind (s : Statement) (name : String) (value : Value) : Statement :=
  { s with binds := s.binds.insert name value }

/-- Bind a value to a name unless the name is bound already. -/
def bindIfAbsent (s : Statement) (name : String) (value : Value) : Noted Statement :=
  if (s.bound? name).isSome then
    ⟨.ok s, [.bindingKept name]⟩
  else
    ⟨.ok (s.bind name value), []⟩

/-- Append a placeholder and bind a value to its name. -/
def pushPlaceholder (s : Statement) (name : String) (value : Value) : Statement :=
  (s.push (":" ++ name)).bind name value

/-- The made-up name with a number. -/
def generatedName (n : Nat) : String :=
  "__f" ++ Text.natText n

/-- Append a placeholder with the next made-up name and bind a value to it. -/
def pushGenerated (s : Statement) (value : Value) : Statement :=
  { s with generated := s.generated + 1 }.pushPlaceholder (generatedName s.generated) value

/-- Append the list of columns that the statement returns. -/
def returning (s : Statement) (columns : String) : Statement :=
  (s.push " RETURNING ").push columns

/-! ## What the steps do -/

@[simp]
theorem sql_push (s : Statement) (text : String) : (s.push text).sql = s.sql ++ text :=
  rfl

@[simp]
theorem binds_push (s : Statement) (text : String) : (s.push text).binds = s.binds :=
  rfl

@[simp]
theorem generated_push (s : Statement) (text : String) :
    (s.push text).generated = s.generated :=
  rfl

@[simp]
theorem sql_bind (s : Statement) (name : String) (value : Value) :
    (s.bind name value).sql = s.sql :=
  rfl

@[simp]
theorem binds_bind (s : Statement) (name : String) (value : Value) :
    (s.bind name value).binds = s.binds.insert name value :=
  rfl

/-- A placeholder is written as a colon and its name. -/
@[simp]
theorem sql_pushPlaceholder (s : Statement) (name : String) (value : Value) :
    (s.pushPlaceholder name value).sql = s.sql ++ (":" ++ name) :=
  rfl

@[simp]
theorem binds_pushPlaceholder (s : Statement) (name : String) (value : Value) :
    (s.pushPlaceholder name value).binds = s.binds.insert name value :=
  rfl

/-- A bound name has its new value. -/
@[simp]
theorem bound?_bind_self (s : Statement) (name : String) (value : Value) :
    (s.bind name value).bound? name = some value :=
  s.binds.find?_insert_self name value

/-- All other names keep their values. -/
theorem bound?_bind_of_ne (s : Statement) {name other : String} (value : Value)
    (h : other ≠ name) : (s.bind name value).bound? other = s.bound? other :=
  s.binds.find?_insert_of_ne value h

end Statement

end TableAccess
