import TableAccess.Row
import TableAccess.Text.Quoted
/-!
# Comparisons

A filter entry pairs a column with a value.  A sign at the front of the column's key, or
else at the front of a text value, chooses the operator; without a sign the operator is
equality.  Of two signs that fit, the longer one counts.  The two pattern operators
enclose their operand in percent signs.

Main results:

- Theorem `splitSign_append`: sign and rest make up the text.
- Theorem `ofValue_of_not_text`: values that are not texts are compared for equality.
-/

namespace TableAccess

open Text

/-! ## Operators -/

/-- How a column is compared with an operand. -/
inductive Operator where
  | equal
  | notEqual
  | less
  | atMost
  | greater
  | atLeast
  | like
  | notLike
deriving DecidableEq, Repr

namespace Operator

/-- An operator in SQL. -/
def sql : Operator → String
  | equal => "="
  | notEqual => "<>"
  | less => "<"
  | atMost => "<="
  | greater => ">"
  | atLeast => ">="
  | like => "LIKE"
  | notLike => "NOT LIKE"

/-- Whether the operand is a pattern. -/
def isPattern : Operator → Bool
  | like | notLike => true
  | _ => false

/-- The operator of the sign at the front of a text, and the text after the sign. -/
def splitSign : List Char → Option (Operator × List Char)
  | '!' :: '%' :: r => some (notLike, r)
  | '!' :: '=' :: r => some (notEqual, r)
  | '!' :: r => some (notEqual, r)
  | '<' :: '=' :: r => some (atMost, r)
  | '<' :: r => some (less, r)
  | '>' :: '=' :: r => some (atLeast, r)
  | '>' :: r => some (greater, r)
  | '%' :: r => some (like, r)
  | _ => none

/-- The operator of the sign at the front of a string, and the string after the sign. -/
def ofSigned? (s : String) : Option (Operator × String) :=
  (splitSign s.toList).map fun p => (p.1, String.ofList p.2)

/-- The signs of an operator. -/
def signs : Operator → List (List Char)
  | equal => []
  | notEqual => [['!'], ['!', '=']]
  | less => [['<']]
  | atMost => [['<', '=']]
  | greater => [['>']]
  | atLeast => [['>', '=']]
  | like => [['%']]
  | notLike => [['!', '%']]

/-- Sign and rest make up the text. -/
theorem splitSign_append {s rest : List Char} {operator : Operator}
    (h : splitSign s = some (operator, rest)) :
    ∃ sign ∈ operator.signs, s = sign ++ rest := by
  unfold splitSign at h
  split at h <;> simp at h <;> obtain ⟨rfl, rfl⟩ := h <;> simp [signs]

end Operator

/-! ## Operands -/

/-- An operator with its operand. -/
structure Comparison where
  operator : Operator
  operand : Value

namespace Comparison

/-- A text enclosed in percent signs. -/
def pattern (s : String) : String :=
  "%" ++ s ++ "%"

/-- The comparison that a value stands for; only texts may have a sign. -/
def ofValue (value : Value) : Comparison :=
  match value with
  | .text s =>
    match Operator.ofSigned? s with
    | some (operator, rest) =>
      ⟨operator, .text (if operator.isPattern then pattern rest else rest)⟩
    | none => ⟨.equal, value⟩
  | _ => ⟨.equal, value⟩

/-- The operand of an operator whose sign stands on the key. -/
def keyedOperand (operator : Operator) (value : Value) : Value :=
  if operator.isPattern then
    match value with
    | .null => .null
    | v => .text (pattern v.display)
  else
    value

/-- The column and the comparison of a filter entry.  A sign on the key is used before one
on the value. -/
def ofEntry (key : String) (value : Value) : String × Comparison :=
  match Operator.ofSigned? key with
  | some (operator, column) => (column, ⟨operator, keyedOperand operator value⟩)
  | none => (key, ofValue value)

/-- Values that are not texts are compared for equality. -/
theorem ofValue_of_not_text {v : Value} (h : v.text? = none) : ofValue v = ⟨.equal, v⟩ := by
  cases v <;> simp_all [ofValue, Value.text?]

end Comparison

/-! ## Literals -/

/-- A text as a string constant of SQL. -/
def Text.sqlString (s : String) : String :=
  String.ofList (Quoted.enclose '\'' s.toList)

/-- A value as it is written into SQL text. -/
def Value.literal : Value → String
  | .null => "NULL"
  | .bool b => if b then "TRUE" else "FALSE"
  | .int i => Value.integerText i
  | .float x => if x.isFinite then x.plainText else Text.sqlString x.plainText
  | .text s => Text.sqlString s
  | .document d => Text.sqlString d.toText

/-- The operand of a comparison as it is written into SQL text. -/
def Comparison.literal (c : Comparison) : String :=
  c.operand.literal

end TableAccess
