import TableAccess.Document.Writer
import TableAccess.Text.Blank
import TableAccess.Text.Integer
/-!
# Values

A value is what a caller puts into a column and what every result column is read as:
the null of SQL, a truth value, a whole number of 64 bits, a floating-point number, a
text or a document.

Main results:

- Theorem `equal_self_iff`: a value that is not a document equals itself unless it is no
  number.
- Theorem `coerceInteger_of_not_text`: only texts are coerced.
-/

namespace TableAccess

/-- The value of one column. -/
inductive Value where
  | null
  | bool (b : Bool)
  | int (i : Int64)
  | float (x : Binary64)
  | text (s : String)
  | document (d : Document)
deriving Inhabited

namespace Value

/-! ## Views -/

/-- The name of a value's kind, as messages give it. -/
def kindName : Value → String
  | null => "null"
  | bool _ => "boolean"
  | int _ => "integer"
  | float _ => "float"
  | text _ => "text"
  | document _ => "json"

/-- Whether a value is the null of SQL.  A document that is null is not. -/
def isNull : Value → Bool
  | null => true
  | _ => false

/-- The text of a text value. -/
def text? : Value → Option String
  | text s => some s
  | _ => none

/-- The number of an integer value. -/
def int? : Value → Option Int64
  | int i => some i
  | _ => none

/-- The number of a floating-point value, or the one nearest to an integer value. -/
def float? : Value → Option Binary64
  | float x => some x
  | int i => some (Binary.ofInt .binary64 i.toInt)
  | _ => none

/-- The truth value of a boolean value. -/
def bool? : Value → Option Bool
  | bool b => some b
  | _ => none

/-- Equality of values of one kind; numbers are compared as numbers. -/
def equal : Value → Value → Bool
  | null, null => true
  | bool a, bool b => a == b
  | int i, int j => i == j
  | float x, float y => x.equal y
  | text s, text t => s == t
  | document d, document e => d.equal e
  | _, _ => false

/-- A floating-point value equals itself unless it is no number. -/
theorem equal_self_iff (x : Binary64) :
    (float x).equal (float x) = true ↔ x.isNaN = false :=
  x.equal_self_iff

/-! ## Text of a value -/

/-- The text of an integer value. -/
def integerText (i : Int64) : String :=
  Text.intText i.toInt

/-- The text of a truth value. -/
def boolText (b : Bool) : String :=
  if b then "true" else "false"

/-- The text of a value, without quotes. -/
def display : Value → String
  | null => "NULL"
  | bool b => boolText b
  | int i => integerText i
  | float x => x.plainText
  | text s => s
  | document d => d.toText

/-- The document that holds a value. -/
def toDocument : Value → Document
  | null => .null
  | bool b => .bool b
  | int i => .int i.toInt
  | float x => .float x
  | text s => .text s
  | document d => d

/-! ## Coercion -/

/-- A text that is an integer, blanks around it aside, becomes that integer.  All other
values are kept. -/
def coerceInteger : Value → Value
  | text s =>
    match Text.readInteger .int64 (Text.trimChars s.toList) with
    | .ok i => int (Int64.ofInt i)
    | .error _ => text s
  | v => v

/-- Only texts are coerced. -/
theorem coerceInteger_of_not_text {v : Value} (h : v.text? = none) : v.coerceInteger = v := by
  cases v <;> simp_all [coerceInteger, text?]

end Value

end TableAccess
