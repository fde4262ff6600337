import TableAccess.Number.Layout
/-!
# Documents

A document is a value of the interchange format that the server's document types
hold: null, truth values, numbers, strings, arrays and objects.  The fields of an
object are kept in the order of their names, each name once.

Main results:

- Theorems `insertField_self` and `insertField_of_ne`: a field that is put into an
  object is found under its name, and the other fields are untouched.
-/

namespace TableAccess

/-- A document.  Whole numbers are kept exactly; all other numbers are binary. -/
inductive Document where
  | null
  | bool (b : Bool)
  | int (i : Int)
  | float (x : Binary64)
  | text (s : String)
  | array (items : List Document)
  | object (fields : List (String × Document))
deriving Inhabited

namespace Document

/-! ## Fields of an object -/

/-- Put a field into the fields of an object.  A field of the same name is replaced. -/
def insertField (name : String) (value : Document) :
    List (String × Document) → List (String × Document)
  | [] => [(name, value)]
  | (n, v) :: r =>
    if n = name then (name, value) :: r
    else if name < n then (name, value) :: (n, v) :: r
    else (n, v) :: insertField name value r

/-- The value of a field. -/
def field? (name : String) : List (String × Document) → Option Document
  | [] => none
  | (n, v) :: r => if n = name then some v else field? name r

/-- A field that was put in is found. -/
theorem insertField_self (name : String) (value : Document) (fields : List (String × Document)) :
    field? name (insertField name value fields) = some value := by
  induction fields with
  | nil => simp [insertField, field?]
  | cons f r ih =>
    unfold insertField
    split
    · simp [field?]
    · split
      · simp [field?]
      · simp_all [field?]

/-- Other fields are untouched. -/
theorem insertField_of_ne {name other : String} (value : Document)
    (fields : List (String × Document)) (h : other ≠ name) :
    field? other (insertField name value fields) = field? other fields := by
  induction fields with
  | nil => simp [insertField, field?, Ne.symm h]
  | cons f r ih =>
    unfold insertField
    split
    · simp_all [field?, Ne.symm h]
    · split
      · simp [field?, Ne.symm h]
      · simp [field?, ih]

/-! ## Equality of values -/

mutual

/-- Whether two documents hold the same values; numbers are compared as numbers, so the
two zeros agree. -/
def equal : Document → Document → Bool
  | .null, .null => true
  | .bool a, .bool b => a == b
  | .int i, .int j => i == j
  | .float x, .float y => x.equal y
  | .text s, .text t => s == t
  | .array xs, .array ys => equalItems xs ys
  | .object xs, .object ys => equalFields xs ys
  | _, _ => false

/-- Whether two arrays hold the same values. -/
def equalItems : List Document → List Document → Bool
  | [], [] => true
  | x :: xs, y :: ys => equal x y && equalItems xs ys
  | _, _ => false

/-- Whether two objects hold the same fields. -/
def equalFields : List (String × Document) → List (String × Document) → Bool
  | [], [] => true
  | (n, x) :: xs, (m, y) :: ys => n == m && equal x y && equalFields xs ys
  | _, _ => false

end

end Document

end TableAccess
