import TableAccess.Error
import TableAccess.Text.Blank
import TableAccess.Text.Quoted
/-!
# Identifiers

Names of tables and columns are written into SQL text as they are, so each is checked
first.  An identifier is one or more segments joined by dots.  A plain segment is a
letter or underscore followed by letters, digits, underscores and dollar signs; a
quoted segment is a text in double quotes that is not empty.  No identifier contains the
character NUL.

Main results:

- Theorem `segment_length`: every segment takes at least one character.
- Theorem `check_eq_ok_iff`: a check that succeeds gives the name unchanged, and it
  succeeds exactly if there is no fault.
-/

namespace TableAccess.Identifier

open Text

/-! ## Roles and faults -/

/-- What a name is used for. -/
inductive Role where
  | table
  | column
deriving DecidableEq, Repr

/-- The word for a role. -/
def Role.label : Role → String
  | table => "table"
  | column => "column"

/-- Why a name is no identifier. -/
inductive Fault where
  | empty
  | containsNul
  | emptyQuoted
  | unclosedQuote
  | unexpectedCharacter
  | trailingDot
deriving DecidableEq, Repr

/-- The words for a fault. -/
def Fault.reason : Fault → String
  | empty => "empty"
  | containsNul => "contains NUL"
  | emptyQuoted => "empty quoted segment"
  | unclosedQuote => "unclosed quote"
  | unexpectedCharacter => "unexpected character"
  | trailingDot => "trailing '.'"

/-! ## Segments -/

/-- Whether a character may begin a plain segment. -/
def isStart (c : Char) : Bool :=
  c == '_' || c.isAlpha

/-- Whether a character may follow the first one of a plain segment. -/
def isPart (c : Char) : Bool :=
  c == '_' || c == '$' || c.isAlphanum

/-- What follows the first segment of a text. -/
def segment : List Char → Except Fault (List Char)
  | [] => .error .unexpectedCharacter
  | c :: r =>
    if c = '"' then
      match Quoted.split '"' r with
      | none => .error .unclosedQuote
      | some ([], _) => .error .emptyQuoted
      | some (_ :: _, rest) => .ok rest
    else if isStart c then
      .ok (r.dropWhile isPart)
    else
      .error .unexpectedCharacter

/-- Removing leading characters never lengthens a text. -/
theorem length_dropWhile_le (p : Char → Bool) (s : List Char) :
    (s.dropWhile p).length ≤ s.length := by
  induction s with
  | nil => simp
  | cons c r ih =>
    rw [List.dropWhile_cons]
    split
    · exact Nat.le_succ_of_le ih
    · exact Nat.le_refl _

/-- Every segment takes at least one character. -/
theorem segment_length {s rest : List Char} (h : segment s = .ok rest) :
    rest.length < s.length := by
  cases s with
  | nil => simp [segment] at h
  | cons c r =>
    simp only [segment] at h
    split at h
    · split at h
      · simp at h
      · simp at h
      · rename_i hsplit
        obtain rfl := Except.ok.inj h
        exact Nat.lt_succ_of_lt (Quoted.split_length hsplit)
    · split at h
      · obtain rfl := Except.ok.inj h
        exact Nat.lt_succ_of_le (length_dropWhile_le _ _)
      · simp at h

/-- The first fault of a text that has to be segments joined by dots. -/
def segmentsFault (s : List Char) : Option Fault :=
  match _h : segment s with
  | .error fault => some fault
  | .ok rest =>
    if rest = [] then none
    else if rest = ['.'] then some .trailingDot
    else if rest.head? = some '.' then segmentsFault rest.tail
    else some .unexpectedCharacter
termination_by s.length
decreasing_by
  have := segment_length _h
  simp only [List.length_tail]
  omega

/-- The fault of a name, if it is no identifier. -/
def fault? (name : List Char) : Option Fault :=
  if name.isEmpty then some .empty
  else if name.contains '\x00' then some .containsNul
  else segmentsFault name

/-! ## Checks -/

/-- The error for a name with a fault. -/
def invalid (role : Role) (name : String) (fault : Fault) : AccessError :=
  .validation ("invalid " ++ role.label ++ " name '" ++ name ++ "': " ++ fault.reason)

/-- Check a name and give it back unchanged. -/
def check (role : Role) (name : String) : Except AccessError String :=
  match fault? name.toList with
  | none => .ok name
  | some fault => .error (invalid role name fault)

/-- A check that succeeds gives the name unchanged, and it succeeds exactly if there is no
fault. -/
theorem check_eq_ok_iff (role : Role) (name result : String) :
    check role name = .ok result ↔ fault? name.toList = none ∧ result = name := by
  unfold check
  split
  · simp_all [eq_comm]
  · simp_all

/-- Check the name of a table. -/
def checkTable (name : String) : Except AccessError String :=
  check .table name

/-- Check the name of a column. -/
def checkColumn (name : String) : Except AccessError String :=
  check .column name

/-- A text without a given ending, if it has it. -/
def dropEnding? (ending s : List Char) : Option (List Char) :=
  if ending.isSuffixOf s then some (s.take (s.length - ending.length)) else none

/-- Check an entry of a select list, blanks around it aside: a star, an identifier with a
star as its last segment, or a column. -/
def checkSelectItem (item : String) : Except AccessError String :=
  let item := trim item
  if item = "*" then
    .ok item
  else
    match dropEnding? ['.', '*'] item.toList with
    | some table => (checkTable (String.ofList table)).map fun _ => item
    | none => checkColumn item

end TableAccess.Identifier
