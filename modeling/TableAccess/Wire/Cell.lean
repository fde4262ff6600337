import TableAccess.Calendar.Writer
import TableAccess.Document.Reader
import TableAccess.Row
import TableAccess.Error
import TableAccess.Wire.Numeric
import TableAccess.Wire.SqlType
import TableAccess.Wire.Uuid
/-!
# Result cells

Every cell of a result is read as a value, by the type of its column.  Numerics,
identifiers, dates and times become texts.  Of the types that are known by name only those
that hold texts are read; all others have no readable values, not even null.

Main results:

- Theorem `decode_null`: null is read as null for every type with a reader.
- Theorem `decodeRow_nil`: a result without columns has empty records.
-/

namespace TableAccess.Wire

open Text

/-! ## Readers by type -/

/-- A value that is a text. -/
def textValue (s : List Char) : Value :=
  .text (String.ofList s)

/-- A value that is an integer. -/
def integerValue (i : Int) : Value :=
  .int (Int64.ofInt i)

/-- A truth value: one octet, true unless it is zero. -/
def decodeBool : Octets → Option Value
  | [b] => some (.bool (b ≠ 0))
  | _ => none

/-- A text. -/
def decodeText (octets : Octets) : Option Value :=
  (utf8Decode? octets).map .text

/-- A text after a version, of which only one is known. -/
def decodeVersionedText : Octets → Option Value
  | version :: octets => if version = SqlType.textVersion then decodeText octets else none
  | [] => none

/-- The floating-point number with the given bits. -/
def decodeBinary (f : Format) (octets : Octets) : Option (Binary f) :=
  (readNat? f.octets octets).map fun n => ⟨BitVec.ofNat f.width n⟩

/-- A document from its text. -/
def decodeDocument (octets : Octets) : Option Value :=
  (utf8Decode? octets).bind fun s => (Document.ofText? s).map .document

/-- A document of the type `jsonb`, of which only the first version is known. -/
def decodeVersionedDocument : Octets → Option Value
  | version :: octets => if version = 1 then decodeDocument octets else none
  | [] => none

/-- A date in the supported range, as text. -/
def decodeDate (octets : Octets) : Option Value :=
  (readInt? 4 octets).bind fun n =>
    let date := Date.ofDayNumber n
    if date.isValid then some (textValue (Calendar.writeDate date)) else none

/-- A time of day, as text. -/
def decodeClock (octets : Octets) : Option Value :=
  (readInt? 8 octets).map fun n => textValue (Calendar.writeClock (Clock.ofMicroseconds n))

/-- A moment in the supported range, as text. -/
def decodeMoment (write : Moment → List Char) (octets : Octets) : Option Value :=
  (readInt? 8 octets).bind fun n =>
    let moment := Moment.ofMicroseconds n
    if moment.date.isValid then some (textValue (write moment)) else none

/-- The reader of a type that is known by name only, if it has one. -/
def namedReader? (typeName : String) : Option (Octets → Option Value) :=
  if typeName = SqlType.caseless then some decodeText
  else if typeName ∈ SqlType.versioned then some decodeVersionedText
  else none

/-- The reader of a type, if it has one. -/
def reader? : SqlType → Option (Octets → Option Value)
  | .bool => some decodeBool
  | .int2 => some fun octets => (readInt? 2 octets).map integerValue
  | .int4 => some fun octets => (readInt? 4 octets).map integerValue
  | .int8 => some fun octets => (readInt? 8 octets).map integerValue
  | .oid => some fun octets => (readNat? 4 octets).map fun n => integerValue n
  | .float4 => some fun octets =>
    (decodeBinary .binary32 octets).map fun x => .float (x.convert .binary64)
  | .float8 => some fun octets => (decodeBinary .binary64 octets).map .float
  | .numeric => some fun octets => (Numeric.decode? octets).map textValue
  | .json => some decodeDocument
  | .jsonb => some decodeVersionedDocument
  | .uuid => some fun octets =>
    if octets.length = 16 then some (textValue (Uuid.write octets)) else none
  | .date => some decodeDate
  | .time => some decodeClock
  | .timestamp => some (decodeMoment Calendar.writeMoment)
  | .timestamptz => some (decodeMoment Calendar.writeUniversal)
  | .text | .varchar | .bpchar | .name | .unknown => some decodeText
  | .other typeName => namedReader? typeName

/-- Read a cell; none if it cannot be read. -/
def decode (type : SqlType) (cell : Option Octets) : Option Value :=
  match reader? type, cell with
  | none, _ => none
  | some _, none => some .null
  | some read, some octets => read octets

/-- Null is read as null for every type with a reader. -/
theorem decode_null {type : SqlType} (h : (reader? type).isSome = true) :
    decode type none = some .null := by
  unfold decode
  cases hr : reader? type with
  | none => simp [hr] at h
  | some read => rfl

/-- Octets are read by the reader of the type. -/
theorem decode_some (type : SqlType) (octets : Octets) :
    decode type (some octets) = (reader? type).bind fun read => read octets := by
  unfold decode
  cases reader? type <;> rfl

/-! ## Records -/

/-- A column of a result. -/
structure Column where
  name : String
  type : SqlType
deriving DecidableEq, Repr

/-- The words for a cell at a position that cannot be read. -/
def unreadable (position : Nat) : String :=
  "error deserializing column " ++ natText position

/-- Read the cells of the columns from a position on, into a record that has the columns
before. -/
def decodeCells : (position : Nat) → List (Column × Option Octets) → Row →
    Except AccessError Row
  | _, [], record => .ok record
  | position, (column, cell) :: r, record =>
    match decode column.type cell with
    | none => .error (.decode column.name (unreadable position))
    | some value => decodeCells (position + 1) r (record.insert column.name value)

/-- Read a row of cells as a record. -/
def decodeRow (columns : List Column) (cells : List (Option Octets)) : Except AccessError Row :=
  decodeCells 0 (columns.zip cells) .empty

/-- Read rows of cells as records, up to the first that cannot be read. -/
def decodeRows (columns : List Column) (rows : List (List (Option Octets))) :
    Except AccessError (List Row) :=
  rows.mapM (decodeRow columns)

/-- A result without columns has empty records. -/
@[simp]
theorem decodeRow_nil (cells : List (Option Octets)) : decodeRow [] cells = .ok .empty :=
  rfl

end TableAccess.Wire
