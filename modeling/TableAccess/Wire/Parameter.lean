import TableAccess.Calendar.Reader
import TableAccess.Document.Reader
import TableAccess.Value
import TableAccess.Wire.Numeric
import TableAccess.Wire.SqlType
import TableAccess.Wire.Uuid
/-!
# Parameters

A value is sent in the binary form of the type that the server inferred for its
parameter.  Texts are read as a value of that type, integers must fit it, and a value of a
kind that the type does not take is refused.

Main results:

- Theorem `send_null`: null is sent for every type.
- Theorem `send_text_of_isText`: a text is sent to a text type as it is.
- Theorem `send_text_of_other`: so it is to a type that is known by name only, unless a
  version belongs before it.
-/

namespace TableAccess.Wire

open Text

/-- Why a value cannot be sent as a parameter. -/
inductive SendError where
  /-- The type does not take values of this kind. -/
  | mismatch (kind : String) (type : SqlType)
  /-- An integer does not fit the type. -/
  | integerRange
  /-- A text is no integer of the type. -/
  | integerText (fault : IntegerFault)
  /-- A text is no floating-point number. -/
  | floatText
  /-- A text is no truth value. -/
  | boolText (text : String)
  /-- A text or a floating-point number is no decimal. -/
  | decimal
  /-- A text is no identifier of sixteen octets. -/
  | uuid
  /-- A text is no date or time. -/
  | dateTime
  /-- A text is no document. -/
  | document
deriving DecidableEq, Repr

namespace SendError

/-- The words for an error, where it has words of its own. -/
def message? : SendError → Option String
  | mismatch kind type =>
    some ("cannot bind " ++ kind ++ " value to parameter of type " ++ type.typeName)
  | boolText text => some ("invalid boolean literal '" ++ text ++ "'")
  | integerText fault => some fault.message
  | _ => none

end SendError

/-- The octets of a parameter; none stands for null. -/
abbrev Sent := Except SendError (Option Octets)

/-! ## Binary forms -/

/-- A truth value: one octet. -/
def boolOctets (b : Bool) : Octets :=
  [if b then 1 else 0]

/-- A floating-point number: its bits. -/
def binaryOctets {f : Format} (x : Binary f) : Octets :=
  natOctets f.octets x.bits.toNat

/-- The octet that begins a document of the type `jsonb`. -/
def documentVersion : UInt8 := 1

/-- A document: its text, after a version for the type `jsonb`. -/
def documentOctets (type : SqlType) (d : Document) : Octets :=
  match type with
  | .jsonb => documentVersion :: utf8Encode d.toText
  | _ => utf8Encode d.toText

/-- A text for a type that is known by name only: its octets, after a version for the types
that have one. -/
def namedOctets (typeName : String) (s : String) : Octets :=
  if typeName ∈ SqlType.versioned then SqlType.textVersion :: utf8Encode s else utf8Encode s

/-- The integers that a type holds, and the number of its octets. -/
def integerRange? : SqlType → Option (IntegerRange × Nat)
  | .int2 => some (.int16, 2)
  | .int4 => some (.int32, 4)
  | .int8 => some (.int64, 8)
  | .oid => some (.nat32, 4)
  | _ => none

/-! ## Sending by kind -/

/-- Send a truth value. -/
def sendBool (type : SqlType) (b : Bool) : Sent :=
  match type with
  | .bool => .ok (boolOctets b)
  | .json | .jsonb => .ok (documentOctets type (.bool b))
  | type =>
    if type.isText then .ok (utf8Encode (Value.boolText b)) else .error (.mismatch "boolean" type)

/-- Send an integer. -/
def sendInt (type : SqlType) (i : Int64) : Sent :=
  match integerRange? type with
  | some (range, count) =>
    if range.holds i.toInt then .ok (intOctets count i.toInt) else .error .integerRange
  | none =>
    match type with
    | .float4 => .ok (binaryOctets (Binary.ofInt .binary32 i.toInt))
    | .float8 => .ok (binaryOctets (Binary.ofInt .binary64 i.toInt))
    | .numeric => .ok (Numeric.send (Decimal.ofInt i.toInt))
    | .bool => .ok (boolOctets (i.toInt ≠ 0))
    | .json | .jsonb => .ok (documentOctets type (.int i.toInt))
    | type =>
      if type.isText then
        .ok (utf8Encode (Value.integerText i))
      else
        .error (.mismatch "integer" type)

/-- Send a floating-point number. -/
def sendFloat (type : SqlType) (x : Binary64) : Sent :=
  match type with
  | .float4 => .ok (binaryOctets (x.convert .binary32))
  | .float8 => .ok (binaryOctets x)
  | .numeric =>
    match Decimal.ofBinary x with
    | some d => .ok (Numeric.send d)
    | none => .error .decimal
  | .json | .jsonb => .ok (documentOctets type (.float x))
  | type =>
    if type.isText then .ok (utf8Encode x.plainText) else .error (.mismatch "float" type)

/-- The words for true. -/
def trueWords : List String := ["t", "true", "y", "yes", "on", "1"]

/-- The words for false. -/
def falseWords : List String := ["f", "false", "n", "no", "off", "0"]

/-- The truth value that a word stands for, in any letter case and with blanks around it. -/
def readBool (s : String) : Option Bool :=
  let word := String.ofList ((trimChars s.toList).map Binary.lowerAscii)
  if word ∈ trueWords then some true
  else if word ∈ falseWords then some false
  else none

/-- Send what a text was read as, or the error for a text that cannot be read. -/
def sendRead {α : Type} (read : Option α) (error : SendError) (octets : α → Octets) : Sent :=
  match read with
  | some a => .ok (octets a)
  | none => .error error

/-- Send a text, which is read as a value of the type.  A type that is known by name only gets
the text itself. -/
def sendText (type : SqlType) (s : String) : Sent :=
  let trimmed := trimChars s.toList
  match integerRange? type with
  | some (range, count) =>
    match readInteger range trimmed with
    | .ok i => .ok (intOctets count i)
    | .error fault => .error (.integerText fault)
  | none =>
    match type with
    | .float4 => sendRead (Binary.read .binary32 trimmed) .floatText binaryOctets
    | .float8 => sendRead (Binary.read .binary64 trimmed) .floatText binaryOctets
    | .numeric => sendRead (Decimal.read trimmed) .decimal Numeric.send
    | .bool => sendRead (readBool s) (.boolText s) boolOctets
    | .uuid => sendRead (Uuid.read trimmed) .uuid id
    | .date =>
      sendRead (Calendar.readDate trimmed) .dateTime fun d => intOctets 4 d.dayNumber
    | .time =>
      sendRead (Calendar.readClock trimmed) .dateTime fun c => intOctets 8 c.microseconds
    | .timestamp =>
      sendRead (Calendar.readMoment trimmed) .dateTime fun m => intOctets 8 m.microseconds
    | .timestamptz =>
      sendRead (Calendar.readOffsetMoment trimmed) .dateTime fun p =>
        intOctets 8 (p.1.microsecondsAhead p.2)
    | .json | .jsonb => sendRead (Document.ofText? s) .document (documentOctets type)
    | .other typeName => .ok (namedOctets typeName s)
    | _ => .ok (utf8Encode s)

/-- Send a document. -/
def sendDocument (type : SqlType) (d : Document) : Sent :=
  match type with
  | .json | .jsonb => .ok (documentOctets type d)
  | type => if type.isText then .ok (utf8Encode d.toText) else .error (.mismatch "json" type)

/-- Send a value as a parameter of a type. -/
def send (type : SqlType) : Value → Sent
  | .null => .ok none
  | .bool b => sendBool type b
  | .int i => sendInt type i
  | .float x => sendFloat type x
  | .text s => sendText type s
  | .document d => sendDocument type d

/-! ## Special cases -/

/-- Null is sent for every type. -/
@[simp]
theorem send_null (type : SqlType) : send type .null = .ok none :=
  rfl

/-- A text is sent to a text type as it is. -/
theorem send_text_of_isText {type : SqlType} (h : type.isText = true) (s : String) :
    send type (.text s) = .ok (some (utf8Encode s)) := by
  cases type <;> simp [SqlType.isText] at h <;> rfl

/-- A text is sent as it is to a type that is known by name only, unless a version belongs
before it. -/
theorem send_text_of_other {typeName : String} (h : typeName ∉ SqlType.versioned) (s : String) :
    send (.other typeName) (.text s) = .ok (some (utf8Encode s)) := by
  change Except.ok (some (namedOctets typeName s)) = _
  rw [namedOctets, if_neg h]

end TableAccess.Wire
