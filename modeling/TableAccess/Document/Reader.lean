import TableAccess.Document.Number
import TableAccess.Text.Octets
/-!
# Reading documents

The reader accepts the interchange grammar and nothing else: no trailing commas, no
comments, no control characters in strings, no half of a surrogate pair alone.  Values
may be nested 127 deep.  A repeated field name keeps its last value.

Main results:

- Theorem `readKeyword_append`: a keyword is read wherever it stands.
-/

namespace TableAccess.Document

open Text

/-! ## Tokens -/

/-- Whether a character may stand between tokens. -/
def isSpace (c : Char) : Bool :=
  c == ' ' || c == '\n' || c == '\r' || c == '\t'

/-- A text without the space at its front. -/
def skipSpace (s : List Char) : List Char :=
  s.dropWhile isSpace

/-- The rest of a text after a keyword. -/
def readKeyword : List Char → List Char → Option (List Char)
  | [], s => some s
  | _ :: _, [] => none
  | k :: keyword, c :: s => if k = c then readKeyword keyword s else none

/-- A keyword is read wherever it stands. -/
theorem readKeyword_append (keyword rest : List Char) :
    readKeyword keyword (keyword ++ rest) = some rest := by
  induction keyword with
  | nil => rfl
  | cons k r ih => simp [readKeyword, ih]

/-- Four hexadecimal digits as a number. -/
def readHexQuad : List Char → Option (Nat × List Char)
  | a :: b :: c :: d :: r => do
    let a ← hexValue? a
    let b ← hexValue? b
    let c ← hexValue? c
    let d ← hexValue? d
    return (((a * 16 + b) * 16 + c) * 16 + d, r)
  | _ => none

/-- The character that a numeric escape stands for, given the text after its letter. -/
def readCodeEscape (s : List Char) : Option (Char × List Char) := do
  let (unit, r) ← readHexQuad s
  if 0xDC00 ≤ unit ∧ unit ≤ 0xDFFF then
    none
  else if 0xD800 ≤ unit ∧ unit ≤ 0xDBFF then
    match r with
    | '\\' :: 'u' :: r =>
      let (low, r) ← readHexQuad r
      if 0xDC00 ≤ low ∧ low ≤ 0xDFFF then
        return (Char.ofNat (0x10000 + (unit - 0xD800) * 0x400 + (low - 0xDC00)), r)
      else
        none
    | _ => none
  else
    return (Char.ofNat unit, r)

/-- The character that an escape stands for, given the text after the backslash. -/
def readEscape : List Char → Option (Char × List Char)
  | '"' :: r => some ('"', r)
  | '\\' :: r => some ('\\', r)
  | '/' :: r => some ('/', r)
  | 'b' :: r => some (Char.ofNat 8, r)
  | 'f' :: r => some (Char.ofNat 12, r)
  | 'n' :: r => some ('\n', r)
  | 'r' :: r => some ('\r', r)
  | 't' :: r => some ('\t', r)
  | 'u' :: r => readCodeEscape r
  | _ => none

/-- The characters of a string up to its closing quote, given the text after the opening
quote; at most `fuel` characters are read. -/
def readChars : Nat → List Char → Option (List Char × List Char)
  | 0, _ => none
  | _ + 1, [] => none
  | fuel + 1, c :: r =>
    if c = '"' then
      some ([], r)
    else if c = '\\' then do
      let (d, rest) ← readEscape r
      let (s, rest) ← readChars fuel rest
      return (d :: s, rest)
    else if c.toNat < 32 then
      none
    else do
      let (s, rest) ← readChars fuel r
      return (c :: s, rest)

/-- A string, given the text after its opening quote. -/
def readString (s : List Char) : Option (String × List Char) :=
  (readChars (s.length + 1) s).map fun p => (String.ofList p.1, p.2)

/-! ## Values -/

/-- The deepest nesting of arrays and objects. -/
def greatestDepth : Nat := 127

mutual

/-- Read a value.  `depth` more arrays and objects may be opened, and at most `fuel` calls
are nested; every second call consumes a character. -/
def readValue : (fuel depth : Nat) → List Char → Option (Document × List Char)
  | 0, _, _ => none
  | fuel + 1, depth, s =>
    match skipSpace s with
    | 'n' :: r => (readKeyword ['u', 'l', 'l'] r).map (.null, ·)
    | 't' :: r => (readKeyword ['r', 'u', 'e'] r).map (.bool true, ·)
    | 'f' :: r => (readKeyword ['a', 'l', 's', 'e'] r).map (.bool false, ·)
    | '"' :: r => (readString r).map fun p => (.text p.1, p.2)
    | '[' :: r =>
      match depth with
      | 0 => none
      | depth + 1 =>
        match skipSpace r with
        | ']' :: rest => some (.array [], rest)
        | r => (readItems fuel depth r).map fun p => (.array p.1, p.2)
    | '{' :: r =>
      match depth with
      | 0 => none
      | depth + 1 =>
        match skipSpace r with
        | '}' :: rest => some (.object [], rest)
        | r => (readFields fuel depth [] r).map fun p => (.object p.1, p.2)
    | r => readNumber r

/-- Read the items of an array that has at least one, and its closing bracket. -/
def readItems : (fuel depth : Nat) → List Char → Option (List Document × List Char)
  | 0, _, _ => none
  | fuel + 1, depth, s => do
    let (d, rest) ← readValue fuel depth s
    match skipSpace rest with
    | ',' :: r =>
      let (items, rest) ← readItems fuel depth r
      return (d :: items, rest)
    | ']' :: r => return ([d], r)
    | _ => none

/-- Read the fields of an object that has at least one more, and its closing brace. -/
def readFields : (fuel depth : Nat) → List (String × Document) → List Char →
    Option (List (String × Document) × List Char)
  | 0, _, _, _ => none
  | fuel + 1, depth, fields, s => do
    match skipSpace s with
    | '"' :: r =>
      let (name, rest) ← readString r
      match skipSpace rest with
      | ':' :: r =>
        let (d, rest) ← readValue fuel depth r
        let fields := insertField name d fields
        match skipSpace rest with
        | ',' :: r => readFields fuel depth fields r
        | '}' :: r => return (fields, r)
        | _ => none
      | _ => none
    | _ => none

end

/-- Read a document that makes up a whole text, apart from space around it. -/
def read (s : List Char) : Option Document := do
  let (d, rest) ← readValue (2 * s.length + 2) greatestDepth s
  if (skipSpace rest).isEmpty then some d else none

/-- Read a document from a string. -/
def ofText? (s : String) : Option Document :=
  read s.toList

end TableAccess.Document
