import TableAccess.Document
/-!
# Writing documents

Documents are written without blanks.  In a string only the quote, the backslash and
the control characters are escaped; everything else stands for itself.  A number that
is not finite has no written form and becomes null.

Main results:

- Theorem `escapeChar_of_plain`: a character that needs no escape is written as it is.
- Theorem `escapeChar_ne_nil`: no character is lost.
-/

namespace TableAccess.Document

open Text

/-! ## Strings -/

/-- A character as it stands inside a written string. -/
def escapeChar (c : Char) : List Char :=
  if c = '"' then ['\\', '"']
  else if c = '\\' then ['\\', '\\']
  else if c = '\n' then ['\\', 'n']
  else if c = '\r' then ['\\', 'r']
  else if c = '\t' then ['\\', 't']
  else if c.toNat = 8 then ['\\', 'b']
  else if c.toNat = 12 then ['\\', 'f']
  else if c.toNat < 32 then
    ['\\', 'u', '0', '0', hexChar (c.toNat / 16), hexChar (c.toNat % 16)]
  else [c]

/-- A string with its quotes. -/
def writeString (s : String) : List Char :=
  '"' :: (s.toList.flatMap escapeChar ++ ['"'])

/-- A character that needs no escape is written as it is. -/
theorem escapeChar_of_plain {c : Char} (hquote : c ≠ '"') (hslash : c ≠ '\\')
    (hcontrol : 32 ≤ c.toNat) : escapeChar c = [c] := by
  unfold escapeChar
  have hn : c ≠ '\n' := fun h => by subst h; exact absurd hcontrol (by decide)
  have hr : c ≠ '\r' := fun h => by subst h; exact absurd hcontrol (by decide)
  have ht : c ≠ '\t' := fun h => by subst h; exact absurd hcontrol (by decide)
  simp only [hquote, hslash, hn, hr, ht, if_false]
  repeat' rw [if_neg (by omega)]

/-- No character is lost. -/
theorem escapeChar_ne_nil (c : Char) : escapeChar c ≠ [] := by
  unfold escapeChar
  repeat' split
  all_goals simp

/-! ## Documents -/

mutual

/-- The written form of a document. -/
def write : Document → List Char
  | .null => ['n', 'u', 'l', 'l']
  | .bool true => ['t', 'r', 'u', 'e']
  | .bool false => ['f', 'a', 'l', 's', 'e']
  | .int i => intDigits i
  | .float x => if x.isFinite then Layout.document.render x else ['n', 'u', 'l', 'l']
  | .text s => writeString s
  | .array items => '[' :: (writeItems items ++ [']'])
  | .object fields => '{' :: (writeFields fields ++ ['}'])

/-- The items of an array with commas between them. -/
def writeItems : List Document → List Char
  | [] => []
  | d :: r =>
    match r with
    | [] => write d
    | _ :: _ => write d ++ ',' :: writeItems r

/-- The fields of an object with commas between them. -/
def writeFields : List (String × Document) → List Char
  | [] => []
  | (name, d) :: r =>
    match r with
    | [] => writeString name ++ ':' :: write d
    | _ :: _ => writeString name ++ ':' :: (write d ++ ',' :: writeFields r)

end

/-- The written form of a document as a string. -/
def toText (d : Document) : String :=
  String.ofList (write d)

end TableAccess.Document
