import TableAccess.Placeholder.Positional
import TableAccess.Text.Offset
/-!
# Scanning by offsets

A statement is compiled in one pass over its octets.  The scan looks at single octets, also
inside of characters, and it slices the text where a tag or a placeholder begins and ends.

Main definitions:

- Definition `opening`: what begins at an octet.
- Definition `scan`: the text with numbered parameters, and the names of the parameters.
-/

namespace TableAccess.Placeholder

open Text

/-! ## Regions -/

/-- The offset after a quoted text that begins at `start`. -/
def skipQuoted (s : List Char) (start : Nat) (quote : UInt8) : Checked Nat := do
  let closed ← afterQuote s quote (start + 1)
  return closed.getD (utf8Length s)

/-- Whether an octet may begin a name. -/
def isNameStartOctet (x : UInt8) : Bool :=
  isNameStart (Char.ofUInt8 x)

/-- Whether an octet may be part of a name. -/
def isNamePartOctet (x : UInt8) : Bool :=
  isNamePart (Char.ofUInt8 x)

/-- An iteration of the search for the end of a name. -/
def afterNameStep (s : List Char) (i : Nat) : Checked (Iteration Nat Nat) :=
  if i < utf8Length s then do
    let x ← octetAt s i
    if isNamePartOctet x then
      return .again (i + 1)
    else
      return .stop i
  else
    return .stop i

/-- The offset after the parts of a name from an offset on. -/
def afterName (s : List Char) (start : Nat) : Checked Nat :=
  loop (utf8Length s - ·) (afterNameStep s) start

/-- Whether a tag may go on at an offset: with a name, or with the second dollar sign. -/
def opensTag (s : List Char) (i : Nat) : Checked Bool :=
  if i < utf8Length s then do
    let x ← octetAt s i
    return isNameStartOctet x || x == '$'.toUInt8
  else
    return true

/-- The offset after a dollar-quoted body that begins at `start`, if one does. -/
def skipDollarQuoted (s : List Char) (start : Nat) : Checked (Option Nat) := do
  if ← opensTag s (start + 1) then
    let i ← afterName s (start + 1)
    if octet? s i = some '$'.toUInt8 then
      let tag ← slice s start (i + 1)
      let body ← sliceFrom s (i + 1)
      return some ((find? tag body).elim (utf8Length s) fun p => i + 1 + p + utf8Length tag)
    else
      return none
  else
    return none

/-! ## The scan -/

/-- Where a scan stands: its offset, the offset up to which the text was written again, what was
written and the names that have numbers. -/
structure Scan where
  position : Nat
  copied : Nat
  written : List Char
  names : List String

/-- Pass text that stays as it is. -/
def Scan.jump (t : Scan) (position : Nat) : Iteration Scan (List Char × List String) :=
  .again { t with position := position }

/-- The number of a name, counted from zero, and all names that have numbers. -/
def number (names : List String) (name : String) : Nat × List String :=
  match names.idxOf? name with
  | some position => (position, names)
  | none => (names.length, names ++ [name])

/-- What may begin at an octet. -/
inductive Opening where
  | quoted
  | lineComment
  | blockComment
  | dollar
  | cast
  | name
  | other
deriving DecidableEq, Repr

/-- What begins at an octet, given the octet after it. -/
def opening (x : UInt8) (after : Option UInt8) : Opening :=
  if x = '\''.toUInt8 ∨ x = '"'.toUInt8 then .quoted
  else if x = '-'.toUInt8 ∧ after = some '-'.toUInt8 then .lineComment
  else if x = '/'.toUInt8 ∧ after = some '*'.toUInt8 then .blockComment
  else if x = '$'.toUInt8 then .dollar
  else if x = ':'.toUInt8 ∧ after = some ':'.toUInt8 then .cast
  else if x = ':'.toUInt8 ∧ after.any isNameStartOctet = true then .name
  else .other

/-- Pass what begins with the octet `x` at the offset of a scan. -/
def passOpening (s : List Char) (t : Scan) (x : UInt8) :
    Opening → Checked (Iteration Scan (List Char × List String))
  | .quoted => do
    return t.jump (← skipQuoted s t.position x)
  | .lineComment => do
    let rest ← sliceFrom s t.position
    return t.jump ((find? ['\n'] rest).elim (utf8Length s) fun p => t.position + p + 1)
  | .blockComment => do
    let rest ← sliceFrom s (t.position + 2)
    return t.jump ((find? ['*', '/'] rest).elim (utf8Length s) fun p => t.position + 2 + p + 2)
  | .dollar => do
    return t.jump ((← skipDollarQuoted s t.position).getD (t.position + 1))
  | .cast =>
    return t.jump (t.position + 2)
  | .name => do
    let start := t.position + 1
    let stop ← afterName s start
    let name ← slice s start stop
    let numbered := number t.names (String.ofList name)
    let passed ← slice s t.copied t.position
    return .again
      ⟨stop, stop, t.written ++ passed ++ Positional.parameterText numbered.1, numbered.2⟩
  | .other =>
    return t.jump (t.position + 1)

/-- An iteration of the scan. -/
def scanStep (s : List Char) (t : Scan) :
    Checked (Iteration Scan (List Char × List String)) :=
  if t.position < utf8Length s then do
    let x ← octetAt s t.position
    passOpening s t x (opening x (octet? s (t.position + 1)))
  else do
    let passed ← sliceFrom s t.copied
    return .stop (t.written ++ passed, t.names)

/-- Scan from where a scan stands up to the end of the text. -/
def scanFrom (s : List Char) (t : Scan) : Checked (List Char × List String) :=
  loop (fun t => utf8Length s - t.position) (scanStep s) t

/-- The text with numbered parameters, and the names in the order of their numbers. -/
def scan (s : List Char) : Checked (List Char × List String) :=
  scanFrom s ⟨0, 0, [], []⟩

end TableAccess.Placeholder
