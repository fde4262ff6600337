import TableAccess.Text.Printable
/-!
# Escaped text

A text that is shown in a description stands between double quotes.  Quotes and backslashes
have a backslash before them, some controls have letters of their own, and every other
character that is not printable is written as its code point in braces.

Main results:

- Theorem `escape_append`: the parts of a text are escaped on their own.
- Theorem `escapeChar_of_plain`: a printable character that is neither a quote nor a
  backslash is kept.
-/

namespace TableAccess.Text.Escaped

/-- A code point in braces, with as few hexadecimal digits as it needs. -/
def codePoint (c : Char) : List Char :=
  ['\\', 'u', '\x7b'] ++ Nat.toDigits 16 c.toNat ++ ['\x7d']

/-- A character as it is written in an escaped text. -/
def escapeChar (c : Char) : List Char :=
  match c with
  | '\x00' => ['\\', '0']
  | '\t' => ['\\', 't']
  | '\n' => ['\\', 'n']
  | '\r' => ['\\', 'r']
  | '"' => ['\\', '"']
  | '\\' => ['\\', '\\']
  | c => if isPrintable c then [c] else codePoint c

/-- A text with its characters escaped. -/
def escape (s : List Char) : List Char :=
  s.flatMap escapeChar

/-- A text between double quotes. -/
def quote (s : String) : String :=
  String.ofList ('"' :: (escape s.toList ++ ['"']))

/-! ## Laws -/

/-- The parts of a text are escaped on their own. -/
@[simp]
theorem escape_append (s t : List Char) : escape (s ++ t) = escape s ++ escape t :=
  List.flatMap_append

/-- A printable character that is neither a quote nor a backslash is kept. -/
theorem escapeChar_of_plain {c : Char} (printable : isPrintable c = true) (quote : c ≠ '"')
    (backslash : c ≠ '\\') : escapeChar c = [c] := by
  have hidden : ∀ d : Char, isPrintable d = false → c ≠ d := by
    rintro d hd rfl
    rw [printable] at hd
    exact Bool.noConfusion hd
  have nul := hidden '\x00' (by decide)
  have tab := hidden '\t' (by decide)
  have newline := hidden '\n' (by decide)
  have carriage := hidden '\r' (by decide)
  unfold escapeChar
  split <;> simp_all

end TableAccess.Text.Escaped
