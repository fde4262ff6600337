import Mathlib.Data.List.Infix
import TableAccess.Placeholder.Token
/-!
# The lexical grammar of SQL text

SQL text is a sequence of lexemes: regions whose inside is opaque, cast operators, live
placeholders and single characters.  A region ends where its closing mark comes first,
and a region that is never closed reaches to the end of the text.  Every lexeme is judged
together with the text that follows it, so that readings of adjacent texts compose.

Main results:

- Theorem `Reads.append`: the readings of two adjacent texts make up the reading of both.
- Theorem `Reads.source_eq`: the lexemes of a text make up the text.
-/

namespace TableAccess.Placeholder

open Text

/-! ## Regions -/

/-- Whether a text may stand between the two dollar signs of a delimiter. -/
def IsTag (tag : List Char) : Prop :=
  tag = [] ∨ isName tag = true

/-- A delimiter of a dollar-quoted body. -/
def delimiter (tag : List Char) : List Char :=
  '$' :: (tag ++ ['$'])

/-- Whether a mark that follows a text occurs there for the first time. -/
def EndsAtFirst (stop body : List Char) : Prop :=
  ∀ a b, body ++ stop = a ++ stop ++ b → b = []

/-- A part of SQL text whose inside is opaque. -/
inductive Region where
  /-- A text between two equal quotes, in which a quote is written twice. -/
  | quoted (quote : Char)
  /-- A comment that ends with its line. -/
  | lineComment
  /-- A comment between two marks. -/
  | blockComment
  /-- A body between two equal delimiters. -/
  | dollarQuoted (tag : List Char)

namespace Region

/-- Whether SQL text has such regions. -/
def Valid : Region → Prop
  | quoted q => q = '\'' ∨ q = '"'
  | lineComment => True
  | blockComment => True
  | dollarQuoted tag => IsTag tag

/-- The mark that opens a region. -/
def opener : Region → List Char
  | quoted q => [q]
  | lineComment => ['-', '-']
  | blockComment => ['/', '*']
  | dollarQuoted tag => delimiter tag

/-- The mark that closes a region. -/
def closer : Region → List Char
  | quoted q => [q]
  | lineComment => ['\n']
  | blockComment => ['*', '/']
  | dollarQuoted tag => delimiter tag

/-- Whether a region that was opened is closed right after `body`, given what follows its
closing mark. -/
def ClosesAfter : Region → (body rest : List Char) → Prop
  | quoted q, body, rest => (∃ t, body = Quoted.escape q t) ∧ rest.head? ≠ some q
  | region, body, _ => EndsAtFirst region.closer body

/-- Whether a region that was opened is still open after `body`. -/
def OpenAfter : Region → (body : List Char) → Prop
  | quoted q, body => ∃ t, body = Quoted.escape q t
  | region, body => ¬ region.closer <:+: body

end Region

/-! ## Lexemes -/

/-- A lexeme of SQL text. -/
inductive Lexeme where
  /-- A region with its opening and its closing mark. -/
  | closed (region : Region) (body : List Char)
  /-- A region that is never closed. -/
  | unclosed (region : Region) (body : List Char)
  /-- The cast operator. -/
  | cast
  /-- A placeholder that stands for a value. -/
  | live (name : List Char)
  /-- Any other character. -/
  | single (c : Char)

namespace Lexeme

/-- The text of a lexeme. -/
def text : Lexeme → List Char
  | closed region body => region.opener ++ body ++ region.closer
  | unclosed region body => region.opener ++ body
  | cast => [':', ':']
  | live name => ':' :: name
  | single c => [c]

/-- The name of a live placeholder. -/
def name? : Lexeme → Option String
  | live name => some (String.ofList name)
  | _ => none

/-- A lexeme as a token: a placeholder, or text that is copied. -/
def token : Lexeme → Token
  | live name => .placeholder name
  | x => .verbatim x.text

end Lexeme

/-- Whether a text begins with a lexeme that is not a single character. -/
def BeginsLonger (s : List Char) : Prop :=
  (∃ region : Region, region.Valid ∧ region.opener <+: s) ∨ [':', ':'] <+: s ∨
    ∃ d, isNameStart d = true ∧ [':', d] <+: s

/-- Whether a lexeme is what a text begins with that goes on with `rest` after it. -/
inductive Lexeme.Begins : Lexeme → (rest : List Char) → Prop where
  | closed {region : Region} {body rest : List Char} (valid : region.Valid)
      (closes : region.ClosesAfter body rest) : Begins (.closed region body) rest
  | unclosed {region : Region} {body : List Char} (valid : region.Valid)
      (stays : region.OpenAfter body) : Begins (.unclosed region body) []
  | cast {rest : List Char} : Begins .cast rest
  | live {name rest : List Char} (isName : isName name = true)
      (maximal : ∀ c, rest.head? = some c → isNamePart c = false) : Begins (.live name) rest
  | single {c : Char} {rest : List Char} (other : ¬ BeginsLonger (c :: rest)) :
      Begins (.single c) rest

/-! ## Readings -/

/-- Whether a text is read as lexemes if `rest` follows it, so that the next lexeme begins
where `rest` begins. -/
inductive Reads (rest : List Char) : List Char → List Lexeme → Prop where
  | nil : Reads rest [] []
  | cons {x : Lexeme} {s : List Char} {xs : List Lexeme} (first : x.Begins (s ++ rest))
      (others : Reads rest s xs) : Reads rest (x.text ++ s) (x :: xs)

/-- The lexemes of a text make up the text. -/
theorem Reads.source_eq {rest s : List Char} {xs : List Lexeme} (h : Reads rest s xs) :
    xs.flatMap Lexeme.text = s := by
  induction h with
  | nil => rfl
  | cons _ _ ih => rw [List.flatMap_cons, ih]

/-- The readings of two adjacent texts make up the reading of both. -/
theorem Reads.append {rest s t : List Char} {xs ys : List Lexeme}
    (first : Reads (t ++ rest) s xs) (second : Reads rest t ys) :
    Reads rest (s ++ t) (xs ++ ys) := by
  induction first with
  | nil => exact second
  | @cons x s xs hx _ ih =>
    rw [List.append_assoc, List.cons_append]
    exact .cons (by rwa [List.append_assoc]) ih

/-- A reading of a text, taken apart at a lexeme. -/
theorem Reads.split {rest s : List Char} {xs ys : List Lexeme} (h : Reads rest s (xs ++ ys)) :
    ∃ a b, s = a ++ b ∧ Reads (b ++ rest) a xs ∧ Reads rest b ys := by
  induction xs generalizing s with
  | nil => exact ⟨[], s, rfl, .nil, h⟩
  | cons x xs ih =>
    cases h with
    | @cons _ t _ hx ht =>
      obtain ⟨a, b, rfl, ha, hb⟩ := ih ht
      refine ⟨x.text ++ a, b, by rw [List.append_assoc], .cons ?_ ha, hb⟩
      rwa [← List.append_assoc]

theorem Reads.one {x : Lexeme} {rest : List Char} (h : x.Begins rest) :
    Reads rest x.text [x] := by
  simpa using Reads.cons (s := []) (by simpa using h) .nil

end TableAccess.Placeholder
