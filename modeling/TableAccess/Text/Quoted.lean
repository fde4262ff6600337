/-!
# Quoted text

A quoted text stands between two equal quote characters, and a quote character
inside it is written twice.  SQL uses this form for string constants (single
quotes) and for identifiers (double quotes).

Main results:

- Theorem `split_escape`: what was enclosed is found again, and nothing after
  it, provided that the next character is not the quote.
- Theorem `unescape_escape`: doubling quotes loses nothing.
- Theorem `split_append`: the body, the closing quote and the rest make up the
  text.
-/

namespace TableAccess.Text.Quoted

/-! ## Writing -/

/-- A text with every quote character written twice. -/
def escape (q : Char) : List Char → List Char
  | [] => []
  | c :: r => if c = q then q :: q :: escape q r else c :: escape q r

/-- A text enclosed in quotes. -/
def enclose (q : Char) (s : List Char) : List Char :=
  q :: (escape q s ++ [q])

/-! ## Reading -/

/-- The text whose quote characters were written twice.  A quote that stands alone is
refused. -/
def unescape (q : Char) : List Char → Option (List Char)
  | [] => some []
  | [c] => if c = q then none else some [c]
  | c :: d :: r =>
    if c = q then
      if d = q then (unescape q r).map (q :: ·) else none
    else
      (unescape q (d :: r)).map (c :: ·)

/-- Given the text after an opening quote, the body up to the closing quote, as
written, and what follows the closing quote; none if the quote is never closed. -/
def split (q : Char) : List Char → Option (List Char × List Char)
  | [] => none
  | [c] => if c = q then some ([], []) else none
  | c :: d :: r =>
    if c = q then
      if d = q then
        (split q r).map fun p => (q :: q :: p.1, p.2)
      else
        some ([], d :: r)
    else
      (split q (d :: r)).map fun p => (c :: p.1, p.2)

/-! ## Laws -/

/-- The body, the closing quote and the rest make up the text. -/
theorem split_append (q : Char) (s : List Char) :
    ∀ body rest, split q s = some (body, rest) → s = body ++ q :: rest := by
  fun_induction split q s with
  | case1 => simp
  | case2 => simp_all
  | case3 => simp_all
  | case4 r ih =>
    intro body rest h
    obtain ⟨⟨b, t⟩, hs, heq⟩ := Option.map_eq_some_iff.1 h
    obtain ⟨rfl, rfl⟩ := Prod.mk.injEq .. ▸ heq
    simp [ih b t hs]
  | case5 => simp_all
  | case6 c d r hc ih =>
    intro body rest h
    obtain ⟨⟨b, t⟩, hs, heq⟩ := Option.map_eq_some_iff.1 h
    obtain ⟨rfl, rfl⟩ := Prod.mk.injEq .. ▸ heq
    simp [ih b t hs]

/-- What follows a closing quote is shorter than the text. -/
theorem split_length {q : Char} {s body rest : List Char}
    (h : split q s = some (body, rest)) : rest.length < s.length := by
  rw [split_append q s body rest h]
  simp
  omega

/-- An escaped text that is followed by its closing quote is found again exactly,
unless the rest goes on with another quote. -/
theorem split_escape (q : Char) (s rest : List Char) (h : ∀ r, rest ≠ q :: r) :
    split q (escape q s ++ q :: rest) = some (escape q s, rest) := by
  induction s with
  | nil =>
    cases rest with
    | nil => simp [escape, split]
    | cons d r =>
      have hd : d ≠ q := fun hd => h r (by rw [hd])
      simp [escape, split, hd]
  | cons c r ih =>
    by_cases hc : c = q
    · simp [escape, hc, split, ih]
    · rw [escape, if_neg hc, List.cons_append]
      cases hr : escape q r ++ q :: rest with
      | nil => simp at hr
      | cons d t => simp [split, hc, ← hr, ih]

/-- Doubling quotes loses nothing. -/
theorem unescape_escape (q : Char) (s : List Char) : unescape q (escape q s) = some s := by
  induction s with
  | nil => rfl
  | cons c r ih =>
    by_cases hc : c = q
    · simp [escape, hc, unescape, ih]
    · rw [escape, if_neg hc]
      cases hr : escape q r with
      | nil =>
        rw [hr] at ih
        simp only [unescape, Option.some.injEq] at ih
        simp [unescape, hc, ih]
      | cons d t => simp [unescape, hc, ← hr, ih]

end TableAccess.Text.Quoted
