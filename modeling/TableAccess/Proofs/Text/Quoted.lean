import TableAccess.Text.Quoted
/-!
# The ends of quoted text

A quoted text goes on until a quote that is not followed by another one.  What stands
before that quote is a text with its quotes doubled, and a text that is never closed is
such a text to its end.

Main results:

- Theorem `split_eq_some_iff`: where a quoted text ends.
- Theorem `split_eq_none_iff`: when it does not end.
- Theorem `isDoubled_iff`: the texts whose quotes are doubled.
-/

namespace TableAccess.Text.Quoted

theorem escape_cons_self (q : Char) (s : List Char) : escape q (q :: s) = q :: q :: escape q s := by
  simp [escape]

theorem escape_cons_of_ne {q c : Char} (h : c ≠ q) (s : List Char) :
    escape q (c :: s) = c :: escape q s := by
  simp [escape, h]

/-- What stands before a closing quote has its quotes doubled, and no further quote
follows. -/
theorem split_eq_some (q : Char) (s : List Char) :
    ∀ body rest, split q s = some (body, rest) →
      (∃ t, body = escape q t) ∧ rest.head? ≠ some q := by
  fun_induction split q s with
  | case1 => simp
  | case2 =>
    intro body rest h
    obtain ⟨rfl, rfl⟩ := Prod.mk.injEq .. ▸ Option.some.inj h
    exact ⟨⟨[], rfl⟩, by simp⟩
  | case3 => simp_all
  | case4 r ih =>
    intro body rest h
    obtain ⟨⟨b, t⟩, hs, heq⟩ := Option.map_eq_some_iff.1 h
    obtain ⟨rfl, rfl⟩ := Prod.mk.injEq .. ▸ heq
    obtain ⟨⟨u, rfl⟩, hrest⟩ := ih b t hs
    exact ⟨⟨q :: u, (escape_cons_self q u).symm⟩, hrest⟩
  | case5 d r hd =>
    intro body rest h
    obtain ⟨rfl, rfl⟩ := Prod.mk.injEq .. ▸ Option.some.inj h
    exact ⟨⟨[], rfl⟩, by simpa using hd⟩
  | case6 c d r hc ih =>
    intro body rest h
    obtain ⟨⟨b, t⟩, hs, heq⟩ := Option.map_eq_some_iff.1 h
    obtain ⟨rfl, rfl⟩ := Prod.mk.injEq .. ▸ heq
    obtain ⟨⟨u, rfl⟩, hrest⟩ := ih b t hs
    exact ⟨⟨c :: u, (escape_cons_of_ne hc u).symm⟩, hrest⟩

/-- Where a quoted text ends. -/
theorem split_eq_some_iff (q : Char) (s body rest : List Char) :
    split q s = some (body, rest) ↔
      s = body ++ q :: rest ∧ (∃ t, body = escape q t) ∧ rest.head? ≠ some q := by
  constructor
  · intro h
    exact ⟨split_append q s body rest h, split_eq_some q s body rest h⟩
  · rintro ⟨rfl, ⟨t, rfl⟩, hrest⟩
    apply split_escape
    rintro r rfl
    simp at hrest

/-- A text with its quotes doubled is never closed. -/
theorem split_escape_eq_none (q : Char) (t : List Char) : split q (escape q t) = none := by
  induction t with
  | nil => rfl
  | cons c r ih =>
    by_cases hc : c = q
    · subst hc
      simp [escape_cons_self, split, ih]
    · rw [escape_cons_of_ne hc]
      cases hr : escape q r with
      | nil => simp [split, hc]
      | cons d s => simp [split, hc, ← hr, ih]

/-- When a quoted text does not end. -/
theorem split_eq_none_iff (q : Char) (s : List Char) :
    split q s = none ↔ ∃ t, s = escape q t := by
  constructor
  · fun_induction split q s with
    | case1 => exact fun _ => ⟨[], rfl⟩
    | case2 => simp
    | case3 c hc => exact fun _ => ⟨[c], by simp [escape, hc]⟩
    | case4 r ih =>
      intro h
      obtain ⟨t, rfl⟩ := ih (by simpa using h)
      exact ⟨q :: t, (escape_cons_self q t).symm⟩
    | case5 => simp
    | case6 c d r hc ih =>
      intro h
      obtain ⟨t, ht⟩ := ih (by simpa using h)
      exact ⟨c :: t, by rw [escape_cons_of_ne hc, ← ht]⟩
  · rintro ⟨t, rfl⟩
    exact split_escape_eq_none q t

/-! ## Doubled quotes -/

/-- Whether every quote in a text is directly followed by a second one. -/
inductive IsDoubled (q : Char) : List Char → Prop where
  | nil : IsDoubled q []
  | quote {s : List Char} (others : IsDoubled q s) : IsDoubled q (q :: q :: s)
  | other {c : Char} {s : List Char} (ne : c ≠ q) (others : IsDoubled q s) : IsDoubled q (c :: s)

/-- A text whose quotes were written twice has all of them doubled. -/
theorem isDoubled_escape (q : Char) (t : List Char) : IsDoubled q (escape q t) := by
  induction t with
  | nil => exact .nil
  | cons c r ih =>
    by_cases hc : c = q
    · rw [hc, escape_cons_self]
      exact .quote ih
    · rw [escape_cons_of_ne hc]
      exact .other hc ih

/-- The texts whose quotes are doubled are the escaped ones. -/
theorem isDoubled_iff (q : Char) (s : List Char) : IsDoubled q s ↔ ∃ t, s = escape q t := by
  constructor
  · intro h
    induction h with
    | nil => exact ⟨[], rfl⟩
    | quote _ ih =>
      obtain ⟨t, rfl⟩ := ih
      exact ⟨q :: t, (escape_cons_self q t).symm⟩
    | @other c _ ne _ ih =>
      obtain ⟨t, rfl⟩ := ih
      exact ⟨c :: t, (escape_cons_of_ne ne t).symm⟩
  · rintro ⟨t, rfl⟩
    exact isDoubled_escape q t

/-- Only an empty text is written as an empty one. -/
theorem escape_eq_nil_iff (q : Char) (t : List Char) : escape q t = [] ↔ t = [] := by
  cases t with
  | nil => simp [escape]
  | cons c r => by_cases hc : c = q <;> simp [escape, hc]

end TableAccess.Text.Quoted
