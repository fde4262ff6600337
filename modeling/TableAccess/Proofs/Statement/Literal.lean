import TableAccess.Comparison
import TableAccess.Proofs.Placeholder.Passage
import TableAccess.Proofs.Text.Digits
/-!
# Literals in SQL text

A value that is written into SQL text is a number, a word or a string constant.  None of
them has a placeholder in it or hides one: the quotes of a string constant are doubled, and
no hyphen of a number is followed by another one.

Main results:

- Theorem `passes_render`: the text of a floating-point number is passed over.
- Theorem `passes_literal`: so is every literal, unless a quote follows it.
-/

namespace TableAccess

open Text Placeholder

/-! ## Digits -/

/-- No longer lexeme begins in the digits of a number. -/
theorem isPlain_of_mem_natDigits {n : Nat} {c : Char} (h : c ∈ natDigits n) : IsPlain c :=
  isPlain_of_isDigit (isDigit_of_mem_natDigits h)

/-- Nothing is added where zeros are dropped. -/
theorem mem_of_mem_dropTrailingZeros {s : List Char} {c : Char}
    (h : c ∈ Shortest.dropTrailingZeros s) : c ∈ s := by
  induction s with
  | nil => exact h
  | cons d r ih =>
    unfold Shortest.dropTrailingZeros at h
    split at h
    · split at h
      · cases h
      · exact List.mem_cons.2 (.inl (List.mem_singleton.1 h))
    · rcases List.mem_cons.1 h with rfl | h
      · exact List.mem_cons_self
      · exact List.mem_cons_of_mem d (ih h)

/-! ## Numbers -/

/-- A sign is passed over together with the characters after it. -/
theorem passes_signed (negative : Bool) {s : List Char} (hs : IsPlainText s) (hne : s ≠ [])
    (rest : List Char) : Passes rest ((if negative then ['-'] else []) ++ s) := by
  have hpass : Passes rest s := passes_of_plain hs rest
  cases negative with
  | false => exact hpass
  | true =>
    refine Passes.append (s := ['-']) (passes_hyphen ?_) hpass
    cases s with
    | nil => exact absurd rfl hne
    | cons c r =>
      intro hc
      obtain rfl := Option.some.inj hc
      exact absurd (hs '-' (by simp)) (by decide)

/-- A written integer is passed over. -/
theorem passes_intDigits (i : Int) (rest : List Char) : Passes rest (intDigits i) := by
  have hpass (negative : Bool) :=
    passes_signed negative (fun _ hc => isPlain_of_mem_natDigits hc)
      (natDigits_ne_nil i.natAbs) rest
  unfold intDigits
  split
  · exact hpass true
  · exact hpass false

/-- Digits with the decimal point put into its place begin no longer lexeme. -/
theorem isPlain_of_mem_positional {d : ShortDecimal} (hd : ∀ c ∈ d.digits, c.isDigit = true)
    {c : Char} (hc : c ∈ Layout.positional d) : IsPlain c := by
  have hdigit : ∀ {c}, c ∈ d.digits → IsPlain c := fun hc => isPlain_of_isDigit (hd _ hc)
  have hzero : IsPlain '0' := by decide
  have hpoint : IsPlain '.' := by decide
  unfold Layout.positional at hc
  split at hc
  · simp only [List.mem_cons, List.mem_append, List.mem_replicate] at hc
    rcases hc with rfl | rfl | ⟨-, rfl⟩ | hc
    · exact hzero
    · exact hpoint
    · exact hzero
    · exact hdigit hc
  · simp only at hc
    split at hc
    · simp only [List.mem_append, List.mem_replicate, List.mem_cons, List.not_mem_nil,
        or_false] at hc
      rcases hc with (hc | ⟨-, rfl⟩) | rfl | rfl
      · exact hdigit (List.mem_of_mem_take hc)
      · exact hzero
      · exact hpoint
      · exact hzero
    · simp only [List.mem_append, List.mem_cons] at hc
      rcases hc with hc | rfl | hc
      · exact hdigit (List.mem_of_mem_take hc)
      · exact hpoint
      · exact hdigit (List.mem_of_mem_drop hc)

/-- A decimal is written with at least one character. -/
theorem positional_ne_nil (d : ShortDecimal) : Layout.positional d ≠ [] := by
  unfold Layout.positional
  split
  · simp
  · simp only
    split <;> simp

/-- The text of a positive number in plain layout is passed over together with a sign. -/
theorem passes_arrange (negative : Bool) {d : ShortDecimal}
    (hd : ∀ c ∈ d.digits, c.isDigit = true) (rest : List Char) :
    Passes rest ((if negative then ['-'] else []) ++ Layout.plain.arrange d) := by
  by_cases hwithin : Layout.plain.leastPoint ≤ d.point ∧ d.point ≤ Layout.plain.greatestPoint
  · rw [Layout.arrange, if_pos hwithin]
    exact passes_signed negative (fun c hc => isPlain_of_mem_positional hd hc)
      (positional_ne_nil d) rest
  · rw [Layout.arrange, if_neg hwithin, Layout.scientific, ← List.append_assoc]
    -- the exponent may have a sign of its own
    refine Passes.append (passes_signed negative (fun c hc => ?_) ?_ _)
      (passes_intDigits (d.point - 1) rest)
    · have hdigit : ∀ {c}, c ∈ d.digits → IsPlain c := fun hc => isPlain_of_isDigit (hd _ hc)
      simp only [Layout.plain, Bool.false_and, Bool.false_eq_true, if_false, List.mem_append,
        List.mem_singleton] at hc
      rcases hc with hc | rfl
      · split at hc
        · cases hc
        · rename_i hdigits
          exact hdigit (hdigits ▸ hc)
        · rename_i e r _ hdigits
          rcases List.mem_cons.1 hc with rfl | hc
          · exact hdigit (hdigits ▸ List.mem_cons_self)
          · rcases List.mem_cons.1 hc with rfl | hc
            · decide
            · exact hdigit (hdigits ▸ List.mem_cons_of_mem e hc)
      · decide
    · simp [Layout.plain]

/-- The text of a floating-point number is passed over. -/
theorem passes_render {f : Format} (x : Binary f) (rest : List Char) :
    Passes rest (Layout.plain.render x) := by
  unfold Layout.render
  split
  · exact passes_of_plain (by decide) rest
  · simp only
    split
    · split
      · exact passes_signed x.negative (by decide) (by decide) rest
      · refine passes_arrange x.negative (fun c hc => ?_) rest
        exact isDigit_of_mem_natDigits (mem_of_mem_dropTrailingZeros hc)
    · exact passes_signed x.negative (by decide) (by decide) rest

/-! ## Values -/

/-- A written string constant is passed over unless a quote follows it. -/
theorem passes_sqlString (s : String) {rest : List Char} (hrest : rest.head? ≠ some '\'') :
    Passes rest (sqlString s).toList := by
  rw [sqlString, String.toList_ofList]
  exact passes_enclose (.inl rfl) s.toList hrest

/-- A literal is passed over unless a quote follows it. -/
theorem passes_literal (v : Value) {rest : List Char} (hrest : rest.head? ≠ some '\'') :
    Passes rest v.literal.toList := by
  cases v with
  | null => exact passes_of_plain (by decide) rest
  | bool b => cases b <;> exact passes_of_plain (by decide) rest
  | int i =>
    rw [Value.literal, Value.integerText, intText, String.toList_ofList]
    exact passes_intDigits i.toInt rest
  | float x =>
    rw [Value.literal]
    split
    · rw [Binary.plainText, String.toList_ofList]
      exact passes_render x rest
    · exact passes_sqlString x.plainText hrest
  | text s => exact passes_sqlString s hrest
  | document d => exact passes_sqlString d.toText hrest

end TableAccess
