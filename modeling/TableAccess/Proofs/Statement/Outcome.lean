import TableAccess.Statement.Table
/-!
# Two calls side by side

Two calls that build statements are compared step by step: both are refused with one error,
or both go on with statements that are related.  A relation that is kept when both statements
go on with one text is kept by all that is written without a value.

Main results:

- Theorem `SameOutcome.bind`: related steps that follow related steps.
- Theorem `sameOutcome_select`: selections that differ in their filters only are related if
  their conditions are.
-/

namespace TableAccess

/-! ## Outcomes -/

/-- Whether two results are one error, or values that are related. -/
inductive SameOutcome {α β : Type} (R : α → β → Prop) :
    Except AccessError α → Except AccessError β → Prop where
  | error (e : AccessError) : SameOutcome R (.error e) (.error e)
  | ok {a : α} {b : β} (related : R a b) : SameOutcome R (.ok a) (.ok b)

namespace SameOutcome

variable {α β γ δ : Type} {R : α → β → Prop} {S : γ → δ → Prop}

/-- Related steps that follow related steps. -/
theorem bind {x : Except AccessError α} {y : Except AccessError β}
    {f : α → Except AccessError γ} {g : β → Except AccessError δ} (h : SameOutcome R x y)
    (next : ∀ a b, R a b → SameOutcome S (f a) (g b)) : SameOutcome S (x >>= f) (y >>= g) := by
  cases h with
  | error e => exact .error e
  | ok related => exact next _ _ related

/-- Related steps that follow one step. -/
theorem bind_same (x : Except AccessError α) {f : α → Except AccessError γ}
    {g : α → Except AccessError δ} (next : ∀ a, x = .ok a → SameOutcome S (f a) (g a)) :
    SameOutcome S (x >>= f) (x >>= g) := by
  cases x with
  | error e => exact .error e
  | ok a => exact next a rfl

theorem map {x : Except AccessError α} {y : Except AccessError β} {f : α → γ} {g : β → δ}
    (h : SameOutcome R x y) (values : ∀ a b, R a b → S (f a) (g b)) :
    SameOutcome S (x.map f) (y.map g) := by
  cases h with
  | error e => exact .error e
  | ok related => exact .ok (values _ _ related)

/-- Outcomes that are the same in one sense are so in every weaker one. -/
theorem mono {T : α → β → Prop} {x : Except AccessError α} {y : Except AccessError β}
    (h : SameOutcome R x y) (weaker : ∀ a b, R a b → T a b) : SameOutcome T x y := by
  cases h with
  | error e => exact .error e
  | ok related => exact .ok (weaker _ _ related)

/-- What succeeds like a success has a related value. -/
theorem exists_of_ok {x : Except AccessError α} {b : β} (h : SameOutcome R x (.ok b)) :
    ∃ a, x = .ok a ∧ R a b := by
  cases h with
  | ok related => exact ⟨_, rfl, related⟩

end SameOutcome

namespace Statement

/-! ## Text without values -/

/-- Whether a relation is kept when both statements go on with one text. -/
def KeptByText (R : Statement → Statement → Prop) : Prop :=
  ∀ s t text, R s t → R (s.push text) (t.push text)

variable {R : Statement → Statement → Prop} (hR : KeptByText R)
include hR

/-- A joiner is written in both statements or in none. -/
theorem KeptByText.joiner {s t : Statement} (h : R s t) (first : Prop) [Decidable first]
    (joiner : String) :
    R (if first then s else s.push joiner) (if first then t else t.push joiner) := by
  split
  · exact h
  · exact hR _ _ joiner h

/-- The terms of an order are written after related statements with related results. -/
theorem sameOutcome_pushTerms (terms : List (String × Direction)) (first : Bool)
    {s t : Statement} (h : R s t) :
    SameOutcome R (pushTerms first terms s) (pushTerms first terms t) := by
  induction terms generalizing first s t with
  | nil => exact .ok h
  | cons e r ih =>
    obtain ⟨name, direction⟩ := e
    refine .bind_same _ fun column _ => ih false ?_
    exact hR _ _ _ (hR _ _ _ (hR _ _ _ (hR.joiner h (first = true) ", ")))

/-- Selections that differ in their filters only are related if their conditions are. -/
theorem sameOutcome_select (table : String) (columns : List String) {order : Order} {page : Page}
    {filter other : Filter} {style otherStyle : OperandStyle}
    (conditions : ∀ sql, SameOutcome R (pushWhere style filter (ofSql sql)).result
      (pushWhere otherStyle other (ofSql sql)).result) :
    SameOutcome R (select table columns ⟨filter, order, page⟩ style).result
      (select table columns ⟨other, order, page⟩ otherStyle).result := by
  unfold select
  simp only [Noted.result_bind]
  refine .bind_same _ fun name _ => .bind_same _ fun text _ => ?_
  refine .bind (conditions _) fun s t h => ?_
  split
  · exact .ok h
  · simp only [Noted.result_bind]
    refine .bind (sameOutcome_pushTerms hR order.terms true (hR _ _ _ h)) fun s t h => ?_
    exact .ok (hR _ _ _ h)

end Statement

end TableAccess
