import Mathlib.Data.List.TakeWhile
import TableAccess.Text.Blank
/-!
# Texts without blanks at their ends

Every text has one part that neither begins nor ends with a blank and has nothing but blanks
before and after it.  This part is what trimming gives.

Main results:

- Theorem `trimChars_eq_iff`: what trimming gives.
- Theorem `trim_eq_self`: a text without blanks at its ends is not trimmed.
-/

namespace TableAccess.Text

/-! ## Blanks at the end -/

/-- The last character that is no blank is kept, with everything before it. -/
theorem dropTrailingBlanks_append {c : Char} (h : isBlank c = false) (s : List Char) :
    dropTrailingBlanks (s ++ [c]) = s ++ [c] := by
  induction s with
  | nil => simp [dropTrailingBlanks, h]
  | cons d r ih =>
    rw [List.cons_append, dropTrailingBlanks, ih]
    cases r <;> rfl

/-- Blanks at the end are dropped whatever stands before them. -/
theorem dropTrailingBlanks_append_of_blank (s : List Char) {b : List Char}
    (h : ∀ c ∈ b, isBlank c = true) : dropTrailingBlanks (s ++ b) = dropTrailingBlanks s := by
  induction s with
  | nil =>
    induction b with
    | nil => rfl
    | cons c r ih =>
      have hr : dropTrailingBlanks r = [] := ih fun d hd => h d (List.mem_cons_of_mem c hd)
      simp only [List.nil_append, dropTrailingBlanks, hr]
      exact if_pos (h c List.mem_cons_self)
  | cons c r ih => rw [List.cons_append, dropTrailingBlanks, dropTrailingBlanks, ih]

/-- Only blanks are dropped at the end, and no blank is left there. -/
theorem exists_dropTrailingBlanks (s : List Char) :
    ∃ trail, s = dropTrailingBlanks s ++ trail ∧ (∀ c ∈ trail, isBlank c = true) ∧
      ∀ c, (dropTrailingBlanks s).getLast? = some c → isBlank c = false := by
  induction s with
  | nil => exact ⟨[], rfl, by simp, by simp [dropTrailingBlanks]⟩
  | cons d r ih =>
    obtain ⟨trail, htext, htrail, hlast⟩ := ih
    rw [dropTrailingBlanks]
    cases hr : dropTrailingBlanks r with
    | nil =>
      rw [hr] at htext
      by_cases hd : isBlank d = true
      · refine ⟨d :: trail, ?_, ?_, ?_⟩
        · simpa [hd] using htext
        · simpa [hd] using htrail
        · simp [hd]
      · refine ⟨trail, ?_, htrail, ?_⟩
        · simpa [hd] using htext
        · simp [hd]
    | cons e t =>
      rw [hr] at htext hlast
      refine ⟨trail, ?_, htrail, ?_⟩
      · rw [List.cons_append, ← htext]
      · simpa [List.getLast?_cons_cons] using hlast

/-- Nothing is dropped at the front of a text that does not begin with a blank. -/
theorem head?_dropTrailingBlanks {c : Char} (h : isBlank c = false) (r : List Char) :
    (dropTrailingBlanks (c :: r)).head? = some c := by
  rw [dropTrailingBlanks]
  cases dropTrailingBlanks r with
  | nil => simp [h]
  | cons d t => rfl

/-! ## Blanks at the front -/

/-- Nothing is dropped in front of a character that is no blank. -/
theorem dropBlanks_cons_of_nonblank {c : Char} (h : isBlank c = false) (r : List Char) :
    dropBlanks (c :: r) = c :: r := by
  rw [dropBlanks_cons, h]
  rfl

/-! ## Trimming -/

/-- Whether a text is another one without the blanks at its two ends. -/
structure IsTrimmed (s t : List Char) : Prop where
  /-- Only blanks stand before and after it. -/
  text : ∃ lead trail, s = lead ++ t ++ trail ∧ (∀ c ∈ lead, isBlank c = true) ∧
    ∀ c ∈ trail, isBlank c = true
  first : ∀ c, t.head? = some c → isBlank c = false
  last : ∀ c, t.getLast? = some c → isBlank c = false

/-- Trimming leaves blanks out at both ends, and nothing else. -/
theorem isTrimmed_trimChars (s : List Char) : IsTrimmed s (trimChars s) := by
  obtain ⟨trail, htext, htrail, hlast⟩ := exists_dropTrailingBlanks (dropBlanks s)
  refine ⟨⟨s.takeWhile isBlank, trail, ?_, fun c hc => List.mem_takeWhile_imp hc, htrail⟩, ?_,
    hlast⟩
  · rw [trimChars, List.append_assoc, ← htext, dropBlanks, List.takeWhile_append_dropWhile]
  · intro c hc
    rw [trimChars] at hc
    cases hs : dropBlanks s with
    | nil => simp [hs, dropTrailingBlanks] at hc
    | cons d r =>
      have hd : isBlank d = false := by
        have hfirst := List.head?_dropWhile_not isBlank s
        rw [dropBlanks] at hs
        simpa [hs] using hfirst
      rw [hs, head?_dropTrailingBlanks hd] at hc
      exact Option.some.inj hc ▸ hd

/-- What trimming gives. -/
theorem trimChars_eq_iff (s t : List Char) : trimChars s = t ↔ IsTrimmed s t := by
  constructor
  · rintro rfl
    exact isTrimmed_trimChars s
  · rintro ⟨⟨lead, trail, rfl, hlead, htrail⟩, hfirst, hlast⟩
    rw [trimChars, List.append_assoc, dropBlanks_append_of_blank lead _ hlead]
    cases t with
    | nil =>
      have hnone := dropBlanks_append_of_blank trail [] htrail
      rw [List.append_nil] at hnone
      rw [List.nil_append, hnone]
      rfl
    | cons c r =>
      have hc : isBlank c = false := hfirst c rfl
      rw [List.cons_append, dropBlanks_cons_of_nonblank hc, ← List.cons_append,
        dropTrailingBlanks_append_of_blank _ htrail]
      have hne : c :: r ≠ [] := List.cons_ne_nil c r
      have hd := hlast _ (List.getLast?_eq_some_getLast hne)
      rw [← List.dropLast_concat_getLast hne, dropTrailingBlanks_append hd]

/-- A text without blanks is not trimmed. -/
theorem trimChars_of_nonblank {s : List Char} (h : ∀ c ∈ s, isBlank c = false) :
    trimChars s = s :=
  (trimChars_eq_iff s s).2
    ⟨⟨[], [], by simp, by simp, by simp⟩, fun c hc => h c (List.mem_of_mem_head? hc),
      fun c hc => h c (List.mem_of_mem_getLast? hc)⟩

/-- A text that neither begins nor ends with a blank is not trimmed. -/
theorem trim_eq_self {s : String} {c d : Char} {front rest : List Char}
    (begins : s.toList = c :: rest) (ends : s.toList = front ++ [d]) (hc : isBlank c = false)
    (hd : isBlank d = false) : trim s = s := by
  have htrimmed : IsTrimmed s.toList s.toList :=
    ⟨⟨[], [], by simp, by simp, by simp⟩, by simpa [begins] using hc, by simpa [ends] using hd⟩
  rw [trim, (trimChars_eq_iff _ _).2 htrimmed, String.ofList_toList]

end TableAccess.Text
