import TableAccess.Proofs.Identifier.Segment
/-!
# Identifiers at the front of a text

An identifier that is followed by text which cannot be a part of it is read in one way: no
other identifier stands at the front of the same text with such a text after it.  What is in
quotes does not matter, as a quoted segment ends at its closing quote only.

Main results:

- Theorem `segment_text`: a segment at the front of a text is found.
- Theorem `eq_of_check`: an identifier at the front of a text is the only one.
-/

namespace TableAccess.Identifier

open Text Placeholder

/-- Whether no identifier goes on with this text. -/
def Stops (rest : List Char) : Prop :=
  Ends rest ∧ ∀ r, rest = '.' :: r → ∀ c, r.head? = some c → isStart c = false ∧ c ≠ '"'

theorem ends_dot (rest : List Char) : Ends ('.' :: rest) := by
  intro c hc
  obtain rfl := Option.some.inj hc
  decide

/-- A segment at the front of a text is found. -/
theorem segment_text {x : Segment} (hx : x.Valid) {rest : List Char} (h : Ends rest) :
    segment (x.text ++ rest) = .ok rest := by
  cases x with
  | plain s =>
    obtain ⟨c, r, rfl, hc, hr⟩ := hx
    have hquote : c ≠ '"' := by
      rintro rfl
      exact absurd hc (by decide)
    have hend := (takeWhile_append_of_head hr fun d hd => (h d hd).1).2
    rw [Segment.text, List.cons_append, segment, if_neg hquote, if_pos hc, hend]
  | quoted inside =>
    have hrest : ∀ r, rest ≠ '"' :: r := by
      rintro r rfl
      exact (h '"' rfl).2 rfl
    have hne : Quoted.escape '"' inside ≠ [] := fun hempty =>
      hx ((Quoted.escape_eq_nil_iff _ _).1 hempty)
    rw [Segment.text, Quoted.enclose, List.cons_append, List.append_assoc, List.singleton_append,
      segment, if_pos rfl, Quoted.split_escape _ _ _ hrest]
    cases hbody : Quoted.escape '"' inside with
    | nil => exact absurd hbody hne
    | cons c r => rfl

/-- The segments after the first one, with a dot before each of them. -/
def laterSegments : List Segment → List Char
  | [] => []
  | y :: r => '.' :: joined (y :: r)

/-- Joined segments, the first one and the others. -/
theorem joined_cons (x : Segment) (xs : List Segment) :
    joined (x :: xs) = x.text ++ laterSegments xs := by
  cases xs with
  | nil => exact (List.append_nil _).symm
  | cons y r => rfl

/-- A segment ends where the others go on, or else where the identifier ends. -/
theorem ends_laterSegments (xs : List Segment) {rest : List Char} (h : Ends rest) :
    Ends (laterSegments xs ++ rest) := by
  cases xs with
  | nil => exact h
  | cons y r => exact ends_dot _

/-- Segments begin with a character that begins an identifier. -/
theorem exists_head_joined {x : Segment} (hx : x.Valid) (xs : List Segment) :
    ∃ c s, joined (x :: xs) = c :: s ∧ (isStart c = true ∨ c = '"') := by
  rw [joined_cons]
  cases x with
  | plain s =>
    obtain ⟨c, r, rfl, hc, -⟩ := hx
    exact ⟨c, _, rfl, .inl hc⟩
  | quoted inside => exact ⟨'"', _, rfl, .inr rfl⟩

/-- A name that passes its check begins with such a character, too. -/
theorem exists_head_of_check {role : Role} {name result : String}
    (h : check role name = .ok result) :
    ∃ c s, name.toList = c :: s ∧ (isStart c = true ∨ c = '"') := by
  obtain ⟨xs, hname, hne, hvalid⟩ := exists_spells h
  cases xs with
  | nil => exact absurd rfl hne
  | cons x xs => exact hname ▸ exists_head_joined (hvalid x (by simp)) xs

/-- A text where identifiers stop has no further segment. -/
theorem Stops.ne_laterSegments {rest : List Char} (h : Stops rest) {x : Segment} (hx : x.Valid)
    (xs : List Segment) (s : List Char) : rest ≠ laterSegments (x :: xs) ++ s := by
  intro heq
  obtain ⟨c, t, hjoined, hc⟩ := exists_head_joined hx xs
  have hnone := h.2 _ heq c (by rw [hjoined]; rfl)
  rcases hc with hc | hc
  · rw [hnone.1] at hc
    cases hc
  · exact hnone.2 hc

/-- Segments at the front of a text are the only ones. -/
theorem eq_of_joined {xs ys : List Segment} (hxs : ∀ x ∈ xs, x.Valid) (hys : ∀ y ∈ ys, y.Valid)
    (hx : xs ≠ []) (hy : ys ≠ []) {u v : List Char} (hu : Stops u) (hv : Stops v)
    (h : joined xs ++ u = joined ys ++ v) : joined xs = joined ys ∧ u = v := by
  induction xs generalizing ys with
  | nil => exact absurd rfl hx
  | cons x xs ih =>
    cases ys with
    | nil => exact absurd rfl hy
    | cons y ys =>
      rw [joined_cons, joined_cons] at h ⊢
      rw [List.append_assoc, List.append_assoc] at h
      have hfirst := segment_text (hxs x (by simp)) (ends_laterSegments xs hu.1)
      rw [h, segment_text (hys y (by simp)) (ends_laterSegments ys hv.1)] at hfirst
      have hrest : laterSegments ys ++ v = laterSegments xs ++ u := Except.ok.inj hfirst
      rw [hrest] at h
      rw [List.append_cancel_right h]
      cases xs with
      | nil =>
        cases ys with
        | nil => exact ⟨rfl, hrest.symm⟩
        | cons z ys => exact absurd hrest.symm (hu.ne_laterSegments (hys z (by simp)) ys v)
      | cons z xs =>
        cases ys with
        | nil => exact absurd hrest (hv.ne_laterSegments (hxs z (by simp)) xs u)
        | cons w ys =>
          have hjoined : joined (z :: xs) ++ u = joined (w :: ys) ++ v :=
            (List.cons.inj hrest).2.symm
          obtain ⟨heq, huv⟩ := ih (fun x hx => hxs x (by simp [hx]))
            (fun y hy => hys y (by simp [hy])) (by simp) (by simp) hjoined
          rw [laterSegments, laterSegments, heq]
          exact ⟨rfl, huv⟩

/-- An identifier at the front of a text is the only one. -/
theorem eq_of_check {role role' : Role} {name other : String} (hname : check role name = .ok name)
    (hother : check role' other = .ok other) {u v : List Char} (hu : Stops u) (hv : Stops v)
    (h : name.toList ++ u = other.toList ++ v) : name = other ∧ u = v := by
  obtain ⟨xs, hxs, hx, hxvalid⟩ := exists_spells hname
  obtain ⟨ys, hys, hy, hyvalid⟩ := exists_spells hother
  rw [hxs, hys] at h
  obtain ⟨heq, huv⟩ := eq_of_joined hxvalid hyvalid hx hy hu hv h
  exact ⟨String.toList_inj.1 (by rw [hxs, hys, heq]), huv⟩

end TableAccess.Identifier
