import TableAccess.Identifier
import TableAccess.Proofs.Placeholder.Passage
/-!
# Segments of identifiers

An identifier that passes its check is segments joined by dots.  In SQL text it is passed
over by the scanner for placeholders, unless one of its plain segments has a delimiter of a
dollar-quoted body in it: dollar signs may be part of a plain segment.

Main results:

- Theorem `exists_segments`: an identifier without a fault is segments joined by dots.
- Theorem `passes_of_not_opensBody`: an identifier that opens no body is passed over.
- Theorem `OpensBody.count`: an identifier that opens a body has two dollar signs.
-/

namespace TableAccess.Identifier

open Text Placeholder

/-! ## Segments -/

/-- A segment of an identifier. -/
inductive Segment where
  /-- A segment that is written as it is. -/
  | plain (s : List Char)
  /-- A segment in double quotes. -/
  | quoted (inside : List Char)

namespace Segment

/-- The text of a segment. -/
def text : Segment → List Char
  | plain s => s
  | quoted inside => Quoted.enclose '"' inside

/-- Whether an identifier may have such a segment. -/
def Valid : Segment → Prop
  | plain s => ∃ c r, s = c :: r ∧ isStart c = true ∧ ∀ d ∈ r, isPart d = true
  | quoted inside => inside ≠ []

/-- Whether a segment has a delimiter of a dollar-quoted body outside quotes. -/
def OpensBody : Segment → Prop
  | plain s => ∃ tag, IsTag tag ∧ delimiter tag <:+: s
  | quoted _ => False

end Segment

/-- Segments joined by dots. -/
def joined : List Segment → List Char
  | [] => []
  | [x] => x.text
  | x :: y :: r => x.text ++ '.' :: joined (y :: r)

/-- Whether a name is these segments. -/
def Spells (name : String) (xs : List Segment) : Prop :=
  name.toList = joined xs ∧ xs ≠ [] ∧ ∀ x ∈ xs, x.Valid

/-- Whether an identifier has a delimiter of a dollar-quoted body in a plain segment. -/
def OpensBody (name : String) : Prop :=
  ∃ xs, Spells name xs ∧ ∃ x ∈ xs, x.OpensBody

/-! ## Checked identifiers -/

/-- What is taken from the front of a text is a segment. -/
theorem exists_segment {s rest : List Char} (h : segment s = .ok rest) :
    ∃ x : Segment, x.Valid ∧ s = x.text ++ rest := by
  cases s with
  | nil => simp [segment] at h
  | cons c r =>
    simp only [segment] at h
    split at h
    · rename_i hquote
      subst hquote
      split at h
      · simp at h
      · simp at h
      · rename_i d t rest' hsplit
        obtain rfl := Except.ok.inj h
        obtain ⟨htext, ⟨inside, hinside⟩, -⟩ := (Quoted.split_eq_some_iff _ _ _ _).1 hsplit
        refine ⟨.quoted inside, ?_, ?_⟩
        · rintro rfl
          simp [Quoted.escape] at hinside
        · rw [htext, hinside]
          simp [Segment.text, Quoted.enclose]
    · split at h
      · rename_i hstart
        obtain rfl := Except.ok.inj h
        refine ⟨.plain (c :: r.takeWhile isPart), ⟨c, _, rfl, hstart, fun d hd => ?_⟩, ?_⟩
        · exact List.mem_takeWhile_imp hd
        · simp [Segment.text]
      · simp at h

/-- A text without a fault is segments joined by dots. -/
theorem exists_segments {s : List Char} (h : segmentsFault s = none) :
    ∃ xs, s = joined xs ∧ xs ≠ [] ∧ ∀ x ∈ xs, x.Valid := by
  fun_induction segmentsFault s with
  | case1 => simp at h
  | case2 s hsegment =>
    obtain ⟨x, hvalid, hs⟩ := exists_segment hsegment
    exact ⟨[x], by simpa [joined] using hs, by simp, by simpa using hvalid⟩
  | case3 => simp at h
  | case4 s rest hsegment hne hdot hhead ih =>
    obtain ⟨x, hvalid, hs⟩ := exists_segment hsegment
    obtain ⟨xs, hxs, hxs_ne, hall⟩ := ih h
    refine ⟨x :: xs, ?_, by simp, by simpa [hvalid] using hall⟩
    cases xs with
    | nil => exact absurd rfl hxs_ne
    | cons y ys =>
      rw [joined, ← hxs, hs]
      cases rest with
      | nil => exact absurd rfl hne
      | cons c r =>
        obtain rfl := Option.some.inj hhead
        rfl
  | case5 => simp at h

/-- A name that passes its check is segments joined by dots. -/
theorem exists_spells {role : Role} {name result : String} (h : check role name = .ok result) :
    ∃ xs, Spells name xs := by
  have hfault := ((check_eq_ok_iff role name result).1 h).1
  unfold fault? at hfault
  split at hfault
  · cases hfault
  · split at hfault
    · cases hfault
    · exact exists_segments hfault

/-! ## Identifiers in SQL text -/

/-- Whether an identifier ends before this text. -/
def Ends (rest : List Char) : Prop :=
  ∀ c, rest.head? = some c → isPart c = false ∧ c ≠ '"'

/-- A dollar sign in a segment is the only character that may begin a longer lexeme. -/
theorem eq_dollar_or_isPlain {c : Char} (h : isPart c = true) : c = '$' ∨ IsPlain c := by
  by_cases hc : c = '$'
  · exact .inl hc
  · exact .inr (isPlain_of_kind (p := fun d => isPart d && d != '$') (by decide)
      (by simp [h, hc]))

theorem isPart_of_isStart {c : Char} (h : isStart c = true) : isPart c = true := by
  simp only [isStart, isPart, Char.isAlphanum, Bool.or_eq_true] at *
  rcases h with h | h
  · exact .inl (.inl h)
  · exact .inr (.inl h)

/-- Parts of a plain segment are passed over unless they have a delimiter. -/
theorem passes_of_isPart {s rest : List Char} (hs : ∀ c ∈ s, isPart c = true)
    (hbody : ∀ tag, IsTag tag → ¬ delimiter tag <:+: s) (hrest : Ends rest) : Passes rest s := by
  refine passes_of_no_delimiter (fun c hc => eq_dollar_or_isPlain (hs c hc)) hbody fun c hc => ?_
  have hpart := (hrest c hc).1
  simp only [isPart, Bool.or_eq_false_iff, beq_eq_false_iff_ne] at hpart
  exact ⟨hpart.1.2, by simp [isNamePart, hpart]⟩

/-- A segment that opens no body is passed over. -/
theorem Segment.passes {x : Segment} (hvalid : x.Valid) (hbody : ¬ x.OpensBody)
    {rest : List Char} (hrest : Ends rest) : Passes rest x.text := by
  cases x with
  | plain s =>
    obtain ⟨c, r, rfl, hc, hr⟩ := hvalid
    refine passes_of_isPart ?_ (fun tag htag hin => hbody ⟨tag, htag, hin⟩) hrest
    intro d hd
    rcases List.mem_cons.1 hd with rfl | hd
    · exact isPart_of_isStart hc
    · exact hr d hd
  | quoted inside =>
    refine passes_enclose (.inr rfl) inside ?_
    intro hquote
    exact (hrest '"' hquote).2 rfl

/-- Segments that open no body are passed over together with the dots between them. -/
theorem passes_joined {xs : List Segment} (hvalid : ∀ x ∈ xs, x.Valid)
    (hbody : ∀ x ∈ xs, ¬ x.OpensBody) {rest : List Char} (hrest : Ends rest) :
    Passes rest (joined xs) := by
  induction xs with
  | nil => exact passes_nil rest
  | cons x xs ih =>
    have hxs := ih (fun y hy => hvalid y (by simp [hy])) fun y hy => hbody y (by simp [hy])
    have hx : ∀ {rest}, Ends rest → Passes rest x.text :=
      Segment.passes (hvalid x (by simp)) (hbody x (by simp))
    cases xs with
    | nil => exact hx hrest
    | cons y r =>
      have hdot : Passes (joined (y :: r) ++ rest) ['.'] := passes_of_plain (by decide) _
      refine (hx ?_).append (hdot.append hxs)
      intro c hc
      obtain rfl := Option.some.inj hc
      decide

/-- An identifier that opens no body is passed over. -/
theorem passes_of_not_opensBody {role : Role} {name result : String}
    (h : check role name = .ok result) (hbody : ¬ OpensBody name) {rest : List Char}
    (hrest : Ends rest) : Passes rest name.toList := by
  obtain ⟨xs, hname, hne, hvalid⟩ := exists_spells h
  rw [hname]
  exact passes_joined hvalid (fun x hx hopen => hbody ⟨xs, ⟨hname, hne, hvalid⟩, x, hx, hopen⟩)
    hrest

/-- A segment stands in the identifier that it is a part of. -/
theorem infix_joined {x : Segment} {xs : List Segment} (h : x ∈ xs) : x.text <:+: joined xs := by
  induction xs with
  | nil => cases h
  | cons y r ih =>
    cases r with
    | nil =>
      obtain rfl := List.mem_singleton.1 h
      exact List.infix_refl _
    | cons z r =>
      rw [joined]
      rcases List.mem_cons.1 h with rfl | h
      · exact List.prefix_append _ _ |>.isInfix
      · exact ((ih h).trans (List.suffix_cons '.' _).isInfix).trans
          (List.suffix_append _ _).isInfix

/-- An identifier that opens a body has two dollar signs. -/
theorem OpensBody.count {name : String} (h : OpensBody name) : 2 ≤ name.toList.count '$' := by
  obtain ⟨xs, ⟨hname, -, -⟩, x, hx, hopen⟩ := h
  cases x with
  | plain s =>
    obtain ⟨tag, -, hin⟩ := hopen
    have hcount := (hin.trans (infix_joined hx)).sublist.count_le '$'
    have hmarks : 2 ≤ (delimiter tag).count '$' := by
      simp only [delimiter, List.count_cons_self, List.count_append, List.count_nil]
      omega
    rw [hname]
    exact hmarks.trans hcount
  | quoted inside => exact hopen.elim

end TableAccess.Identifier
