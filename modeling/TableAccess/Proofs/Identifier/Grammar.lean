import TableAccess.Proofs.Identifier.Front
import TableAccess.Proofs.Text.Blank
/-!
# The grammar of identifiers

An identifier is one or more segments with single dots between them and no character NUL.  A
plain segment is an ASCII letter or underscore followed by ASCII letters, digits, underscores and
dollar signs; a quoted one has a body that is not empty and in which every quote is doubled.  An
entry of a select list is a star, an identifier with a dot and a star after it, or an identifier,
and blanks may stand around it.

Main results:

- Theorem `isIdentifier_iff`: identifiers are the names that are spelled by valid segments.
- Theorem `check_accepts_grammar`: the checks accept exactly these grammars.
-/

namespace TableAccess.Identifier

open Text

/-! ## The grammar -/

/-- Whether a character is an ASCII letter or the underscore. -/
def IsLetter (c : Char) : Prop :=
  c = '_' ∨ ('A' ≤ c ∧ c ≤ 'Z') ∨ ('a' ≤ c ∧ c ≤ 'z')

/-- Whether a text is a segment of an identifier. -/
inductive IsSegment : List Char → Prop where
  | plain {c : Char} {r : List Char} (first : IsLetter c)
      (others : ∀ d ∈ r, IsLetter d ∨ ('0' ≤ d ∧ d ≤ '9') ∨ d = '$') : IsSegment (c :: r)
  | quoted {body : List Char} (nonempty : body ≠ []) (doubled : Quoted.IsDoubled '"' body) :
      IsSegment ('"' :: (body ++ ['"']))

/-- Whether a name is an identifier. -/
def IsIdentifier (name : String) : Prop :=
  '\x00' ∉ name.toList ∧ ∃ segments : List (List Char), segments ≠ [] ∧
    (∀ s ∈ segments, IsSegment s) ∧ name.toList = List.intercalate ['.'] segments

/-- Whether a text may stand in a select list as it is. -/
def IsSelectItem (item : String) : Prop :=
  item = "*" ∨ (∃ table, IsIdentifier table ∧ item = table ++ ".*") ∨ IsIdentifier item

/-! ## Segments -/

/-- A segment begins with a letter or an underscore. -/
theorem isStart_iff (c : Char) : isStart c = true ↔ IsLetter c := by
  have hletter : c.isAlpha = (decide ('A'.val ≤ c.val ∧ c.val ≤ 'Z'.val) ||
      (decide ('a'.val ≤ c.val) && decide (c.val ≤ 'z'.val))) := rfl
  simp [isStart, IsLetter, hletter, Char.le_def]

/-- A segment goes on with letters, digits and dollar signs. -/
theorem isPart_iff (c : Char) :
    isPart c = true ↔ IsLetter c ∨ ('0' ≤ c ∧ c ≤ '9') ∨ c = '$' := by
  rw [← isStart_iff]
  simp only [isPart, isStart, Char.isAlphanum, Char.isDigit, Char.le_def, Bool.or_eq_true,
    Bool.and_eq_true, beq_iff_eq, decide_eq_true_eq, ge_iff_le]
  tauto

/-- The segments of the grammar are the texts of valid segments. -/
theorem isSegment_iff (s : List Char) : IsSegment s ↔ ∃ x : Segment, x.Valid ∧ x.text = s := by
  constructor
  · intro h
    cases h with
    | @plain c r first others =>
      exact ⟨.plain (c :: r), ⟨c, r, rfl, (isStart_iff c).2 first,
        fun d hd => (isPart_iff d).2 (others d hd)⟩, rfl⟩
    | quoted nonempty doubled =>
      obtain ⟨inside, rfl⟩ := (Quoted.isDoubled_iff _ _).1 doubled
      exact ⟨.quoted inside, fun hempty => nonempty ((Quoted.escape_eq_nil_iff _ _).2 hempty), rfl⟩
  · rintro ⟨x, hvalid, rfl⟩
    cases x with
    | plain s =>
      obtain ⟨c, r, rfl, first, others⟩ := hvalid
      exact .plain ((isStart_iff c).1 first) fun d hd => (isPart_iff d).1 (others d hd)
    | quoted inside =>
      exact .quoted (fun hempty => hvalid ((Quoted.escape_eq_nil_iff _ _).1 hempty))
        (Quoted.isDoubled_escape _ inside)

/-- Segments are joined by dots. -/
theorem joined_eq_intercalate (xs : List Segment) :
    joined xs = List.intercalate ['.'] (xs.map Segment.text) := by
  induction xs with
  | nil => rfl
  | cons x xs ih =>
    cases xs with
    | nil => simp [joined, List.intercalate]
    | cons y r =>
      rw [joined, ih]
      simp [List.intercalate]

/-- Identifiers are the names without NUL that valid segments spell. -/
theorem isIdentifier_iff (name : String) :
    IsIdentifier name ↔ '\x00' ∉ name.toList ∧ ∃ xs, Spells name xs := by
  refine and_congr_right fun _ => ⟨?_, ?_⟩
  · rintro ⟨segments, hne, hsegments, hname⟩
    have hall : ∃ xs : List Segment, (∀ x ∈ xs, x.Valid) ∧ xs.map Segment.text = segments := by
      clear hne hname
      induction segments with
      | nil => exact ⟨[], by simp, rfl⟩
      | cons s r ih =>
        obtain ⟨x, hx, rfl⟩ := (isSegment_iff s).1 (hsegments s List.mem_cons_self)
        obtain ⟨xs, hxs, rfl⟩ := ih fun t ht => hsegments t (List.mem_cons_of_mem _ ht)
        exact ⟨x :: xs, by simpa [hx] using hxs, rfl⟩
    obtain ⟨xs, hvalid, rfl⟩ := hall
    exact ⟨xs, hname.trans (joined_eq_intercalate xs).symm, by simpa using hne, hvalid⟩
  · rintro ⟨xs, hname, hne, hvalid⟩
    refine ⟨xs.map Segment.text, by simpa using hne, ?_, hname.trans (joined_eq_intercalate xs)⟩
    intro s hs
    obtain ⟨x, hx, rfl⟩ := List.mem_map.1 hs
    exact (isSegment_iff _).2 ⟨x, hvalid x hx, rfl⟩

/-! ## Checks of names -/

/-- What is left to check after the first segment. -/
theorem segmentsFault_of_segment {s rest : List Char} (h : segment s = .ok rest) :
    segmentsFault s =
      if rest = [] then none
      else if rest = ['.'] then some .trailingDot
      else if rest.head? = some '.' then segmentsFault rest.tail
      else some .unexpectedCharacter := by
  rw [segmentsFault]
  split
  · rename_i fault hfault
    rw [h] at hfault
    cases hfault
  · rename_i other hother
    rw [h] at hother
    cases hother
    rfl

/-- Valid segments joined by dots have no fault. -/
theorem segmentsFault_joined {xs : List Segment} (hne : xs ≠ []) (hvalid : ∀ x ∈ xs, x.Valid) :
    segmentsFault (joined xs) = none := by
  induction xs with
  | nil => exact absurd rfl hne
  | cons x xs ih =>
    have hx := hvalid x List.mem_cons_self
    have hlater : ∀ y ∈ xs, y.Valid := fun y hy => hvalid y (List.mem_cons_of_mem x hy)
    have hends : Ends (laterSegments xs) := by
      cases xs with
      | nil => exact fun c hc => by cases hc
      | cons y r => exact ends_dot _
    rw [joined_cons, segmentsFault_of_segment (segment_text hx hends)]
    cases xs with
    | nil => rfl
    | cons y r =>
      obtain ⟨c, t, htext, -⟩ := exists_head_joined (hlater y List.mem_cons_self) r
      rw [laterSegments, if_neg (List.cons_ne_nil _ _), if_neg (by simp [htext]),
        if_pos List.head?_cons, List.tail_cons]
      exact ih (List.cons_ne_nil _ _) hlater

/-- A name has no fault exactly if it is an identifier. -/
theorem fault?_eq_none_iff (name : String) : fault? name.toList = none ↔ IsIdentifier name := by
  rw [isIdentifier_iff]
  constructor
  · intro hfault
    refine ⟨fun hnul => ?_, exists_spells ((check_eq_ok_iff .table name name).2 ⟨hfault, rfl⟩)⟩
    have hcontains : name.toList.contains '\x00' = true := List.contains_iff_mem.2 hnul
    have hne : name.toList.isEmpty = false :=
      List.isEmpty_eq_false_iff.2 (List.ne_nil_of_mem hnul)
    rw [fault?, hcontains, hne] at hfault
    cases hfault
  · rintro ⟨hnul, xs, hname, hne, hvalid⟩
    have hcontains : name.toList.contains '\x00' = false := by
      rw [Bool.eq_false_iff]
      exact fun h => hnul (List.contains_iff_mem.1 h)
    have hnonempty : name.toList.isEmpty = false := by
      cases xs with
      | nil => exact absurd rfl hne
      | cons x xs =>
        obtain ⟨c, t, htext, -⟩ := exists_head_joined (hvalid x List.mem_cons_self) xs
        rw [hname, htext]
        rfl
    rw [fault?, hnonempty, hcontains, hname]
    exact segmentsFault_joined hne hvalid

/-- The check of a name accepts exactly identifiers. -/
theorem check_eq_ok_iff_isIdentifier (role : Role) (name result : String) :
    check role name = .ok result ↔ IsIdentifier name ∧ result = name := by
  rw [check_eq_ok_iff, fault?_eq_none_iff]

/-- The check of a name fails with an error of validation. -/
theorem check_of_not_isIdentifier (role : Role) {name : String} (h : ¬ IsIdentifier name) :
    ∃ fault, check role name = .error (invalid role name fault) := by
  obtain ⟨fault, hfault⟩ :=
    Option.ne_none_iff_exists'.1 (mt (fault?_eq_none_iff name).1 h)
  exact ⟨fault, by rw [check, hfault]⟩

/-! ## Checks of select items -/

/-- When a text has a given ending. -/
theorem dropEnding?_eq_some_iff (ending s front : List Char) :
    dropEnding? ending s = some front ↔ s = front ++ ending := by
  unfold dropEnding?
  constructor
  · intro h
    split at h
    · rename_i hsuffix
      obtain ⟨t, rfl⟩ := List.isSuffixOf_iff_suffix.1 hsuffix
      obtain rfl := Option.some.inj h
      simp
    · cases h
  · rintro rfl
    rw [if_pos (List.isSuffixOf_iff_suffix.2 (List.suffix_append _ _))]
    simp

/-- Segments end with a character that may end an identifier. -/
theorem getLast?_joined {xs : List Segment} (hvalid : ∀ x ∈ xs, x.Valid) {c : Char}
    (hc : (joined xs).getLast? = some c) : isPart c = true ∨ c = '"' := by
  induction xs with
  | nil => cases hc
  | cons x xs ih =>
    cases xs with
    | nil =>
      have hx := hvalid x List.mem_cons_self
      have hmem : c ∈ x.text := List.mem_of_getLast? hc
      cases x with
      | plain s =>
        obtain ⟨d, r, rfl, hd, hr⟩ := hx
        rcases List.mem_cons.1 hmem with rfl | hmem
        · exact .inl (isPart_of_isStart hd)
        · exact .inl (hr c hmem)
      | quoted inside =>
        right
        have hlast : (Quoted.enclose '"' inside).getLast? = some '"' := by
          rw [Quoted.enclose, ← List.cons_append, List.getLast?_concat]
        exact Option.some.inj (hc.symm.trans hlast)
    | cons y r =>
      have hlater : ∀ z ∈ y :: r, z.Valid := fun z hz => hvalid z (List.mem_cons_of_mem x hz)
      obtain ⟨d, t, htext, -⟩ := exists_head_joined (hlater y List.mem_cons_self) r
      refine ih hlater ?_
      rw [joined, htext, List.getLast?_append, List.getLast?_cons_cons] at hc
      rw [htext]
      simpa using hc

/-- No identifier ends with a star. -/
theorem ne_append_star {name : String} (h : IsIdentifier name) (front : List Char) :
    name.toList ≠ front ++ ['.', '*'] := by
  intro htext
  obtain ⟨-, xs, hname, -, hvalid⟩ := (isIdentifier_iff name).1 h
  have hlast : (joined xs).getLast? = some '*' := by
    rw [← hname, htext]
    simp
  rcases getLast?_joined hvalid hlast with hpart | hquote
  · exact absurd hpart (by decide)
  · exact absurd hquote (by decide)

/-- A text that ends with a star as its last segment is an item if the rest is an identifier. -/
theorem isSelectItem_append_star (table : String) :
    IsSelectItem (table ++ ".*") ↔ IsIdentifier table := by
  constructor
  · rintro (hstar | ⟨other, hother, hsame⟩ | hname)
    · have hlength := congrArg (fun s : String => s.toList.length) hstar
      simp at hlength
    · rw [← String.toList_inj, String.toList_append, String.toList_append] at hsame
      exact String.toList_inj.1 (List.append_cancel_right hsame) ▸ hother
    · exact absurd (String.toList_append ..) (ne_append_star hname table.toList)
  · exact fun htable => .inr (.inl ⟨table, htable, rfl⟩)

/-- A text without such an ending is an item if it is an identifier. -/
theorem isSelectItem_of_dropEnding?_eq_none {item : String} (hstar : item ≠ "*")
    (hending : dropEnding? ['.', '*'] item.toList = none) :
    IsSelectItem item ↔ IsIdentifier item := by
  constructor
  · rintro (hstar' | ⟨table, -, rfl⟩ | hname)
    · exact absurd hstar' hstar
    · have htext : (table ++ ".*").toList = table.toList ++ ['.', '*'] := String.toList_append ..
      have hsome := (dropEnding?_eq_some_iff _ _ _).2 htext
      rw [hending] at hsome
      cases hsome
    · exact hname
  · exact fun hname => .inr (.inr hname)

/-- The check of an entry of a select list once it is trimmed. -/
theorem checkSelectItem_cases (item : String) :
    (IsSelectItem (trim item) ∧ checkSelectItem item = .ok (trim item)) ∨
      (¬ IsSelectItem (trim item) ∧
        ∃ role name fault, checkSelectItem item = .error (invalid role name fault)) := by
  unfold checkSelectItem
  generalize trim item = t
  by_cases hstar : t = "*"
  · exact .inl ⟨.inl hstar, if_pos hstar⟩
  simp only [if_neg hstar]
  cases hending : dropEnding? ['.', '*'] t.toList with
  | some table =>
    have htext := (dropEnding?_eq_some_iff _ _ _).1 hending
    obtain rfl : t = String.ofList table ++ ".*" := by
      rw [← String.toList_inj, String.toList_append, String.toList_ofList, htext]
      rfl
    rw [isSelectItem_append_star]
    by_cases htable : IsIdentifier (String.ofList table)
    · have hcheck := (check_eq_ok_iff_isIdentifier .table _ _).2 ⟨htable, rfl⟩
      refine .inl ⟨htable, ?_⟩
      simp only [checkTable, hcheck]
      rfl
    · obtain ⟨fault, hfault⟩ := check_of_not_isIdentifier .table htable
      refine .inr ⟨htable, .table, String.ofList table, fault, ?_⟩
      simp only [checkTable, hfault]
      rfl
  | none =>
    rw [isSelectItem_of_dropEnding?_eq_none hstar hending]
    by_cases hname : IsIdentifier t
    · exact .inl ⟨hname, (check_eq_ok_iff_isIdentifier .column t t).2 ⟨hname, rfl⟩⟩
    · obtain ⟨fault, hfault⟩ := check_of_not_isIdentifier .column hname
      exact .inr ⟨hname, .column, t, fault, hfault⟩

/-- The checks accept exactly the grammars.  The check of a name gives the name unchanged if it is
an identifier, and an error of validation otherwise.  The check of an entry of a select list gives
the entry without the blanks at its ends if what is left is a select item, and an error of
validation otherwise. -/
theorem check_accepts_grammar :
    (∀ role name result, check role name = .ok result ↔ IsIdentifier name ∧ result = name) ∧
    (∀ role name, ¬ IsIdentifier name →
      ∃ message, check role name = .error (.validation message)) ∧
    (∀ item result, checkSelectItem item = .ok result ↔
      IsTrimmed item.toList result.toList ∧ IsSelectItem result) ∧
    ∀ item, (∀ t : String, IsTrimmed item.toList t.toList → ¬ IsSelectItem t) →
      ∃ message, checkSelectItem item = .error (.validation message) := by
  have htrimmed : ∀ item t : String, IsTrimmed item.toList t.toList ↔ trim item = t := by
    intro item t
    rw [← trimChars_eq_iff, trim, ← String.toList_inj, String.toList_ofList]
  refine ⟨check_eq_ok_iff_isIdentifier, fun role name h => ?_, fun item result => ?_,
    fun item h => ?_⟩
  · obtain ⟨fault, hfault⟩ := check_of_not_isIdentifier role h
    exact ⟨_, hfault⟩
  · rw [htrimmed]
    rcases checkSelectItem_cases item with ⟨hitem, hok⟩ | ⟨hitem, role, name, fault, herror⟩
    · rw [hok, Except.ok.injEq]
      constructor
      · rintro rfl
        exact ⟨rfl, hitem⟩
      · exact And.left
    · rw [herror]
      constructor
      · intro heq
        cases heq
      · rintro ⟨rfl, hresult⟩
        exact absurd hresult hitem
  · have hitem := h (trim item) ((htrimmed item _).2 rfl)
    rcases checkSelectItem_cases item with ⟨hother, -⟩ | ⟨-, role, name, fault, herror⟩
    · exact absurd hother hitem
    · exact ⟨_, herror⟩

end TableAccess.Identifier
