import TableAccess.Comparison
import TableAccess.Proofs.Identifier.Offset
import TableAccess.Proofs.Identifier.Segment
import TableAccess.Proofs.Placeholder.Scan
/-!
# Quoted text is opaque

A text in quotes is read back as it was, whatever quotes it has in it.  A scan that stands at
its opening quote goes on right after its closing quote, provided that no further quote follows
there, and so does the reader of identifiers.  Hence what is written into a string constant is
never taken for a placeholder, and what follows the constant is scanned as if it stood alone.

Main results:

- Theorem `skipQuoted_enclose`: how far a quoted text is skipped.
- Theorem `scanFrom_enclose`: what a scan gives from a quoted text on.
- Theorem `quoted_text_opaque`: string constants, quoted segments and literals under the scan.
-/

namespace TableAccess

open Text

namespace Placeholder

section Enclosed

variable {q : Char} (inside : List Char) {after : List Char} (ends : after.head? ≠ some q)
include ends

/-- A quoted text ends at its own closing quote. -/
theorem split_enclosed :
    Quoted.split q (Quoted.escape q inside ++ q :: after) =
      some (Quoted.escape q inside, after) := by
  apply Quoted.split_escape
  rintro r rfl
  exact ends rfl

/-- A quoted text is skipped up to what follows it. -/
theorem skipQuoted_enclose (ascii : q.toNat < 128) (before : List Char) :
    skipQuoted (before ++ Quoted.enclose q inside ++ after) (utf8Length before) q.toUInt8 =
      .ok (utf8Length (before ++ Quoted.enclose q inside)) := by
  have hsize : q.utf8Size = 1 := (utf8Size_eq_one_iff q).2 ascii
  have htext : before ++ Quoted.enclose q inside ++ after =
      before ++ q :: (Quoted.escape q inside ++ q :: after) := by
    simp [Quoted.enclose]
  rw [htext, skipQuoted_eq ascii, split_enclosed inside ends]
  simp only [Quoted.enclose, utf8Length_append, utf8Length_cons, utf8Length_nil, hsize]
  congr 1
  omega

/-- An iteration of a scan passes a quoted text as it is. -/
theorem scanStep_enclose (quote : q = '\'' ∨ q = '"') (before : List Char) (t : Scan)
    (stands : t.position = utf8Length before) :
    scanStep (before ++ Quoted.enclose q inside ++ after) t =
      .ok (t.jump (utf8Length (before ++ Quoted.enclose q inside))) := by
  have ascii : q.toNat < 128 := by rcases quote with rfl | rfl <;> decide
  have htext : before ++ Quoted.enclose q inside ++ after =
      before ++ q :: (Quoted.escape q inside ++ q :: after) := by
    simp [Quoted.enclose]
  obtain ⟨position, copied, written, names⟩ := t
  obtain rfl : position = utf8Length before := stands
  obtain ⟨x, hx, hstep⟩ := scanStep_eq before q (Quoted.escape q inside ++ q :: after) copied
    written names
  obtain rfl := (eq_toUInt8_iff hx ascii).2 rfl
  rw [opening_eq hx, if_pos quote, ← htext] at hstep
  rw [hstep, passOpening, skipQuoted_enclose inside ends ascii]
  rfl

/-- A quoted text is one token, and the tokens after it are those of the text after it. -/
theorem tokens_enclose (quote : q = '\'' ∨ q = '"') :
    tokens (Quoted.enclose q inside ++ after) =
      .verbatim (Quoted.enclose q inside) :: tokens after := by
  have htext : Quoted.enclose q inside ++ after =
      q :: (Quoted.escape q inside ++ q :: after) := by
    simp [Quoted.enclose]
  rw [htext, tokens, next_quote quote, split_enclosed inside ends]
  rfl

/-- What a scan gives from a quoted text on: the text as it is, and what the scan of the text
after it gives. -/
theorem scanFrom_enclose (quote : q = '\'' ∨ q = '"') (copied passed written : List Char)
    (names : List String) :
    scanFrom (copied ++ passed ++ Quoted.enclose q inside ++ after)
        ⟨utf8Length (copied ++ passed), utf8Length copied, written, names⟩ =
      .ok (written ++ passed ++ Quoted.enclose q inside ++
          (Positional.place names (tokens after)).1,
        (Positional.place names (tokens after)).2) := by
  rw [List.append_assoc (copied ++ passed), scanFrom_eq, tokens_enclose inside ends quote,
    Positional.place]
  simp

end Enclosed

end Placeholder

/-! ## Quoted segments -/

namespace Identifier

/-- Whether a text is a quoted segment of a name that passes its check. -/
def IsQuotedSegment (q : List Char) : Prop :=
  ∃ role name xs inside, check role name = .ok name ∧ Spells name xs ∧ .quoted inside ∈ xs ∧
    q = (Segment.quoted inside).text

/-- The length of a quoted segment is found whatever follows it. -/
theorem quotedLength_enclose (inside : List Char) {after : List Char}
    (ends : after.head? ≠ some '"') :
    quotedLength (Quoted.enclose '"' inside ++ after) =
      .ok (some (utf8Length (Quoted.enclose '"' inside))) := by
  have htext : Quoted.enclose '"' inside ++ after =
      '"' :: (Quoted.escape '"' inside ++ '"' :: after) := by
    simp [Quoted.enclose]
  have hsize : '"'.utf8Size = 1 := rfl
  rw [htext, quotedLength_eq, Placeholder.split_enclosed inside ends]
  simp only [Option.map_some, Quoted.enclose, utf8Length_append, utf8Length_cons, utf8Length_nil,
    hsize]
  congr 2
  omega

end Identifier

/-! ## Quoted literals -/

/-- Whether a value is written into SQL text with quotes: texts, documents and the
floating-point numbers that are not finite. -/
def Value.isQuoted : Value → Bool
  | .text _ => true
  | .document _ => true
  | .float x => !x.isFinite
  | _ => false

/-- A value with quotes is written as the string constant of its own text. -/
theorem Value.literal_of_isQuoted {v : Value} (quoted : v.isQuoted = true) :
    v.literal = sqlString v.display := by
  cases v with
  | float x =>
    have hfinite : x.isFinite = false := by simpa [isQuoted] using quoted
    rw [literal, hfinite]
    rfl
  | text s => rfl
  | document d => rfl
  | _ => cases quoted

open Identifier Placeholder

/-- Quoted text is opaque and exact.  The body of a string constant gives the text back once its
doubled quotes are single again.  A scan at the opening quote of a string constant resumes where
the text after the constant begins.  A quoted segment of an identifier is as long for the check
of identifiers as for the scan.  And where a value is written with quotes, a scan writes the
literal again as it is and then does with the text after it what it does with that text alone. -/
theorem quoted_text_opaque :
    (∀ s : String, ∃ body, (sqlString s).toList = '\'' :: (body ++ ['\'']) ∧
      Quoted.unescape '\'' body = some s.toList) ∧
    (∀ (s : String) (before after : List Char), after.head? ≠ some '\'' →
      let text := before ++ (sqlString s).toList ++ after
      let resumed := utf8Length (before ++ (sqlString s).toList)
      skipQuoted text (utf8Length before) '\''.toUInt8 = .ok resumed ∧
        sliceFrom text resumed = .ok after ∧
        ∀ t : Scan, t.position = utf8Length before → scanStep text t = .ok (t.jump resumed)) ∧
    (∀ q, IsQuotedSegment q → ∀ before after : List Char, after.head? ≠ some '"' →
      quotedLength (q ++ after) = .ok (some (utf8Length q)) ∧
        skipQuoted (before ++ q ++ after) (utf8Length before) '"'.toUInt8 =
          .ok (utf8Length before + utf8Length q)) ∧
    ∀ v : Value, v.isQuoted = true → v.literal = sqlString v.display ∧
      ∀ (copied passed after written : List Char) (names : List String),
        after.head? ≠ some '\'' →
          let rest := Positional.place names (tokens after)
          scanFrom (copied ++ passed ++ v.literal.toList ++ after)
              ⟨utf8Length (copied ++ passed), utf8Length copied, written, names⟩ =
            .ok (written ++ passed ++ v.literal.toList ++ rest.1, rest.2) := by
  have hconstant : ∀ s, (sqlString s).toList = Quoted.enclose '\'' s.toList :=
    fun s => String.toList_ofList
  refine ⟨fun s => ⟨Quoted.escape '\'' s.toList, hconstant s, Quoted.unescape_escape _ _⟩, ?_, ?_,
    ?_⟩
  · intro s before after ends
    rw [hconstant]
    exact ⟨skipQuoted_enclose s.toList ends (by decide) before, sliceFrom_append _ after,
      scanStep_enclose s.toList ends (.inl rfl) before⟩
  · rintro q ⟨role, name, xs, inside, -, -, -, rfl⟩ before after ends
    rw [← utf8Length_append]
    exact ⟨quotedLength_enclose inside ends,
      skipQuoted_enclose inside ends (by decide) before⟩
  · intro v quoted
    have hliteral := Value.literal_of_isQuoted quoted
    refine ⟨hliteral, fun copied passed after written names ends => ?_⟩
    rw [hliteral, hconstant]
    exact scanFrom_enclose v.display.toList ends (.inl rfl) copied passed written names

/-- A quoted segment with a doubled quote in it, before a comparison. -/
theorem quoted_text_opaque_doubled :
    let segment := "\"a\"\"b\"".toList
    let before := "t.".toList
    let after := " = :id".toList
    IsQuotedSegment segment ∧ after.head? ≠ some '"' ∧
      quotedLength (segment ++ after) = .ok (some (utf8Length segment)) ∧
      skipQuoted (before ++ segment ++ after) (utf8Length before) '"'.toUInt8 =
        .ok (utf8Length before + utf8Length segment) := by
  have hcheck : check .column "\"a\"\"b\"" = .ok "\"a\"\"b\"" := by
    refine (check_eq_ok_iff _ _ _).2 ⟨?_, rfl⟩
    simp [fault?, segmentsFault, Identifier.segment, Quoted.split]
  have hsegment : IsQuotedSegment "\"a\"\"b\"".toList :=
    ⟨.column, "\"a\"\"b\"", [.quoted ['a', '"', 'b']], ['a', '"', 'b'], hcheck,
      ⟨rfl, by simp, by simp [Segment.Valid]⟩, by simp, rfl⟩
  exact ⟨hsegment, by decide, quoted_text_opaque.2.2.1 _ hsegment _ _ (by decide)⟩

end TableAccess
