import Mathlib
import TableAccess.Proofs.Placeholder.Compilation
import TableAccess.Proofs.Placeholder.ServerRegion
/-!
# SQL text as the server reads it

The server reads comments that nest, escape constants, and words in which dollar signs may stand;
all other lexemes it has in common with the scan, the tags of dollar-quoted bodies being ASCII.
As long as no comment is nested in a comment, no quote stands after a backslash and no word has a
delimiter of a dollar-quoted body in it, the scan stands where the server stands.

Main results:

- Theorem `ServerLexeme.Begins.place`: what the scan makes of one lexeme of the server.
- Theorem `ServerReads.place`: what it makes of a text that the server reads.
- Theorem `compile_across_region`: what it makes of a comment or an escape constant, and of the
  text around it.
-/

namespace TableAccess.Placeholder

open Text Positional

/-! ## Words -/

/-- Whether a character may begin a word. -/
def isWordStart (c : Char) : Bool :=
  isNameStart c || decide (128 ≤ c.toNat)

/-- Whether a character may be part of a word. -/
def isWordPart (c : Char) : Bool :=
  isNamePart c || c == '$' || decide (128 ≤ c.toNat)

theorem isWordPart_of_isWordStart {c : Char} (h : isWordStart c = true) : isWordPart c = true := by
  simp only [isWordStart, isWordPart, Bool.or_eq_true] at *
  rcases h with h | h
  · exact .inl (.inl (isNamePart_of_isNameStart h))
  · exact .inr h

/-- A dollar sign is the only part of a word that may begin a longer lexeme. -/
theorem isPlain_of_isWordPart {c : Char} (h : isWordPart c = true) : c = '$' ∨ IsPlain c := by
  simp only [isWordPart, Bool.or_eq_true, beq_iff_eq] at h
  rcases h with (hname | hdollar) | hwide
  · exact .inr (isPlain_of_isNamePart hname)
  · exact .inl hdollar
  · exact .inr (isPlain_of_kind (p := fun d => decide (128 ≤ d.toNat)) (by decide) hwide)

/-! ## Lexemes of the server -/

/-- A lexeme of SQL text as the server reads it. -/
inductive ServerLexeme where
  | region (region : ServerRegion)
  | word (s : List Char)
  /-- A lexeme that the server has in common with the scan. -/
  | common (x : Lexeme)

/-- Whether the server and the scan have a lexeme in common: it is no comment that might nest, and
no character that begins a word. -/
def Lexeme.IsCommon : Lexeme → Prop
  | closed .blockComment _ | unclosed .blockComment _ => False
  | single c => isWordStart c = false
  | _ => True

namespace ServerLexeme

/-- The text of a lexeme. -/
def text : ServerLexeme → List Char
  | region r => r.text
  | word s => s
  | common x => x.text

/-- A lexeme as a token: a placeholder, or text that is copied. -/
def token : ServerLexeme → Token
  | common x => x.token
  | x => .verbatim x.text

/-- Whether a lexeme is what a text begins with for the server if `rest` follows it.  A word ends
where no further part of a word follows, and the letter of an escape constant is no word. -/
inductive Begins : ServerLexeme → (rest : List Char) → Prop where
  | region {region : ServerRegion} {rest : List Char} (valid : region.Valid rest) :
      Begins (.region region) rest
  | word {c : Char} {r rest : List Char} (start : isWordStart c = true)
      (parts : ∀ d ∈ r, isWordPart d = true)
      (maximal : ∀ d, rest.head? = some d → isWordPart d = false)
      (letter : c :: r = ['E'] ∨ c :: r = ['e'] → rest.head? ≠ some '\'') :
      Begins (.word (c :: r)) rest
  | common {x : Lexeme} {rest : List Char} (common : x.IsCommon) (begins : x.Begins rest) :
      Begins (.common x) rest

/-- Whether the scan takes a lexeme as the server does. -/
def Plain : ServerLexeme → Prop
  | region r => r.Plain
  | word s => ∀ tag, IsTag tag → ¬ delimiter tag <:+: s
  | common _ => True

end ServerLexeme

/-- Whether the server reads a text as lexemes if `rest` follows it, so that the next lexeme
begins where `rest` begins. -/
inductive ServerReads (rest : List Char) : List Char → List ServerLexeme → Prop where
  | nil : ServerReads rest [] []
  | cons {w : ServerLexeme} {s : List Char} {ws : List ServerLexeme} (first : w.Begins (s ++ rest))
      (others : ServerReads rest s ws) : ServerReads rest (w.text ++ s) (w :: ws)

/-- A plain character that begins no word is read alike by both. -/
theorem ServerLexeme.begins_single {c : Char} (plain : IsPlain c) (start : isWordStart c = false)
    (rest : List Char) : (ServerLexeme.common (.single c)).Begins rest :=
  .common start (.single fun hlonger => hlonger.not_isPlain plain)

/-! ## The scan beside the server -/

/-- A region of the server is placed like its tokens. -/
theorem place_region {region : ServerRegion} (names : List String) (ts : List Token) :
    place names (region.tokens ++ ts) =
      (region.text ++ (place names ts).1, (place names ts).2) := by
  cases region with
  | comment rest => rfl
  | constant letter parts => rfl

/-- A lexeme that the scan takes as the server does is numbered as one token. -/
theorem ServerLexeme.Begins.place {w : ServerLexeme} {rest : List Char} (h : w.Begins rest)
    (plain : w.Plain) (names : List String) :
    place names (tokens (w.text ++ rest)) = place names (w.token :: tokens rest) := by
  cases h with
  | region valid =>
    rw [ServerLexeme.text, tokens_of_plain valid plain, place_region]
    rfl
  | @word c r _ start parts maximal letter =>
    have hparts : ∀ d ∈ c :: r, isWordPart d = true := by
      intro d hd
      rcases List.mem_cons.1 hd with rfl | hd
      · exact isWordPart_of_isWordStart start
      · exact parts d hd
    refine place_of_passes (passes_of_no_delimiter (fun d hd => isPlain_of_isWordPart (hparts d hd))
      plain fun d hd => ?_) names
    have hend := maximal d hd
    simp only [isWordPart, Bool.or_eq_false_iff, beq_eq_false_iff_ne] at hend
    exact ⟨hend.1.2, hend.1.1⟩
  | common _ begins =>
    rw [ServerLexeme.text, tokens_of_reads (.one begins)]
    rfl

/-- A text that the scan takes as the server does is numbered as the lexemes of the server. -/
theorem ServerReads.place {rest s : List Char} {ws : List ServerLexeme} (h : ServerReads rest s ws)
    (plain : ∀ w ∈ ws, w.Plain) (names : List String) :
    place names (tokens (s ++ rest)) =
      place names (ws.map ServerLexeme.token ++ tokens rest) := by
  induction h generalizing names with
  | nil => rfl
  | @cons w s ws first _ ih =>
    have hfirst := first.place (plain w List.mem_cons_self)
    have ih := ih fun v hv => plain v (List.mem_cons_of_mem w hv)
    rw [List.append_assoc, hfirst, List.map_cons, List.cons_append,
      ← List.singleton_append, place_append, ih, ← place_append]
    rfl

end TableAccess.Placeholder

namespace TableAccess.Positional

open Placeholder

/-- What the scan makes of a comment or an escape constant that begins, for the server, outside of
other regions.  If no comment is nested in it and no quote stands after a backslash in it, and
this holds of the text before it too, then the text before it is compiled as the server reads it,
the region is copied, and the text after it is compiled as if it stood alone, with the numbers
that names have already.  The condition on the region is needed: otherwise the scan does not go on
where the region ends for the server. -/
theorem compile_across_region {s : Statement} {before after : List Char} {region : ServerRegion}
    {ws : List ServerLexeme} (text : s.sql.toList = before ++ (region.text ++ after))
    (valid : region.Valid after) (outside : ServerReads (region.text ++ after) before ws)
    (plain : ∀ w ∈ ws, w.Plain) :
    (region.Plain →
      let front := place [] (ws.map ServerLexeme.token)
      let back := place front.2 (tokens after)
      compile s = (lookUp s.binds back.2).map fun parameters =>
        ⟨String.ofList (front.1 ++ (region.text ++ back.1)), parameters, back.2⟩) ∧
    (after ≠ [] →
      (tokens (region.text ++ after) = region.tokens ++ tokens after ↔ region.Plain)) := by
  refine ⟨fun hplain => ?_, tokens_region_iff valid⟩
  have hplace : place [] (tokens s.sql.toList) =
      place [] (ws.map ServerLexeme.token ++ (region.tokens ++ tokens after)) := by
    rw [text, outside.place plain, tokens_of_plain valid hplain]
  intro front back
  rw [compile, hplace, place_append, place_region]

/-- A comment after an escape constant: neither of the two is looked into. -/
theorem compile_across_region_mixed :
    let s : Statement :=
      ⟨"SELECT E'it''s \\\\:x' /* ':y */ = :a", ⟨[("a", .int 7)]⟩, 0⟩
    let parts : List EscapePart :=
      [.plain 'i', .plain 't', .doubled, .plain 's', .plain ' ', .escaped '\\', .plain ':',
        .plain 'x']
    let ws : List ServerLexeme :=
      [.word "SELECT".toList, .common (.single ' '), .region (.constant 'E' parts),
        .common (.single ' ')]
    let region : ServerRegion := .comment " ':y */".toList
    let after := " = :a".toList
    s.sql.toList = "SELECT E'it''s \\\\:x' ".toList ++ (region.text ++ after) ∧
      region.Valid after ∧
      ServerReads (region.text ++ after) "SELECT E'it''s \\\\:x' ".toList ws ∧
      (∀ w ∈ ws, w.Plain) ∧ region.Plain ∧
      compile s = .ok ⟨"SELECT E'it''s \\\\:x' /* ':y */ = $1", [.int 7], ["a"]⟩ := by
  intro s parts ws region after
  have hvalid : region.Valid after :=
    .other (by decide) (by decide) <| .other (by decide) (by decide) <|
      .other (by decide) (by decide) <| .other (by decide) (by decide) <|
        .other (by decide) (by decide) .close
  have hspace := ServerLexeme.begins_single (c := ' ') (by decide) (by decide)
  have hconstant (rest : List Char) (ends : rest.head? ≠ some '\'') :
      (ServerLexeme.region (.constant 'E' parts)).Begins rest :=
    .region ⟨.inl rfl, by decide, ends⟩
  have hword (rest : List Char) :
      (ServerLexeme.word "SELECT".toList).Begins (' ' :: rest) :=
    .word (by decide) (List.all_eq_true.1 (by decide)) (fun d hd => by cases hd; decide) (by simp)
  have houtside : ServerReads (region.text ++ after) "SELECT E'it''s \\\\:x' ".toList ws :=
    .cons (hword _) <| .cons (hspace _) <| .cons (hconstant _ (by decide)) <|
      .cons (hspace _) .nil
  have hplain : ∀ w ∈ ws, w.Plain := by
    intro w hw
    simp only [ws, List.mem_cons, List.not_mem_nil, or_false] at hw
    rcases hw with rfl | rfl | rfl | rfl
    · intro tag _ hin
      exact absurd (hin.subset List.mem_cons_self) (by decide)
    · trivial
    · exact show EscapePart.escaped '\'' ∉ parts by decide
    · trivial
  have hflat : region.Plain := show ¬ commentOpener <:+: _ by decide
  have htext : s.sql.toList = "SELECT E'it''s \\\\:x' ".toList ++ (region.text ++ after) := by
    decide
  refine ⟨htext, hvalid, houtside, hplain, hflat, ?_⟩
  rw [(compile_across_region htext hvalid houtside hplain).1 hflat]
  cbv

/-- A quote after a backslash and a comment that is nested in a comment: the scan takes text in
the constant and text in the comment for placeholders. -/
theorem compile_across_region_rewritten :
    let s : Statement :=
      ⟨"SELECT E'\\' :a\\'' /* /* */ :b */ WHERE c = :c",
        ⟨[("a", .int 1), ("b", .int 2), ("c", .int 3)]⟩, 0⟩
    let parts : List EscapePart :=
      [.escaped '\'', .plain ' ', .plain ':', .plain 'a', .escaped '\'']
    let constant : ServerRegion := .constant 'E' parts
    let comment : ServerRegion := .comment " /* */ :b */".toList
    let between := " ".toList
    let after := " WHERE c = :c".toList
    s.sql.toList = "SELECT ".toList ++ (constant.text ++ (between ++ (comment.text ++ after))) ∧
      constant.Valid (between ++ (comment.text ++ after)) ∧ comment.Valid after ∧
      ServerReads (constant.text ++ (between ++ (comment.text ++ after))) "SELECT ".toList
        [.word "SELECT".toList, .common (.single ' ')] ∧
      ServerReads (comment.text ++ after) ("SELECT ".toList ++ (constant.text ++ between))
        [.word "SELECT".toList, .common (.single ' '), .region constant, .common (.single ' ')] ∧
      ∃ compiled, compile s = .ok compiled ∧
        compiled.sql = "SELECT E'\\' $1\\'' /* /* */ $2 */ WHERE c = $3" ∧
        compiled.names = ["a", "b", "c"] ∧
        ¬ constant.text <:+: compiled.sql.toList ∧ ¬ comment.text <:+: compiled.sql.toList := by
  intro s parts constant comment between after
  have hconstant (rest : List Char) (ends : rest.head? ≠ some '\'') : constant.Valid rest :=
    ⟨.inl rfl, by decide, ends⟩
  have hcomment : comment.Valid after :=
    .other (by decide) (by decide) <| .enter <| .other (by decide) (by decide) <| .leave <|
      .other (by decide) (by decide) <| .other (by decide) (by decide) <|
        .other (by decide) (by decide) <| .other (by decide) (by decide) .close
  have hspace := ServerLexeme.begins_single (c := ' ') (by decide) (by decide)
  have hword (rest : List Char) :
      (ServerLexeme.word "SELECT".toList).Begins (' ' :: rest) :=
    .word (by decide) (List.all_eq_true.1 (by decide)) (fun d hd => by cases hd; decide) (by simp)
  refine ⟨by decide, hconstant _ (by decide), hcomment, .cons (hword _) (.cons (hspace _) .nil),
    .cons (hword _) (.cons (hspace _) (.cons (.region (hconstant _ (by decide)))
      (.cons (hspace _) .nil))), ?_⟩
  have hcompiled : compile s =
      .ok ⟨"SELECT E'\\' $1\\'' /* /* */ $2 */ WHERE c = $3", [.int 1, .int 2, .int 3],
        ["a", "b", "c"]⟩ := by cbv
  exact ⟨_, hcompiled, rfl, rfl, by decide, by decide⟩

end TableAccess.Positional
