import TableAccess.Proofs.Placeholder.Passage
/-!
# Regions of the server

The server nests block comments: a comment that opens inside of another one has to be closed
before the outer one can be.  And it has escape constants, which are string constants with the
letter E before their opening quote: in them a backslash takes the next character with it, be it
a quote.  The scan for placeholders ends every comment at the first closing mark and every
constant at the first quote that is not doubled.  A constant ends with its closing quote here,
also where the server would go on with it after a line break.

Main results:

- Theorem `CommentRest.endsAtFirst_iff`: when a comment has no closing mark before its end.
- Theorem `isDoubled_iff_notMem`: when all quotes of an escape constant are doubled.
- Theorem `tokens_region_iff`: when the scan goes on right after a region.
-/

namespace TableAccess.Placeholder

open Text

/-! ## Comments -/

/-- The mark that opens a comment. -/
def commentOpener : List Char :=
  Region.blockComment.opener

/-- The mark that closes a comment. -/
def commentCloser : List Char :=
  Region.blockComment.closer

/-- Whether a text is what is left of a comment up to and including its closing mark, while
`depth` comments are open inside of it. -/
inductive CommentRest : (depth : Nat) → List Char → Prop where
  | close : CommentRest 0 commentCloser
  | leave {depth : Nat} {s : List Char} (others : CommentRest depth s) :
      CommentRest (depth + 1) (commentCloser ++ s)
  | enter {depth : Nat} {s : List Char} (others : CommentRest (depth + 1) s) :
      CommentRest depth (commentOpener ++ s)
  | other {depth : Nat} {c : Char} {s : List Char} (opens : ¬ commentOpener <+: c :: s)
      (closes : ¬ commentCloser <+: c :: s) (others : CommentRest depth s) :
      CommentRest depth (c :: s)

namespace CommentRest

theorem ne_nil {depth : Nat} {s : List Char} (h : CommentRest depth s) : s ≠ [] := by
  cases h with
  | close => exact List.cons_ne_nil '*' ['/']
  | @leave _ s => exact List.cons_ne_nil '*' ('/' :: s)
  | @enter _ s => exact List.cons_ne_nil '/' ('*' :: s)
  | other => exact List.cons_ne_nil _ _

/-- A comment ends with a closing mark. -/
theorem exists_body {depth : Nat} {s : List Char} (h : CommentRest depth s) :
    ∃ body, s = body ++ commentCloser := by
  induction h with
  | close => exact ⟨[], rfl⟩
  | leave _ ih =>
    obtain ⟨body, rfl⟩ := ih
    exact ⟨commentCloser ++ body, (List.append_assoc _ _ _).symm⟩
  | enter _ ih =>
    obtain ⟨body, rfl⟩ := ih
    exact ⟨commentOpener ++ body, (List.append_assoc _ _ _).symm⟩
  | @other _ c _ _ _ _ ih =>
    obtain ⟨body, rfl⟩ := ih
    exact ⟨c :: body, rfl⟩

/-- While a comment is open inside of another one, there is a closing mark before the end. -/
theorem exists_earlier {depth : Nat} {s : List Char} (h : CommentRest (depth + 1) s) :
    ∃ a b, s = a ++ (commentCloser ++ b) ∧ b ≠ [] := by
  generalize hn : depth + 1 = n at h
  induction h generalizing depth with
  | close => cases hn
  | leave others => exact ⟨[], _, rfl, others.ne_nil⟩
  | enter _ ih =>
    obtain ⟨a, b, rfl, hb⟩ := ih rfl
    exact ⟨commentOpener ++ a, b, (List.append_assoc _ _ _).symm, hb⟩
  | @other _ c _ _ _ _ ih =>
    obtain ⟨a, b, rfl, hb⟩ := ih hn
    exact ⟨c :: a, b, rfl, hb⟩

/-- A comment has no closing mark before its end exactly if no comment opens inside of it. -/
theorem endsAtFirst_iff {s : List Char} (h : CommentRest 0 s) :
    (∀ a b, s = a ++ (commentCloser ++ b) → b = []) ↔ ¬ commentOpener <:+: s := by
  generalize hn : 0 = n at h
  induction h with
  | close =>
    refine iff_of_true (fun a b hab => ?_) (by decide)
    have hlength := congrArg List.length hab
    simp only [List.length_append] at hlength
    exact List.eq_nil_of_length_eq_zero (by omega)
  | leave => cases hn
  | @enter depth s others =>
    subst hn
    obtain ⟨a, b, rfl, hb⟩ := others.exists_earlier
    refine iff_of_false (fun hends => hb ?_) (fun hnot => hnot (List.prefix_append _ _).isInfix)
    exact hends (commentOpener ++ a) b (List.append_assoc _ _ _).symm
  | @other _ c s opens closes _ ih =>
    have ih := ih hn
    constructor
    · intro hends hinfix
      rcases List.infix_cons_iff.1 hinfix with hprefix | hin
      · exact opens hprefix
      · exact ih.1 (fun a b hab => hends (c :: a) b (congrArg (c :: ·) hab)) hin
    · intro hnot a b hab
      cases a with
      | nil => exact absurd ⟨b, hab.symm⟩ closes
      | cons d a =>
        have hnot' : ¬ commentOpener <:+: s := fun hin =>
          hnot (hin.trans (List.suffix_cons c s).isInfix)
        exact ih.2 hnot' a b (List.cons.inj hab).2

/-- What the scan passes as the rest of a comment is all of it exactly if no comment opens
inside of it. -/
theorem through_iff {s : List Char} (h : CommentRest 0 s) (after : List Char) :
    (through commentCloser (s ++ after)).1 = s ↔ ¬ commentOpener <:+: s := by
  have hne : commentCloser ≠ [] := Region.blockComment.closer_ne_nil
  obtain ⟨whole, hwhole⟩ := h.exists_body
  have hin : commentCloser <:+: s := hwhole ▸ (List.suffix_append _ _).isInfix
  obtain ⟨body, tail, rfl, hfirst⟩ :=
    (infix_cases hne s).resolve_right fun hnot => hnot hin
  have hthrough : through commentCloser (body ++ (commentCloser ++ tail) ++ after) =
      (body ++ commentCloser, tail ++ after) := by
    rw [List.append_assoc, List.append_assoc]
    exact through_of_endsAtFirst hne hfirst (tail ++ after)
  rw [hthrough, ← h.endsAtFirst_iff]
  constructor
  · intro htail
    rw [← List.append_assoc, List.self_eq_append_right] at htail
    subst htail
    intro a b hab
    rw [List.append_nil] at hab
    exact hfirst a b (hab.trans (List.append_assoc _ _ _).symm)
  · intro hends
    rw [hends body tail rfl, List.append_nil]

end CommentRest

/-! ## Escape constants -/

/-- A part of the inside of an escape constant. -/
inductive EscapePart where
  | plain (c : Char)
  /-- A quote that is written twice. -/
  | doubled
  /-- A character after a backslash. -/
  | escaped (c : Char)
deriving DecidableEq

namespace EscapePart

/-- The text of a part. -/
def text : EscapePart → List Char
  | plain c => [c]
  | doubled => ['\'', '\'']
  | escaped c => ['\\', c]

/-- Whether a constant may have such a part. -/
def Valid : EscapePart → Prop
  | plain c => c ≠ '\'' ∧ c ≠ '\\'
  | doubled => True
  | escaped _ => True

instance (part : EscapePart) : Decidable part.Valid := by
  cases part <;> unfold Valid <;> infer_instance

end EscapePart

open Quoted (IsDoubled)

/-- Parts of a constant do not go on with a quote that was left over. -/
theorem not_isDoubled_quote {parts : List EscapePart} (valid : ∀ part ∈ parts, part.Valid) :
    ¬ IsDoubled '\'' ('\'' :: parts.flatMap EscapePart.text) := by
  induction parts with
  | nil => exact fun h => by cases h with | other ne => exact ne rfl
  | cons part r ih =>
    have hpart := valid part List.mem_cons_self
    have ih := ih fun other hother => valid other (List.mem_cons_of_mem part hother)
    intro h
    rw [List.flatMap_cons] at h
    cases part with
    | plain c =>
      cases h with
      | quote => exact hpart.1 rfl
      | other ne => exact ne rfl
    | doubled =>
      cases h with
      | quote others => exact ih others
      | other ne => exact ne rfl
    | escaped c => cases h with | other ne => exact ne rfl

/-- A character that is no quote does not matter for doubling. -/
theorem isDoubled_cons_iff {c : Char} (h : c ≠ '\'') (s : List Char) :
    IsDoubled '\'' (c :: s) ↔ IsDoubled '\'' s := by
  constructor
  · intro hs
    cases hs with
    | quote => exact absurd rfl h
    | other _ others => exact others
  · exact .other h

/-- All quotes of an escape constant are doubled exactly if none stands after a backslash. -/
theorem isDoubled_iff_notMem {parts : List EscapePart} (valid : ∀ part ∈ parts, part.Valid) :
    IsDoubled '\'' (parts.flatMap EscapePart.text) ↔ .escaped '\'' ∉ parts := by
  induction parts with
  | nil => exact iff_of_true .nil List.not_mem_nil
  | cons part r ih =>
    have hpart := valid part List.mem_cons_self
    have hr : ∀ other ∈ r, other.Valid := fun other hother =>
      valid other (List.mem_cons_of_mem part hother)
    have ih := ih hr
    rw [List.flatMap_cons, List.mem_cons, not_or]
    cases part with
    | plain c =>
      rw [EscapePart.text, List.singleton_append, isDoubled_cons_iff hpart.1, ih]
      simp
    | doubled =>
      have hquotes : IsDoubled '\'' (['\'', '\''] ++ r.flatMap EscapePart.text) ↔
          IsDoubled '\'' (r.flatMap EscapePart.text) := by
        constructor
        · intro h
          cases h with
          | quote others => exact others
          | other ne => exact absurd rfl ne
        · exact .quote
      rw [EscapePart.text, hquotes, ih]
      simp
    | escaped c =>
      rw [EscapePart.text, List.cons_append, List.singleton_append,
        isDoubled_cons_iff (by decide)]
      by_cases hc : c = '\''
      · subst hc
        exact iff_of_false (not_isDoubled_quote hr) (by simp)
      · rw [isDoubled_cons_iff hc, ih]
        simp [Ne.symm hc]

/-! ## Regions -/

/-- A part of SQL text whose inside is opaque to the server, and which the scan does not know as
such. -/
inductive ServerRegion where
  /-- A comment, given what follows its opening mark. -/
  | comment (rest : List Char)
  /-- An escape constant, given the letter before its opening quote and its inside. -/
  | constant (letter : Char) (parts : List EscapePart)

namespace ServerRegion

/-- The text of a region. -/
def text : ServerRegion → List Char
  | comment rest => commentOpener ++ rest
  | constant letter parts =>
    letter :: '\'' :: (parts.flatMap EscapePart.text ++ ['\''])

/-- Whether this is the region that a text begins with, if `after` follows it: its comments are
properly nested, or its constant ends before `after`. -/
def Valid : ServerRegion → (after : List Char) → Prop
  | comment rest, _ => CommentRest 0 rest
  | constant letter parts, after =>
    (letter = 'E' ∨ letter = 'e') ∧ (∀ part ∈ parts, part.Valid) ∧ after.head? ≠ some '\''

/-- Whether no comment is nested in a comment, and no quote stands after a backslash. -/
def Plain : ServerRegion → Prop
  | comment rest => ¬ commentOpener <:+: rest
  | constant _ parts => .escaped '\'' ∉ parts

/-- A region as tokens that are copied. -/
def tokens : ServerRegion → List Token
  | comment rest => [.verbatim (commentOpener ++ rest)]
  | constant letter parts =>
    [.verbatim [letter], .verbatim ('\'' :: (parts.flatMap EscapePart.text ++ ['\'']))]

end ServerRegion

/-- A text is copied as one token exactly if the first token is that text. -/
theorem tokens_verbatim_iff (c : Char) (s after : List Char) :
    tokens (c :: (s ++ after)) = .verbatim (c :: s) :: tokens after ↔
      (next c (s ++ after)).1 = .verbatim (c :: s) := by
  rw [tokens]
  constructor
  · intro h
    exact (List.cons.inj h).1
  · intro h
    have hsource := source_next c (s ++ after)
    rw [h, Token.source, List.cons_append, List.cons.injEq] at hsource
    rw [h, List.append_cancel_left hsource.2]

/-- A constant is copied as one token from its opening quote on if all its quotes are doubled,
and, where it does not end the text, only then. -/
theorem tokens_quoted_iff {body after : List Char} (ends : after.head? ≠ some '\'') :
    (IsDoubled '\'' body →
      tokens ('\'' :: (body ++ ['\''] ++ after)) =
        .verbatim ('\'' :: (body ++ ['\''])) :: tokens after) ∧
    (after ≠ [] →
      tokens ('\'' :: (body ++ ['\''] ++ after)) =
        .verbatim ('\'' :: (body ++ ['\''])) :: tokens after →
      IsDoubled '\'' body) := by
  rw [tokens_verbatim_iff, next_quote (.inl rfl), List.append_assoc, List.singleton_append,
    Quoted.isDoubled_iff]
  constructor
  · intro hbody
    rw [(Quoted.split_eq_some_iff _ _ body after).2 ⟨rfl, hbody, ends⟩]
  · intro hafter htoken
    cases hsplit : Quoted.split '\'' (body ++ '\'' :: after) with
    | none =>
      rw [hsplit] at htoken
      have hlength := congrArg List.length (Token.verbatim.inj htoken)
      simp only [List.length_cons, List.length_append, List.length_nil] at hlength
      exact absurd (List.eq_nil_of_length_eq_zero (by omega)) hafter
    | some p =>
      rw [hsplit] at htoken
      have hsame : p.1 ++ ['\''] = body ++ ['\''] := (List.cons.inj (Token.verbatim.inj htoken)).2
      rw [← List.append_cancel_right hsame]
      exact (Quoted.split_eq_some _ _ p.1 p.2 hsplit).1

/-- The letter before an escape constant is copied. -/
theorem tokens_letter {letter : Char} (h : letter = 'E' ∨ letter = 'e') (r : List Char) :
    tokens (letter :: r) = .verbatim [letter] :: tokens r := by
  have hplain : ¬ BeginsLonger (letter :: r) := fun hlonger =>
    hlonger.not_isPlain (by rcases h with rfl | rfl <;> decide)
  rw [tokens, next_single hplain]

section Region

variable {region : ServerRegion} {after : List Char} (valid : region.Valid after)
include valid

/-- The scan goes on right after a region in which no comment is nested and no quote stands after
a backslash. -/
theorem tokens_of_plain (plain : region.Plain) :
    tokens (region.text ++ after) = region.tokens ++ tokens after := by
  cases region with
  | comment rest =>
    have hcomment := (tokens_verbatim_iff '/' ('*' :: rest) after).2
    rw [List.cons_append, next_blockComment] at hcomment
    exact hcomment (congrArg (fun s => Token.verbatim ('/' :: '*' :: s))
      ((CommentRest.through_iff valid after).2 plain))
  | constant letter parts =>
    obtain ⟨hletter, hparts, hends⟩ := valid
    have hbody := (isDoubled_iff_notMem hparts).2 plain
    exact (tokens_letter hletter _).trans
      (congrArg (Token.verbatim [letter] :: ·) ((tokens_quoted_iff hends).1 hbody))

/-- The scan goes on right after a region that does not end the text exactly if no comment is
nested in it and no quote stands after a backslash. -/
theorem tokens_region_iff (more : after ≠ []) :
    tokens (region.text ++ after) = region.tokens ++ tokens after ↔ region.Plain := by
  refine ⟨fun htokens => ?_, tokens_of_plain valid⟩
  cases region with
  | comment rest =>
    have hcomment := (tokens_verbatim_iff '/' ('*' :: rest) after).1 htokens
    rw [List.cons_append, next_blockComment] at hcomment
    refine (CommentRest.through_iff valid after).1 ?_
    exact (List.cons.inj (List.cons.inj (Token.verbatim.inj hcomment)).2).2
  | constant letter parts =>
    obtain ⟨hletter, hparts, hends⟩ := valid
    have hquoted := (tokens_letter hletter _).symm.trans htokens
    exact (isDoubled_iff_notMem hparts).1
      ((tokens_quoted_iff hends).2 more (List.cons.inj hquoted).2)

end Region

end TableAccess.Placeholder
