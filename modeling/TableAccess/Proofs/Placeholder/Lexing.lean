import Mathlib.Data.List.TakeWhile
import TableAccess.Proofs.Placeholder.Lexeme
import TableAccess.Proofs.Text.Digits
import TableAccess.Proofs.Text.Quoted
/-!
# Tokens and lexemes

The tokens of a text are its lexemes, live placeholders apart from text that is copied.
The step that takes one token is compared with the grammar, and the comparison is carried
through the whole text.

Main results:

- Theorem `next_of_begins`: the first token of a text is its first lexeme.
- Theorem `exists_begins`: every text that is not empty begins with a lexeme.
- Theorem `tokens_of_reads`: a text that is read as lexemes has their tokens.
- Theorem `exists_reads`: every text is read as lexemes.
-/

namespace TableAccess.Placeholder

open Text

/-! ## The first occurrence of a mark -/

/-- A mark that is first at the end stays so if a character before it is left out. -/
theorem EndsAtFirst.tail {stop body : List Char} {c : Char}
    (h : EndsAtFirst stop (c :: body)) : EndsAtFirst stop body := by
  intro a b hab
  exact h (c :: a) b (by rw [List.cons_append, hab]; simp)

/-- A text that is followed by the first occurrence of a mark does not begin with it. -/
theorem EndsAtFirst.not_begins {stop body rest : List Char} {c : Char}
    (h : EndsAtFirst stop (c :: body)) : ¬ stop <+: c :: (body ++ (stop ++ rest)) := by
  intro hprefix
  have hwithin : stop <+: (c :: body) ++ stop :=
    List.prefix_of_prefix_length_le hprefix ⟨rest, by simp⟩ (by simp; omega)
  obtain ⟨b, hb⟩ := hwithin
  have hnil : b = [] := h [] b (by simpa using hb.symm)
  have hlength := congrArg List.length hb
  rw [hnil] at hlength
  simp at hlength
  omega

/-- Text is passed up to the first occurrence of a mark. -/
theorem through_of_endsAtFirst {stop body : List Char} (hstop : stop ≠ [])
    (h : EndsAtFirst stop body) (rest : List Char) :
    through stop (body ++ (stop ++ rest)) = (body ++ stop, rest) := by
  induction body with
  | nil =>
    obtain ⟨d, ds, rfl⟩ := List.exists_cons_of_ne_nil hstop
    have hprefix : (d :: ds).isPrefixOf (d :: (ds ++ rest)) = true :=
      List.isPrefixOf_iff_prefix.2 ⟨rest, rfl⟩
    simp [through, hprefix]
  | cons c body ih =>
    have hnot : ¬ stop.isPrefixOf (c :: (body ++ (stop ++ rest))) = true :=
      fun hp => h.not_begins (List.isPrefixOf_iff_prefix.1 hp)
    rw [List.cons_append, through, if_neg hnot, ih h.tail]
    rfl

/-- A text without a mark is passed to its end. -/
theorem through_of_absent {stop s : List Char} (h : ¬ stop <:+: s) :
    through stop s = (s, []) := by
  induction s with
  | nil => rfl
  | cons c r ih =>
    have hnot : ¬ stop.isPrefixOf (c :: r) = true :=
      fun hp => h (List.isPrefixOf_iff_prefix.1 hp).isInfix
    rw [through, if_neg hnot, ih fun hr => h (hr.trans (List.suffix_cons c r).isInfix)]

/-- A mark occurs in a text for a first time or not at all. -/
theorem infix_cases {stop : List Char} (hstop : stop ≠ []) (s : List Char) :
    (∃ body rest, s = body ++ (stop ++ rest) ∧ EndsAtFirst stop body) ∨ ¬ stop <:+: s := by
  induction s with
  | nil => exact .inr fun h => hstop (List.infix_nil.1 h)
  | cons c r ih =>
    by_cases hprefix : stop <+: c :: r
    · obtain ⟨rest, hrest⟩ := hprefix
      refine .inl ⟨[], rest, by simp [hrest], ?_⟩
      intro a b hab
      have hlength := congrArg List.length hab
      simp only [List.nil_append, List.length_append] at hlength
      exact List.eq_nil_of_length_eq_zero (by omega)
    · rcases ih with ⟨body, rest, hr, hfirst⟩ | hnot
      · refine .inl ⟨c :: body, rest, by rw [hr]; rfl, ?_⟩
        intro a b hab
        cases a with
        | nil =>
          refine absurd ?_ hprefix
          have hp : stop <+: (c :: body) ++ stop := ⟨b, by simpa using hab.symm⟩
          exact hp.trans ⟨rest, by rw [hr]; simp⟩
        | cons d a =>
          rw [List.cons_append, List.cons_append, List.cons_append, List.cons.injEq] at hab
          exact hfirst a b hab.2
      · refine .inr fun hinfix => ?_
        rcases List.infix_cons_iff.1 hinfix with h | h
        · exact hprefix h
        · exact hnot h

/-! ## Delimiters -/

/-- The characters of a tag are parts of names. -/
theorem IsTag.all_isNamePart {tag : List Char} (h : IsTag tag) :
    ∀ c ∈ tag, isNamePart c = true := by
  rcases h with rfl | h
  · simp
  · cases tag with
    | nil => simp
    | cons c r =>
      obtain ⟨hc, hr⟩ := (isName_cons c r).1 h
      intro d hd
      rcases List.mem_cons.1 hd with rfl | hd
      · exact isNamePart_of_isNameStart hc
      · exact hr d hd

/-- Of a delimiter only the dollar signs are no parts of names. -/
theorem IsTag.isNamePart_of_mem_delimiter {tag : List Char} (h : IsTag tag) {c : Char}
    (hc : c ∈ delimiter tag) (hdollar : c ≠ '$') : isNamePart c = true := by
  refine h.all_isNamePart c ?_
  simpa [delimiter, hdollar] using hc

/-- Runs of characters at the front of a text are equal if neither goes on after its end. -/
theorem eq_of_runs {p : Char → Bool} {a b u v : List Char} (ha : ∀ c ∈ a, p c = true)
    (hb : ∀ c ∈ b, p c = true) (hu : ∀ c, u.head? = some c → p c = false)
    (hv : ∀ c, v.head? = some c → p c = false) (h : a ++ u = b ++ v) : a = b ∧ u = v := by
  obtain ⟨ha, hu⟩ := takeWhile_append_of_head ha hu
  obtain ⟨hb, hv⟩ := takeWhile_append_of_head hb hv
  exact ⟨by rw [← ha, h, hb], by rw [← hu, h, hv]⟩

/-- Where a dollar-quoted body begins. -/
theorem dollarTag?_eq_some_iff (s tag rest : List Char) :
    dollarTag? s = some (tag, rest) ↔
      ∃ name, IsTag name ∧ tag = delimiter name ∧ s = name ++ '$' :: rest := by
  constructor
  · intro h
    unfold dollarTag? at h
    simp only at h
    split at h
    · rename_i r hdrop
      split at h
      · rename_i hname
        obtain ⟨rfl, rfl⟩ := Prod.mk.injEq .. ▸ Option.some.inj h
        refine ⟨s.takeWhile isNamePart, ?_, rfl, ?_⟩
        · rw [Bool.or_eq_true, List.isEmpty_iff] at hname
          exact hname
        · rw [← hdrop, List.takeWhile_append_dropWhile]
      · simp at h
    · simp at h
  · rintro ⟨name, hname, rfl, rfl⟩
    have hdollar : ∀ c, ('$' :: rest).head? = some c → isNamePart c = false := by
      intro c hc
      obtain rfl := Option.some.inj hc
      decide
    obtain ⟨htake, hdrop⟩ := takeWhile_append_of_head hname.all_isNamePart hdollar
    have htag : (name.isEmpty || isName name) = true := by
      rw [Bool.or_eq_true, List.isEmpty_iff]
      exact hname
    unfold dollarTag?
    simp only [htake, hdrop, if_pos htag]
    rfl

/-! ## One token -/

/-- A quote begins a quoted text, or a rest without an end. -/
theorem next_quote {q : Char} (hq : q = '\'' ∨ q = '"') (r : List Char) :
    next q r =
      match Quoted.split q r with
      | some (body, rest) => (.verbatim (q :: (body ++ [q])), rest)
      | none => (.verbatim (q :: r), []) := by
  unfold next
  exact if_pos hq

/-- Two hyphens begin a comment that ends with the line. -/
theorem next_lineComment (r : List Char) :
    next '-' ('-' :: r) =
      (.verbatim ('-' :: '-' :: (through ['\n'] r).1), (through ['\n'] r).2) := by
  have hstep : through ['\n'] ('-' :: r) =
      ('-' :: (through ['\n'] r).1, (through ['\n'] r).2) := by
    rw [through, if_neg (by simp [List.isPrefixOf])]
  rw [next, if_neg (by decide), if_pos ⟨rfl, rfl⟩, hstep]

/-- A slash and a star begin a comment that ends at the next star and slash. -/
theorem next_blockComment (r : List Char) :
    next '/' ('*' :: r) =
      (.verbatim ('/' :: '*' :: (through ['*', '/'] r).1), (through ['*', '/'] r).2) := by
  rw [next, if_neg (by decide), if_neg (by simp), if_pos ⟨rfl, rfl⟩]
  rfl

/-- A dollar sign begins a dollar-quoted body if it begins a delimiter. -/
theorem next_dollar (r : List Char) :
    next '$' r =
      match dollarTag? r with
      | some (tag, rest) => (.verbatim (tag ++ (through tag rest).1), (through tag rest).2)
      | none => (.verbatim ['$'], r) := by
  rw [next, if_neg (by decide), if_neg (by simp), if_neg (by simp)]
  exact if_pos rfl

theorem next_cast (r : List Char) : next ':' (':' :: r) = (.verbatim [':', ':'], r) := by
  rw [next, if_neg (by decide), if_neg (by simp), if_neg (by simp), if_neg (by decide),
    if_pos ⟨rfl, rfl⟩]
  rfl

/-- A colon before the first character of a name begins a placeholder. -/
theorem next_live {d : Char} (hd : isNameStart d = true) (r : List Char) :
    next ':' (d :: r) =
      (.placeholder ((d :: r).takeWhile isNamePart), (d :: r).dropWhile isNamePart) := by
  have hcolon : d ≠ ':' := by
    rintro rfl
    exact absurd hd (by decide)
  rw [next, if_neg (by decide), if_neg (by simp), if_neg (by simp), if_neg (by decide),
    if_neg (by simp [hcolon]), if_pos ⟨rfl, by simpa using hd⟩]

/-- A text that begins with none of the longer lexemes begins with a character. -/
theorem next_single {c : Char} {r : List Char} (h : ¬ BeginsLonger (c :: r)) :
    next c r = (.verbatim [c], r) := by
  have hregion : ∀ region : Region, region.Valid → ¬ region.opener <+: c :: r :=
    fun region valid hopen => h (.inl ⟨region, valid, hopen⟩)
  have hquote : ¬ (c = '\'' ∨ c = '"') := fun hq =>
    hregion (.quoted c) hq ⟨r, rfl⟩
  have hpair : ∀ d, r.head? = some d → [c, d] <+: c :: r := by
    intro d hd
    cases r with
    | nil => simp at hd
    | cons e t =>
      obtain rfl := Option.some.inj hd
      exact ⟨t, rfl⟩
  have hline : ¬ (c = '-' ∧ r.head? = some '-') := by
    rintro ⟨rfl, hd⟩
    exact hregion .lineComment trivial (hpair '-' hd)
  have hblock : ¬ (c = '/' ∧ r.head? = some '*') := by
    rintro ⟨rfl, hd⟩
    exact hregion .blockComment trivial (hpair '*' hd)
  have hcast : ¬ (c = ':' ∧ r.head? = some ':') := by
    rintro ⟨rfl, hd⟩
    exact h (.inr (.inl (hpair ':' hd)))
  have hlive : ¬ (c = ':' ∧ r.head?.any isNameStart = true) := by
    rintro ⟨rfl, hd⟩
    cases r with
    | nil => simp at hd
    | cons d t => exact h (.inr (.inr ⟨d, by simpa using hd, hpair d rfl⟩))
  by_cases hdollar : c = '$'
  · subst hdollar
    have htag : dollarTag? r = none := by
      rw [Option.eq_none_iff_forall_ne_some]
      rintro ⟨tag, rest⟩ hsome
      obtain ⟨name, hname, -, rfl⟩ := (dollarTag?_eq_some_iff r tag rest).1 hsome
      exact hregion (.dollarQuoted name) hname ⟨rest, by simp [Region.opener, delimiter]⟩
    rw [next_dollar, htag]
  · rw [next, if_neg hquote, if_neg hline, if_neg hblock, if_neg hdollar, if_neg hcast,
      if_neg hlive]

/-! ## The first lexeme -/

/-- The first token of a text is its first lexeme. -/
theorem next_of_begins {x : Lexeme} {rest : List Char} (h : x.Begins rest) :
    ∃ c r, x.text ++ rest = c :: r ∧ next c r = (x.token, rest) := by
  cases h with
  | @closed region body rest valid closes =>
    cases region with
    | quoted q =>
      have hsplit : Quoted.split q (body ++ q :: rest) = some (body, rest) :=
        (Quoted.split_eq_some_iff _ _ _ _).2 ⟨rfl, closes⟩
      refine ⟨q, body ++ q :: rest, by simp [Lexeme.text, Region.opener, Region.closer], ?_⟩
      rw [next_quote valid, hsplit]
      rfl
    | lineComment =>
      refine ⟨'-', '-' :: (body ++ (['\n'] ++ rest)),
        by simp [Lexeme.text, Region.opener, Region.closer], ?_⟩
      have hfirst : EndsAtFirst ['\n'] body := closes
      rw [next_lineComment, through_of_endsAtFirst (by simp) hfirst]
      rfl
    | blockComment =>
      refine ⟨'/', '*' :: (body ++ (['*', '/'] ++ rest)),
        by simp [Lexeme.text, Region.opener, Region.closer], ?_⟩
      have hfirst : EndsAtFirst ['*', '/'] body := closes
      rw [next_blockComment, through_of_endsAtFirst (by simp) hfirst]
      rfl
    | dollarQuoted tag =>
      have htag : dollarTag? (tag ++ '$' :: (body ++ (delimiter tag ++ rest))) =
          some (delimiter tag, body ++ (delimiter tag ++ rest)) :=
        (dollarTag?_eq_some_iff _ _ _).2 ⟨tag, valid, rfl, rfl⟩
      refine ⟨'$', tag ++ '$' :: (body ++ (delimiter tag ++ rest)),
        by simp [Lexeme.text, Region.opener, Region.closer, delimiter], ?_⟩
      have hfirst : EndsAtFirst (delimiter tag) body := closes
      rw [next_dollar, htag]
      simp only
      rw [through_of_endsAtFirst (by simp [delimiter]) hfirst]
      simp [Lexeme.token, Lexeme.text, Region.opener, Region.closer]
  | @unclosed region body valid stays =>
    cases region with
    | quoted q =>
      have hsplit : Quoted.split q body = none := (Quoted.split_eq_none_iff _ _).2 stays
      refine ⟨q, body, by simp [Lexeme.text, Region.opener], ?_⟩
      rw [next_quote valid, hsplit]
      rfl
    | lineComment =>
      refine ⟨'-', '-' :: body, by simp [Lexeme.text, Region.opener], ?_⟩
      have hnot : ¬ ['\n'] <:+: body := stays
      rw [next_lineComment, through_of_absent hnot]
      rfl
    | blockComment =>
      refine ⟨'/', '*' :: body, by simp [Lexeme.text, Region.opener], ?_⟩
      have hnot : ¬ ['*', '/'] <:+: body := stays
      rw [next_blockComment, through_of_absent hnot]
      rfl
    | dollarQuoted tag =>
      have htag : dollarTag? (tag ++ '$' :: body) = some (delimiter tag, body) :=
        (dollarTag?_eq_some_iff _ _ _).2 ⟨tag, valid, rfl, rfl⟩
      refine ⟨'$', tag ++ '$' :: body, by simp [Lexeme.text, Region.opener, delimiter], ?_⟩
      have hnot : ¬ delimiter tag <:+: body := stays
      rw [next_dollar, htag]
      simp only
      rw [through_of_absent hnot]
      rfl
  | cast => exact ⟨':', ':' :: rest, rfl, next_cast rest⟩
  | @live name rest hname maximal =>
    cases name with
    | nil => simp [isName] at hname
    | cons d ds =>
      obtain ⟨hd, hds⟩ := (isName_cons d ds).1 hname
      have hall : ∀ c ∈ d :: ds, isNamePart c = true :=
        IsTag.all_isNamePart (.inr hname)
      obtain ⟨htake, hdrop⟩ := takeWhile_append_of_head hall maximal
      refine ⟨':', d :: (ds ++ rest), rfl, ?_⟩
      rw [next_live hd, ← List.cons_append, htake, hdrop]
      rfl
  | @single c rest other => exact ⟨c, rest, rfl, next_single other⟩

/-- Every region is closed by a mark. -/
theorem Region.closer_ne_nil (region : Region) : region.closer ≠ [] := by
  cases region <;> simp [Region.closer, delimiter]

/-- A region that is opened is closed or goes on to the end of the text. -/
theorem exists_begins_region {region : Region} (valid : region.Valid) (s : List Char) :
    ∃ (x : Lexeme) (rest : List Char), x.text ++ rest = region.opener ++ s ∧ x.Begins rest := by
  have hcases := infix_cases region.closer_ne_nil s
  cases region with
  | quoted q =>
    cases hsplit : Quoted.split q s with
    | none =>
      refine ⟨.unclosed (.quoted q) s, [], by simp [Lexeme.text], .unclosed valid ?_⟩
      exact (Quoted.split_eq_none_iff _ _).1 hsplit
    | some p =>
      obtain ⟨hs, hcloses⟩ := (Quoted.split_eq_some_iff q s p.1 p.2).1 hsplit
      refine ⟨.closed (.quoted q) p.1, p.2, ?_, .closed valid hcloses⟩
      rw [hs]
      simp [Lexeme.text, Region.closer]
  | _ =>
    rcases hcases with ⟨body, rest, rfl, hfirst⟩ | hnot
    · exact ⟨.closed _ body, rest, by simp [Lexeme.text], .closed valid hfirst⟩
    · exact ⟨.unclosed _ s, [], by simp [Lexeme.text], .unclosed valid hnot⟩

/-- Every text that is not empty begins with a lexeme. -/
theorem exists_begins (c : Char) (r : List Char) :
    ∃ (x : Lexeme) (rest : List Char), x.text ++ rest = c :: r ∧ x.Begins rest := by
  by_cases h : BeginsLonger (c :: r)
  · rcases h with ⟨region, valid, s, hs⟩ | ⟨s, hs⟩ | ⟨d, hd, s, hs⟩
    · rw [← hs]
      exact exists_begins_region valid s
    · exact ⟨.cast, s, hs, .cast⟩
    · have hname : isName ((d :: s).takeWhile isNamePart) = true := by
        rw [List.takeWhile_cons_of_pos (isNamePart_of_isNameStart hd), isName_cons]
        exact ⟨hd, fun e he => List.mem_takeWhile_imp he⟩
      have hmaximal : ∀ e, ((d :: s).dropWhile isNamePart).head? = some e →
          isNamePart e = false := by
        intro e he
        have hnot := List.head?_dropWhile_not isNamePart (d :: s)
        rw [he] at hnot
        exact hnot
      refine ⟨.live ((d :: s).takeWhile isNamePart), (d :: s).dropWhile isNamePart, ?_,
        .live hname hmaximal⟩
      rw [← hs, Lexeme.text, List.cons_append, List.takeWhile_append_dropWhile]
      rfl
  · exact ⟨.single c, r, rfl, .single h⟩

/-! ## All lexemes -/

theorem Lexeme.Begins.text_ne_nil {x : Lexeme} {rest : List Char} (h : x.Begins rest) :
    x.text ≠ [] := by
  cases h with
  | @closed region => cases region <;> simp [Lexeme.text, Region.opener, delimiter]
  | @unclosed region => cases region <;> simp [Lexeme.text, Region.opener, delimiter]
  | cast => simp [Lexeme.text]
  | live => simp [Lexeme.text]
  | single => simp [Lexeme.text]

/-- A text that is read as lexemes has their tokens, and what follows it has its own. -/
theorem tokens_of_reads {rest s : List Char} {xs : List Lexeme} (h : Reads rest s xs) :
    tokens (s ++ rest) = xs.map Lexeme.token ++ tokens rest := by
  induction h with
  | nil => rfl
  | @cons x s xs hx _ ih =>
    obtain ⟨c, r, htext, hnext⟩ := next_of_begins hx
    rw [List.append_assoc, htext, tokens]
    simp only [hnext]
    rw [ih]
    rfl

/-- Every text is read as lexemes. -/
theorem exists_reads (s : List Char) : ∃ xs, Reads [] s xs := by
  induction hn : s.length using Nat.strongRecOn generalizing s with
  | ind n ih =>
    cases s with
    | nil => exact ⟨[], .nil⟩
    | cons c r =>
      obtain ⟨x, rest, htext, hx⟩ := exists_begins c r
      have hlength := congrArg List.length htext
      have hpos := List.length_pos_iff.2 hx.text_ne_nil
      rw [List.length_append] at hlength
      obtain ⟨xs, hxs⟩ := ih rest.length (by omega) rest rfl
      exact ⟨x :: xs, htext ▸ .cons (by simpa using hx) hxs⟩

end TableAccess.Placeholder
