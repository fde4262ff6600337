import TableAccess.Proofs.Placeholder.Lexing
/-!
# Text without placeholders

A text is passed over if it is read as lexemes none of which is a live placeholder, so that
the text after it is read as if nothing stood before.  Whether it is depends on what
follows only at the boundary.

Main results:

- Theorem `Passes.append`: two adjacent texts that are passed over.
- Theorem `passes_of_plain`: characters that begin no longer lexeme are passed over.
- Theorem `Passes.before_placeholder`: before a placeholder it does not matter which
  placeholder follows.
-/

namespace TableAccess.Placeholder

open Text

/-- The names of the live placeholders among lexemes. -/
def liveNames (xs : List Lexeme) : List String :=
  xs.filterMap Lexeme.name?

@[simp]
theorem liveNames_append (xs ys : List Lexeme) :
    liveNames (xs ++ ys) = liveNames xs ++ liveNames ys :=
  List.filterMap_append

theorem liveNames_cons (x : Lexeme) (xs : List Lexeme) :
    liveNames (x :: xs) = x.name?.toList ++ liveNames xs := by
  rw [liveNames, List.filterMap_cons]
  cases x.name? <;> rfl

/-- Whether a text has no live placeholder if `rest` follows it, and the next lexeme begins
where `rest` begins. -/
def Passes (rest s : List Char) : Prop :=
  ∃ xs, Reads rest s xs ∧ liveNames xs = []

/-! ## Composition -/

theorem passes_nil (rest : List Char) : Passes rest [] :=
  ⟨[], .nil, rfl⟩

/-- Two texts are passed over if each of them is, the first one before the second. -/
theorem Passes.append {rest s t : List Char} (first : Passes (t ++ rest) s)
    (second : Passes rest t) : Passes rest (s ++ t) := by
  obtain ⟨xs, hxs, hlive⟩ := first
  obtain ⟨ys, hys, hlive'⟩ := second
  exact ⟨xs ++ ys, hxs.append hys, by rw [liveNames_append, hlive, hlive']; rfl⟩

/-- A lexeme that is no placeholder is passed over. -/
theorem Lexeme.Begins.passes {x : Lexeme} {rest : List Char} (h : x.Begins rest)
    (hname : x.name? = none) : Passes rest x.text :=
  ⟨[x], .one h, by rw [liveNames_cons, hname]; rfl⟩

/-! ## Characters -/

/-- Whether a character begins no longer lexeme, whatever follows it. -/
def IsPlain (c : Char) : Prop :=
  c ∉ ['\'', '"', '-', '/', '$', ':']

instance (c : Char) : Decidable (IsPlain c) :=
  inferInstanceAs (Decidable (c ∉ _))

/-- Characters of a kind to which no first character of a longer lexeme belongs. -/
theorem isPlain_of_kind {p : Char → Bool} (apart : ['\'', '"', '-', '/', '$', ':'].any p = false)
    {c : Char} (h : p c = true) : IsPlain c :=
  fun hmem => List.any_eq_false.1 apart c hmem h

theorem isPlain_of_isDigit {c : Char} (h : c.isDigit = true) : IsPlain c :=
  isPlain_of_kind (by decide) h

theorem isPlain_of_isNamePart {c : Char} (h : isNamePart c = true) : IsPlain c :=
  isPlain_of_kind (by decide) h

/-- Whether no longer lexeme begins in a text, whatever follows it. -/
def IsPlainText (s : List Char) : Prop :=
  ∀ c ∈ s, IsPlain c

-- not the instance for all characters, which would be tried before the one for lists
instance (s : List Char) : Decidable (IsPlainText s) :=
  List.decidableBAll IsPlain s

theorem IsPlainText.append {s t : List Char} (hs : IsPlainText s) (ht : IsPlainText t) :
    IsPlainText (s ++ t) := by
  intro c hc
  rcases List.mem_append.1 hc with hc | hc
  · exact hs c hc
  · exact ht c hc

/-- The first characters of the longer lexemes. -/
theorem beginsLonger_iff {c : Char} {r : List Char} :
    BeginsLonger (c :: r) ↔
      (c = '\'' ∨ c = '"') ∨ (c = '-' ∧ r.head? = some '-') ∨ (c = '/' ∧ r.head? = some '*') ∨
        (c = '$' ∧ ∃ tag, IsTag tag ∧ delimiter tag <+: '$' :: r) ∨
        (c = ':' ∧ ∃ d, r.head? = some d ∧ (d = ':' ∨ isNameStart d = true)) := by
  have hsecond : ∀ {d e : Char}, [d, e] <+: c :: r ↔ c = d ∧ r.head? = some e := by
    intro d e
    rw [List.cons_prefix_cons, eq_comm, List.head?_eq_some_iff]
    refine and_congr_right fun _ => ?_
    constructor
    · rintro ⟨u, rfl⟩
      exact ⟨u, rfl⟩
    · rintro ⟨u, rfl⟩
      exact ⟨u, rfl⟩
  constructor
  · rintro (⟨region, valid, hopen⟩ | hcast | ⟨d, hd, hlive⟩)
    · cases region with
      | quoted q =>
        obtain rfl := (List.cons_prefix_cons.1 hopen).1
        exact .inl valid
      | lineComment => exact .inr (.inl (hsecond.1 hopen))
      | blockComment => exact .inr (.inr (.inl (hsecond.1 hopen)))
      | dollarQuoted tag =>
        obtain rfl := (List.cons_prefix_cons.1 hopen).1
        exact .inr (.inr (.inr (.inl ⟨rfl, tag, valid, hopen⟩)))
    · exact .inr (.inr (.inr (.inr ⟨(hsecond.1 hcast).1, ':', (hsecond.1 hcast).2, .inl rfl⟩)))
    · exact .inr (.inr (.inr (.inr ⟨(hsecond.1 hlive).1, d, (hsecond.1 hlive).2, .inr hd⟩)))
  · rintro (hquote | hline | hblock | ⟨rfl, tag, htag, hopen⟩ | ⟨rfl, d, hd, rfl | hstart⟩)
    · exact .inl ⟨.quoted c, hquote, r, rfl⟩
    · exact .inl ⟨.lineComment, trivial, hsecond.2 hline⟩
    · exact .inl ⟨.blockComment, trivial, hsecond.2 hblock⟩
    · exact .inl ⟨.dollarQuoted tag, htag, hopen⟩
    · exact .inr (.inl (hsecond.2 ⟨rfl, hd⟩))
    · exact .inr (.inr ⟨d, hstart, hsecond.2 ⟨rfl, hd⟩⟩)

/-- A dollar sign begins a longer lexeme if a tag and another dollar sign follow it. -/
theorem beginsLonger_dollar_iff {r : List Char} :
    BeginsLonger ('$' :: r) ↔ ∃ tag, IsTag tag ∧ delimiter tag <+: '$' :: r := by
  rw [beginsLonger_iff]
  simp

/-- Before a character that is neither a dollar sign nor begins a name, or at the end of a text, a
dollar sign begins no longer lexeme. -/
theorem not_beginsLonger_dollar {r : List Char}
    (h : ∀ c, r.head? = some c → c ≠ '$' ∧ isNameStart c = false) : ¬ BeginsLonger ('$' :: r) := by
  intro hlonger
  obtain ⟨tag, htag, hopen⟩ := beginsLonger_dollar_iff.1 hlonger
  obtain ⟨u, rfl⟩ := (List.cons_prefix_cons.1 hopen).2
  rcases htag with rfl | hname
  · exact (h '$' rfl).1 rfl
  · cases tag with
    | nil => cases hname
    | cons c t =>
      have hstart := ((isName_cons c t).1 hname).1
      rw [(h c rfl).2] at hstart
      cases hstart

/-- A longer lexeme begins with one of a few characters. -/
theorem BeginsLonger.not_isPlain {c : Char} {r : List Char} (h : BeginsLonger (c :: r)) :
    ¬ IsPlain c := by
  rcases beginsLonger_iff.1 h with (rfl | rfl) | ⟨rfl, -⟩ | ⟨rfl, -⟩ | ⟨rfl, -⟩ | ⟨rfl, -⟩ <;>
    decide

theorem passes_single {c : Char} {rest : List Char} (h : ¬ BeginsLonger (c :: rest)) :
    Passes rest [c] :=
  Lexeme.Begins.passes (.single h) rfl

/-- Characters that begin no longer lexeme are lexemes of their own. -/
theorem reads_of_plain {s : List Char} (h : IsPlainText s) (rest : List Char) :
    Reads rest s (s.map Lexeme.single) := by
  induction s with
  | nil => exact .nil
  | cons c r ih =>
    have hc : ¬ BeginsLonger (c :: (r ++ rest)) := fun hlonger =>
      hlonger.not_isPlain (h c (by simp))
    exact .cons (x := .single c) (.single hc) (ih fun d hd => h d (by simp [hd]))

theorem liveNames_map_single (s : List Char) : liveNames (s.map Lexeme.single) = [] := by
  simp [liveNames, Lexeme.name?]

/-- Characters that begin no longer lexeme are passed over. -/
theorem passes_of_plain {s : List Char} (h : IsPlainText s) (rest : List Char) : Passes rest s :=
  ⟨s.map .single, reads_of_plain h rest, liveNames_map_single s⟩

/-- A quoted text is passed over unless another quote follows it. -/
theorem passes_enclose {q : Char} (hq : q = '\'' ∨ q = '"') (t : List Char) {rest : List Char}
    (hrest : rest.head? ≠ some q) : Passes rest (Quoted.enclose q t) :=
  Lexeme.Begins.passes (x := .closed (.quoted q) (Quoted.escape q t))
    (.closed hq ⟨⟨t, rfl⟩, hrest⟩) rfl

/-- A hyphen is passed over unless another one follows. -/
theorem passes_hyphen {rest : List Char} (hrest : rest.head? ≠ some '-') :
    Passes rest ['-'] := by
  apply passes_single
  rw [beginsLonger_iff]
  simp [hrest]

/-- A dollar sign is passed over unless it opens a dollar-quoted body. -/
theorem passes_dollar {rest : List Char}
    (hrest : ∀ tag, IsTag tag → ¬ delimiter tag <+: '$' :: rest) : Passes rest ['$'] := by
  apply passes_single
  intro hlonger
  obtain ⟨tag, htag, hopen⟩ := beginsLonger_dollar_iff.1 hlonger
  exact hrest tag htag hopen

/-! ## Boundaries -/

/-- A mark that lacks the character after a text begins in the text only if it ends
there. -/
theorem prefix_of_head_not_mem {mark s rest : List Char} (h : mark <+: s ++ rest)
    (hrest : ∀ c, rest.head? = some c → c ∉ mark) : mark <+: s := by
  induction s generalizing mark with
  | nil =>
    cases mark with
    | nil => exact List.prefix_refl []
    | cons d mark =>
      obtain ⟨u, hu⟩ := h
      exact absurd (by simp) (hrest d (by rw [← List.nil_append rest, ← hu]; rfl))
  | cons c r ih =>
    cases mark with
    | nil => exact List.nil_prefix
    | cons d mark =>
      obtain ⟨hd, htail⟩ := List.cons_prefix_cons.1 h
      refine List.cons_prefix_cons.2 ⟨hd, ih htail fun e he hmem => ?_⟩
      exact hrest e he (List.mem_cons_of_mem d hmem)

/-- Text in which only dollar signs may begin a longer lexeme is passed over if it has no
delimiter in it and none can go on after it. -/
theorem passes_of_no_delimiter {s rest : List Char} (hs : ∀ c ∈ s, c = '$' ∨ IsPlain c)
    (hbody : ∀ tag, IsTag tag → ¬ delimiter tag <:+: s)
    (hrest : ∀ c, rest.head? = some c → c ≠ '$' ∧ isNamePart c = false) : Passes rest s := by
  induction s with
  | nil => exact passes_nil rest
  | cons c r ih =>
    have hr : Passes rest r :=
      ih (fun d hd => hs d (by simp [hd])) fun tag htag hin => hbody tag htag (hin.trans
        (List.suffix_cons c r).isInfix)
    refine Passes.append (s := [c]) ?_ hr
    rcases hs c (by simp) with rfl | hplain
    · refine passes_dollar fun tag htag hopen => hbody tag htag ?_
      have hwithin : delimiter tag <+: '$' :: r :=
        prefix_of_head_not_mem (s := '$' :: r) hopen fun d hd hmem => by
          obtain ⟨hdollar, hpart⟩ := hrest d hd
          rw [htag.isNamePart_of_mem_delimiter hmem hdollar] at hpart
          cases hpart
      exact hwithin.isInfix
    · exact passes_of_plain (by simpa [IsPlainText] using hplain) _

/-- Whether a text begins with a placeholder. -/
def BeginsPlaceholder (s : List Char) : Prop :=
  ∃ d r, isNameStart d = true ∧ s = ':' :: d :: r

/-- No region is opened by a mark with a colon. -/
theorem Region.colon_not_mem_opener {region : Region} (valid : region.Valid) :
    ':' ∉ region.opener := by
  cases region with
  | quoted q => rcases valid with rfl | rfl <;> decide
  | lineComment => decide
  | blockComment => decide
  | dollarQuoted tag =>
    intro hmem
    have htag : ':' ∈ tag := by simpa [Region.opener, delimiter] using hmem
    exact absurd (IsTag.all_isNamePart valid ':' htag) (by decide)

/-- Before a placeholder it does not matter which placeholder follows. -/
theorem BeginsLonger.before_placeholder {c : Char} {s rest other : List Char}
    (h : BeginsLonger (c :: (s ++ rest))) (hrest : BeginsPlaceholder rest)
    (hother : BeginsPlaceholder other) : BeginsLonger (c :: (s ++ other)) := by
  obtain ⟨d, r, hd, rfl⟩ := hrest
  obtain ⟨e, t, he, rfl⟩ := hother
  rcases h with ⟨region, valid, hopen⟩ | hcast | ⟨n, hn, hlive⟩
  · refine .inl ⟨region, valid, ?_⟩
    have hwithin : region.opener <+: c :: s :=
      prefix_of_head_not_mem (s := c :: s) hopen fun a ha => by
        obtain rfl := Option.some.inj ha
        exact Region.colon_not_mem_opener valid
    exact hwithin.trans ⟨':' :: e :: t, rfl⟩
  · cases s with
    | nil =>
      obtain rfl := (List.cons_prefix_cons.1 hcast).1
      exact .inr (.inl ⟨e :: t, rfl⟩)
    | cons a s => exact .inr (.inl (by simpa using hcast))
  · cases s with
    | nil =>
      have hcolon : n = ':' := by simpa using (List.cons_prefix_cons.1 hlive).2
      exact absurd hn (by rw [hcolon]; decide)
    | cons a s => exact .inr (.inr ⟨n, hn, by simpa using hlive⟩)

/-- A lexeme that is no placeholder is read before every placeholder in the same way. -/
theorem Lexeme.Begins.before_placeholder {x : Lexeme} {s rest other : List Char}
    (h : x.Begins (s ++ rest)) (hname : x.name? = none) (hrest : BeginsPlaceholder rest)
    (hother : BeginsPlaceholder other) : x.Begins (s ++ other) := by
  have hlater := hrest
  obtain ⟨d, r, hd, rfl⟩ := hrest
  obtain ⟨e, t, he, rfl⟩ := id hother
  generalize hwhole : s ++ ':' :: d :: r = whole at h
  cases h with
  | @closed region body _ valid closes =>
    refine .closed valid ?_
    cases region with
    | quoted q =>
      refine ⟨closes.1, ?_⟩
      have hhead : (s ++ ':' :: e :: t).head? = (s ++ ':' :: d :: r).head? := by
        cases s <;> rfl
      rw [hhead, hwhole]
      exact closes.2
    | lineComment => exact closes
    | blockComment => exact closes
    | dollarQuoted tag => exact closes
  | unclosed => simp at hwhole
  | cast => exact .cast
  | live => simp [Lexeme.name?] at hname
  | single other =>
    subst hwhole
    exact .single fun hlonger => other (hlonger.before_placeholder hother hlater)

/-- Before a placeholder it does not matter which placeholder follows. -/
theorem Passes.before_placeholder {s rest other : List Char} (h : Passes rest s)
    (hrest : BeginsPlaceholder rest) (hother : BeginsPlaceholder other) : Passes other s := by
  obtain ⟨xs, hxs, hlive⟩ := h
  refine ⟨xs, ?_, hlive⟩
  induction hxs with
  | nil => exact .nil
  | @cons x s xs hx _ ih =>
    rw [liveNames_cons, List.append_eq_nil_iff] at hlive
    have hname : x.name? = none := by simpa using hlive.1
    exact .cons (hx.before_placeholder hname hrest hother) (ih hlive.2)

end TableAccess.Placeholder
