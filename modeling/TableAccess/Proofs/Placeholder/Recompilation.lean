import TableAccess.Proofs.Placeholder.Parameter
/-!
# Compiling positional SQL again

A placeholder is replaced by a dollar sign and a number.  The new dollar sign is passed over by a
second scan, unless the text before it ends in a dollar sign, or in a dollar sign and a tag, that
opened nothing as long as the placeholder stood there: then the two dollar signs open a
dollar-quoted body.  Where this does not happen the second scan finds the regions of the first
one and no placeholder.

Main results:

- Theorem `reads_positional_iff`: when positional SQL is read like the SQL that it was made from.
- Theorem `compile_of_no_live`: SQL without placeholders is its own positional form.
- Theorem `compile_again`: what becomes of a positional statement that is compiled again.
-/

namespace TableAccess.Placeholder

open Text Positional

/-! ## Parameters in place of placeholders -/

/-- The lexemes in place of a lexeme in positional SQL: a parameter is a dollar sign and digits. -/
def Lexeme.placed (names : List String) : Lexeme → List Lexeme
  | live name => (numbered names (String.ofList name)).map single
  | x => [x]

/-- Whether lexemes begin with a tag, which may be empty, and a placeholder right after it. -/
def TagThenLive (xs : List Lexeme) : Prop :=
  ∃ tag name zs, IsTag tag ∧ xs = tag.map .single ++ .live name :: zs

/-- Whether a dollar sign that opens nothing has a placeholder right after it, or a tag and a
placeholder. -/
def DollarBeforeLive (xs : List Lexeme) : Prop :=
  ∃ ys zs, xs = ys ++ .single '$' :: zs ∧ TagThenLive zs

theorem not_tagThenLive_nil : ¬ TagThenLive [] := by
  rintro ⟨tag, name, zs, -, h⟩
  simp at h

theorem not_dollarBeforeLive_nil : ¬ DollarBeforeLive [] := by
  rintro ⟨ys, zs, h, -⟩
  simp at h

/-- A dollar sign before a placeholder is the first lexeme or among the others. -/
theorem dollarBeforeLive_cons (x : Lexeme) (xs : List Lexeme) :
    DollarBeforeLive (x :: xs) ↔ (x = .single '$' ∧ TagThenLive xs) ∨ DollarBeforeLive xs := by
  constructor
  · rintro ⟨ys, zs, h, htag⟩
    rcases List.cons_eq_append_iff.1 h with ⟨rfl, hx⟩ | ⟨ys, rfl, hxs⟩
    · obtain ⟨rfl, rfl⟩ := List.cons.inj hx
      exact .inl ⟨rfl, htag⟩
    · exact .inr ⟨ys, zs, hxs, htag⟩
  · rintro (⟨rfl, htag⟩ | ⟨ys, zs, rfl, htag⟩)
    · exact ⟨[], xs, rfl, htag⟩
    · exact ⟨x :: ys, zs, rfl, htag⟩

/-- A lexeme is a placeholder or has no name. -/
theorem Lexeme.name?_cases (x : Lexeme) : x.name? = none ∨ ∃ name, x = .live name := by
  cases x with
  | live name => exact .inr ⟨name, rfl⟩
  | _ => exact .inl rfl

/-- Characters other than dollar signs do not matter. -/
theorem dollarBeforeLive_singles {s : List Char} (h : '$' ∉ s) (xs : List Lexeme) :
    DollarBeforeLive (s.map .single ++ xs) ↔ DollarBeforeLive xs := by
  induction s with
  | nil => rfl
  | cons c s ih =>
    obtain ⟨hc, hs⟩ := not_or.1 (List.mem_cons.not.1 h)
    rw [List.map_cons, List.cons_append, dollarBeforeLive_cons, ih hs]
    simp [Ne.symm hc]

/-- A tag begins with a character of a name. -/
theorem TagThenLive.isNamePart {c : Char} {xs : List Lexeme}
    (h : TagThenLive (.single c :: xs)) : isNamePart c = true := by
  obtain ⟨tag, name, zs, htag, hxs⟩ := h
  cases tag with
  | nil => cases hxs
  | cons d tag =>
    obtain ⟨rfl⟩ := Lexeme.single.inj (List.cons.inj hxs).1
    exact htag.all_isNamePart c List.mem_cons_self

section Placed

variable (names : List String)

/-- A numbered parameter is a dollar sign and digits. -/
theorem numbered_eq_natDigits (name : String) :
    numbered names name = '$' :: natDigits (names.idxOf name + 1) := by
  rw [numbered, ← parameterText_eq, parameterText]

theorem positional_of_name? {x : Lexeme} (h : x.name? = none) : x.positional names = x.text := by
  rw [← positional_token, token_of_name? h]
  rfl

theorem placed_of_name? {x : Lexeme} (h : x.name? = none) : x.placed names = [x] := by
  unfold Lexeme.placed
  split
  · cases h
  · rfl

theorem flatMap_placed_single (s : List Char) :
    (s.map Lexeme.single).flatMap (Lexeme.placed names) = s.map .single := by
  induction s with
  | nil => rfl
  | cons c s ih =>
    rw [List.map_cons, List.flatMap_cons, ih]
    rfl

theorem flatMap_text_single (s : List Char) :
    (s.map Lexeme.single).flatMap Lexeme.text = s := by
  induction s with
  | nil => rfl
  | cons c s ih =>
    rw [List.map_cons, List.flatMap_cons, ih]
    rfl

/-- No placeholder is left. -/
theorem liveNames_placed (xs : List Lexeme) :
    liveNames (xs.flatMap (Lexeme.placed names)) = [] := by
  induction xs with
  | nil => rfl
  | cons x xs ih =>
    rw [List.flatMap_cons, liveNames_append, ih, List.append_nil]
    rcases x.name?_cases with hname | ⟨name, rfl⟩
    · rw [placed_of_name? names hname, liveNames_cons, hname]
      rfl
    · exact liveNames_map_single _

/-! ## The front of positional SQL -/

section Front

variable {s : List Char} {x : Lexeme} {xs : List Lexeme}

/-- A lexeme that does not begin like a longer one is a single character. -/
theorem Lexeme.Begins.eq_single {rest t : List Char} {c : Char} (h : x.Begins rest)
    (text : x.text = c :: t) (plain : IsPlain c) : x = .single c ∧ t = [] := by
  have hfront : ¬ BeginsLonger (x.text ++ rest) := by
    rw [text]
    exact fun hlonger => hlonger.not_isPlain plain
  cases h with
  | @closed region body rest valid closes =>
    refine absurd (.inl ⟨region, valid, ?_⟩) hfront
    simp [Lexeme.text]
  | @unclosed region body valid stays =>
    refine absurd (.inl ⟨region, valid, ?_⟩) hfront
    simp [Lexeme.text]
  | cast => exact absurd (.inr (.inl ⟨rest, rfl⟩)) hfront
  | @live name rest hname maximal =>
    cases name with
    | nil => cases hname
    | cons d ds =>
      exact absurd (.inr (.inr ⟨d, ((isName_cons d ds).1 hname).1, ds ++ rest, rfl⟩)) hfront
  | single other =>
    obtain ⟨rfl, rfl⟩ := List.cons.inj text
    exact ⟨rfl, rfl⟩

/-- Positional SQL begins like the SQL that it was made from, or with a new dollar sign. -/
theorem head?_positional (h : Reads [] s xs) {c : Char} (hdollar : c ≠ '$')
    (hc : (xs.flatMap (Lexeme.positional names)).head? = some c) : s.head? = some c := by
  cases h with
  | nil => cases hc
  | @cons x s xs first others =>
    rw [List.flatMap_cons] at hc
    rcases x.name?_cases with hname | ⟨name, rfl⟩
    · rw [positional_of_name? names hname] at hc
      rwa [List.head?_append_of_ne_nil _ first.text_ne_nil] at hc ⊢
    · exact absurd (Option.some.inj hc).symm hdollar

/-- Where positional SQL goes on with a tag and a dollar sign, so does the SQL that it was made
from, unless the dollar sign is a new one. -/
theorem prefix_or_tagThenLive {tag : List Char} (hparts : ∀ c ∈ tag, isNamePart c = true)
    (h : Reads [] s xs) (hfront : tag ++ ['$'] <+: xs.flatMap (Lexeme.positional names)) :
    tag ++ ['$'] <+: s ∨ ∃ name zs, xs = tag.map .single ++ .live name :: zs := by
  induction tag generalizing s xs with
  | nil =>
    cases h with
    | nil => simp at hfront
    | @cons x s xs first others =>
      rw [List.flatMap_cons] at hfront
      rcases x.name?_cases with hname | ⟨name, rfl⟩
      · rw [positional_of_name? names hname] at hfront
        obtain ⟨c, t, htext⟩ := List.exists_cons_of_ne_nil first.text_ne_nil
        rw [htext] at hfront ⊢
        exact .inl (List.cons_prefix_cons.2 ⟨(List.cons_prefix_cons.1 hfront).1, List.nil_prefix⟩)
      · exact .inr ⟨name, xs, rfl⟩
  | cons c tag ih =>
    have hc := hparts c List.mem_cons_self
    cases h with
    | nil => simp at hfront
    | @cons x s xs first others =>
      rw [List.flatMap_cons] at hfront
      rcases x.name?_cases with hname | ⟨name, rfl⟩
      · rw [positional_of_name? names hname] at hfront
        obtain ⟨d, t, htext⟩ := List.exists_cons_of_ne_nil first.text_ne_nil
        rw [htext] at hfront
        obtain ⟨rfl, hrest⟩ := List.cons_prefix_cons.1 hfront
        obtain ⟨rfl, rfl⟩ := first.eq_single htext (isPlain_of_isNamePart hc)
        rcases ih (fun d hd => hparts d (List.mem_cons_of_mem _ hd)) others hrest with
          hopen | ⟨name, zs, rfl⟩
        · exact .inl (List.cons_prefix_cons.2 ⟨rfl, hopen⟩)
        · exact .inr ⟨name, zs, rfl⟩
      · obtain rfl := (List.cons_prefix_cons.1 hfront).1
        exact absurd hc (by decide)

/-! ## The lexemes of positional SQL -/

theorem Reads.eq_nil (h : Reads [] [] xs) : xs = [] := by
  cases xs with
  | nil => rfl
  | cons x xs =>
    generalize hs : ([] : List Char) = s at h
    cases h with
    | cons first others =>
      exact absurd (List.append_eq_nil_iff.1 hs.symm).1 first.text_ne_nil

/-- A lexeme that is no placeholder is read in the same way if parameters are put in the place of
placeholders after it, unless it is a dollar sign that opens a dollar-quoted body then. -/
theorem Lexeme.Begins.before_positional (first : x.Begins s) (others : Reads [] s xs)
    (hname : x.name? = none) (apart : x = .single '$' → ¬ TagThenLive xs) :
    x.Begins (xs.flatMap (Lexeme.positional names)) := by
  cases first with
  | @closed region body s valid closes =>
    refine .closed valid ?_
    cases region with
    | quoted q =>
      have hdollar : q ≠ '$' := by rcases valid with rfl | rfl <;> decide
      exact ⟨closes.1, fun hhead => closes.2 (head?_positional names others hdollar hhead)⟩
    | lineComment => exact closes
    | blockComment => exact closes
    | dollarQuoted tag => exact closes
  | unclosed valid stays =>
    rw [others.eq_nil]
    exact .unclosed valid stays
  | cast => exact .cast
  | live => cases hname
  | @single c s other =>
    refine .single fun hlonger => other (beginsLonger_iff.2 ?_)
    have hsame : ∀ {d : Char}, d ≠ '$' →
        (xs.flatMap (Lexeme.positional names)).head? = some d → s.head? = some d :=
      head?_positional names others
    rcases beginsLonger_iff.1 hlonger with hquote | ⟨hc, hd⟩ | ⟨hc, hd⟩ |
      ⟨rfl, tag, htag, hopen⟩ | ⟨hc, d, hd, hnext⟩
    · exact .inl hquote
    · exact .inr (.inl ⟨hc, hsame (by decide) hd⟩)
    · exact .inr (.inr (.inl ⟨hc, hsame (by decide) hd⟩))
    · -- the tag and the dollar sign after it were there before, or the dollar sign is new
      have hrest := (List.cons_prefix_cons.1 hopen).2
      rcases prefix_or_tagThenLive names htag.all_isNamePart others hrest with
        hold | ⟨name, zs, hlive⟩
      · exact .inr (.inr (.inr (.inl ⟨rfl, tag, htag, List.cons_prefix_cons.2 ⟨rfl, hold⟩⟩)))
      · exact absurd ⟨tag, name, zs, htag, hlive⟩ (apart rfl)
    · have hdollar : d ≠ '$' := by
        rintro rfl
        rcases hnext with hcolon | hstart
        · cases hcolon
        · exact absurd hstart (by decide)
      exact .inr (.inr (.inr (.inr ⟨hc, d, hsame hdollar hd, hnext⟩)))

end Front

/-- A parameter is read as single characters, whatever follows it. -/
theorem reads_numbered (name : String) (rest : List Char) :
    Reads rest (numbered names name) ((numbered names name).map .single) := by
  rw [numbered_eq_natDigits]
  exact reads_parameter (natDigits_ne_nil _) (fun c hc => isDigit_of_mem_natDigits hc) rest

/-- A new dollar sign closes the delimiter that a dollar sign before a placeholder began. -/
theorem Reads.not_dollarBeforeLive {t : List Char} {xs : List Lexeme}
    (h : Reads [] t (xs.flatMap (Lexeme.placed names))) : ¬ DollarBeforeLive xs := by
  rintro ⟨ys, zs, rfl, tag, name, us, htag, rfl⟩
  rw [List.flatMap_append, List.flatMap_cons, placed_of_name? names rfl, List.singleton_append,
    List.flatMap_append, flatMap_placed_single] at h
  obtain ⟨a, b, -, -, hb⟩ := h.split
  cases hb with
  | @cons _ b _ first others =>
    have hopen : tag ++ ['$'] <+: b := by
      rw [← others.source_eq, List.flatMap_append, flatMap_text_single, List.flatMap_cons,
        List.flatMap_append]
      exact (List.prefix_append_right_inj tag).2 (List.cons_prefix_cons.2 ⟨rfl, List.nil_prefix⟩)
    cases first with
    | single other =>
      rw [List.append_nil] at other
      exact other (beginsLonger_dollar_iff.2 ⟨tag, htag, List.cons_prefix_cons.2 ⟨rfl, hopen⟩⟩)

/-- Positional SQL is read like the SQL that it was made from, parameters standing in the place of
placeholders, exactly if no dollar sign stands before a placeholder. -/
theorem reads_positional_iff {s : List Char} {xs : List Lexeme} (h : Reads [] s xs) :
    Reads [] (xs.flatMap (Lexeme.positional names)) (xs.flatMap (Lexeme.placed names)) ↔
      ¬ DollarBeforeLive xs := by
  constructor
  · exact Reads.not_dollarBeforeLive names
  · intro apart
    induction h with
    | nil => exact .nil
    | @cons x s xs first others ih =>
      rw [dollarBeforeLive_cons, not_or] at apart
      have hothers := ih apart.2
      rw [List.append_nil] at first
      rw [List.flatMap_cons, List.flatMap_cons]
      rcases x.name?_cases with hname | ⟨name, rfl⟩
      · rw [positional_of_name? names hname, placed_of_name? names hname]
        refine .cons ?_ hothers
        rw [List.append_nil]
        exact first.before_positional names others hname fun hx htag => apart.1 ⟨hx, htag⟩
      · exact .append (reads_numbered names _ _) hothers

end Placed

end TableAccess.Placeholder

namespace TableAccess.Positional

open Placeholder

/-- SQL without placeholders is its own positional form, and nothing is bound to it. -/
theorem compile_of_no_live {sql : String} {xs : List Lexeme} (reads : Reads [] sql.toList xs)
    (h : liveNames xs = []) : compile (.ofSql sql) = .ok ⟨sql, [], []⟩ := by
  have hsql : (Statement.ofSql sql).sql = sql := rfl
  rw [compile_of_reads (hsql ▸ reads), h]
  simp only [List.eraseDups_nil, lookUp, Except.map, positional_of_liveNames h, reads.source_eq,
    String.ofList_toList]

/-- Nothing but the SQL itself can come of SQL to which nothing is bound. -/
theorem eq_of_compile_ofSql {sql : String} {compiled : Positional}
    (h : compile (.ofSql sql) = .ok compiled) : compiled = ⟨sql, [], []⟩ := by
  obtain ⟨xs, hxs⟩ := exists_reads sql.toList
  have hlive : liveNames xs = [] := by
    rw [List.eq_nil_iff_forall_not_mem]
    intro name hname
    obtain ⟨e, he⟩ := (compile_fails_iff (s := .ofSql sql) hxs).2 ⟨name, hname, rfl⟩
    rw [h] at he
    cases he
  exact Except.ok.inj (h.symm.trans (compile_of_no_live hxs hlive))

/-- What becomes of a positional statement that is compiled again.  Its SQL has the regions of the
SQL that it was made from, and parameters in the place of placeholders, exactly if no dollar sign
that opens nothing stands before a placeholder, be it right before it or with a tag between the
two.  If so, compiling it without bound values succeeds and changes nothing.  In any case nothing
else than the SQL itself can come of it, without parameters. -/
theorem compile_again {s : Statement} {compiled : Positional} {xs : List Lexeme}
    (accepted : compile s = .ok compiled) (reads : Reads [] s.sql.toList xs) :
    (Reads [] compiled.sql.toList (xs.flatMap (Lexeme.placed compiled.names)) ↔
      ¬ DollarBeforeLive xs) ∧
    (¬ DollarBeforeLive xs → compile (.ofSql compiled.sql) = .ok ⟨compiled.sql, [], []⟩) ∧
    ∀ again, compile (.ofSql compiled.sql) = .ok again → again = ⟨compiled.sql, [], []⟩ := by
  obtain ⟨-, -, hsql⟩ := (compile_eq_ok_iff reads compiled).1 accepted
  have hiff := reads_positional_iff compiled.names reads
  rw [← String.toList_ofList (l := xs.flatMap _), ← hsql] at hiff
  exact ⟨hiff, fun apart => compile_of_no_live (hiff.2 apart) (liveNames_placed _ xs),
    fun _ => eq_of_compile_ofSql⟩

/-- A dollar sign in a word, and one right after a placeholder. -/
theorem compile_again_beside_dollars :
    let s : Statement := ⟨"SELECT a$ = :b, :b$", ⟨[("b", .int 7)]⟩, 0⟩
    let compiled : Positional := ⟨"SELECT a$ = $1, $1$", [.int 7], ["b"]⟩
    let xs := "SELECT a".toList.map Lexeme.single ++ Lexeme.single '$' ::
      (" = ".toList.map Lexeme.single ++ Lexeme.live ['b'] ::
        (", ".toList.map Lexeme.single ++ [Lexeme.live ['b'], Lexeme.single '$']))
    compile s = .ok compiled ∧ Reads [] s.sql.toList xs ∧ ¬ DollarBeforeLive xs ∧
      compile (.ofSql compiled.sql) = .ok ⟨compiled.sql, [], []⟩ := by
  intro s compiled xs
  have hcompiled : compile s = .ok compiled := by cbv
  have hlive (rest : List Char) (hrest : ∀ c, rest.head? = some c → isNamePart c = false) :
      (Lexeme.live ['b']).Begins rest := .live (by decide) hrest
  have hdollar (rest : List Char) (hrest : ∀ c, rest.head? = some c → c ≠ '$' ∧
      isNameStart c = false) : (Lexeme.single '$').Begins rest :=
    .single (not_beginsLonger_dollar hrest)
  have hreads : Reads [] s.sql.toList xs := by
    have htext : s.sql.toList = "SELECT a".toList ++ ((Lexeme.single '$').text ++
        (" = ".toList ++ ((Lexeme.live ['b']).text ++ (", ".toList ++
          ((Lexeme.live ['b']).text ++ ((Lexeme.single '$').text ++ [])))))) := by decide
    rw [htext]
    refine .append (reads_of_plain (by decide) _) (.cons (hdollar _ ?_) ?_)
    · exact fun c hc => by cases hc; decide
    refine .append (reads_of_plain (by decide) _) (.cons (hlive _ ?_) ?_)
    · exact fun c hc => by cases hc; decide
    refine .append (reads_of_plain (by decide) _) (.cons (hlive _ ?_) (.cons (hdollar _ ?_) .nil))
    · exact fun c hc => by cases hc; decide
    · exact fun c hc => by cases hc
  have hapart : ¬ DollarBeforeLive xs := by
    have hspace : ∀ us : List Lexeme, ¬ TagThenLive (.single ' ' :: us) :=
      fun us htag => absurd htag.isNamePart (by decide)
    rw [dollarBeforeLive_singles (by decide), dollarBeforeLive_cons,
      dollarBeforeLive_singles (by decide), dollarBeforeLive_cons,
      dollarBeforeLive_singles (by decide), dollarBeforeLive_cons, dollarBeforeLive_cons]
    rintro (⟨-, htag⟩ | ⟨hx, -⟩ | ⟨hx, -⟩ | ⟨-, htag⟩ | h)
    · exact hspace _ htag
    · cases hx
    · cases hx
    · exact not_tagThenLive_nil htag
    · exact not_dollarBeforeLive_nil h
  exact ⟨hcompiled, hreads, hapart, (compile_again hcompiled hreads).2.1 hapart⟩

/-- A placeholder right after a dollar sign: the new dollar sign opens a dollar-quoted body, which
ends inside of what was a string constant, and a placeholder comes to light there. -/
theorem compile_again_reopened :
    let s : Statement := ⟨"SELECT $:x, ' $$ :y '", ⟨[("x", .int 1)]⟩, 0⟩
    let compiled : Positional := ⟨"SELECT $$1, ' $$ :y '", [.int 1], ["x"]⟩
    compile s = .ok compiled ∧ compile (.ofSql compiled.sql) = .error (unbound "y") := by
  intro s compiled
  have hcompiled : compile s = .ok compiled := by cbv
  have hagain : compile (.ofSql compiled.sql) = .error (unbound "y") := by cbv
  exact ⟨hcompiled, hagain⟩

end TableAccess.Positional
