import TableAccess.Proofs.Placeholder.Compilation
/-!
# Pieces of a statement

A statement is built from pieces: text, and slots, each of which is a placeholder that was
pushed together with a value.  Whether the positional form of the statement replaces the
slots and nothing else is decided by the texts between them: in each of them no region may
stay open, which would hide the next slot, and no part may be taken for a placeholder.

Main results:

- Theorem `compilesAsWritten_iff`: the slots of a statement are replaced, and nothing else,
  exactly if they are visible.
- Theorem `sql_write`: the text of a statement that is written in pieces.
-/

namespace TableAccess.Statement

open Placeholder Positional

/-! ## Pieces -/

/-- Where text of a statement comes from. -/
inductive Origin where
  /-- The text is the same in every statement of its form. -/
  | fixed
  /-- The text is the name of a table or column. -/
  | identifier
  /-- The text is a value that is written out. -/
  | literal

/-- A part of a statement that is built. -/
inductive Piece where
  /-- Text. -/
  | text (origin : Origin) (s : String)
  /-- A placeholder with the value that is bound to its name. -/
  | slot (name : String) (value : Value)

namespace Piece

/-- The text of a piece. -/
def source : Piece → List Char
  | text _ s => s.toList
  | slot name _ => ':' :: name.toList

/-- The name of a slot. -/
def name? : Piece → Option String
  | text _ _ => none
  | slot name _ => some name

/-- The name of a table or column. -/
def identifier? : Piece → Option String
  | text .identifier s => some s
  | _ => none

/-- A piece in positional SQL, given all names in the order of their numbers. -/
def positional (names : List String) : Piece → List Char
  | text _ s => s.toList
  | slot name _ => numbered names name

end Piece

/-- Push pieces one by one. -/
def write (s : Statement) : List Piece → Statement
  | [] => s
  | .text _ t :: r => write (s.push t) r
  | .slot name value :: r => write (s.pushPlaceholder name value) r

/-- The text of pieces. -/
def source (ps : List Piece) : List Char :=
  ps.flatMap Piece.source

/-- The names of slots, in order. -/
def slotNames (ps : List Piece) : List String :=
  ps.filterMap Piece.name?

/-- The names of tables and columns, in order. -/
def identifiers (ps : List Piece) : List String :=
  ps.filterMap Piece.identifier?

/-- Whether two statements are equal, the count of made-up names aside. -/
def Agrees (s t : Statement) : Prop :=
  s.sql = t.sql ∧ s.binds = t.binds

/-- Whether a statement is what pushing the pieces gives. -/
def WrittenAs (s : Statement) (ps : List Piece) : Prop :=
  s.Agrees ((ofSql "").write ps)

/-- Whether the positional form of a statement replaces its slots and nothing else: the names
are those of the slots in the order in which they were pushed first, each has the value that
is bound to it, and every slot is replaced by the number of its name. -/
def CompilesAsWritten (s : Statement) (ps : List Piece) : Prop :=
  ∃ compiled, compile s = .ok compiled ∧
    compiled.names = (slotNames ps).eraseDups ∧
    compiled.names.map s.bound? = compiled.parameters.map some ∧
    compiled.sql = String.ofList (ps.flatMap (Piece.positional compiled.names))

/-! ## What pushing pieces gives -/

theorem Agrees.refl (s : Statement) : s.Agrees s :=
  ⟨rfl, rfl⟩

/-- Statements that agree with one another all agree. -/
theorem Agrees.trans {s t u : Statement} (h : s.Agrees t) (h' : t.Agrees u) : s.Agrees u :=
  ⟨h.1.trans h'.1, h.2.trans h'.2⟩

theorem write_append (s : Statement) (ps qs : List Piece) :
    s.write (ps ++ qs) = (s.write ps).write qs := by
  induction ps generalizing s with
  | nil => rfl
  | cons p r ih =>
    cases p with
    | text origin t => exact ih (s.push t)
    | slot name value => exact ih (s.pushPlaceholder name value)

/-- Pieces are pushed after equal statements with equal results. -/
theorem Agrees.write {s t : Statement} (h : s.Agrees t) (ps : List Piece) :
    (s.write ps).Agrees (t.write ps) := by
  induction ps generalizing s t with
  | nil => exact h
  | cons p r ih =>
    obtain ⟨hsql, hbinds⟩ := h
    cases p with
    | text origin u => exact ih ⟨congrArg (· ++ u) hsql, hbinds⟩
    | slot name value =>
      exact ih ⟨congrArg (· ++ (":" ++ name)) hsql, congrArg (·.insert name value) hbinds⟩

/-- Written pieces use up no made-up names. -/
theorem generated_write (s : Statement) (ps : List Piece) :
    (s.write ps).generated = s.generated := by
  induction ps generalizing s with
  | nil => rfl
  | cons p r ih =>
    cases p with
    | text origin t => exact ih (s.push t)
    | slot name value => exact ih (s.pushPlaceholder name value)

/-- Writing pieces appends their text. -/
theorem sql_write (s : Statement) (ps : List Piece) :
    (s.write ps).sql = s.sql ++ String.ofList (source ps) := by
  induction ps generalizing s with
  | nil => simp [write, source]
  | cons p r ih =>
    cases p with
    | text origin t =>
      rw [write, ih, sql_push, String.append_assoc]
      simp [source, Piece.source]
    | slot name value =>
      rw [write, ih, sql_pushPlaceholder, String.append_assoc, String.append_assoc]
      simp [source, Piece.source]

/-- Pieces that are text bind nothing. -/
theorem binds_write_of_slotNames {ps : List Piece} (h : slotNames ps = []) (s : Statement) :
    (s.write ps).binds = s.binds := by
  induction ps generalizing s with
  | nil => rfl
  | cons p r ih =>
    cases p with
    | text origin t =>
      have hr : slotNames r = [] := by simpa [slotNames, Piece.name?] using h
      exact ih hr (s.push t)
    | slot name value => simp [slotNames, Piece.name?] at h

/-- A text without bound values is written in pieces without slots. -/
theorem writtenAs_ofSql {sql : String} {ps : List Piece} (hsql : sql.toList = source ps)
    (h : slotNames ps = []) : (ofSql sql).WrittenAs ps := by
  constructor
  · rw [sql_write, ← hsql]
    simp [ofSql]
  · rw [binds_write_of_slotNames h]
    rfl

/-- What goes on with pieces is written in all of them. -/
theorem WrittenAs.append {s t : Statement} {ps qs : List Piece} (hs : s.WrittenAs ps)
    (ht : t.Agrees (s.write qs)) : t.WrittenAs (ps ++ qs) := by
  unfold WrittenAs
  rw [write_append]
  exact ht.trans (hs.write qs)

/-- Every slot that was written has a value. -/
theorem bound?_write_isSome (s : Statement) (ps : List Piece) {name : String}
    (h : name ∈ slotNames ps ∨ (s.bound? name).isSome = true) :
    ((s.write ps).bound? name).isSome = true := by
  induction ps generalizing s with
  | nil => simpa [slotNames, write] using h
  | cons p r ih =>
    cases p with
    | text origin t =>
      have hpush : (s.push t).bound? name = s.bound? name := rfl
      refine ih (s.push t) ?_
      rw [hpush]
      simpa [slotNames, Piece.name?] using h
    | slot other value =>
      refine ih (s.pushPlaceholder other value) ?_
      by_cases hname : name = other
      · subst hname
        exact .inr (by simp [pushPlaceholder])
      · rcases h with h | h
        · exact .inl (by simpa [slotNames, Piece.name?, hname] using h)
        · refine .inr ?_
          rw [pushPlaceholder, bound?_bind_of_ne _ value hname]
          exact h

/-! ## Visible slots -/

/-- Whether a slot is seen if this text stands before it. -/
def Clear (t : List Char) : Prop :=
  ∀ rest, BeginsPlaceholder rest → Passes rest t

/-- Whether every slot is seen, and nothing else is taken for one, if `before` stands
between the slot before and these pieces. -/
def SlotsVisible (before : List Char) : List Piece → Prop
  | [] => Passes [] before
  | .text _ t :: r => SlotsVisible (before ++ t.toList) r
  | .slot _ _ :: r => Clear before ∧ SlotsVisible [] r

/-- Whether every slot is a placeholder that ends where the next piece begins. -/
def Separated : List Piece → Prop
  | [] => True
  | .text _ _ :: r => Separated r
  | .slot name _ :: r =>
    isName name.toList = true ∧ (∀ c, (source r).head? = some c → isNamePart c = false) ∧
      Separated r

/-- A slot begins a placeholder. -/
theorem beginsPlaceholder_slot {name : List Char} (h : isName name = true) (r : List Char) :
    BeginsPlaceholder (':' :: (name ++ r)) := by
  cases name with
  | nil => cases h
  | cons d t => exact ⟨d, t ++ r, ((isName_cons d t).1 h).1, rfl⟩

/-- Lexemes are all copied, or a live placeholder comes first. -/
theorem liveNames_eq_nil_or_exists_first (xs : List Lexeme) :
    liveNames xs = [] ∨
      ∃ vs name ys, xs = vs ++ .live name :: ys ∧ liveNames vs = [] := by
  induction xs with
  | nil => exact .inl rfl
  | cons x xs ih =>
    cases hname : x.name? with
    | some n =>
      cases x with
      | live name => exact .inr ⟨[], name, xs, rfl, rfl⟩
      | _ => simp [Lexeme.name?] at hname
    | none =>
      rcases ih with hlive | ⟨vs, name, ys, rfl, hlive⟩
      · exact .inl (by rw [liveNames_cons, hname, hlive]; rfl)
      · exact .inr ⟨x :: vs, name, ys, rfl, by rw [liveNames_cons, hname, hlive]; rfl⟩

/-- Where one mark stands in place of another, the texts before the two are equal. -/
theorem eq_of_marks {p q : Char} (hpq : p ≠ q) {a b u v w z : List Char}
    (hp : a ++ p :: u = b ++ p :: v) (hq : a ++ q :: w = b ++ q :: z) : a = b := by
  induction a generalizing b with
  | nil =>
    cases b with
    | nil => rfl
    | cons c b =>
      have hcp : p = c := (List.cons.inj hp).1
      have hcq : q = c := (List.cons.inj hq).1
      exact absurd (hcp.trans hcq.symm) hpq
  | cons d a ih =>
    cases b with
    | nil =>
      have hdp : d = p := (List.cons.inj hp).1
      have hdq : d = q := (List.cons.inj hq).1
      exact absurd (hdp.symm.trans hdq) hpq
    | cons c b =>
      obtain ⟨hdc, hp'⟩ := List.cons.inj hp
      rw [hdc, ih hp' (List.cons.inj hq).2]

/-- Two names are equal if both end at the same place. -/
theorem eq_of_names {a b u v : List Char} (ha : isName a = true) (hb : isName b = true)
    (hu : ∀ c, u.head? = some c → isNamePart c = false)
    (hv : ∀ c, v.head? = some c → isNamePart c = false) (h : a ++ u = b ++ v) :
    a = b ∧ u = v := by
  have hall : ∀ {s : List Char}, isName s = true → ∀ c ∈ s, isNamePart c = true :=
    fun hs => IsTag.all_isNamePart (.inr hs)
  exact eq_of_runs (hall ha) (hall hb) hu hv h

/-! ## Visible slots are replaced -/

/-- Visible slots are the live placeholders. -/
theorem SlotsVisible.exists_reads {before : List Char} {ps : List Piece}
    (h : SlotsVisible before ps) (hsep : Separated ps) :
    ∃ xs, Reads [] (before ++ source ps) xs ∧ liveNames xs = slotNames ps ∧
      ∀ names, xs.flatMap (Lexeme.positional names) =
        before ++ ps.flatMap (Piece.positional names) := by
  induction ps generalizing before with
  | nil =>
    obtain ⟨xs, hxs, hlive⟩ := h
    refine ⟨xs, by simpa [source] using hxs, hlive, fun names => ?_⟩
    rw [positional_of_liveNames hlive, hxs.source_eq]
    simp
  | cons p r ih =>
    cases p with
    | text origin t =>
      obtain ⟨xs, hxs, hlive, hpos⟩ := ih h hsep
      refine ⟨xs, ?_, hlive, fun names => ?_⟩
      · simpa [source, Piece.source] using hxs
      · simpa [Piece.positional] using hpos names
    | slot name value =>
      obtain ⟨hclear, hrest⟩ := h
      obtain ⟨hname, hend, hsep⟩ := hsep
      obtain ⟨ys, hys, hlive, hpos⟩ := ih hrest hsep
      obtain ⟨vs, hvs, hvlive⟩ := hclear _ (beginsPlaceholder_slot hname (source r))
      have hslot : Reads [] (':' :: (name.toList ++ source r)) (.live name.toList :: ys) :=
        .cons (x := .live name.toList) (.live hname (by simpa using hend)) hys
      refine ⟨vs ++ .live name.toList :: ys, ?_, ?_, fun names => ?_⟩
      · rw [show source (.slot name value :: r) = ':' :: (name.toList ++ source r) from rfl]
        exact .append (by simpa using hvs) hslot
      · rw [liveNames_append, hvlive, liveNames_cons, hlive]
        simp [Lexeme.name?, slotNames, Piece.name?]
      · have hpos := hpos names
        rw [List.nil_append] at hpos
        rw [List.flatMap_append, positional_of_liveNames hvlive, hvs.source_eq,
          List.flatMap_cons, hpos]
        simp [Lexeme.positional, Piece.positional]

/-- Slots that are replaced, and nothing else, are visible. -/
theorem SlotsVisible.of_reads {before : List Char} {ps : List Piece} {xs : List Lexeme}
    (hxs : Reads [] (before ++ source ps) xs) (hsep : Separated ps) {names : List String}
    (hpos : xs.flatMap (Lexeme.positional names) =
      before ++ ps.flatMap (Piece.positional names)) : SlotsVisible before ps := by
  induction ps generalizing before xs with
  | nil =>
    have hbefore : before ++ source [] = before := List.append_nil before
    rw [hbefore] at hxs
    rcases liveNames_eq_nil_or_exists_first xs with hlive | ⟨vs, name, ys, rfl, hlive⟩
    · exact ⟨xs, hxs, hlive⟩
    · have htext := hxs.source_eq
      rw [List.flatMap_nil, List.append_nil, ← htext, List.flatMap_append, List.flatMap_append,
        positional_of_liveNames hlive] at hpos
      simp [Lexeme.positional, Lexeme.text, numbered] at hpos
  | cons p r ih =>
    cases p with
    | text origin t =>
      have hread : Reads [] (before ++ t.toList ++ source r) xs := by
        simpa [source, Piece.source] using hxs
      exact ih hread hsep (by simpa [Piece.positional] using hpos)
    | slot name value =>
      obtain ⟨hname, hend, hsep⟩ := hsep
      have htext := hxs.source_eq
      rcases liveNames_eq_nil_or_exists_first xs with hlive | ⟨vs, other, ys, rfl, hlive⟩
      · rw [positional_of_liveNames hlive, htext] at hpos
        simp [source, Piece.source, Piece.positional, numbered] at hpos
      · obtain ⟨a, b, hab, ha, hb⟩ := hxs.split
        cases hb with
        | @cons _ t _ hlive' ht =>
          obtain ⟨hother, hmaximal⟩ : isName other = true ∧
              ∀ c, t.head? = some c → isNamePart c = false := by
            cases hlive' with
            | live isName maximal => exact ⟨isName, by simpa using maximal⟩
          rw [List.flatMap_append, positional_of_liveNames hlive, ha.source_eq] at hpos
          -- the first live placeholder stands where the first slot does
          obtain rfl : before = a := eq_of_marks (p := ':') (q := '$') (by decide) hab hpos.symm
          have hrest : name.toList ++ source r = other ++ t := by
            simpa [source, Piece.source, Lexeme.text] using List.append_cancel_left hab
          obtain ⟨rfl, rfl⟩ := eq_of_names hname hother hend hmaximal hrest
          have hread : Reads [] ([] ++ source r) ys := ht
          refine ⟨fun rest hstart => ?_, ih hread hsep ?_⟩
          · have hpass : Passes (':' :: (name.toList ++ source r)) before :=
              ⟨vs, by simpa [Lexeme.text] using ha, hlive⟩
            exact hpass.before_placeholder (beginsPlaceholder_slot hname _) hstart
          · have hpos := List.append_cancel_left hpos
            simpa [Lexeme.positional, Piece.positional] using hpos

/-- The slots of a statement are replaced, and nothing else, exactly if they are visible. -/
theorem compilesAsWritten_iff {s : Statement} {ps : List Piece} (hs : s.WrittenAs ps)
    (hsep : Separated ps) : CompilesAsWritten s ps ↔ SlotsVisible [] ps := by
  have hsql : s.sql.toList = source ps := by
    rw [hs.1, sql_write]
    simp [ofSql]
  constructor
  · rintro ⟨compiled, hok, -, -, htext⟩
    obtain ⟨xs, hxs⟩ := exists_reads s.sql.toList
    obtain ⟨-, -, hcompiled⟩ := (compile_eq_ok_iff hxs compiled).1 hok
    have hread : Reads [] ([] ++ source ps) xs := by rwa [List.nil_append, ← hsql]
    exact .of_reads hread hsep (String.ofList_injective (hcompiled.symm.trans htext))
  · intro hvisible
    obtain ⟨xs, hxs, hlive, hpos⟩ := hvisible.exists_reads hsep
    rw [List.nil_append, ← hsql] at hxs
    have hbound : ∀ name ∈ liveNames xs, (s.bound? name).isSome = true := by
      intro name hname
      have := bound?_write_isSome (ofSql "") ps (.inl (hlive ▸ hname))
      rwa [bound?, ← hs.2] at this
    cases hresult : compile s with
    | error e =>
      obtain ⟨name, hname, hnone⟩ := (compile_fails_iff hxs).1 ⟨e, hresult⟩
      have hsome := hbound name hname
      rw [hnone] at hsome
      cases hsome
    | ok compiled =>
      obtain ⟨hnames, hvalues, htext⟩ := (compile_eq_ok_iff hxs compiled).1 hresult
      refine ⟨compiled, hresult, by rw [hnames, hlive], hvalues, ?_⟩
      rw [htext, hpos]
      rfl

end TableAccess.Statement
