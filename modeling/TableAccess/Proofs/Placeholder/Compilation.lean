import TableAccess.Placeholder.Positional
import TableAccess.Proofs.Placeholder.Passage
import TableAccess.Proofs.Text.Digits
/-!
# Compilation by lexemes

What the positional form of a statement is, given the lexemes of its text: the names of
the live placeholders in the order of their first occurrence, their values, and the text in
which every live placeholder is replaced by the number of its name.

Main results:

- Theorem `place_eq`: how the tokens of a text are numbered.
- Theorem `compile_of_reads`: the positional form of a statement whose text is read as
  lexemes.
- Theorem `compile_lexemes`: when a statement has a positional form, and which one.
-/

namespace TableAccess.Positional

open Placeholder

/-! ## Numbers of names -/

/-- The parameter that stands for a name, given all names in the order of their numbers. -/
def numbered (names : List String) (name : String) : List Char :=
  '$' :: (Nat.repr (names.idxOf name + 1)).toList

/-- A parameter is a dollar sign and a number, counted from one. -/
theorem parameterText_eq (position : Nat) :
    parameterText position = '$' :: (Nat.repr (position + 1)).toList := by
  rw [parameterText, Text.natDigits_eq_toDigits, Nat.toList_repr]

/-- A name keeps its number when names are added. -/
theorem numbered_eq {names all : List String} (h : names <+: all) {name : String}
    (hname : name ∈ names) : numbered all name = parameterText (names.idxOf name) := by
  obtain ⟨more, rfl⟩ := h
  rw [numbered, parameterText_eq, List.idxOf_append, if_pos hname]

end TableAccess.Positional

namespace TableAccess.Placeholder

open Positional

/-- The name of a token that is a placeholder. -/
def Token.name? : Token → Option String
  | .verbatim _ => none
  | .placeholder name => some (String.ofList name)

/-- A token as it is written in positional SQL. -/
def Token.positional (names : List String) : Token → List Char
  | .verbatim text => text
  | .placeholder name => numbered names (String.ofList name)

/-- A lexeme as it is written in positional SQL. -/
def Lexeme.positional (names : List String) : Lexeme → List Char
  | .live name => numbered names (String.ofList name)
  | x => x.text

theorem name?_token (x : Lexeme) : x.token.name? = x.name? := by
  cases x <;> rfl

/-- A lexeme is replaced like its token. -/
theorem positional_token (names : List String) (x : Lexeme) :
    x.token.positional names = x.positional names := by
  cases x <;> rfl

theorem token_of_name? {x : Lexeme} (h : x.name? = none) : x.token = .verbatim x.text := by
  cases x with
  | live name => cases h
  | _ => rfl

/-- Lexemes without a live placeholder are copied. -/
theorem positional_of_liveNames {xs : List Lexeme} (h : liveNames xs = []) (names : List String) :
    xs.flatMap (Lexeme.positional names) = xs.flatMap Lexeme.text := by
  induction xs with
  | nil => rfl
  | cons x xs ih =>
    rw [liveNames_cons, List.append_eq_nil_iff] at h
    have hx := token_of_name? (Option.toList_eq_nil_iff.1 h.1)
    rw [List.flatMap_cons, List.flatMap_cons, ih h.2, ← positional_token, hx]
    rfl

end TableAccess.Placeholder

namespace TableAccess.Positional

open Placeholder

/-! ## Numbering tokens -/

/-- Leaving names out and then one more is leaving all of them out. -/
theorem filter_removeAll (l names : List String) (name : String) :
    (l.removeAll names).filter (fun other => !other == name) =
      l.removeAll (names ++ [name]) := by
  simp only [List.removeAll, List.filter_filter]
  congr 1
  funext other
  by_cases h : other = name <;> simp [h]

/-- The names that have numbers are the earlier ones and the new ones in the order of their
first occurrence. -/
theorem place_names (names : List String) (ts : List Token) :
    (place names ts).2 = names ++ ((ts.filterMap Token.name?).removeAll names).eraseDups := by
  induction ts generalizing names with
  | nil => simp [place, List.removeAll]
  | cons t r ih =>
    cases t with
    | verbatim text =>
      rw [List.filterMap_cons_none (rfl : Token.name? (.verbatim text) = none)]
      exact ih names
    | placeholder name =>
      rw [List.filterMap_cons_some (rfl : Token.name? (.placeholder name) = _),
        List.removeAll, List.filter_cons]
      unfold place
      split
      · rename_i hfound
        have hmem : String.ofList name ∈ names := by
          rw [← List.isSome_idxOf?, hfound]
          rfl
        rw [if_neg (by simpa using hmem)]
        exact ih names
      · rename_i hfound
        have hmem : String.ofList name ∉ names := List.idxOf?_eq_none_iff.1 hfound
        rw [if_pos (by simpa using hmem), List.eraseDups_cons, ← List.removeAll, filter_removeAll]
        simpa using ih (names ++ [String.ofList name])

/-- No name has two numbers. -/
theorem place_nodup {names : List String} (h : names.Nodup) (ts : List Token) :
    (place names ts).2.Nodup := by
  induction ts generalizing names with
  | nil => exact h
  | cons t r ih =>
    cases t with
    | verbatim text => exact ih h
    | placeholder name =>
      unfold place
      split
      · exact ih h
      · rename_i hfound
        have hmem : String.ofList name ∉ names := List.idxOf?_eq_none_iff.1 hfound
        refine ih (List.nodup_append.2 ⟨h, by simp, fun other hother n hn => ?_⟩)
        rintro rfl
        exact hmem (List.mem_singleton.1 hn ▸ hother)

/-- The text of tokens, given all names in the order of their numbers. -/
theorem place_text (names all : List String) (ts : List Token)
    (hall : (place names ts).2 <+: all) :
    (place names ts).1 = ts.flatMap (Token.positional all) := by
  induction ts generalizing names with
  | nil => rfl
  | cons t r ih =>
    rw [List.flatMap_cons]
    cases t with
    | verbatim text =>
      have hr := ih names hall
      unfold place
      simp only [hr]
      rfl
    | placeholder name =>
      unfold place at hall ⊢
      split at hall
      · rename_i position hfound
        have hmem : String.ofList name ∈ names := by
          rw [← List.isSome_idxOf?, hfound]
          rfl
        have hposition : names.idxOf (String.ofList name) = position := by
          rw [List.idxOf_eq_getD_idxOf?, hfound]
          rfl
        simp only
        rw [ih names hall, Token.positional,
          numbered_eq ((place_extends names r).trans hall) hmem, hposition]
      · rename_i hfound
        have hmem : String.ofList name ∉ names := List.idxOf?_eq_none_iff.1 hfound
        have hposition : (names ++ [String.ofList name]).idxOf (String.ofList name) =
            names.length := by
          rw [List.idxOf_append, if_neg hmem]
          simp
        simp only
        rw [ih _ hall, Token.positional,
          numbered_eq ((place_extends _ r).trans hall) (by simp), hposition]

/-- How the tokens of a text are numbered. -/
theorem place_eq (ts : List Token) :
    place [] ts =
      (ts.flatMap (Token.positional (ts.filterMap Token.name?).eraseDups),
        (ts.filterMap Token.name?).eraseDups) := by
  have hnames := place_names [] ts
  have hremove : (ts.filterMap Token.name?).removeAll [] = ts.filterMap Token.name? := by
    simp [List.removeAll]
  rw [List.nil_append, hremove] at hnames
  have htext := place_text [] (ts.filterMap Token.name?).eraseDups ts (by rw [hnames])
  exact Prod.ext htext hnames

/-- Of two lists of tokens the second is numbered with the names of the first. -/
theorem place_append (names : List String) (ts us : List Token) :
    place names (ts ++ us) =
      ((place names ts).1 ++ (place (place names ts).2 us).1, (place (place names ts).2 us).2) := by
  induction ts generalizing names with
  | nil => rfl
  | cons t r ih =>
    cases t with
    | verbatim text => simp only [List.cons_append, place, ih, List.append_assoc]
    | placeholder name =>
      cases hfound : names.idxOf? (String.ofList name) with
      | some position => simp only [List.cons_append, place, hfound, ih, List.append_assoc]
      | none => simp only [List.cons_append, place, hfound, ih, List.append_assoc]

/-- Where no placeholder is, the text is kept, and no name comes to be known. -/
theorem place_of_liveNames {xs : List Lexeme} (h : liveNames xs = []) (names : List String) :
    place names (xs.map Lexeme.token) = (xs.flatMap Lexeme.text, names) := by
  induction xs with
  | nil => rfl
  | cons x xs ih =>
    rw [liveNames_cons, List.append_eq_nil_iff] at h
    rw [List.map_cons, token_of_name? (Option.toList_eq_nil_iff.1 h.1), place, ih h.2]
    rfl

/-- Text that is passed over is copied, and numbering goes on after it. -/
theorem place_of_passes {rest s : List Char} (h : Passes rest s) (names : List String) :
    place names (tokens (s ++ rest)) =
      (s ++ (place names (tokens rest)).1, (place names (tokens rest)).2) := by
  obtain ⟨xs, hxs, hlive⟩ := h
  rw [tokens_of_reads hxs, place_append, place_of_liveNames hlive, hxs.source_eq]

/-! ## Values of names -/

/-- Values are not found exactly if a name has none, and the first such name is given. -/
theorem lookUp_eq_error_iff (binds : Row) (names : List String) (e : AccessError) :
    lookUp binds names = .error e ↔
      ∃ name, names.find? (fun n => (binds.find? n).isNone) = some name ∧ e = unbound name := by
  induction names with
  | nil => simp [lookUp]
  | cons name r ih =>
    cases hfind : binds.find? name with
    | none =>
      rw [lookUp, hfind, List.find?_cons_of_pos (by simp [hfind])]
      constructor
      · intro h
        exact ⟨name, rfl, (Except.error.inj h).symm⟩
      · rintro ⟨_, hname, rfl⟩
        rw [Option.some.inj hname]
    | some value =>
      rw [lookUp, hfind, List.find?_cons_of_neg (by simp [hfind]), ← ih]
      cases lookUp binds r <;> simp [Except.map]

/-- Only the values of the names that are looked up matter. -/
theorem lookUp_congr {binds others : Row} {names : List String}
    (h : ∀ name ∈ names, others.find? name = binds.find? name) :
    lookUp others names = lookUp binds names := by
  induction names with
  | nil => rfl
  | cons name r ih =>
    rw [lookUp, lookUp, h name (by simp), ih fun n hn => h n (by simp [hn])]

/-! ## The positional form -/

/-- The positional form of a statement whose text is read as lexemes. -/
theorem compile_of_reads {s : Statement} {xs : List Lexeme} (h : Reads [] s.sql.toList xs) :
    compile s =
      (lookUp s.binds (liveNames xs).eraseDups).map fun parameters =>
        ⟨String.ofList (xs.flatMap (Lexeme.positional (liveNames xs).eraseDups)), parameters,
          (liveNames xs).eraseDups⟩ := by
  have htokens : tokens s.sql.toList = xs.map Lexeme.token := by
    have := tokens_of_reads h
    rw [List.append_nil] at this
    rw [this, tokens, List.append_nil]
  have hnames : (xs.map Lexeme.token).filterMap Token.name? = liveNames xs := by
    rw [List.filterMap_map]
    exact congrFun (congrArg List.filterMap (funext name?_token)) xs
  have htext (names : List String) : (xs.map Lexeme.token).flatMap (Token.positional names) =
      xs.flatMap (Lexeme.positional names) := by
    rw [List.flatMap_map]
    exact congrArg (xs.flatMap ·) (funext (positional_token names))
  rw [compile, htokens, place_eq, hnames]
  simp only [htext]

section Reading

variable {s : Statement} {xs : List Lexeme} (h : Reads [] s.sql.toList xs)
include h

/-- The error of a statement without a positional form. -/
theorem compile_eq_error_iff (e : AccessError) :
    compile s = .error e ↔
      ∃ name, (liveNames xs).eraseDups.find? (fun n => (s.bound? n).isNone) = some name ∧
        e = unbound name := by
  refine Iff.trans ?_ (lookUp_eq_error_iff s.binds (liveNames xs).eraseDups e)
  rw [compile_of_reads h]
  cases lookUp s.binds (liveNames xs).eraseDups <;> simp [Except.map]

/-- A statement has no positional form exactly if a live placeholder has no value. -/
theorem compile_fails_iff :
    (∃ e, compile s = .error e) ↔ ∃ name ∈ liveNames xs, s.bound? name = none := by
  constructor
  · rintro ⟨e, he⟩
    obtain ⟨name, hfind, -⟩ := (compile_eq_error_iff h e).1 he
    have hnone := List.find?_some hfind
    exact ⟨name, List.mem_eraseDups.1 (List.mem_of_find?_eq_some hfind),
      Option.isNone_iff_eq_none.1 hnone⟩
  · rintro ⟨name, hname, hnone⟩
    have hsome : ((liveNames xs).eraseDups.find? fun n => (s.bound? n).isNone).isSome := by
      rw [List.find?_isSome]
      exact ⟨name, List.mem_eraseDups.2 hname, Option.isNone_iff_eq_none.2 hnone⟩
    obtain ⟨first, hfirst⟩ := Option.isSome_iff_exists.1 hsome
    exact ⟨unbound first, (compile_eq_error_iff h _).2 ⟨first, hfirst, rfl⟩⟩

/-- The positional form of a statement that has one. -/
theorem compile_eq_ok_iff (compiled : Positional) :
    compile s = .ok compiled ↔
      compiled.names = (liveNames xs).eraseDups ∧
        compiled.names.map s.bound? = compiled.parameters.map some ∧
        compiled.sql = String.ofList (xs.flatMap (Lexeme.positional compiled.names)) := by
  rw [compile_of_reads h]
  constructor
  · intro hok
    cases hlook : lookUp s.binds (liveNames xs).eraseDups with
    | error e => simp [hlook, Except.map] at hok
    | ok values =>
      rw [hlook] at hok
      obtain rfl := Except.ok.inj hok
      exact ⟨rfl, (lookUp_eq_ok_iff _ _ _).1 hlook, rfl⟩
  · obtain ⟨sql, parameters, names⟩ := compiled
    rintro ⟨hnames, hvalues, hsql⟩
    simp only at hnames hvalues hsql
    subst hnames
    rw [(lookUp_eq_ok_iff _ _ _).2 hvalues, hsql]
    rfl

/-- Only the values of live placeholders have an influence. -/
theorem compile_congr {other : Statement} (hsql : other.sql = s.sql)
    (hbound : ∀ name ∈ liveNames xs, other.bound? name = s.bound? name) :
    compile other = compile s := by
  have hother : Reads [] other.sql.toList xs := hsql ▸ h
  rw [compile_of_reads hother, compile_of_reads h,
    lookUp_congr fun name hname => hbound name (List.mem_eraseDups.1 hname)]

end Reading

/-- When a statement has a positional form, and which one.  Its text is read as lexemes in one
way, live placeholders apart from text that is copied.  There is a positional form unless a
live placeholder has no value, and the error names the first one without.  Otherwise the
live names are numbered in the order of their first occurrence, each with its value, and
every live placeholder is replaced by the number of its name.  No other bound value has an
influence. -/
theorem compile_lexemes (s : Statement) :
    ∃ xs, Reads [] s.sql.toList xs ∧
      (∀ ys, Reads [] s.sql.toList ys → ys.map Lexeme.token = xs.map Lexeme.token) ∧
      ((∃ e, compile s = .error e) ↔ ∃ name ∈ liveNames xs, s.bound? name = none) ∧
      (∀ e, compile s = .error e ↔
        ∃ name, (liveNames xs).eraseDups.find? (fun n => (s.bound? n).isNone) = some name ∧
          e = .bind ("no value bound for placeholder :" ++ name)) ∧
      (∀ compiled, compile s = .ok compiled ↔
        compiled.names = (liveNames xs).eraseDups ∧
          compiled.names.map s.bound? = compiled.parameters.map some ∧
          compiled.sql = String.ofList (xs.flatMap (Lexeme.positional compiled.names))) ∧
      ∀ other : Statement, other.sql = s.sql →
        (∀ name ∈ liveNames xs, other.bound? name = s.bound? name) →
          compile other = compile s := by
  obtain ⟨xs, hxs⟩ := exists_reads s.sql.toList
  refine ⟨xs, hxs, fun ys hys => ?_, compile_fails_iff hxs, compile_eq_error_iff hxs,
    compile_eq_ok_iff hxs, fun other hsql hbound => compile_congr hxs hsql hbound⟩
  have hx := tokens_of_reads hxs
  rw [tokens_of_reads hys] at hx
  exact List.append_cancel_right hx

end TableAccess.Positional
