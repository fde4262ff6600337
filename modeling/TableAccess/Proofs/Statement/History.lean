import Mathlib.Data.List.Nodup
import TableAccess.Proofs.Placeholder.Compilation
import TableAccess.Statement.Edit
/-!
# Histories of a statement

Texts and values of a statement are pushed and bound in any order.  Whatever the order is, the
text of the statement is what was pushed, a name has the value that was written last, and a name
that was never written has the value that was offered first.  The positional form depends on
nothing else.

Main results:

- Theorem `edit_yields`: what one edit does.
- Theorem `history_yields`: what a history does, whichever statement it starts from.
- Theorem `history_ofSql`: what a statement is after its whole history.
-/

namespace TableAccess.Statement

open Placeholder Positional

/-! ## What a history tells -/

/-- The value that edits wrote last under a name. -/
def lastWritten? (edits : List Edit) (name : String) : Option Value :=
  (edits.filterMap Edit.written?).reverse.lookup name

/-- The value that edits offered first under a name. -/
def firstOffered? (edits : List Edit) (name : String) : Option Value :=
  (edits.filterMap Edit.offered?).lookup name

/-- The texts that edits append, one after the other. -/
def textOf (edits : List Edit) : String :=
  String.join (edits.map Edit.text)

/-- The names for which edits have values, in order. -/
def namesOf (edits : List Edit) : List String :=
  edits.filterMap Edit.name?

/-- Whether edits make the second statement of the first.  Names that are bound for the first
time come after those that were bound before, in the order of the edits. -/
structure Yields (s : Statement) (edits : List Edit) (t : Statement) : Prop where
  sql : t.sql = s.sql ++ textOf edits
  names : t.binds.names = s.binds.names ++ ((namesOf edits).removeAll s.binds.names).eraseDups
  bound : ∀ name, t.bound? name =
    (lastWritten? edits name).or ((s.bound? name).or (firstOffered? edits name))
  distinct : s.binds.names.Nodup → t.binds.names.Nodup

/-- The last value that was written in two parts of a history. -/
theorem lastWritten?_append (a b : List Edit) (name : String) :
    lastWritten? (a ++ b) name = (lastWritten? b name).or (lastWritten? a name) := by
  rw [lastWritten?, List.filterMap_append, List.reverse_append, List.lookup_append]
  rfl

/-- The first value that was offered in two parts of a history. -/
theorem firstOffered?_append (a b : List Edit) (name : String) :
    firstOffered? (a ++ b) name = (firstOffered? a name).or (firstOffered? b name) := by
  rw [firstOffered?, List.filterMap_append, List.lookup_append]
  rfl

theorem namesOf_append (a b : List Edit) : namesOf (a ++ b) = namesOf a ++ namesOf b :=
  List.filterMap_append

theorem textOf_append (a b : List Edit) : textOf (a ++ b) = textOf a ++ textOf b := by
  simp [textOf]

/-- New names are those of the first list and then those that only the second one has. -/
theorem eraseDups_removeAll_append (old a b : List String) :
    ((a ++ b).removeAll old).eraseDups =
      (a.removeAll old).eraseDups ++
        (b.removeAll (old ++ (a.removeAll old).eraseDups)).eraseDups := by
  have hfilter : (b.removeAll old).removeAll (a.removeAll old) =
      b.removeAll (old ++ (a.removeAll old).eraseDups) := by
    simp only [List.removeAll, List.filter_filter]
    congr 1
    funext name
    by_cases hold : name ∈ old
    · simp [hold]
    · simp [hold]
  rw [List.removeAll, List.filter_append, List.eraseDups_append]
  exact congrArg _ (congrArg _ hfilter)

namespace Yields

theorem refl (s : Statement) : s.Yields [] s where
  sql := by simp [textOf]
  names := by simp [namesOf, List.removeAll]
  bound name := by simp [lastWritten?, firstOffered?]
  distinct := id

/-- Edits after edits. -/
theorem append {s t u : Statement} {a b : List Edit} (first : s.Yields a t)
    (second : t.Yields b u) : s.Yields (a ++ b) u where
  sql := by rw [second.sql, first.sql, textOf_append, String.append_assoc]
  names := by
    rw [second.names, first.names, namesOf_append, eraseDups_removeAll_append, List.append_assoc]
  bound name := by
    rw [second.bound, first.bound, lastWritten?_append, firstOffered?_append]
    simp only [Option.or_assoc]
  distinct h := second.distinct (first.distinct h)

end Yields

/-! ## What edits do -/

/-- Text binds nothing. -/
theorem push_yields {s t : Statement} {e : Edit} (names : e.name? = none)
    (written : e.written? = none) (offered : e.offered? = none) (sql : t.sql = s.sql ++ e.text)
    (binds : t.binds = s.binds) : s.Yields [e] t where
  sql := by simpa [textOf] using sql
  names := by simp [namesOf, names, List.removeAll, binds]
  bound name := by
    rw [bound?, binds]
    simp [lastWritten?, firstOffered?, written, offered, bound?]
  distinct h := binds ▸ h

/-- Binding a name adds it to the names unless it is one of them. -/
theorem names_bind (s : Statement) (name : String) (value : Value) :
    (s.bind name value).binds.names =
      s.binds.names ++ ([name].removeAll s.binds.names).eraseDups := by
  rw [binds_bind, Row.names_insert, List.removeAll]
  by_cases hmem : name ∈ s.binds.names
  · simp [hmem]
  · simp [hmem, List.eraseDups_cons]

/-- Binding keeps the names distinct. -/
theorem nodup_names_bind {s : Statement} (h : s.binds.names.Nodup) (name : String)
    (value : Value) : (s.bind name value).binds.names.Nodup := by
  rw [binds_bind, Row.names_insert]
  split
  · exact h
  · rename_i hnew
    exact List.nodup_append.2 ⟨h, List.nodup_singleton name, fun n hn m hm heq =>
      hnew (List.mem_singleton.1 hm ▸ heq ▸ hn)⟩

/-- A name that is looked up among one entry. -/
theorem lookup_singleton (name other : String) (value : Value) :
    [(name, value)].lookup other = if other = name then some value else none := by
  by_cases h : other = name
  · simp [h]
  · rw [List.lookup_cons, beq_false_of_ne h, if_neg h]
    rfl

/-- A name has the value that was bound last, or the one that it had. -/
theorem bound?_bind (s : Statement) (name other : String) (value : Value) :
    (s.bind name value).bound? other =
      ([(name, value)].lookup other).or (s.bound? other) := by
  rw [lookup_singleton]
  by_cases h : other = name
  · rw [if_pos h, h, bound?_bind_self]
    rfl
  · rw [if_neg h, bound?_bind_of_ne _ _ h]
    rfl

/-- A name that is written has the value, whatever it had before. -/
theorem bind_yields {s t : Statement} {e : Edit} {name : String} {value : Value}
    (written : e.written? = some (name, value)) (offered : e.offered? = none)
    (names : e.name? = some name) (sql : t.sql = s.sql ++ e.text)
    (binds : t.binds = (s.bind name value).binds) : s.Yields [e] t where
  sql := by simpa [textOf] using sql
  names := by
    rw [binds, names_bind]
    simp [namesOf, names]
  bound other := by
    have hvalue : t.bound? other = (s.bind name value).bound? other := by
      rw [bound?, binds, bound?]
    have hwritten : lastWritten? [e] other = [(name, value)].lookup other := by
      simp [lastWritten?, written]
    have hoffered : firstOffered? [e] other = none := by simp [firstOffered?, offered]
    rw [hvalue, bound?_bind, hwritten, hoffered, Option.or_none]
  distinct h := binds ▸ nodup_names_bind h name value

/-- A name that is offered a value takes it if it has none. -/
theorem bindIfAbsent_yields (s : Statement) (name : String) (value : Value) :
    ∃ t, (s.bindIfAbsent name value).result = .ok t ∧
      s.Yields [.bindIfAbsent name value] t := by
  have htext : s.sql = s.sql ++ textOf [.bindIfAbsent name value] := by
    simp [textOf, Edit.text]
  have hwritten (other : String) : lastWritten? [.bindIfAbsent name value] other = none := rfl
  have hoffered (other : String) :
      firstOffered? [.bindIfAbsent name value] other = [(name, value)].lookup other := rfl
  unfold bindIfAbsent
  split
  · rename_i hbound
    refine ⟨s, rfl, htext, ?_, fun other => ?_, id⟩
    · have hmem : name ∈ s.binds.names := (s.binds.find?_isSome_iff name).1 hbound
      simp [namesOf, Edit.name?, List.removeAll, hmem]
    · rw [hwritten, hoffered, Option.none_or, lookup_singleton]
      split
      · rename_i hother
        rw [hother, Option.or_of_isSome hbound]
      · rw [Option.or_none]
  · rename_i hunbound
    refine ⟨s.bind name value, rfl, htext, names_bind s name value, fun other => ?_,
      fun h => nodup_names_bind h name value⟩
    rw [hwritten, hoffered, Option.none_or, bound?_bind, lookup_singleton]
    split
    · rename_i hother
      rw [hother, Option.not_isSome_iff_eq_none.1 hunbound]
      rfl
    · rw [Option.none_or, Option.or_none]

/-- What one edit does. -/
theorem edit_yields (s : Statement) (e : Edit) :
    ∃ t, (s.edit e).result = .ok t ∧ s.Yields [e] t := by
  cases e with
  | push text => exact ⟨_, rfl, push_yields rfl rfl rfl rfl rfl⟩
  | bind name value => exact ⟨_, rfl, bind_yields rfl rfl rfl (by simp [Edit.text]) rfl⟩
  | bindIfAbsent name value => exact bindIfAbsent_yields s name value
  | pushPlaceholder name value => exact ⟨_, rfl, bind_yields rfl rfl rfl rfl rfl⟩
  | returning columns =>
    exact ⟨_, rfl, push_yields rfl rfl rfl String.append_assoc rfl⟩

/-- What a history does, whichever statement it starts from. -/
theorem history_yields (s : Statement) (edits : List Edit) :
    ∃ t, (s.history edits).result = .ok t ∧ s.Yields edits t := by
  induction edits generalizing s with
  | nil => exact ⟨s, rfl, .refl s⟩
  | cons e r ih =>
    obtain ⟨t, hfirst, hstep⟩ := edit_yields s e
    obtain ⟨u, hlater, hrun⟩ := ih t
    refine ⟨u, ?_, hstep.append hrun⟩
    rw [history, Noted.result_bind, hfirst]
    exact hlater

/-! ## Whole histories -/

/-- Nothing but the text and the bound values counts for the positional form. -/
theorem compile_eq_of_bound {s t : Statement} (sql : t.sql = s.sql)
    (values : ∀ name, t.bound? name = s.bound? name) : compile t = compile s := by
  obtain ⟨xs, hxs⟩ := exists_reads s.sql.toList
  exact compile_congr hxs sql fun name _ => values name

/-- What a statement is after its whole history.  Its bound names are distinct and stand in the
order in which they were bound first.  A name has the value that was written last, and a name
that was never written has the value that was offered first.  The text is the first text with
all that was pushed, in order.  Another statement with the same text and the same values has the
same positional form, in whichever order its history bound them. -/
theorem history_ofSql (sql : String) (edits : List Edit) :
    ∃ s, ((ofSql sql).history edits).result = .ok s ∧
      s.binds.names.Nodup ∧
      s.binds.names = (namesOf edits).eraseDups ∧
      (∀ name, s.bound? name = (lastWritten? edits name).or (firstOffered? edits name)) ∧
      s.sql = sql ++ textOf edits ∧
      ∀ t : Statement, t.sql = s.sql → (∀ name, t.bound? name = s.bound? name) →
        compile t = compile s := by
  obtain ⟨s, hresult, hsql, hnames, hbound, hdistinct⟩ := history_yields (ofSql sql) edits
  refine ⟨s, hresult, hdistinct List.nodup_nil, ?_, hbound, hsql,
    fun t hsame hvalues => compile_eq_of_bound hsame hvalues⟩
  have hnone : (namesOf edits).removeAll [] = namesOf edits := by simp [List.removeAll]
  exact hnames.trans (congrArg List.eraseDups hnone)

/-- A value that is written counts more than those that are offered before and after it. -/
example :
    ((ofSql "n").history [.bindIfAbsent "a" (.int 1), .pushPlaceholder "b" .null,
      .bind "a" (.int 2), .bindIfAbsent "a" (.int 3)]).result =
      .ok ⟨"n:b", ⟨[("a", .int 2), ("b", .null)]⟩, 0⟩ := by
  rfl

end TableAccess.Statement
