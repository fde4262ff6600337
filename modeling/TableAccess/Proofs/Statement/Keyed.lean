import TableAccess.Proofs.Identifier.Front
import TableAccess.Proofs.Statement.History
import TableAccess.Proofs.Statement.Insertion
import TableAccess.Proofs.Text.Blank
/-!
# Statements on one record

A filter for one exact value of a key column is a SQL fragment that names the value.  It is
written as it is, whatever the value looks like and whatever the style of operands is.  In a
selection nothing else is bound.  In an update the columns are bound before, so a column with
the reserved name keeps its value and takes the place of the key.

Main results:

- Theorem `pushWhere_ofKey`: what a filter for one exact value writes and binds.
- Theorem `select_ofKey`: the selection of the records with a key.
- Theorem `update_ofKey`: the update of the records with a key.
-/

namespace TableAccess

namespace Identifier

open Text

theorem toNat_of_isStart {c : Char} (h : isStart c = true) : 65 ≤ c.toNat ∧ c.toNat ≤ 122 := by
  simp only [isStart, Char.isAlpha, Char.isUpper, Char.isLower, Bool.or_eq_true,
    Bool.and_eq_true, beq_iff_eq, decide_eq_true_eq, ge_iff_le, UInt32.le_iff_toNat_le] at h
  rcases h with rfl | ⟨hlow, hhigh⟩ | ⟨hlow, hhigh⟩
  · decide
  · exact ⟨hlow, Nat.le_trans hhigh (by decide)⟩
  · exact ⟨Nat.le_trans (by decide) hlow, hhigh⟩

/-- What a segment begins with is no blank. -/
theorem isBlank_of_isStart {c : Char} (h : isStart c = true) : isBlank c = false := by
  obtain ⟨hlow, hhigh⟩ := toNat_of_isStart h
  have hranges : ∀ r ∈ blankRanges, r.2 < 65 ∨ 122 < r.1 := by decide
  rw [← Bool.not_eq_true, isBlank_iff]
  rintro ⟨r, hr, hfrom, hto⟩
  have := hranges r hr
  omega

/-- A name that passes its check does not begin with a blank. -/
theorem exists_nonblank_head {role : Role} {name result : String}
    (h : check role name = .ok result) :
    ∃ c s, name.toList = c :: s ∧ isBlank c = false := by
  obtain ⟨c, s, hname, hc⟩ := exists_head_of_check h
  refine ⟨c, s, hname, ?_⟩
  rcases hc with hc | rfl
  · exact isBlank_of_isStart hc
  · decide

end Identifier

/-! ## Filters for one exact value -/

theorem Noted.bind_pure_eq {α : Type} (x : Noted α) : x >>= Pure.pure = x := by
  obtain ⟨result, notices⟩ := x
  cases result with
  | ok a =>
    change (⟨.ok a, notices ++ []⟩ : Noted α) = _
    rw [List.append_nil]
  | error e => rfl

/-- The only fragment of a filter for one exact value counts, and it is kept as it is. -/
theorem Filter.liveFragments_ofKey {key result : String}
    (checked : Identifier.checkColumn key = .ok result) (value : Value) :
    (Filter.ofKey key value).liveFragments = [key ++ " = :__key"] := by
  obtain ⟨c, s, hkey, hc⟩ := Identifier.exists_nonblank_head checked
  have hbegins : (key ++ " = :__key").toList = c :: (s ++ " = :__key".toList) := by
    rw [String.toList_append, hkey]
    rfl
  have hends : (key ++ " = :__key").toList = (key.toList ++ " = :__ke".toList) ++ ['y'] := by
    rw [String.toList_append, List.append_assoc]
    rfl
  have htrim : Text.trim (key ++ " = :__key") = key ++ " = :__key" :=
    Text.trim_eq_self hbegins hends hc (by decide)
  have hfragments : (Filter.ofKey key value).fragments = [key ++ " = :__key"] := by
    rw [ofKey, String.append_assoc]
    rfl
  rw [liveFragments, hfragments, List.map_singleton, htrim]
  simp

namespace Statement

/-- The reserved name has no sign and no colon. -/
theorem bindEntries_key (value : Value) (s : Statement) :
    bindEntries [("__key", value)] s = s.bindIfAbsent "__key" value := by
  have hbare : bareName "__key" = "__key" := by decide
  have hunsigned : (Operator.ofSigned? "__key").isSome = false := by decide
  rw [bindEntries, hbare]
  simp only [hunsigned, Bool.false_eq_true, if_false]
  exact Noted.bind_pure_eq _

/-- What a filter for one exact value writes and binds. -/
theorem pushWhere_ofKey {key result : String}
    (checked : Identifier.checkColumn key = .ok result) (value : Value) (style : OperandStyle)
    (s : Statement) :
    pushWhere style (.ofKey key value) s =
      (s.push (" WHERE " ++ key ++ " = :__key")).bindIfAbsent "__key" value := by
  have hlive := Filter.liveFragments_ofKey checked value
  have hfragments : (Filter.ofKey key value).hasFragments = true := by
    rw [Filter.hasFragments, hlive]
    rfl
  have hempty : (Filter.ofKey key value).isEmpty = false := by
    rw [Filter.isEmpty, hfragments]
    rfl
  have hpush : (s.push " WHERE ").push (key ++ " = :__key") =
      s.push (" WHERE " ++ key ++ " = :__key") := by
    simp [push, String.append_assoc]
  unfold pushWhere
  simp only [hempty, hfragments, hlive, Bool.false_eq_true, if_true, if_false]
  rw [pushFragments, List.foldl_nil, hpush]
  exact bindEntries_key value _

/-! ## Selections by a key -/

/-- The statement that selects the records with a key. -/
def selectByKey (table key : String) (value : Value) : Statement :=
  ⟨"SELECT * FROM " ++ table ++ " WHERE " ++ key ++ " = :__key", ⟨[("__key", value)]⟩, 0⟩

/-- The selection of the records with a key.  It gives no notices. -/
theorem select_ofKey {table key : String} (tableChecked : Identifier.checkTable table = .ok table)
    (keyChecked : Identifier.checkColumn key = .ok key) (value : Value) (style : OperandStyle) :
    select table ["*"] { Selection.everything with filter := .ofKey key value } style =
      Pure.pure (selectByKey table key value) := by
  have hlist : selectList ["*"] = .ok "*" := by cbv
  have hwritten : ((ofSql ("SELECT " ++ "*" ++ " FROM " ++ table)).push
      (" WHERE " ++ key ++ " = :__key")).bindIfAbsent "__key" value =
      Pure.pure (selectByKey table key value) := by
    have htext : "SELECT " ++ "*" ++ " FROM " ++ table ++ (" WHERE " ++ key ++ " = :__key") =
        "SELECT * FROM " ++ table ++ " WHERE " ++ key ++ " = :__key" := by
      simp only [String.append_assoc]
      rfl
    simp only [ofSql, push, htext]
    rfl
  unfold select
  simp only [tableChecked, hlist, pushWhere_ofKey keyChecked]
  change ((ofSql ("SELECT " ++ "*" ++ " FROM " ++ table)).push
    (" WHERE " ++ key ++ " = :__key")).bindIfAbsent "__key" value >>= _ = _
  rw [hwritten]
  rfl

/-! ## Updates by a key -/

/-- The assignments of an update as they are written. -/
def assignmentsText (values : Row) : String :=
  String.intercalate ", "
    (values.entries.zipIdx.map fun e => e.1.1 ++ "=:" ++ placeholderFor e.1.1 e.2)

/-- The text of the assignments of an update. -/
theorem source_assignmentGroups (values : Row) :
    String.ofList (source (joinGroups ", " true (assignmentGroups 0 values.entries))) =
      assignmentsText values := by
  rw [← toList_intercalate_groups, String.ofList_toList, assignmentGroups, assignmentsText,
    List.map_map]
  congr 1
  refine List.map_congr_left fun e _ => ?_
  rw [← String.toList_inj]
  simp [source, Piece.source]

/-- Assignments to valid columns are accepted. -/
theorem pushAssignments_of_checked {entries : List (String × Value)}
    (h : ∀ e ∈ entries, Identifier.checkColumn e.1 = .ok e.1) (position : Nat) (s : Statement) :
    pushAssignments position entries s =
      .ok (s.write (joinGroups ", " (position = 0) (assignmentGroups position entries))) := by
  have haccepted : ∃ t, pushAssignments position entries s = .ok t := by
    induction entries generalizing position s with
    | nil => exact ⟨s, rfl⟩
    | cons e r ih =>
      obtain ⟨name, value⟩ := e
      rw [pushAssignments, h (name, value) List.mem_cons_self]
      exact ih (fun other hother => h other (List.mem_cons_of_mem _ hother)) _ _
  obtain ⟨t, ht⟩ := haccepted
  rw [ht, (pushAssignments_eq_ok ht).1]

/-- A name that is offered a value has it if it had none. -/
theorem exists_bindIfAbsent (s : Statement) (name : String) (value : Value) :
    ∃ t, (s.bindIfAbsent name value).result = .ok t ∧ t.sql = s.sql ∧
      ∀ other, t.bound? other =
        (s.bound? other).or (if other = name then some value else none) := by
  obtain ⟨t, hresult, hyields⟩ := bindIfAbsent_yields s name value
  refine ⟨t, hresult, ?_, fun other => ?_⟩
  · simpa [textOf, Edit.text] using hyields.sql
  · rw [hyields.bound, ← lookup_singleton]
    rfl

/-- The update of the records with a key.  The key is bound last, and only if no column is bound
under its name. -/
theorem update_ofKey {table key : String} {values : Row} (insertable : Insertable table values)
    (keyChecked : Identifier.checkColumn key = .ok key) (value : Value) (style : OperandStyle) :
    ∃ s, (update table values (.ofKey key value) style).result = .ok s ∧
      s.sql = "UPDATE " ++ table ++ " SET " ++ assignmentsText values ++ " WHERE " ++ key ++
        " = :__key RETURNING *" ∧
      ∀ name, s.bound? name = ((assignedBinds values).reverse.lookup name).or
        (if name = "__key" then some value else none) := by
  let groups := joinGroups ", " true (assignmentGroups 0 values.entries)
  let assigned := (ofSql ("UPDATE " ++ table ++ " SET ")).write groups
  have hcolumns : ∀ e ∈ values.entries, Identifier.checkColumn e.1 = .ok e.1 :=
    fun e he => insertable.columns e.1 (List.mem_map_of_mem he)
  have hassigned : pushAssignments 0 values.entries (ofSql ("UPDATE " ++ table ++ " SET ")) =
      .ok assigned := pushAssignments_of_checked hcolumns 0 _
  have hslots : slots groups = assignedBinds values := by
    rw [slots_joinGroups, slots_assignmentGroups]
    rfl
  obtain ⟨t, ht, hsql, hbound⟩ :=
    exists_bindIfAbsent (assigned.push (" WHERE " ++ key ++ " = :__key")) "__key" value
  refine ⟨t.returning "*", ?_, ?_, fun name => ?_⟩
  · rw [update, Noted.result_bind]
    refine bind_eq_ok_iff.2 ⟨table, insertable.table, ?_⟩
    rw [if_neg (by simp [insertable.nonempty]), Noted.result_bind]
    refine bind_eq_ok_iff.2 ⟨assigned, hassigned, ?_⟩
    rw [Noted.result_bind]
    refine bind_eq_ok_iff.2 ⟨(), rfl, ?_⟩
    rw [Noted.result_bind, pushWhere_ofKey keyChecked]
    exact bind_eq_ok_iff.2 ⟨t, ht, rfl⟩
  · rw [returning, sql_push, sql_push, hsql, sql_push, sql_write, source_assignmentGroups]
    simp [ofSql, String.append_assoc]
  · rw [← hslots, ← bound?_write_ofSql ("UPDATE " ++ table ++ " SET ")]
    exact hbound name

/-- A column is bound under the reserved name exactly if it has this name. -/
theorem key_mem_assignedBinds (values : Row) (value : Value) :
    ("__key", value) ∈ assignedBinds values ↔ ("__key", value) ∈ values.entries := by
  constructor
  · intro h
    obtain ⟨e, he, heq⟩ := List.mem_map.1 h
    obtain ⟨hname, hvalue⟩ := Prod.mk.inj heq
    rcases placeholderFor_cases e.1.1 e.2 with hcolumn | hmade
    · have hentry : e.1 = ("__key", value) := Prod.ext (hcolumn ▸ hname) hvalue
      exact hentry ▸ List.fst_mem_of_mem_zipIdx he
    · rw [hmade, ← String.toList_inj] at hname
      simp at hname
  · intro h
    obtain ⟨position, hposition⟩ := List.mem_iff_getElem?.1 h
    have hindexed : (("__key", value), position) ∈ values.entries.zipIdx :=
      List.mem_zipIdx_iff_getElem?.2 hposition
    have hname : placeholderFor "__key" position = "__key" := if_pos (by decide)
    simpa only [hname] using mem_assignedBinds hindexed

/-- What is bound to the columns under the reserved name is the value of the column that has this
name. -/
theorem lookup_assignedBinds_key {values : Row} (distinct : values.names.Nodup) :
    (assignedBinds values).reverse.lookup "__key" = values.find? "__key" := by
  rw [← Row.findEntry_eq_lookup]
  cases hfound : values.find? "__key" with
  | none =>
    by_contra hbound
    obtain ⟨value, hvalue⟩ := Option.ne_none_iff_exists'.1 hbound
    have hmem := List.mem_reverse.1 (Row.mem_of_findEntry hvalue)
    have hentry := (key_mem_assignedBinds values value).1 hmem
    have hsome := Row.findEntry_isSome (List.mem_map_of_mem hentry)
    rw [Row.find?] at hfound
    rw [hfound] at hsome
    cases hsome
  | some value =>
    have hentry : ("__key", value) ∈ values.entries := Row.mem_of_findEntry hfound
    have hbound := (key_mem_assignedBinds values value).2 hentry
    obtain ⟨other, hother, hmem⟩ := Row.exists_findEntry_reverse (List.mem_map_of_mem hbound)
    have hsame : ("__key", other) = ("__key", value) :=
      List.inj_on_of_nodup_map distinct ((key_mem_assignedBinds values other).1 hmem) hentry rfl
    rw [hother, (Prod.mk.inj hsame).2]

end Statement

end TableAccess
