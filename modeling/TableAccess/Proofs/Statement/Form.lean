import TableAccess.Proofs.Statement.Build
/-!
# Forms of statements

A statement that is accepted begins with the word for what it does, and so does its positional
form: the characters at its front begin no longer lexeme, so they are copied.  Building and
compiling a statement never fail with an error of execution, as nothing is run.

Main results:

- Theorem `prefix_of_compile`: plain characters at the front of a statement are copied.
- Theorems `insert_begins`, `update_begins` and `select_begins`: how statements begin.
- Theorems `unexecuted_insert` and `unexecuted_select`: why statements are refused.
-/

namespace TableAccess.Statement

open Placeholder Positional

/-! ## Texts that go on -/

/-- Whether the text of a statement goes on where that of another ends. -/
def Continues (s t : Statement) : Prop :=
  s.sql.toList <+: t.sql.toList

/-- Text is appended in several steps as in one. -/
theorem Continues.trans {s t u : Statement} (h : s.Continues t) (h' : t.Continues u) :
    s.Continues u :=
  List.IsPrefix.trans h h'

theorem continues_push (s : Statement) (text : String) : s.Continues (s.push text) := by
  rw [Continues, sql_push, String.toList_append]
  exact List.prefix_append _ _

theorem continues_of_agrees {s t : Statement} {ps : List Piece} (h : t.Agrees (s.write ps)) :
    s.Continues t := by
  rw [Continues, h.1, sql_write, String.toList_append]
  exact List.prefix_append _ _

/-- Binding entries writes nothing. -/
theorem sql_bindEntries {entries : List (String × Value)} {s t : Statement}
    (h : (bindEntries entries s).result = .ok t) : t.sql = s.sql := by
  induction entries generalizing s with
  | nil =>
    obtain rfl := Except.ok.inj h
    rfl
  | cons e r ih =>
    obtain ⟨key, value⟩ := e
    rw [bindEntries] at h
    split at h
    · cases h
    · rw [Noted.result_bind] at h
      obtain ⟨bound, hbound, hr⟩ := bind_eq_ok_iff.1 h
      rw [ih hr]
      unfold bindIfAbsent at hbound
      split at hbound
      · obtain rfl := Except.ok.inj hbound
        rfl
      · obtain rfl := Except.ok.inj hbound
        rfl

theorem continues_pushFragments (joiner : String) (fragments : List String) (s : Statement) :
    s.Continues (pushFragments joiner fragments s) := by
  have hfold : ∀ (r : List String) (s : Statement),
      s.Continues (r.foldl (fun s f => (s.push joiner).push f) s) := by
    intro r
    induction r with
    | nil => exact fun s => List.prefix_refl _
    | cons f r ih =>
      intro s
      exact ((continues_push s joiner).trans (continues_push _ f)).trans (ih _)
  cases fragments with
  | nil => exact List.prefix_refl _
  | cons f r => exact (continues_push s f).trans (hfold r (s.push f))

/-- Pushing the conditions of a filter continues a text. -/
theorem continues_pushWhere {style : OperandStyle} {filter : Filter} {s t : Statement}
    (h : (pushWhere style filter s).result = .ok t) : s.Continues t := by
  unfold pushWhere at h
  simp only at h
  split at h
  · obtain rfl := Except.ok.inj h
    exact List.prefix_refl _
  · split at h
    · have hsql := sql_bindEntries h
      have hfragments := (continues_push s " WHERE ").trans
        (continues_pushFragments (" " ++ filter.joiner.sql ++ " ") filter.liveFragments _)
      rwa [Continues, hsql]
    · exact (continues_push s " WHERE ").trans (continues_of_agrees (pushConditions_eq_ok h).1)

/-! ## How statements begin -/

/-- Whether a text begins with a word. -/
def Begins (word sql : String) : Prop :=
  word.toList <+: sql.toList

/-- What a text begins with, it still begins with when it goes on. -/
theorem Begins.continues {word : String} {s t : Statement} (h : Begins word s.sql)
    (ht : s.Continues t) : Begins word t.sql :=
  List.IsPrefix.trans h ht

theorem begins_append (word rest : String) : Begins word (word ++ rest) := by
  rw [Begins, String.toList_append]
  exact List.prefix_append _ _

/-- An insert begins with its key words. -/
theorem insert_begins {table : String} {values : Row} {s : Statement}
    (h : insert table values = .ok s) : Begins "INSERT INTO " s.sql := by
  obtain ⟨-, -, rfl⟩ := insert_steps h
  refine Begins.continues ?_ ((continues_of_agrees (.refl _)).trans (continues_push _ _))
  rw [ofSql, String.append_assoc, String.append_assoc, String.append_assoc]
  exact begins_append _ _

theorem update_begins {table : String} {values : Row} {filter : Filter} {style : OperandStyle}
    {s : Statement} (h : (update table values filter style).result = .ok s) :
    Begins "UPDATE " s.sql := by
  obtain ⟨-, -, narrowed, hwhere, rfl⟩ := update_steps h
  refine Begins.continues ?_ ((continues_of_agrees (.refl _)).trans
    ((continues_pushWhere hwhere).trans
      ((continues_push _ " RETURNING ").trans (continues_push _ "*"))))
  rw [ofSql, String.append_assoc]
  exact begins_append _ _

theorem select_begins {table : String} {columns : List String} {selection : Selection}
    {style : OperandStyle} {s : Statement}
    (h : (select table columns selection style).result = .ok s) : Begins "SELECT " s.sql := by
  obtain ⟨-, -, text, narrowed, -, hwhere, rfl⟩ := select_steps h
  refine Begins.continues ?_ ((continues_pushWhere hwhere).trans (continues_of_agrees (.refl _)))
  rw [ofSql, String.append_assoc, String.append_assoc]
  exact begins_append _ _

/-- Plain characters at the front of a statement are copied. -/
theorem prefix_of_compile {s : Statement} {compiled : Positional}
    (h : compile s = .ok compiled) {word : String} (hword : IsPlainText word.toList)
    (hbegins : Begins word s.sql) : Begins word compiled.sql := by
  obtain ⟨rest, hrest⟩ := hbegins
  obtain ⟨xs, hxs, hlive⟩ := passes_of_plain hword (rest ++ [])
  obtain ⟨ys, hys⟩ := exists_reads rest
  have hread : Reads [] s.sql.toList (xs ++ ys) := by
    rw [← hrest]
    exact hxs.append hys
  obtain ⟨-, -, hsql⟩ := (compile_eq_ok_iff hread compiled).1 h
  rw [Begins, hsql, String.toList_ofList, List.flatMap_append, positional_of_liveNames hlive,
    hxs.source_eq]
  exact List.prefix_append _ _

/-! ## Refusals -/

/-- Whether something does not fail with an error of execution. -/
def Unexecuted {α : Type} (x : Except AccessError α) : Prop :=
  ∀ e, x = .error e → e.isExecution = false

namespace Unexecuted

variable {α β : Type}

theorem ok (a : α) : Unexecuted (.ok a : Except AccessError α) := by
  intro e he
  cases he

theorem error {e : AccessError} (h : e.isExecution = false) :
    Unexecuted (.error e : Except AccessError α) := by
  intro e' he
  cases he
  exact h

/-- Two steps do not fail at execution if neither of them does. -/
theorem bind {x : Except AccessError α} {f : α → Except AccessError β} (first : Unexecuted x)
    (second : ∀ a, x = .ok a → Unexecuted (f a)) : Unexecuted (x >>= f) := by
  cases x with
  | error e => exact error (first e rfl)
  | ok a => exact second a rfl

theorem map {x : Except AccessError α} (h : Unexecuted x) (f : α → β) : Unexecuted (x.map f) := by
  cases x with
  | error e => exact error (h e rfl)
  | ok a => exact ok (f a)

end Unexecuted

/-- A name is not refused at execution. -/
theorem unexecuted_check (role : Identifier.Role) (name : String) :
    Unexecuted (Identifier.check role name) := by
  unfold Identifier.check
  split
  · exact .ok _
  · exact .error rfl

theorem unexecuted_checkColumns (names : List String) : Unexecuted (checkColumns names) := by
  induction names with
  | nil => exact .ok _
  | cons name r ih => exact .bind (unexecuted_check .column name) fun _ _ => ih

theorem unexecuted_selectList (columns : List String) : Unexecuted (selectList columns) := by
  have hitem (item : String) : Unexecuted (Identifier.checkSelectItem item) := by
    unfold Identifier.checkSelectItem
    simp only
    split
    · exact .ok _
    · split
      · exact .map (unexecuted_check .table _) _
      · exact unexecuted_check .column _
  have hitems : Unexecuted (columns.mapM Identifier.checkSelectItem) := by
    induction columns with
    | nil => exact .ok _
    | cons item r ih =>
      rw [List.mapM_cons]
      exact .bind (hitem item) fun _ _ => .bind ih fun _ _ => .ok _
  unfold selectList
  split
  · exact .ok _
  · exact .map hitems _

theorem unexecuted_pushConditions (style : OperandStyle) (joiner : String) (first : Bool)
    (entries : List (String × Value)) (s : Statement) :
    Unexecuted (pushConditions style joiner first entries s) := by
  induction entries generalizing first s with
  | nil => exact .ok _
  | cons e r ih => exact .bind (unexecuted_check .column _) fun _ _ => ih _ _

theorem unexecuted_bindEntries (entries : List (String × Value)) (s : Statement) :
    Unexecuted (bindEntries entries s).result := by
  induction entries generalizing s with
  | nil => exact .ok _
  | cons e r ih =>
    rw [bindEntries]
    split
    · exact .error rfl
    · rw [Noted.result_bind]
      refine .bind ?_ fun _ _ => ih _
      unfold bindIfAbsent
      split <;> exact .ok _

/-- A filter is not refused at execution. -/
theorem unexecuted_pushWhere (style : OperandStyle) (filter : Filter) (s : Statement) :
    Unexecuted (pushWhere style filter s).result := by
  unfold pushWhere
  simp only
  split
  · exact .ok _
  · split
    · exact unexecuted_bindEntries _ _
    · exact unexecuted_pushConditions style _ true _ _

theorem unexecuted_pushTerms (first : Bool) (terms : List (String × Direction)) (s : Statement) :
    Unexecuted (pushTerms first terms s) := by
  induction terms generalizing first s with
  | nil => exact .ok _
  | cons e r ih => exact .bind (unexecuted_check .column _) fun _ _ => ih _ _

/-- An insert is refused for its names or for want of values. -/
theorem unexecuted_insert (table : String) (values : Row) :
    Unexecuted (insert table values) := by
  refine .bind (unexecuted_check .table table) fun name _ => ?_
  split
  · exact .error rfl
  · exact .bind (unexecuted_checkColumns _) fun _ _ => .ok _

/-- A select is refused for its names. -/
theorem unexecuted_select (table : String) (columns : List String) (selection : Selection)
    (style : OperandStyle) : Unexecuted (select table columns selection style).result := by
  rw [select, Noted.result_bind]
  refine .bind (unexecuted_check .table table) fun name _ => ?_
  rw [Noted.result_bind]
  refine .bind (unexecuted_selectList columns) fun text _ => ?_
  rw [Noted.result_bind]
  refine .bind (unexecuted_pushWhere style _ _) fun narrowed _ => ?_
  split
  · exact .ok _
  · rw [Noted.result_bind]
    exact .bind (unexecuted_pushTerms true _ _) fun _ _ => .ok _

/-- A statement has no positional form for want of a value. -/
theorem unexecuted_compile (s : Statement) : Unexecuted (compile s) := by
  intro e he
  obtain ⟨xs, hxs⟩ := exists_reads s.sql.toList
  obtain ⟨name, -, rfl⟩ := (compile_eq_error_iff hxs e).1 he
  rfl

end TableAccess.Statement
