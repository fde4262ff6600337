import TableAccess.Proofs.Statement.Build
import TableAccess.Proofs.Statement.Outcome
/-!
# Operand styles

A filter says the same whether its operands are written out or bound to placeholders.  The two
statements consist of the same texts; between them one has the literals of the operands and the
other the placeholders `__f0`, `__f1` and so on, which are bound to the same operands.

Main results:

- Theorem `inStep_pushComparison`: what one comparison adds to both statements.
- Theorem `styles_agree`: the two styles of a selection and of a deletion.
-/

namespace TableAccess

/-! ## Operands -/

/-- Whether a comparison is a test for null: an equality or an inequality with null. -/
def Comparison.testsNull (c : Comparison) : Bool :=
  c.operand.isNull && (c.operator == .equal || c.operator == .notEqual)

/-- A test for null has null for its operand. -/
theorem Comparison.eq_null_of_testsNull {c : Comparison} (h : c.testsNull = true) :
    c.operand = .null := by
  obtain ⟨operator, v⟩ := c
  cases v with
  | null => rfl
  | _ => cases h

/-- The operands of comparisons, without those of tests for null. -/
def Comparison.operands (cs : List Comparison) : List Value :=
  (cs.filter fun c => !c.testsNull).map (·.operand)

/-- The columns and the comparisons of the entries of a filter. -/
def Filter.conditions (filter : Filter) : List (String × Comparison) :=
  filter.values.entries.map fun e => Comparison.ofEntry e.1 e.2

/-- The comparisons of a filter. -/
def Filter.comparisons (filter : Filter) : List Comparison :=
  filter.conditions.map (·.2)

/-- A filter without fragments is empty exactly if it has no entries. -/
theorem Filter.isEmpty_of_structured {filter : Filter} (h : filter.hasFragments = false) :
    filter.isEmpty = filter.values.entries.isEmpty := by
  rw [Filter.isEmpty, h]
  rfl

/-- A comparison has one operand, and a test for null has none. -/
theorem Comparison.operands_cons (c : Comparison) (cs : List Comparison) :
    operands (c :: cs) = if c.testsNull then operands cs else c.operand :: operands cs := by
  by_cases h : c.testsNull = true
  · simp [operands, h]
  · simp [operands, h]

theorem Comparison.operands_append (cs ds : List Comparison) :
    operands (cs ++ ds) = operands cs ++ operands ds := by
  simp [operands]

/-- A new name goes to the end with its value. -/
theorem Row.entries_insert_of_notMem {row : Row} {name : String} (h : name ∉ row.names)
    (value : Value) : (row.insert name value).entries = row.entries ++ [(name, value)] := by
  obtain ⟨entries⟩ := row
  simp only [insert, names] at h ⊢
  induction entries with
  | nil => rfl
  | cons e r ih =>
    simp only [List.map_cons, List.mem_cons, not_or] at h
    rw [insertEntry, if_neg (Ne.symm h.1), ih h.2, List.cons_append]

namespace Statement

/-! ## Made-up names -/

/-- Made-up names differ if their numbers do. -/
theorem generatedName_injective : Function.Injective generatedName :=
  Text.append_natText_injective "__f"

/-- The names that are made up for operands, each with its operand. -/
def generatedBinds (operands : List Value) : List (String × Value) :=
  operands.zipIdx.map fun e => (generatedName e.2, e.1)

/-- One more operand is bound to the next made-up name. -/
theorem generatedBinds_append (operands : List Value) (v : Value) :
    generatedBinds (operands ++ [v]) =
      generatedBinds operands ++ [(generatedName operands.length, v)] := by
  simp [generatedBinds, List.zipIdx_append]

/-- The made-up names count the operands. -/
theorem map_fst_generatedBinds (operands : List Value) :
    (generatedBinds operands).map (·.1) = (List.range operands.length).map generatedName := by
  rw [List.range_eq_range', ← List.zipIdx_map_snd 0 operands, List.map_map, generatedBinds,
    List.map_map]
  rfl

/-- The operands are the values that are bound. -/
theorem generatedBinds_injective : Function.Injective generatedBinds := by
  have hvalues : ∀ operands, (generatedBinds operands).map (·.2) = operands := by
    intro operands
    rw [generatedBinds, List.map_map]
    exact List.zipIdx_map_fst 0 operands
  intro a b h
  rw [← hvalues a, h, hvalues b]

/-- The next number gives a new name. -/
theorem generatedName_notMem (operands : List Value) :
    generatedName operands.length ∉ (generatedBinds operands).map (·.1) := by
  intro hmem
  rw [map_fst_generatedBinds] at hmem
  obtain ⟨n, hn, hname⟩ := List.mem_map.1 hmem
  have hnumber : n = operands.length := generatedName_injective hname
  exact absurd (List.mem_range.1 hn) (by omega)

/-! ## Statements in step -/

/-- Texts with a mark after each of them, and a last text. -/
def woven (texts marks : List String) (last : String) : String :=
  String.join (List.zipWith (· ++ ·) texts marks) ++ last

/-- Whether two statements consist of the same texts, with operands between them that are
written out in the first and bound to made-up names in the second. -/
def SameButForStyle (operands : List Value) (s t : Statement) : Prop :=
  ∃ texts last, texts.length = operands.length ∧
    s.sql = woven texts (operands.map Value.literal) last ∧ s.binds.entries = [] ∧
    t.sql = woven texts ((generatedBinds operands).map fun e => ":" ++ e.1) last ∧
    t.binds.entries = generatedBinds operands

theorem woven_push (texts marks : List String) (last text : String) :
    woven texts marks last ++ text = woven texts marks (last ++ text) :=
  String.append_assoc

/-- A mark begins a new text. -/
theorem woven_append {texts marks : List String} (h : texts.length = marks.length)
    (last mark : String) :
    woven texts marks last ++ mark = woven (texts ++ [last]) (marks ++ [mark]) "" := by
  simp [woven, List.zipWith_append h, String.append_assoc]

/-- Whether two statements are the same but for the style of their operands, so far. -/
structure InStep (operands : List Value) (s t : Statement) : Prop where
  same : SameButForStyle operands s t
  generated : t.generated = operands.length

/-- Two statements of the same text are in step. -/
theorem inStep_ofSql (sql : String) : InStep [] (ofSql sql) (ofSql sql) where
  same := ⟨[], sql, rfl, by simp [woven, ofSql], rfl, by simp [woven, ofSql], rfl⟩
  generated := rfl

/-- Statements that are in step stay so if text is pushed to both. -/
theorem keptByText_inStep (operands : List Value) : KeptByText (InStep operands) := by
  intro s t text h
  obtain ⟨texts, last, hlength, hs, hsbinds, ht, htbinds⟩ := h.same
  refine ⟨⟨texts, last ++ text, hlength, ?_, hsbinds, ?_, htbinds⟩, h.generated⟩
  · rw [sql_push, hs, woven_push]
  · rw [sql_push, ht, woven_push]

/-- They stay so if an operand is pushed to both, one in each style. -/
theorem inStep_pushOperand {operands : List Value} {s t : Statement} (h : InStep operands s t)
    (v : Value) :
    InStep (operands ++ [v]) (pushOperand .inline s v) (pushOperand .parameterized t v) := by
  obtain ⟨texts, last, hlength, hs, hsbinds, ht, htbinds⟩ := h.same
  refine ⟨⟨texts ++ [last], "", by simp [hlength], ?_, hsbinds, ?_, ?_⟩, ?_⟩
  · rw [pushOperand, sql_push, hs, woven_append (by simp [hlength]), List.map_append]
    rfl
  · rw [pushOperand, pushGenerated, sql_pushPlaceholder, h.generated, generatedBinds_append,
      List.map_append]
    exact ht ▸ woven_append (by simp [hlength, generatedBinds]) last _
  · have hnew : generatedName operands.length ∉ t.binds.names := by
      rw [Row.names, htbinds]
      exact generatedName_notMem operands
    rw [pushOperand, pushGenerated, binds_pushPlaceholder, h.generated,
      Row.entries_insert_of_notMem hnew, htbinds, generatedBinds_append]
  · rw [List.length_append, ← h.generated]
    rfl

/-- A test for null is written instead of an operand. -/
theorem nullTest?_isSome (c : Comparison) : (nullTest? c).isSome = c.testsNull := by
  obtain ⟨operator, v⟩ := c
  cases v <;> cases operator <;> rfl

/-- What one comparison adds to both statements. -/
theorem inStep_pushComparison {operands : List Value} {s t : Statement} (h : InStep operands s t)
    (column : String) (c : Comparison) :
    InStep (operands ++ Comparison.operands [c]) (s.pushComparison .inline column c)
      (t.pushComparison .parameterized column c) := by
  have hpush := keptByText_inStep operands
  have htest := nullTest?_isSome c
  unfold pushComparison
  cases hnull : nullTest? c with
  | some test =>
    have hnone : Comparison.operands [c] = [] := by simp [Comparison.operands, ← htest, hnull]
    rw [hnone, List.append_nil]
    exact hpush _ _ _ (hpush _ _ _ h)
  | none =>
    have hone : Comparison.operands [c] = [c.operand] := by
      simp [Comparison.operands, ← htest, hnull]
    rw [hone]
    exact inStep_pushOperand
      (hpush _ _ _ (hpush _ _ _ (hpush _ _ _ (hpush _ _ _ h)))) c.operand

/-- Conditions are accepted or refused alike in both styles. -/
theorem sameOutcome_pushConditions_styles (joiner : String) (entries : List (String × Value))
    (first : Bool) {operands : List Value} {s t : Statement} (h : InStep operands s t) :
    SameOutcome
      (InStep (operands ++
        Comparison.operands (entries.map fun e => (Comparison.ofEntry e.1 e.2).2)))
      (pushConditions .inline joiner first entries s)
      (pushConditions .parameterized joiner first entries t) := by
  induction entries generalizing first operands s t with
  | nil =>
    rw [List.map_nil, Comparison.operands, List.filter_nil, List.map_nil, List.append_nil]
    exact .ok h
  | cons e r ih =>
    obtain ⟨key, value⟩ := e
    rw [List.map_cons, ← List.singleton_append, Comparison.operands_append, ← List.append_assoc]
    refine .bind_same _ fun column _ => ih false ?_
    have hstart := (keptByText_inStep operands).joiner h (first = true) joiner
    exact inStep_pushComparison hstart column (Comparison.ofEntry key value).2

/-- Filters are accepted or refused alike in both styles. -/
theorem sameOutcome_pushWhere_styles {filter : Filter} (structured : filter.hasFragments = false)
    (sql : String) :
    SameOutcome (InStep (Comparison.operands filter.comparisons))
      (pushWhere .inline filter (ofSql sql)).result
      (pushWhere .parameterized filter (ofSql sql)).result := by
  have hpush := keptByText_inStep []
  unfold pushWhere
  split
  · rename_i hempty
    rw [Filter.isEmpty_of_structured structured, List.isEmpty_iff] at hempty
    rw [Filter.comparisons, Filter.conditions, hempty]
    exact .ok (inStep_ofSql sql)
  · rw [if_neg (by simp [structured]), if_neg (by simp [structured])]
    have hconditions := sameOutcome_pushConditions_styles
      (" " ++ filter.joiner.sql ++ " ") filter.values.entries true
      (hpush _ _ " WHERE " (inStep_ofSql sql))
    rw [List.nil_append] at hconditions
    rw [Filter.comparisons, Filter.conditions, List.map_map]
    exact hconditions

/-- SQL fragments leave nothing to the style. -/
theorem pushWhere_of_hasFragments {filter : Filter} (h : filter.hasFragments = true)
    (s : Statement) : pushWhere .inline filter s = pushWhere .parameterized filter s := by
  simp only [pushWhere, h, if_true]

/-- The two styles of a selection and of a deletion.  Both are refused with one error, or they
give the same texts with the literals of the operands between them in one, which binds nothing,
and placeholders with made-up names in the other, which binds the operands to these names in
their order.  The operands are those of the comparisons of the filter that are no tests for
null.  A filter of SQL fragments gives one result in both styles. -/
theorem styles_agree :
    (∀ table columns selection, selection.filter.hasFragments = false →
      SameOutcome (SameButForStyle (Comparison.operands selection.filter.comparisons))
        (select table columns selection .inline).result
        (select table columns selection .parameterized).result) ∧
    (∀ table key value,
      SameOutcome (SameButForStyle (Comparison.operands [(Comparison.ofEntry key value).2]))
        (delete table key value .inline) (delete table key value .parameterized)) ∧
    (∀ table columns selection, selection.filter.hasFragments = true →
      select table columns selection .inline = select table columns selection .parameterized) ∧
    ∀ table values filter, filter.hasFragments = true →
      update table values filter .inline = update table values filter .parameterized := by
  refine ⟨?_, ?_, ?_, ?_⟩
  · intro table columns selection structured
    obtain ⟨filter, order, page⟩ := selection
    exact (sameOutcome_select (keptByText_inStep _) table columns
      (sameOutcome_pushWhere_styles structured)).mono fun _ _ h => h.same
  · intro table key value
    refine .bind_same _ fun table _ => .bind_same _ fun column _ => .ok ?_
    exact (inStep_pushComparison (inStep_ofSql _) column _).same
  · intro table columns selection h
    simp only [select, pushWhere_of_hasFragments h]
  · intro table values filter h
    simp only [update, pushWhere_of_hasFragments h]

/-- A signed key, a null and a signed text with a quote in it, in both styles. -/
theorem styles_agree_mixed :
    let filter := Filter.ofRow ⟨[("!a", .int 1), ("b", .null), ("c", .text ">=O'Neil")]⟩
    filter.hasFragments = false ∧
      ∃ s t, (select "t" [] ⟨filter, .unordered, .whole⟩ .inline).result = .ok s ∧
        (select "t" [] ⟨filter, .unordered, .whole⟩ .parameterized).result = .ok t ∧
        s.sql = "SELECT * FROM t WHERE a <> 1 AND b IS NULL AND c >= 'O''Neil'" ∧
        t.sql = "SELECT * FROM t WHERE a <> :__f0 AND b IS NULL AND c >= :__f1" ∧
        SameButForStyle [.int 1, .text "O'Neil"] s t := by
  intro filter
  have hinline : (select "t" [] ⟨filter, .unordered, .whole⟩ .inline).result =
      .ok ⟨"SELECT * FROM t WHERE a <> 1 AND b IS NULL AND c >= 'O''Neil'", ⟨[]⟩, 0⟩ := by cbv
  have hbound : (select "t" [] ⟨filter, .unordered, .whole⟩ .parameterized).result =
      .ok ⟨"SELECT * FROM t WHERE a <> :__f0 AND b IS NULL AND c >= :__f1",
        ⟨[("__f0", .int 1), ("__f1", .text "O'Neil")]⟩, 2⟩ := by cbv
  have hoperands : Comparison.operands filter.comparisons = [.int 1, .text "O'Neil"] := by cbv
  have hstructured : filter.hasFragments = false := by cbv
  have hsame := styles_agree.1 "t" [] ⟨filter, .unordered, .whole⟩ hstructured
  rw [hinline, hbound, hoperands] at hsame
  cases hsame with
  | ok related => exact ⟨hstructured, _, _, hinline, hbound, rfl, rfl, related⟩

end Statement

end TableAccess
