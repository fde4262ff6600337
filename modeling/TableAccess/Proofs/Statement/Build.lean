import Mathlib
import TableAccess.Proofs.Identifier.Grammar
import TableAccess.Proofs.Statement.Clause
/-!
# The pieces of statements on a table

What the statements on a table are built from: which text is fixed, which names are
written, and which placeholders are pushed with which values.  The pieces of a statement
that is built are arranged, so its slots are visible unless one of its identifiers opens a
dollar-quoted body.

Main results:

- Theorems `insert_eq_ok`, `update_eq_ok`, `select_eq_ok` and `delete_eq_ok`: a statement that is
  built is what its pieces give, and its pieces are arranged.
- Theorem `compile_build`: when the positional form of a statement that is built replaces
  its slots and nothing else.
-/

namespace TableAccess.Statement

open Placeholder Positional

/-! ## Calls -/

/-- A call that builds a statement on a table. -/
inductive Build where
  | insert (table : String) (values : Row)
  | update (table : String) (values : Row) (filter : Filter) (style : OperandStyle)
  | select (table : String) (columns : List String) (selection : Selection)
      (style : OperandStyle)
  | delete (table key : String) (value : Value) (style : OperandStyle)

namespace Build

/-- The statement that a call builds, or why it builds none. -/
def result : Build → Except AccessError Statement
  | insert table values => Statement.insert table values
  | update table values filter style => (Statement.update table values filter style).result
  | select table columns selection style =>
    (Statement.select table columns selection style).result
  | delete table key value style => Statement.delete table key value style

/-- Whether the filter of a call has no SQL fragments that count. -/
def Structured : Build → Prop
  | insert _ _ => True
  | update _ _ filter _ => filter.hasFragments = false
  | select _ _ selection _ => selection.filter.hasFragments = false
  | delete _ _ _ _ => True

end Build

/-! ## Pieces of calls -/

/-- An entry of a select list. -/
def itemPieces (item : String) : List Piece :=
  let item := Text.trim item
  if item = "*" then [.text .fixed item]
  else
    match Identifier.dropEnding? ['.', '*'] item.toList with
    | some table => [.text .identifier (String.ofList table), .text .fixed ".*"]
    | none => [.text .identifier item]

/-- A select list. -/
def listPieces (columns : List String) : List Piece :=
  if columns.isEmpty then [.text .fixed "*"] else joinGroups ", " true (columns.map itemPieces)

/-- The pieces of the statement that a call builds. -/
def Build.pieces : Build → List Piece
  | insert table values =>
    [.text .fixed "INSERT INTO ", .text .identifier table, .text .fixed " ("] ++
      joinGroups ", " true (values.names.map fun n => [.text .identifier n]) ++
      [.text .fixed ") VALUES ("] ++ joinGroups ", " true (valueGroups 0 values.entries) ++
      [.text .fixed ")"]
  | update table values filter style =>
    [.text .fixed "UPDATE ", .text .identifier table, .text .fixed " SET "] ++
      joinGroups ", " true (assignmentGroups 0 values.entries) ++ wherePieces style filter ++
      [.text .fixed " RETURNING ", .text .fixed "*"]
  | select table columns selection style =>
    [.text .fixed "SELECT "] ++ listPieces columns ++
      [.text .fixed " FROM ", .text .identifier table] ++ wherePieces style selection.filter ++
      orderPieces selection.order selection.page
  | delete table key value style =>
    let entry := Comparison.ofEntry key value
    [.text .fixed "DELETE FROM ", .text .identifier table, .text .fixed " WHERE "] ++
      comparisonPieces style 0 entry.1 entry.2

/-! ## Text without slots -/

theorem slotNames_append (ps qs : List Piece) :
    slotNames (ps ++ qs) = slotNames ps ++ slotNames qs :=
  List.filterMap_append

/-- Groups without slots have none if they are joined. -/
theorem slotNames_joinGroups (joiner : String) (first : Bool) {groups : List (List Piece)}
    (h : ∀ g ∈ groups, slotNames g = []) : slotNames (joinGroups joiner first groups) = [] := by
  induction groups generalizing first with
  | nil => rfl
  | cons g r ih =>
    have hr := ih false fun g hg => h g (by simp [hg])
    have hjoiner : slotNames (if first then [] else [.text .fixed joiner]) = [] := by
      cases first <;> rfl
    rw [joinGroups, slotNames_append, slotNames_append, h g (by simp), hr, hjoiner]
    rfl

/-- The texts of groups are joined like the groups. -/
theorem toList_intercalate_groups (joiner : String) (groups : List (List Piece)) :
    (String.intercalate joiner (groups.map fun g => String.ofList (source g))).toList =
      source (joinGroups joiner true groups) := by
  induction groups with
  | nil => simp [joinGroups]
  | cons g r ih =>
    cases r with
    | nil => simp [joinGroups]
    | cons h r =>
      rw [List.map_cons, String.intercalate_cons_of_ne_nil (by simp), String.toList_append,
        String.toList_append, ih]
      simp [joinGroups, Piece.source]

/-! ## Accepted parts -/

/-- Of columns that are accepted every one is valid. -/
theorem checkColumns_eq_ok {names : List String} (h : checkColumns names = .ok ()) :
    ∀ n ∈ names, Identifier.checkColumn n = .ok n := by
  induction names with
  | nil => simp
  | cons name r ih =>
    rw [checkColumns] at h
    obtain ⟨column, hcheck, hr⟩ := bind_eq_ok_iff.1 h
    obtain ⟨rfl, hcolumn⟩ := checkColumn_eq_ok hcheck
    simpa [hcolumn] using ih hr

/-- An entry of a select list that passes its check. -/
theorem checkSelectItem_eq_ok {item result : String}
    (h : Identifier.checkSelectItem item = .ok result) :
    result = String.ofList (source (itemPieces item)) ∧ Arranged (itemPieces item) ∧
      slotNames (itemPieces item) = [] := by
  unfold Identifier.checkSelectItem at h
  simp only at h
  split at h
  · rename_i hstar
    obtain rfl := Except.ok.inj h
    have hpieces : itemPieces item = [.text .fixed (Text.trim item)] := by
      simp [itemPieces, hstar]
    rw [hpieces]
    refine ⟨by simp [Piece.source], .fixed ?_ trivial, rfl⟩
    rw [hstar]
    decide
  · rename_i hstar
    split at h
    · rename_i table hend
      have hpieces : itemPieces item =
          [.text .identifier (String.ofList table), .text .fixed ".*"] := by
        simp [itemPieces, hstar, hend]
      rw [hpieces]
      cases hcheck : Identifier.checkTable (String.ofList table) with
      | error e => simp [hcheck, Except.map] at h
      | ok name =>
        rw [hcheck] at h
        obtain rfl := Except.ok.inj h
        refine ⟨?_, .identifier hcheck (bounds_cons (by decide) _) (.fixed (by decide) trivial),
          rfl⟩
        have htext := (Identifier.dropEnding?_eq_some_iff _ _ _).1 hend
        rw [← String.ofList_toList (s := Text.trim item), htext]
        simp [Piece.source]
    · rename_i hend
      have hpieces : itemPieces item = [.text .identifier (Text.trim item)] := by
        simp [itemPieces, hstar, hend]
      rw [hpieces]
      obtain ⟨rfl, hcolumn⟩ := checkColumn_eq_ok h
      exact ⟨by simp [Piece.source], .identifier hcolumn bounds_nil trivial, rfl⟩

/-- The entries of a select list that are accepted, as pieces. -/
theorem mapM_checkSelectItem_eq_ok {columns items : List String}
    (h : columns.mapM Identifier.checkSelectItem = .ok items) :
    items = (columns.map itemPieces).map (fun g => String.ofList (source g)) ∧
      ∀ g ∈ columns.map itemPieces, Arranged g ∧ slotNames g = [] := by
  induction columns generalizing items with
  | nil =>
    obtain rfl := Except.ok.inj h
    simp
  | cons item r ih =>
    rw [List.mapM_cons] at h
    obtain ⟨first, hfirst, hr⟩ := bind_eq_ok_iff.1 h
    obtain ⟨others, hothers, hitems⟩ := bind_eq_ok_iff.1 hr
    obtain rfl := Except.ok.inj hitems
    obtain ⟨rfl, harranged, hslots⟩ := checkSelectItem_eq_ok hfirst
    obtain ⟨rfl, hall⟩ := ih hothers
    refine ⟨rfl, fun g hg => ?_⟩
    rcases List.mem_cons.1 hg with rfl | hg
    · exact ⟨harranged, hslots⟩
    · exact hall g hg

/-- A select list that is accepted, as pieces. -/
theorem selectList_eq_ok {columns : List String} {text : String}
    (h : selectList columns = .ok text) :
    text.toList = source (listPieces columns) ∧ Arranged (listPieces columns) ∧
      slotNames (listPieces columns) = [] := by
  unfold selectList at h
  unfold listPieces
  split at h
  · rename_i hempty
    obtain rfl := Except.ok.inj h
    rw [if_pos hempty]
    exact ⟨rfl, .fixed (by decide) trivial, rfl⟩
  · rename_i hempty
    rw [if_neg hempty]
    cases hitems : columns.mapM Identifier.checkSelectItem with
    | error e => simp [hitems, Except.map] at h
    | ok items =>
      rw [hitems] at h
      obtain rfl := Except.ok.inj h
      obtain ⟨rfl, hall⟩ := mapM_checkSelectItem_eq_ok hitems
      exact ⟨toList_intercalate_groups _ _,
        arranged_joinGroups isJoiner_comma true fun g hg => (hall g hg).1,
        slotNames_joinGroups _ true fun g hg => (hall g hg).2⟩

/-- The conditions of a filter without SQL fragments. -/
theorem pushWhere_eq_ok {style : OperandStyle} {filter : Filter} {s t : Statement}
    (hfilter : filter.hasFragments = false) (hs : s.generated = 0)
    (h : (pushWhere style filter s).result = .ok t) :
    t.Agrees (s.write (wherePieces style filter)) ∧ Arranged (wherePieces style filter) ∧
      Bounds (source (wherePieces style filter)) := by
  unfold pushWhere at h
  unfold wherePieces
  simp only at h
  split at h
  · rename_i hempty
    obtain rfl := Except.ok.inj h
    rw [if_pos hempty]
    exact ⟨.refl _, trivial, bounds_nil⟩
  · rename_i hempty
    rw [if_neg (by simp [hfilter])] at h
    obtain ⟨ht, hall⟩ := pushConditions_eq_ok h
    have hstart : (s.push " WHERE ").generated = 0 := hs
    rw [hstart] at ht
    rw [if_neg hempty]
    refine ⟨ht, .fixed (by decide) ?_, bounds_cons (by decide) _⟩
    exact arranged_joinGroups (isJoiner_joiner _) true (arranged_conditionGroups style 0 hall)

/-! ## Accepted calls

What a call that is accepted has checked, and what it pushes. -/

/-- What an accepted insert went through. -/
theorem insert_steps {table : String} {values : Row} {s : Statement}
    (h : insert table values = .ok s) :
    Identifier.checkTable table = .ok table ∧
      (∀ n ∈ values.names, Identifier.checkColumn n = .ok n) ∧
      s = ((ofSql ("INSERT INTO " ++ table ++ " (" ++ String.intercalate ", " values.names ++
        ") VALUES (")).write (joinGroups ", " true (valueGroups 0 values.entries))).push ")" := by
  rw [insert] at h
  obtain ⟨name, htable, hvalues⟩ := bind_eq_ok_iff.1 h
  obtain rfl := ((Identifier.check_eq_ok_iff _ _ _).1 htable).2
  split at hvalues
  · cases hvalues
  · obtain ⟨⟨⟩, hcolumns, hs⟩ := bind_eq_ok_iff.1 hvalues
    refine ⟨htable, checkColumns_eq_ok hcolumns, ?_⟩
    rw [← Except.ok.inj hs, pushValues_eq]
    rfl

/-- What an accepted deletion went through. -/
theorem delete_steps {table key : String} {value : Value} {style : OperandStyle}
    {s : Statement} (h : delete table key value style = .ok s) :
    Identifier.checkTable table = .ok table ∧
      ∃ column, Identifier.checkColumn (Comparison.ofEntry key value).1 = .ok column ∧
        s = (ofSql ("DELETE FROM " ++ table ++ " WHERE ")).pushComparison style
          (Comparison.ofEntry key value).1 (Comparison.ofEntry key value).2 := by
  rw [delete] at h
  obtain ⟨name, htable, hkey⟩ := bind_eq_ok_iff.1 h
  obtain rfl := ((Identifier.check_eq_ok_iff _ _ _).1 htable).2
  obtain ⟨column, hcheck, hs⟩ := bind_eq_ok_iff.1 hkey
  obtain ⟨rfl, -⟩ := checkColumn_eq_ok hcheck
  exact ⟨htable, _, hcheck, (Except.ok.inj hs).symm⟩

/-- What an accepted update went through. -/
theorem update_steps {table : String} {values : Row} {filter : Filter} {style : OperandStyle}
    {s : Statement} (h : (update table values filter style).result = .ok s) :
    Identifier.checkTable table = .ok table ∧
      (∀ e ∈ values.entries, Identifier.checkColumn e.1 = .ok e.1) ∧
      ∃ narrowed, (pushWhere style filter ((ofSql ("UPDATE " ++ table ++ " SET ")).write
          (joinGroups ", " true (assignmentGroups 0 values.entries)))).result = .ok narrowed ∧
        s = narrowed.returning "*" := by
  rw [update, Noted.result_bind] at h
  obtain ⟨name, htable, hvalues⟩ := bind_eq_ok_iff.1 h
  obtain rfl := ((Identifier.check_eq_ok_iff _ _ _).1 htable).2
  split at hvalues
  · cases hvalues
  · rw [Noted.result_bind] at hvalues
    obtain ⟨assigned, hassigned, hnoted⟩ := bind_eq_ok_iff.1 hvalues
    rw [Noted.result_bind] at hnoted
    obtain ⟨⟨⟩, -, hnoted⟩ := bind_eq_ok_iff.1 hnoted
    rw [Noted.result_bind] at hnoted
    obtain ⟨narrowed, hwhere, hs⟩ := bind_eq_ok_iff.1 hnoted
    obtain ⟨rfl, hcolumns⟩ := pushAssignments_eq_ok hassigned
    exact ⟨htable, hcolumns, narrowed, hwhere, (Except.ok.inj hs).symm⟩

/-- What an accepted selection went through. -/
theorem select_steps {table : String} {columns : List String} {selection : Selection}
    {style : OperandStyle} {s : Statement}
    (h : (select table columns selection style).result = .ok s) :
    Identifier.checkTable table = .ok table ∧
      (∀ e ∈ selection.order.terms, Identifier.checkColumn e.1 = .ok e.1) ∧
      ∃ text narrowed, selectList columns = .ok text ∧
        (pushWhere style selection.filter
          (ofSql ("SELECT " ++ text ++ " FROM " ++ table))).result = .ok narrowed ∧
        s = narrowed.write (orderPieces selection.order selection.page) := by
  rw [select, Noted.result_bind] at h
  obtain ⟨name, htable, hcolumns⟩ := bind_eq_ok_iff.1 h
  obtain rfl := ((Identifier.check_eq_ok_iff _ _ _).1 htable).2
  rw [Noted.result_bind] at hcolumns
  obtain ⟨text, hlist, hnoted⟩ := bind_eq_ok_iff.1 hcolumns
  rw [Noted.result_bind] at hnoted
  obtain ⟨narrowed, hwhere, horder⟩ := bind_eq_ok_iff.1 hnoted
  split at horder
  · rename_i hempty
    have hterms : selection.order.terms = [] := by
      simpa [Order.isEmpty] using hempty
    refine ⟨htable, by simp [hterms], text, narrowed, hlist, hwhere, ?_⟩
    rw [← Except.ok.inj horder, orderPieces, if_pos hempty]
    rfl
  · rename_i hempty
    rw [Noted.result_bind] at horder
    obtain ⟨ordered, hpushed, hpage⟩ := bind_eq_ok_iff.1 horder
    obtain ⟨rfl, hterms⟩ := pushTerms_eq_ok hpushed
    refine ⟨htable, hterms, text, narrowed, hlist, hwhere, ?_⟩
    rw [← Except.ok.inj hpage, orderPieces, if_neg hempty, write, write_append]
    rfl

/-! ## Pieces of accepted calls

A call that is accepted pushes its pieces, and they are arranged. -/

/-- An accepted insert is what its pieces give. -/
theorem insert_eq_ok {table : String} {values : Row} {s : Statement}
    (h : insert table values = .ok s) :
    s.WrittenAs (Build.insert table values).pieces ∧
      Arranged (Build.insert table values).pieces := by
  obtain ⟨htable, hcolumns, rfl⟩ := insert_steps h
  have hnames : ∀ g ∈ values.names.map fun n => [Piece.text .identifier n],
      Arranged g ∧ slotNames g = [] := by
    intro g hg
    obtain ⟨n, hn, rfl⟩ := List.mem_map.1 hg
    exact ⟨.identifier (hcolumns n hn) bounds_nil trivial, rfl⟩
  constructor
  · have hhead : (ofSql ("INSERT INTO " ++ table ++ " (" ++
        String.intercalate ", " values.names ++ ") VALUES (")).WrittenAs
        ([.text .fixed "INSERT INTO ", .text .identifier table, .text .fixed " ("] ++
          joinGroups ", " true (values.names.map fun n => [.text .identifier n]) ++
          [.text .fixed ") VALUES ("]) := by
      apply writtenAs_ofSql
      · have hjoined := toList_intercalate_groups ", "
          (values.names.map fun n => [Piece.text .identifier n])
        have htexts : (values.names.map fun n => [Piece.text .identifier n]).map
            (fun g => String.ofList (source g)) = values.names := by
          simp [Piece.source, Function.comp_def]
        rw [htexts] at hjoined
        simp [Piece.source, hjoined]
      · rw [slotNames_append, slotNames_append,
          slotNames_joinGroups ", " true fun g hg => (hnames g hg).2]
        rfl
    exact (hhead.append (.refl _)).append (.refl _)
  · have hvalues : Arranged (joinGroups ", " true (valueGroups 0 values.entries) ++
        [.text .fixed ")"]) :=
      (arranged_joinGroups isJoiner_comma true (arranged_valueGroups 0 values.entries)).append
        (.fixed (by decide) trivial) (bounds_cons (by decide) _)
    have hlist : Arranged (joinGroups ", " true (values.names.map fun n => [.text .identifier n]) ++
        .text .fixed ") VALUES (" :: (joinGroups ", " true (valueGroups 0 values.entries) ++
          [.text .fixed ")"])) :=
      (arranged_joinGroups isJoiner_comma true fun g hg => (hnames g hg).1).append
        (.fixed (by decide) hvalues) (bounds_cons (by decide) _)
    unfold Build.pieces
    simp only [List.append_assoc, List.cons_append, List.nil_append]
    exact .fixed (by decide) (.identifier htable (bounds_cons (by decide) _)
      (.fixed (by decide) hlist))

/-- An accepted deletion is what its pieces give. -/
theorem delete_eq_ok {table key : String} {value : Value} {style : OperandStyle}
    {s : Statement} (h : delete table key value style = .ok s) :
    s.WrittenAs (Build.delete table key value style).pieces ∧
      Arranged (Build.delete table key value style).pieces := by
  obtain ⟨htable, column, hcolumn, rfl⟩ := delete_steps h
  have hhead : (ofSql ("DELETE FROM " ++ table ++ " WHERE ")).WrittenAs
      [.text .fixed "DELETE FROM ", .text .identifier table, .text .fixed " WHERE "] :=
    writtenAs_ofSql (by simp [Piece.source]) rfl
  constructor
  · exact hhead.append (pushComparison_agrees style _ _ _).1
  · exact .fixed (by decide) (.identifier htable (bounds_cons (by decide) _)
      (.fixed (by decide) (arranged_comparisonPieces style 0 hcolumn _)))

/-- An accepted update is what its pieces give, if its filter has no SQL of the caller. -/
theorem update_eq_ok {table : String} {values : Row} {filter : Filter} {style : OperandStyle}
    {s : Statement} (hfilter : filter.hasFragments = false)
    (h : (update table values filter style).result = .ok s) :
    s.WrittenAs (Build.update table values filter style).pieces ∧
      Arranged (Build.update table values filter style).pieces := by
  obtain ⟨htable, hcolumns, narrowed, hwhere, rfl⟩ := update_steps h
  obtain ⟨hnarrowed, harranged, hbounds⟩ := pushWhere_eq_ok hfilter (generated_write _ _) hwhere
  have hhead : (ofSql ("UPDATE " ++ table ++ " SET ")).WrittenAs
      [.text .fixed "UPDATE ", .text .identifier table, .text .fixed " SET "] :=
    writtenAs_ofSql (by simp [Piece.source]) rfl
  constructor
  · exact ((hhead.append (.refl _)).append hnarrowed).append (.refl _)
  · have hreturning : Arranged [.text .fixed " RETURNING ", .text .fixed "*"] :=
      .fixed (by decide) (.fixed (by decide) trivial)
    have hend := harranged.append hreturning (bounds_cons (by decide) _)
    have hassignments := arranged_joinGroups isJoiner_comma true
      (arranged_assignmentGroups 0 hcolumns)
    unfold Build.pieces
    simp only [List.append_assoc, List.cons_append, List.nil_append]
    refine .fixed (by decide) (.identifier htable (bounds_cons (by decide) _)
      (.fixed (by decide) (hassignments.append hend ?_)))
    rw [source_append]
    exact hbounds.append (bounds_cons (by decide) _)

/-- An accepted selection is what its pieces give, if its filter has no SQL of the caller. -/
theorem select_eq_ok {table : String} {columns : List String} {selection : Selection}
    {style : OperandStyle} {s : Statement} (hfilter : selection.filter.hasFragments = false)
    (h : (select table columns selection style).result = .ok s) :
    s.WrittenAs (Build.select table columns selection style).pieces ∧
      Arranged (Build.select table columns selection style).pieces := by
  obtain ⟨htable, hterms, text, narrowed, hlist, hwhere, rfl⟩ := select_steps h
  obtain ⟨htext, hlisted, hslots⟩ := selectList_eq_ok hlist
  obtain ⟨hnarrowed, harranged, hbounds⟩ := pushWhere_eq_ok hfilter rfl hwhere
  obtain ⟨hordered, hstart⟩ := arranged_orderPieces selection.page hterms
  constructor
  · have hhead : (ofSql ("SELECT " ++ text ++ " FROM " ++ table)).WrittenAs
        ([.text .fixed "SELECT "] ++ listPieces columns ++
          [.text .fixed " FROM ", .text .identifier table]) := by
      apply writtenAs_ofSql
      · simp [Piece.source, htext]
      · rw [slotNames_append, slotNames_append, hslots]
        rfl
    exact (hhead.append hnarrowed).append (.refl _)
  · have hend := harranged.append hordered hstart
    have hbounded := hbounds.append hstart
    have hfrom : Arranged (.text .fixed " FROM " :: .text .identifier table ::
        (wherePieces style selection.filter ++ orderPieces selection.order selection.page)) :=
      .fixed (by decide) (.identifier htable (by rwa [source_append]) hend)
    unfold Build.pieces
    simp only [List.append_assoc, List.cons_append, List.nil_append]
    exact .fixed (by decide) (hlisted.append hfrom (bounds_cons (by decide) _))

/-! ## The positional form of what is built -/

/-- When the positional form of a statement that is built replaces its slots and nothing else.
A statement without SQL fragments of its caller is written in pieces: text and slots.  Its
slots are replaced, and nothing else, exactly if they are visible between the other pieces,
and so they are if none of the tables and columns opens a dollar-quoted body, whatever the
values are. -/
theorem compile_build (call : Build) (s : Statement) (accepted : call.result = .ok s)
    (structured : call.Structured) :
    s.WrittenAs call.pieces ∧
      (CompilesAsWritten s call.pieces ↔ SlotsVisible [] call.pieces) ∧
      ((∀ name ∈ identifiers call.pieces, ¬ Identifier.OpensBody name) →
        CompilesAsWritten s call.pieces) := by
  obtain ⟨hwritten, harranged⟩ : s.WrittenAs call.pieces ∧ Arranged call.pieces := by
    cases call with
    | insert table values => exact insert_eq_ok accepted
    | update table values filter style => exact update_eq_ok structured accepted
    | select table columns selection style => exact select_eq_ok structured accepted
    | delete table key value style => exact delete_eq_ok accepted
  have hiff := compilesAsWritten_iff hwritten harranged.separated
  refine ⟨hwritten, hiff, fun hnames => ?_⟩
  exact hiff.2 (harranged.slotsVisible hnames (passes_nil _))

/-- Colons in a quoted name and in a literal are neither replaced nor in the way. -/
theorem compile_build_quoted :
    let call := Build.update "\"a:b\"" ⟨[("n", .int 1)]⟩ (.ofRow ⟨[("id", .text "it's :x")]⟩)
      .inline
    ∃ s, call.result = .ok s ∧ call.Structured ∧
      s.sql = "UPDATE \"a:b\" SET n=:n WHERE id = 'it''s :x' RETURNING *" ∧
      CompilesAsWritten s call.pieces := by
  intro call
  have haccepted : call.result =
      .ok ⟨"UPDATE \"a:b\" SET n=:n WHERE id = 'it''s :x' RETURNING *", ⟨[("n", .int 1)]⟩, 0⟩ := by
    cbv
  have hstructured : call.Structured := by cbv
  have hidentifiers : identifiers call.pieces = ["\"a:b\"", "n", "id"] := by cbv
  refine ⟨_, haccepted, hstructured, rfl, ?_⟩
  refine (compile_build call _ haccepted hstructured).2.2 fun name hname hopen => ?_
  have hcount : ∀ name ∈ ["\"a:b\"", "n", "id"], name.toList.count '$' < 2 := by decide
  rw [hidentifiers] at hname
  exact absurd hopen.count (by have := hcount name hname; omega)

/-- A table with two adjacent dollar signs in its name hides the slot after it. -/
theorem compile_build_hidden :
    let call := Build.delete "a$$" "id" (.int 1) .parameterized
    ∃ s, call.result = .ok s ∧ call.Structured ∧ slotNames call.pieces = ["__f0"] ∧
      compile s = .ok ⟨"DELETE FROM a$$ WHERE id = :__f0", [], []⟩ ∧
      ¬ CompilesAsWritten s call.pieces := by
  intro call
  have haccepted : call.result =
      .ok ⟨"DELETE FROM a$$ WHERE id = :__f0", ⟨[("__f0", .int 1)]⟩, 1⟩ := by cbv
  have hslots : slotNames call.pieces = ["__f0"] := by cbv
  have hcompiled : compile ⟨"DELETE FROM a$$ WHERE id = :__f0", ⟨[("__f0", .int 1)]⟩, 1⟩ =
      .ok ⟨"DELETE FROM a$$ WHERE id = :__f0", [], []⟩ := by cbv
  refine ⟨_, haccepted, trivial, hslots, hcompiled, ?_⟩
  rintro ⟨compiled, hok, hnames, -⟩
  rw [hcompiled] at hok
  obtain rfl := Except.ok.inj hok
  rw [hslots] at hnames
  cases hnames

end TableAccess.Statement
