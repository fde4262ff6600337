import TableAccess.Proofs.Statement.Shown
/-!
# Selections are unambiguous

The text of a selection tells what was asked for: no identifier, however it is spelled, can be
taken for another part of the statement.  The text is read from left to right, part by part;
only the operands have to be taken from the values that are bound.

Main results:

- Theorem `select_text`: the text of a selection, from left to right.
- Theorems `eq_of_whereText` and `eq_of_orderText`: conditions and orders are read in one way.
- Theorem `eq_of_select`: selections with one text and one list of bound values ask for the
  same.
-/

namespace TableAccess.Statement

open Text Identifier

/-! ## What narrows a selection -/

/-- The conditions of a selection with a joiner between them, if there are any. -/
def whereText (joiner : Joiner) (xs : List Numbered) : List Char :=
  if xs.isEmpty then []
  else " WHERE ".toList ++ joinedBy (" " ++ joiner.sql ++ " ").toList (xs.map Numbered.text)

/-- The order of a selection with its page, if there is an order. -/
def orderText (page : Page) (terms : List (String × Direction)) : List Char :=
  if terms.isEmpty then []
  else " ORDER BY ".toList ++ (joinedBy ", ".toList (terms.map termText) ++ pageText page)

theorem whereText_nil (joiner : Joiner) : whereText joiner [] = [] :=
  rfl

theorem whereText_cons (joiner : Joiner) (x : Numbered) (r : List Numbered) :
    whereText joiner (x :: r) = " WHERE ".toList ++
      joinedBy (" " ++ joiner.sql ++ " ").toList ((x :: r).map Numbered.text) :=
  rfl

theorem orderText_cons (page : Page) (term : String × Direction)
    (r : List (String × Direction)) :
    orderText page (term :: r) = " ORDER BY ".toList ++
      (joinedBy ", ".toList ((term :: r).map termText) ++ pageText page) :=
  rfl

/-- The text of a filter is that of its numbered conditions. -/
theorem source_wherePieces {filter : Filter} (structured : filter.hasFragments = false)
    {xs : List Numbered}
    (hconditions : xs.map Numbered.condition = filter.conditions)
    (htexts : (conditionGroups .parameterized 0 filter.values.entries).map source =
      xs.map Numbered.text) :
    source (wherePieces .parameterized filter) = whereText filter.joiner xs := by
  have hempty : filter.isEmpty = xs.isEmpty := by
    rw [Filter.isEmpty_of_structured structured, ← List.isEmpty_map (f := Numbered.condition),
      hconditions, Filter.conditions, List.isEmpty_map]
  unfold wherePieces
  rw [hempty]
  unfold whereText
  split
  · rfl
  · rw [source_cons, source_joinGroups, htexts]
    rfl

/-- The text of an order and a page. -/
theorem source_orderPieces (order : Order) (page : Page) :
    source (orderPieces order page) = orderText page order.terms := by
  have hterms : (termGroups order.terms).map source = order.terms.map termText := by
    rw [termGroups, List.map_map]
    refine List.map_congr_left fun term _ => ?_
    simp [termText, Piece.source]
  unfold orderPieces orderText Order.isEmpty
  split
  · rfl
  · rw [source_cons, source_append, source_joinGroups, hterms]
    simp [Piece.source, pageText]

/-- What narrows a selection does not go on with its table. -/
theorem stopsList_narrowing (joiner : Joiner) (xs : List Numbered) (page : Page)
    (terms : List (String × Direction)) :
    StopsList (whereText joiner xs ++ orderText page terms) := by
  cases xs with
  | nil =>
    cases terms with
    | nil => exact .inl rfl
    | cons term r => exact .inr ⟨" ORDER BY ".toList, by simp, _, rfl⟩
  | cons x r => exact .inr ⟨" WHERE ".toList, by simp, _, List.append_assoc _ _ _⟩

/-- No condition is taken for an order. -/
theorem orderText_ne_where (page : Page) (terms : List (String × Direction)) (s : List Char) :
    orderText page terms ≠ " WHERE ".toList ++ s := by
  intro h
  cases terms with
  | nil => cases h
  | cons term r =>
    rw [orderText_cons] at h
    simp at h

/-- Conditions are read in one way, and so is their joiner if there is one. -/
theorem eq_of_whereText {joiner joiner' : Joiner} {xs ys : List Numbered}
    (hxs : ∀ x ∈ xs, x.Checked) (hys : ∀ y ∈ ys, y.Checked) {page page' : Page}
    {terms terms' : List (String × Direction)}
    (h : whereText joiner xs ++ orderText page terms =
      whereText joiner' ys ++ orderText page' terms') :
    xs.map (fun x => conditionShape x.condition) =
        ys.map (fun y => conditionShape y.condition) ∧
      (2 ≤ xs.length → joiner = joiner') ∧ orderText page terms = orderText page' terms' := by
  have hstops := fun page terms => stopsList_narrowing .and [] page terms
  cases xs with
  | nil =>
    cases ys with
    | nil => exact ⟨rfl, fun hlength => absurd hlength (by simp), h⟩
    | cons y ys =>
      rw [whereText_nil, whereText_cons, List.append_assoc] at h
      exact absurd h (orderText_ne_where _ _ _)
  | cons x xs =>
    cases ys with
    | nil =>
      rw [whereText_nil, whereText_cons, List.append_assoc] at h
      exact absurd h.symm (orderText_ne_where _ _ _)
    | cons y ys =>
      rw [whereText_cons, whereText_cons, List.append_assoc, List.append_assoc] at h
      obtain ⟨hshapes, horder, hjoiners⟩ := separates_parts.eq_of_joinedBy shows_condition hxs hys
        (by simp) (by simp) (isSeparator_joiner joiner) (isSeparator_joiner joiner')
        (hstops _ _) (hstops _ _) (List.append_cancel_left h)
      refine ⟨hshapes, fun hlength => ?_, horder⟩
      have hsql := hjoiners hlength
      cases joiner <;> cases joiner' <;> first | rfl | exact absurd hsql (by decide)

/-- An order is read in one way, and so is its page. -/
theorem eq_of_orderText {page page' : Page} {terms terms' : List (String × Direction)}
    (hchecked : ∀ term ∈ terms, checkColumn term.1 = .ok term.1)
    (hchecked' : ∀ term ∈ terms', checkColumn term.1 = .ok term.1)
    (h : orderText page terms = orderText page' terms') :
    terms = terms' ∧ (terms ≠ [] → page = page') := by
  have hpage : ∀ page, StopsList (pageText page) := by
    intro page
    refine .inr ⟨" LIMIT ".toList, by simp, page.limit.sql.toList ++ (" OFFSET ".toList ++
      (Text.natText page.offset).toList), ?_⟩
    simp [pageText]
  cases terms with
  | nil =>
    cases terms' with
    | nil => exact ⟨rfl, fun hne => absurd rfl hne⟩
    | cons term' r' => cases h
  | cons term r =>
    cases terms' with
    | nil => cases h
    | cons term' r' =>
      obtain ⟨hterms, hpages, -⟩ := separates_parts.eq_of_joinedBy shows_term hchecked hchecked'
        (by simp) (by simp) isSeparator_comma isSeparator_comma (hpage page) (hpage page')
        (List.append_cancel_left h)
      rw [List.map_id, List.map_id] at hterms
      exact ⟨hterms, fun _ => pageText_injective hpages⟩

/-! ## Selections -/

/-- The text of a selection, from left to right. -/
theorem select_text {table : String} {columns : List String} {selection : Selection}
    {s : Statement} (h : (select table columns selection .parameterized).result = .ok s)
    (structured : selection.filter.hasFragments = false) :
    ∃ xs : List Numbered, (∀ x ∈ xs, x.Checked) ∧
      xs.map Numbered.condition = selection.filter.conditions ∧
      s.sql.toList = "SELECT ".toList ++
        (joinedBy ", ".toList ((shownItems columns).map String.toList) ++
          (" FROM ".toList ++ (table.toList ++ (whereText selection.filter.joiner xs ++
            orderText selection.page selection.order.terms)))) := by
  obtain ⟨-, -, text, narrowed, hlist, hwhere, rfl⟩ := select_steps h
  have htext := (selectList_joined hlist).1
  have hnarrowed := (pushWhere_eq_ok structured rfl hwhere).1
  obtain ⟨xs, hxs, hconditions, htexts⟩ :=
    exists_numbered 0 (checked_of_pushWhere structured hwhere)
  refine ⟨xs, hxs, hconditions, ?_⟩
  rw [sql_write, hnarrowed.1, sql_write, source_wherePieces structured hconditions htexts,
    source_orderPieces]
  simp [ofSql, htext]

/-- The values that a selection binds are the operands of its conditions. -/
theorem select_binds {table : String} {columns : List String} {selection : Selection}
    {s : Statement} (h : (select table columns selection .parameterized).result = .ok s)
    (structured : selection.filter.hasFragments = false) :
    s.binds.entries = generatedBinds (Comparison.operands selection.filter.comparisons) := by
  obtain ⟨filter, order, page⟩ := selection
  have hstyles : SameOutcome (InStep (Comparison.operands filter.comparisons))
      (select table columns ⟨filter, order, page⟩ .inline).result
      (select table columns ⟨filter, order, page⟩ .parameterized).result :=
    sameOutcome_select (keptByText_inStep _) table columns (sameOutcome_pushWhere_styles structured)
  rw [h] at hstyles
  obtain ⟨t, -, hstep⟩ := hstyles.exists_of_ok
  obtain ⟨-, -, -, -, -, -, hbinds⟩ := hstep.same
  exact hbinds

/-- Selections with one text and one list of bound values ask for the same: the same columns of
the same table, the same conditions, joined alike if there are two or more, in the same order,
and the same page if there is an order. -/
theorem eq_of_select {table table' : String} {columns columns' : List String}
    {selection selection' : Selection} {s s' : Statement}
    (accepted : (select table columns selection .parameterized).result = .ok s)
    (accepted' : (select table' columns' selection' .parameterized).result = .ok s')
    (structured : selection.filter.hasFragments = false)
    (structured' : selection'.filter.hasFragments = false)
    (hsql : s.sql = s'.sql) (hbinds : s.binds = s'.binds) :
    shownItems columns = shownItems columns' ∧ table = table' ∧
      selection.filter.conditions = selection'.filter.conditions ∧
      (2 ≤ selection.filter.conditions.length →
        selection.filter.joiner = selection'.filter.joiner) ∧
      selection.order.terms = selection'.order.terms ∧
      (selection.order.terms ≠ [] → selection.page = selection'.page) := by
  obtain ⟨htable, hterms, text, -, hlist, -⟩ := select_steps accepted
  obtain ⟨htable', hterms', text', -, hlist', -⟩ := select_steps accepted'
  obtain ⟨xs, hxs, hconditions, htext⟩ := select_text accepted structured
  obtain ⟨ys, hys, hconditions', htext'⟩ := select_text accepted' structured'
  have hfrom : ∀ s, StopsList (" FROM ".toList ++ s) := fun s => .inr ⟨_, by simp, s, rfl⟩
  have hend : ∀ joiner xs page terms, Stops (whereText joiner xs ++ orderText page terms) :=
    fun joiner xs page terms =>
      (separates_parts.after_stop (stopsList_narrowing joiner xs page terms)).stops
  -- the select list is read first, then the table, and then what narrows the selection
  rw [hsql, htext'] at htext
  obtain ⟨hitems, hrest, -⟩ := separates_parts.eq_of_joinedBy shows_item
    (selectList_joined hlist).2 (selectList_joined hlist').2 (shownItems_ne_nil columns)
    (shownItems_ne_nil columns') isSeparator_comma isSeparator_comma (hfrom _) (hfrom _)
    (List.append_cancel_left htext.symm)
  obtain ⟨rfl, hnarrowing⟩ := eq_of_check htable htable' (hend _ _ _ _) (hend _ _ _ _)
    (List.append_cancel_left hrest)
  obtain ⟨hshapes, hjoiner, horder⟩ := eq_of_whereText hxs hys hnarrowing
  obtain ⟨hterms, hpage⟩ := eq_of_orderText hterms hterms' horder
  rw [List.map_id, List.map_id] at hitems
  refine ⟨hitems, rfl, ?_, ?_, hterms, hpage⟩
  · apply eq_of_shapes
    · rw [← hconditions, ← hconditions', List.map_map, List.map_map]
      exact hshapes
    · apply generatedBinds_injective
      rw [← Filter.comparisons, ← Filter.comparisons, ← select_binds accepted structured,
        ← select_binds accepted' structured', hbinds]
  · rw [← hconditions, List.length_map]
    exact hjoiner

/-- A keyword and a comma in quotes, and a sign that stands on a key or on its value. -/
theorem eq_of_select_quoted :
    let order : Order := ⟨[("d", .descending)]⟩
    let selection : Selection := ⟨.ofRow ⟨[("!c", .text "x")]⟩, order, ⟨.all, 5⟩⟩
    let other : Selection :=
      ⟨(Filter.ofRow ⟨[("c", .text "!x")]⟩).alternatives, order, ⟨.ofCount 0, 5⟩⟩
    ∃ s t, (select "\"t, u\"" ["\"a FROM b\""] selection .parameterized).result = .ok s ∧
      (select "\"t, u\"" [" \"a FROM b\" "] other .parameterized).result = .ok t ∧
      s.sql = t.sql ∧ s.binds = t.binds ∧
      s.sql = "SELECT \"a FROM b\" FROM \"t, u\" WHERE c <> :__f0 " ++
        "ORDER BY d DESC LIMIT ALL OFFSET 5" ∧
      shownItems ["\"a FROM b\""] = shownItems [" \"a FROM b\" "] ∧
      selection.filter.conditions = other.filter.conditions ∧ selection.page = other.page := by
  intro order selection other
  have haccepted : (select "\"t, u\"" ["\"a FROM b\""] selection .parameterized).result =
      .ok ⟨"SELECT \"a FROM b\" FROM \"t, u\" WHERE c <> :__f0 " ++
        "ORDER BY d DESC LIMIT ALL OFFSET 5", ⟨[("__f0", .text "x")]⟩, 1⟩ := by cbv
  have hother : (select "\"t, u\"" [" \"a FROM b\" "] other .parameterized).result =
      .ok ⟨"SELECT \"a FROM b\" FROM \"t, u\" WHERE c <> :__f0 " ++
        "ORDER BY d DESC LIMIT ALL OFFSET 5", ⟨[("__f0", .text "x")]⟩, 1⟩ := by cbv
  have hstructured : selection.filter.hasFragments = false := by cbv
  have hstructured' : other.filter.hasFragments = false := by cbv
  obtain ⟨hitems, -, hconditions, -, -, hpage⟩ :=
    eq_of_select haccepted hother hstructured hstructured' rfl rfl
  refine ⟨_, _, haccepted, hother, rfl, rfl, rfl, hitems, hconditions, hpage ?_⟩
  exact List.cons_ne_nil _ _

end TableAccess.Statement
