import TableAccess.Proofs.Statement.Arrangement
import TableAccess.Statement.Table
/-!
# Pieces of clauses

What the clauses of a statement are built from: the values of a record, the assignments of
an update, the comparisons of a filter and the terms of an order.  Each is a loop that
pushes one group of pieces for each entry, with joiners between the groups.

Main results:

- Theorems `pushValues_eq`, `pushAssignments_eq_ok`, `pushConditions_eq_ok` and
  `pushTerms_eq_ok`: what the loops push.
- Theorems `arranged_assignmentGroups`, `arranged_conditionGroups` and
  `arranged_termGroups`: the groups are arranged, as their columns have been checked.
-/

namespace TableAccess.Statement

open Placeholder

/-! ## Pieces of clauses -/

/-- The slots for the values of a record; `position` counts the columns before. -/
def valueGroups (position : Nat) (entries : List (String × Value)) : List (List Piece) :=
  (entries.zipIdx position).map fun e => [.slot (placeholderFor e.1.1 e.2) e.1.2]

/-- The assignments of an update; `position` counts the columns before. -/
def assignmentGroups (position : Nat) (entries : List (String × Value)) : List (List Piece) :=
  (entries.zipIdx position).map fun e =>
    [.text .identifier e.1.1, .text .fixed "=", .slot (placeholderFor e.1.1 e.2) e.1.2]

/-- An operand; `number` counts the names that were made up before. -/
def operandPiece (style : OperandStyle) (number : Nat) (operand : Value) : Piece :=
  match style with
  | .parameterized => .slot (generatedName number) operand
  | .inline => .text .literal operand.literal

/-- The comparison of a column. -/
def comparisonPieces (style : OperandStyle) (number : Nat) (column : String)
    (comparison : Comparison) : List Piece :=
  match nullTest? comparison with
  | some test => [.text .identifier column, .text .fixed test]
  | none =>
    [.text .identifier column, .text .fixed " ", .text .fixed comparison.operator.sql,
      .text .fixed " ", operandPiece style number comparison.operand]

/-- How many names are made up before the comparison after this one. -/
def nextNumber (style : OperandStyle) (number : Nat) (comparison : Comparison) : Nat :=
  match style, nullTest? comparison with
  | .parameterized, none => number + 1
  | _, _ => number

/-- The conditions for the entries of a filter. -/
def conditionGroups (style : OperandStyle) : (number : Nat) → List (String × Value) →
    List (List Piece)
  | _, [] => []
  | number, (key, value) :: r =>
    let entry := Comparison.ofEntry key value
    comparisonPieces style number entry.1 entry.2 ::
      conditionGroups style (nextNumber style number entry.2) r

/-- The conditions of a filter without SQL fragments. -/
def wherePieces (style : OperandStyle) (filter : Filter) : List Piece :=
  if filter.isEmpty then []
  else
    .text .fixed " WHERE " ::
      joinGroups (" " ++ filter.joiner.sql ++ " ") true
        (conditionGroups style 0 filter.values.entries)

/-- The terms of an order. -/
def termGroups (terms : List (String × Direction)) : List (List Piece) :=
  terms.map fun t => [.text .identifier t.1, .text .fixed " ", .text .fixed t.2.sql]

/-- An order with a page, if there is an order. -/
def orderPieces (order : Order) (page : Page) : List Piece :=
  if order.isEmpty then []
  else
    .text .fixed " ORDER BY " :: (joinGroups ", " true (termGroups order.terms) ++
      [.text .fixed (" LIMIT " ++ page.limit.sql ++ " OFFSET " ++ Text.natText page.offset)])

/-! ## What the clauses push -/

/-- Two steps succeed exactly if both do. -/
theorem bind_eq_ok_iff {α β : Type} {x : Except AccessError α} {f : α → Except AccessError β}
    {b : β} : x >>= f = .ok b ↔ ∃ a, x = .ok a ∧ f a = .ok b := by
  cases x with
  | ok a =>
    constructor
    · intro h
      exact ⟨a, rfl, h⟩
    · rintro ⟨_, ⟨⟩, h⟩
      exact h
  | error e =>
    constructor
    · intro h
      cases h
    · rintro ⟨_, ⟨⟩, -⟩

/-- A column name that is accepted is kept as it is. -/
theorem checkColumn_eq_ok {name result : String} (h : Identifier.checkColumn name = .ok result) :
    result = name ∧ Identifier.checkColumn name = .ok name := by
  obtain rfl := ((Identifier.check_eq_ok_iff _ _ _).1 h).2
  exact ⟨rfl, h⟩

/-- The values of an insert are pushed as groups. -/
theorem pushValues_eq (position : Nat) (entries : List (String × Value)) (s : Statement) :
    pushValues position entries s =
      s.write (joinGroups ", " (position = 0) (valueGroups position entries)) := by
  induction entries generalizing position s with
  | nil => rfl
  | cons e r ih =>
    obtain ⟨column, value⟩ := e
    have hnext : decide (position + 1 = 0) = false := by simp
    rw [pushValues, ih, hnext, valueGroups, valueGroups, List.zipIdx_cons, List.map_cons,
      write_joinGroups_cons]
    simp only [decide_eq_true_eq]
    rfl

/-- The assignments of an update are pushed as groups, and their columns are valid. -/
theorem pushAssignments_eq_ok {position : Nat} {entries : List (String × Value)}
    {s t : Statement} (h : pushAssignments position entries s = .ok t) :
    t = s.write (joinGroups ", " (position = 0) (assignmentGroups position entries)) ∧
      ∀ e ∈ entries, Identifier.checkColumn e.1 = .ok e.1 := by
  induction entries generalizing position s with
  | nil =>
    obtain rfl := Except.ok.inj h
    exact ⟨rfl, by simp⟩
  | cons e r ih =>
    obtain ⟨name, value⟩ := e
    rw [pushAssignments] at h
    obtain ⟨column, hcheck, hr⟩ := bind_eq_ok_iff.1 h
    obtain ⟨rfl, hcolumn⟩ := checkColumn_eq_ok hcheck
    obtain ⟨ht, hall⟩ := ih hr
    refine ⟨?_, by simpa [hcolumn] using hall⟩
    have hnext : decide (position + 1 = 0) = false := by simp
    rw [ht, hnext, assignmentGroups, assignmentGroups, List.zipIdx_cons, List.map_cons,
      write_joinGroups_cons]
    simp only [decide_eq_true_eq]
    rfl

/-- What is pushed for a comparison, and how many names are made up. -/
theorem pushComparison_agrees (style : OperandStyle) (s : Statement) (column : String)
    (comparison : Comparison) :
    (s.pushComparison style column comparison).Agrees
        (s.write (comparisonPieces style s.generated column comparison)) ∧
      (s.pushComparison style column comparison).generated =
        nextNumber style s.generated comparison := by
  unfold pushComparison comparisonPieces nextNumber
  cases hnull : nullTest? comparison with
  | some test =>
    refine ⟨.refl _, ?_⟩
    cases style <;> rfl
  | none =>
    cases style with
    | parameterized => exact ⟨⟨rfl, rfl⟩, rfl⟩
    | inline => exact ⟨.refl _, rfl⟩

/-- What is pushed for the entries of a filter. -/
theorem pushConditions_eq_ok {style : OperandStyle} {joiner : String} {first : Bool}
    {entries : List (String × Value)} {s t : Statement}
    (h : pushConditions style joiner first entries s = .ok t) :
    t.Agrees (s.write (joinGroups joiner first (conditionGroups style s.generated entries))) ∧
      ∀ e ∈ entries, ∃ column,
        Identifier.checkColumn (Comparison.ofEntry e.1 e.2).1 = .ok column := by
  induction entries generalizing first s with
  | nil =>
    obtain rfl := Except.ok.inj h
    exact ⟨.refl _, by simp⟩
  | cons e r ih =>
    obtain ⟨key, value⟩ := e
    rw [pushConditions] at h
    obtain ⟨column, hcheck, hr⟩ := bind_eq_ok_iff.1 h
    obtain ⟨hcolumn, -⟩ := checkColumn_eq_ok hcheck
    obtain ⟨ht, hall⟩ := ih hr
    refine ⟨?_, ?_⟩
    · rw [conditionGroups, write_joinGroups_cons]
      have hstart : (if first then s else s.push joiner).generated = s.generated := by
        split <;> rfl
      have hpush := pushComparison_agrees style (if first then s else s.push joiner) column
        (Comparison.ofEntry key value).2
      rw [hstart] at hpush
      rw [hpush.2, hcolumn] at ht
      rw [hcolumn] at hpush
      exact ht.trans (hpush.1.write _)
    · intro e he
      rcases List.mem_cons.1 he with rfl | he
      · exact ⟨column, hcheck⟩
      · exact hall e he

/-- The terms of an order are pushed as groups, and their columns are valid. -/
theorem pushTerms_eq_ok {first : Bool} {terms : List (String × Direction)} {s t : Statement}
    (h : pushTerms first terms s = .ok t) :
    t = s.write (joinGroups ", " first (termGroups terms)) ∧
      ∀ e ∈ terms, Identifier.checkColumn e.1 = .ok e.1 := by
  induction terms generalizing first s with
  | nil =>
    obtain rfl := Except.ok.inj h
    exact ⟨rfl, by simp⟩
  | cons e r ih =>
    obtain ⟨name, direction⟩ := e
    rw [pushTerms] at h
    obtain ⟨column, hcheck, hr⟩ := bind_eq_ok_iff.1 h
    obtain ⟨rfl, hcolumn⟩ := checkColumn_eq_ok hcheck
    obtain ⟨ht, hall⟩ := ih hr
    refine ⟨?_, by simpa [hcolumn] using hall⟩
    rw [ht, termGroups, termGroups, List.map_cons, write_joinGroups_cons]
    rfl

/-! ## Arranged clauses -/

theorem isJoiner_comma : IsJoiner ", " :=
  ⟨by decide, ',', by decide, rfl⟩

theorem isJoiner_joiner (joiner : Joiner) : IsJoiner (" " ++ joiner.sql ++ " ") := by
  cases joiner with
  | and => exact ⟨by decide, ' ', by decide, rfl⟩
  | or => exact ⟨by decide, ' ', by decide, rfl⟩

/-- A name with a number after it can be a placeholder. -/
theorem isName_append_natText {mark : String} (h : isName mark.toList = true) (n : Nat) :
    isName (mark ++ Text.natText n).toList = true := by
  rw [String.toList_append, Text.natText, String.toList_ofList]
  cases hmark : mark.toList with
  | nil => simp [hmark, isName] at h
  | cons c r =>
    rw [hmark, isName_cons] at h
    rw [List.cons_append, isName_cons]
    refine ⟨h.1, fun d hd => ?_⟩
    rcases List.mem_append.1 hd with hd | hd
    · exact h.2 d hd
    · simp [isNamePart, Char.isAlphanum, Text.isDigit_of_mem_natDigits hd]

/-- Every placeholder of a column is a name. -/
theorem isName_placeholderFor (column : String) (position : Nat) :
    isName (placeholderFor column position).toList = true := by
  unfold placeholderFor
  split
  · rename_i h
    exact h
  · exact isName_append_natText (by decide) position

/-- The values of an insert are arranged. -/
theorem arranged_valueGroups (position : Nat) (entries : List (String × Value)) :
    ∀ g ∈ valueGroups position entries, Arranged g := by
  intro g hg
  obtain ⟨e, -, rfl⟩ := List.mem_map.1 hg
  exact ⟨isName_placeholderFor _ _, bounds_nil, trivial⟩

/-- Assignments to valid columns are arranged. -/
theorem arranged_assignmentGroups (position : Nat) {entries : List (String × Value)}
    (h : ∀ e ∈ entries, Identifier.checkColumn e.1 = .ok e.1) :
    ∀ g ∈ assignmentGroups position entries, Arranged g := by
  intro g hg
  obtain ⟨e, he, rfl⟩ := List.mem_map.1 hg
  have hslot : Arranged [.slot (placeholderFor e.1.1 e.2) e.1.2] :=
    ⟨isName_placeholderFor _ _, bounds_nil, trivial⟩
  exact .identifier (h e.1 (List.fst_mem_of_mem_zipIdx he)) (bounds_cons (by decide) _)
    (.fixed (by decide) hslot)

/-- The terms of an order by valid columns are arranged. -/
theorem arranged_termGroups {terms : List (String × Direction)}
    (h : ∀ e ∈ terms, Identifier.checkColumn e.1 = .ok e.1) :
    ∀ g ∈ termGroups terms, Arranged g := by
  intro g hg
  obtain ⟨e, he, rfl⟩ := List.mem_map.1 hg
  have hdirection : ∀ d : Direction, IsPlainText d.sql.toList := by
    intro d
    cases d <;> decide
  exact .identifier (h e he) (bounds_cons (by decide) _)
    (.fixed (by decide) (.fixed (hdirection e.2) trivial))

/-- A test for null is fixed text after a blank. -/
theorem nullTest?_eq_some {comparison : Comparison} {test : String}
    (h : nullTest? comparison = some test) :
    IsPlainText test.toList ∧ Bounds test.toList := by
  have htest : test = " IS NULL" ∨ test = " IS NOT NULL" := by
    unfold nullTest? at h
    split at h
    · exact .inl (Option.some.inj h).symm
    · exact .inr (Option.some.inj h).symm
    · cases h
  rcases htest with rfl | rfl
  · exact ⟨by decide, bounds_cons (by decide) _⟩
  · exact ⟨by decide, bounds_cons (by decide) _⟩

/-- The comparison of a checked column is arranged. -/
theorem arranged_comparisonPieces (style : OperandStyle) (number : Nat) {column result : String}
    (h : Identifier.checkColumn column = .ok result) (comparison : Comparison) :
    Arranged (comparisonPieces style number column comparison) := by
  unfold comparisonPieces
  split
  · rename_i test hnull
    obtain ⟨hplain, hbounds⟩ := nullTest?_eq_some hnull
    exact .identifier h (by simpa [Piece.source] using hbounds) (.fixed hplain trivial)
  · have hoperator : IsPlainText comparison.operator.sql.toList := by
      cases comparison.operator <;> decide
    have hoperand : Arranged [operandPiece style number comparison.operand] := by
      cases style with
      | parameterized => exact ⟨isName_append_natText (by decide) number, bounds_nil, trivial⟩
      | inline => exact ⟨⟨comparison.operand, rfl⟩, fun _ => bounds_nil, trivial⟩
    exact .identifier h (bounds_cons (by decide) _)
      (.fixed (by decide) (.fixed hoperator (.fixed (by decide) hoperand)))

/-- The conditions for checked columns are arranged. -/
theorem arranged_conditionGroups (style : OperandStyle) (number : Nat)
    {entries : List (String × Value)}
    (h : ∀ e ∈ entries, ∃ column,
      Identifier.checkColumn (Comparison.ofEntry e.1 e.2).1 = .ok column) :
    ∀ g ∈ conditionGroups style number entries, Arranged g := by
  induction entries generalizing number with
  | nil => simp [conditionGroups]
  | cons e r ih =>
    intro g hg
    obtain ⟨column, hcolumn⟩ := h e (by simp)
    rcases List.mem_cons.1 hg with rfl | hg
    · exact arranged_comparisonPieces style number hcolumn _
    · exact ih _ (fun e he => h e (by simp [he])) g hg

/-- No longer lexeme begins in the words for a page. -/
theorem page_plain (page : Page) :
    IsPlainText (" LIMIT " ++ page.limit.sql ++ " OFFSET " ++ Text.natText page.offset).toList := by
  have hnumber : ∀ (n : Nat), IsPlainText (Text.natText n).toList := by
    intro n c hc
    rw [Text.natText, String.toList_ofList] at hc
    exact isPlain_of_mem_natDigits hc
  have hlimit : IsPlainText page.limit.sql.toList := by
    cases page.limit with
    | all => decide
    | rows count positive => exact hnumber count
  have hwords : IsPlainText " LIMIT ".toList ∧ IsPlainText " OFFSET ".toList := by decide
  rw [String.toList_append, String.toList_append, String.toList_append]
  exact ((hwords.1.append hlimit).append hwords.2).append (hnumber page.offset)

/-- An order by checked columns is arranged together with its page. -/
theorem arranged_orderPieces {order : Order} (page : Page)
    (h : ∀ e ∈ order.terms, Identifier.checkColumn e.1 = .ok e.1) :
    Arranged (orderPieces order page) ∧ Bounds (source (orderPieces order page)) := by
  unfold orderPieces
  split
  · exact ⟨trivial, bounds_nil⟩
  · have hpage : Arranged
        [.text .fixed (" LIMIT " ++ page.limit.sql ++ " OFFSET " ++ Text.natText page.offset)] :=
      .fixed (page_plain page) trivial
    have hterms := arranged_joinGroups isJoiner_comma true (arranged_termGroups h)
    refine ⟨.fixed (by decide) (hterms.append hpage ?_), bounds_cons (by decide) _⟩
    simp only [source_cons, Piece.source, String.toList_append, List.append_assoc]
    exact bounds_cons (by decide) _

end TableAccess.Statement
