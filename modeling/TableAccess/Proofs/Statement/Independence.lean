import Mathlib.Data.List.Forall2
import TableAccess.Proofs.Statement.Build
import TableAccess.Proofs.Statement.Outcome
/-!
# Values and text

Where operands are bound to placeholders, the text of a statement does not depend on values.
Two calls with the same names build statements with the same text and the same bound names,
and so do their positional forms; only the values of the parameters differ.  Of a comparison,
the sign of a text chooses the operator and a null is tested without an operand, so these two
facts about a value are all that the text can show.

Main results:

- Theorem `sameShape_pushComparison`: what a comparison shows of its operand.
- Theorem `sameForm_compile`: the positional form does not depend on values either.
- Theorem `differInValues_result`: neither do the statements that calls build.
-/

namespace TableAccess.Statement

open Positional

/-! ## Calls that differ in values -/

/-- Whether two entries of a filter have one key, one operator, and operands that are both
null or both not. -/
def SameTest (e f : String × Value) : Prop :=
  e.1 = f.1 ∧
    (Comparison.ofEntry e.1 e.2).2.operator = (Comparison.ofEntry f.1 f.2).2.operator ∧
    (Comparison.ofEntry e.1 e.2).2.operand.isNull = (Comparison.ofEntry f.1 f.2).2.operand.isNull

/-- Whether two filters differ in values only.  Entries that are read as comparisons have to
be the same tests; values that SQL fragments may name are under no condition. -/
structure SameTests (f g : Filter) : Prop where
  fragments : f.fragments = g.fragments
  joiner : f.joiner = g.joiner
  names : f.values.names = g.values.names
  tests : f.hasFragments = false → List.Forall₂ SameTest f.values.entries g.values.entries

/-- Whether two calls with bound operands differ in values only. -/
inductive Build.DifferInValues : Build → Build → Prop where
  | insert (table : String) {values others : Row} (names : values.names = others.names) :
    DifferInValues (.insert table values) (.insert table others)
  | update (table : String) {values others : Row} {f g : Filter}
    (names : values.names = others.names) (tests : SameTests f g) :
    DifferInValues (.update table values f .parameterized) (.update table others g .parameterized)
  | select (table : String) (columns : List String) (order : Order) (page : Page) {f g : Filter}
    (tests : SameTests f g) :
    DifferInValues (.select table columns ⟨f, order, page⟩ .parameterized)
      (.select table columns ⟨g, order, page⟩ .parameterized)
  | delete (table key : String) {v w : Value} (test : SameTest (key, v) (key, w)) :
    DifferInValues (.delete table key v .parameterized) (.delete table key w .parameterized)

/-! ## Rows with the same names -/

section Names

variable {values others : Row} (h : values.names = others.names)
include h

/-- Entries of rows with the same names have the same names one by one. -/
theorem forall₂_of_names :
    List.Forall₂ (fun e f => e.1 = f.1) values.entries others.entries := by
  have hnames : List.Forall₂ (· = ·) (values.entries.map (·.1)) (others.entries.map (·.1)) :=
    List.forall₂_eq_eq_eq ▸ h
  rwa [List.forall₂_map_left_iff, List.forall₂_map_right_iff] at hnames

/-- Rows with the same names are both empty or neither is. -/
theorem isEmpty_congr : values.isEmpty = others.isEmpty := by
  rw [Row.isEmpty, Row.isEmpty, Bool.eq_iff_iff]
  simp only [List.isEmpty_iff_length_eq_zero, (forall₂_of_names h).length_eq]

/-- The same names have values. -/
theorem find?_isSome_congr (name : String) :
    (values.find? name).isSome = (others.find? name).isSome := by
  rw [Bool.eq_iff_iff, Row.find?_isSome_iff, Row.find?_isSome_iff, h]

end Names

/-! ## Statements that differ in values -/

/-- Whether two statements differ in the values of their bound names only. -/
structure SameShape (s t : Statement) : Prop where
  sql : s.sql = t.sql
  names : s.binds.names = t.binds.names
  generated : s.generated = t.generated

/-- Whether two positional statements differ in the values of their parameters only. -/
def SameForm (p q : Positional) : Prop :=
  p.sql = q.sql ∧ p.names = q.names

theorem SameShape.refl (s : Statement) : SameShape s s :=
  ⟨rfl, rfl, rfl⟩

section Steps

variable {s t : Statement} (h : SameShape s t)
include h

/-- Binding a name keeps statements of one shape, whatever the values are. -/
theorem SameShape.bind (name : String) (v w : Value) :
    SameShape (s.bind name v) (t.bind name w) where
  sql := h.sql
  names := by simp only [binds_bind, Row.names_insert, h.names]
  generated := h.generated

theorem SameShape.push (text : String) : SameShape (s.push text) (t.push text) where
  sql := by rw [sql_push, sql_push, h.sql]
  names := h.names
  generated := h.generated

theorem SameShape.pushPlaceholder (name : String) (v w : Value) :
    SameShape (s.pushPlaceholder name v) (t.pushPlaceholder name w) :=
  (h.push _).bind name v w

theorem SameShape.pushGenerated (v w : Value) :
    SameShape (s.pushGenerated v) (t.pushGenerated w) := by
  have hnext : SameShape { s with generated := s.generated + 1 }
      { t with generated := t.generated + 1 } :=
    ⟨h.sql, h.names, congrArg (· + 1) h.generated⟩
  unfold Statement.pushGenerated
  rw [h.generated] at hnext ⊢
  exact hnext.pushPlaceholder _ v w

theorem SameShape.bindIfAbsent (name : String) (v w : Value) :
    SameOutcome SameShape (s.bindIfAbsent name v).result (t.bindIfAbsent name w).result := by
  unfold Statement.bindIfAbsent bound?
  rw [find?_isSome_congr h.names name]
  split
  · exact .ok h
  · exact .ok (h.bind name v w)

end Steps

/-- Statements of one shape go on alike with text. -/
theorem keptByText_sameShape : KeptByText SameShape :=
  fun _ _ text h => h.push text

/-! ## Loops over entries -/

/-- The values of an insert do not matter for its shape. -/
theorem sameShape_pushValues {entries others : List (String × Value)}
    (names : List.Forall₂ (fun e f => e.1 = f.1) entries others) (position : Nat)
    {s t : Statement} (h : SameShape s t) :
    SameShape (pushValues position entries s) (pushValues position others t) := by
  induction names generalizing position s t with
  | nil => exact h
  | @cons e f _ _ name _ ih =>
    rw [pushValues, pushValues, ← name]
    apply ih
    exact (keptByText_sameShape.joiner h (position = 0) ", ").pushPlaceholder _ e.2 f.2

/-- Neither do the values of assignments. -/
theorem sameOutcome_pushAssignments {entries others : List (String × Value)}
    (names : List.Forall₂ (fun e f => e.1 = f.1) entries others) (position : Nat)
    {s t : Statement} (h : SameShape s t) :
    SameOutcome SameShape (pushAssignments position entries s)
      (pushAssignments position others t) := by
  induction names generalizing position s t with
  | nil => exact .ok h
  | @cons e f _ _ name _ ih =>
    rw [pushAssignments, pushAssignments, ← name]
    refine .bind_same _ fun column _ => ih _ ?_
    have hstart := keptByText_sameShape.joiner h (position = 0) ", "
    exact ((hstart.push column).push "=").pushPlaceholder _ e.2 f.2

/-- Neither do the values beside SQL fragments. -/
theorem sameOutcome_bindEntries {entries others : List (String × Value)}
    (names : List.Forall₂ (fun e f => e.1 = f.1) entries others) {s t : Statement}
    (h : SameShape s t) :
    SameOutcome SameShape (bindEntries entries s).result (bindEntries others t).result := by
  induction names generalizing s t with
  | nil => exact .ok h
  | @cons e f _ _ name _ ih =>
    rw [bindEntries, bindEntries, ← name]
    split
    · exact .error _
    · simp only [Noted.result_bind]
      exact .bind (h.bindIfAbsent _ e.2 f.2) fun _ _ h => ih h

theorem sameShape_pushFragments (joiner : String) (fragments : List String) {s t : Statement}
    (h : SameShape s t) :
    SameShape (pushFragments joiner fragments s) (pushFragments joiner fragments t) := by
  have hlater (r : List String) {s t : Statement} (h : SameShape s t) :
      SameShape (r.foldl (fun s f => (s.push joiner).push f) s)
        (r.foldl (fun s f => (s.push joiner).push f) t) := by
    induction r generalizing s t with
    | nil => exact h
    | cons f r ih => exact ih ((h.push joiner).push f)
  cases fragments with
  | nil => exact h
  | cons f r => exact hlater r (h.push f)

/-! ## Conditions -/

/-- The column of an entry is named by its key alone. -/
theorem ofEntry_column (key : String) (v w : Value) :
    (Comparison.ofEntry key v).1 = (Comparison.ofEntry key w).1 := by
  unfold Comparison.ofEntry
  split <;> rfl

/-- Whether an equality is tested for null is decided by its operator and by whether its
operand is null. -/
theorem nullTest?_congr {c d : Comparison} (operator : c.operator = d.operator)
    (null : c.operand.isNull = d.operand.isNull) : nullTest? c = nullTest? d := by
  obtain ⟨operator, v⟩ := c
  obtain ⟨_, w⟩ := d
  obtain rfl := operator
  cases v <;> cases w <;> first | rfl | cases null

/-- What a comparison shows of its operand: whether it is null. -/
theorem sameShape_pushComparison {s t : Statement} (h : SameShape s t) (column : String)
    {c d : Comparison} (operator : c.operator = d.operator)
    (null : c.operand.isNull = d.operand.isNull) :
    SameShape (s.pushComparison .parameterized column c)
      (t.pushComparison .parameterized column d) := by
  unfold pushComparison
  rw [nullTest?_congr operator null, operator]
  split
  · exact (h.push _).push _
  · exact ((((h.push _).push _).push _).push _).pushGenerated _ _

/-- Operands do not matter for the shape of conditions of the same tests. -/
theorem sameOutcome_pushConditions (joiner : String) {entries others : List (String × Value)}
    (tests : List.Forall₂ SameTest entries others) (first : Bool) {s t : Statement}
    (h : SameShape s t) :
    SameOutcome SameShape (pushConditions .parameterized joiner first entries s)
      (pushConditions .parameterized joiner first others t) := by
  induction tests generalizing first s t with
  | nil => exact .ok h
  | @cons e f _ _ test _ ih =>
    obtain ⟨key, v⟩ := e
    obtain ⟨_, w⟩ := f
    obtain ⟨rfl, operator, null⟩ := test
    rw [pushConditions, pushConditions, ofEntry_column key v w]
    refine .bind_same _ fun column _ => ih false ?_
    have hstart := keptByText_sameShape.joiner h (first = true) joiner
    exact sameShape_pushComparison hstart column operator null

/-- Nor do they for the shape of filters of the same tests. -/
theorem sameOutcome_pushWhere {f g : Filter} (tests : SameTests f g) {s t : Statement}
    (h : SameShape s t) :
    SameOutcome SameShape (pushWhere .parameterized f s).result
      (pushWhere .parameterized g t).result := by
  have hnames := forall₂_of_names tests.names
  have hlive : f.liveFragments = g.liveFragments := by
    rw [Filter.liveFragments, Filter.liveFragments, tests.fragments]
  have hfragments : f.hasFragments = g.hasFragments := by
    rw [Filter.hasFragments, Filter.hasFragments, hlive]
  have hempty : f.isEmpty = g.isEmpty := by
    rw [Filter.isEmpty, Filter.isEmpty, hfragments, isEmpty_congr tests.names]
  unfold pushWhere
  rw [← hempty, ← hfragments, ← tests.joiner, ← hlive]
  split
  · exact .ok h
  · split
    · exact sameOutcome_bindEntries hnames (sameShape_pushFragments _ _ (h.push " WHERE "))
    · rename_i hnone
      exact sameOutcome_pushConditions _ (tests.tests (by simpa using hnone)) true
        (h.push " WHERE ")

/-! ## Calls -/

/-- Values are found for the same names. -/
theorem sameOutcome_lookUp {binds others : Row} (h : binds.names = others.names)
    (names : List String) :
    SameOutcome (fun _ _ => True) (lookUp binds names) (lookUp others names) := by
  induction names with
  | nil => exact .ok trivial
  | cons name r ih =>
    have hfound := find?_isSome_congr h name
    rw [lookUp, lookUp]
    cases hb : binds.find? name with
    | none =>
      cases ho : others.find? name with
      | none => exact .error _
      | some w => simp [hb, ho] at hfound
    | some v =>
      cases ho : others.find? name with
      | none => simp [hb, ho] at hfound
      | some w => exact ih.map fun _ _ _ => trivial

/-- The positional form does not depend on values either. -/
theorem sameForm_compile {s t : Statement} (h : SameShape s t) :
    SameOutcome SameForm (compile s) (compile t) := by
  unfold compile
  rw [h.sql]
  exact (sameOutcome_lookUp h.names _).map fun _ _ _ => ⟨rfl, rfl⟩

/-- An insert is built or refused alike whatever the values are. -/
theorem sameOutcome_insert (table : String) {values others : Row}
    (names : values.names = others.names) :
    SameOutcome SameShape (insert table values) (insert table others) := by
  have hentries := forall₂_of_names names
  unfold insert
  refine .bind_same _ fun table _ => ?_
  rw [isEmpty_congr names, names]
  split
  · exact .error _
  · refine .bind_same _ fun _ _ => .ok ?_
    exact (sameShape_pushValues hentries 0 (.refl _)).push ")"

/-- An update is built or refused alike whatever the values and operands are. -/
theorem sameOutcome_update (table : String) {values others : Row} {f g : Filter}
    (names : values.names = others.names) (tests : SameTests f g) :
    SameOutcome SameShape (update table values f .parameterized).result
      (update table others g .parameterized).result := by
  have hentries := forall₂_of_names names
  unfold update
  simp only [Noted.result_bind]
  refine .bind_same _ fun table _ => ?_
  rw [isEmpty_congr names]
  split
  · exact .error _
  · simp only [Noted.result_bind]
    refine .bind (sameOutcome_pushAssignments hentries 0 (.refl _)) fun s t h => ?_
    refine .bind_same (.ok ()) fun _ _ => ?_
    refine .bind (sameOutcome_pushWhere tests h) fun s t h => .ok ?_
    exact (h.push " RETURNING ").push "*"

/-- A deletion is built or refused alike whatever the operand is. -/
theorem sameOutcome_delete (table key : String) {v w : Value} (test : SameTest (key, v) (key, w)) :
    SameOutcome SameShape (delete table key v .parameterized)
      (delete table key w .parameterized) := by
  obtain ⟨-, operator, null⟩ := test
  unfold delete
  refine .bind_same _ fun table _ => ?_
  simp only [ofEntry_column key v w]
  refine .bind_same _ fun column _ => .ok ?_
  exact sameShape_pushComparison (.refl _) column operator null

/-- Values have no influence on text.  Two calls with bound operands that differ in values
only are refused with one error, or build statements with the same text and the same bound
names; and these have no positional form for one reason, or positional forms with the same
text and the same names, so that only the values of the parameters differ. -/
theorem differInValues_result {call other : Build} (h : call.DifferInValues other) :
    SameOutcome
      (fun s t => s.sql = t.sql ∧ s.binds.names = t.binds.names ∧
        SameOutcome (fun p q => p.sql = q.sql ∧ p.names = q.names) (compile s) (compile t))
      call.result other.result := by
  have hresult : SameOutcome SameShape call.result other.result := by
    cases h with
    | insert table names => exact sameOutcome_insert table names
    | update table names tests => exact sameOutcome_update table names tests
    | select table columns order page tests =>
      exact sameOutcome_select keptByText_sameShape table columns fun sql =>
        sameOutcome_pushWhere tests (.refl _)
    | delete table key test => exact sameOutcome_delete table key test
  exact hresult.mono fun s t hshape => ⟨hshape.sql, hshape.names, sameForm_compile hshape⟩

/-- A text that looks like SQL leaves no trace in the text of an update. -/
theorem differInValues_result_update :
    let call := Build.update "users" ⟨[("name", .text "x")]⟩ (.ofRow ⟨[("age", .text ">=18")]⟩)
      .parameterized
    let other := Build.update "users" ⟨[("name", .null)]⟩
      (.ofRow ⟨[("age", .text ">=0' OR ':x")]⟩) .parameterized
    call.DifferInValues other ∧ ∃ s t, call.result = .ok s ∧ other.result = .ok t ∧
      t.sql = "UPDATE users SET name=:name WHERE age >= :__f0 RETURNING *" ∧ s.sql = t.sql := by
  intro call other
  have hcall : call.result =
      .ok ⟨"UPDATE users SET name=:name WHERE age >= :__f0 RETURNING *",
        ⟨[("name", .text "x"), ("__f0", .text "18")]⟩, 1⟩ := by cbv
  have hother : other.result =
      .ok ⟨"UPDATE users SET name=:name WHERE age >= :__f0 RETURNING *",
        ⟨[("name", .null), ("__f0", .text "0' OR ':x")]⟩, 1⟩ := by cbv
  have htest : SameTest ("age", .text ">=18") ("age", .text ">=0' OR ':x") :=
    ⟨rfl, by cbv, by cbv⟩
  have hdiffer : call.DifferInValues other :=
    .update "users" rfl ⟨rfl, rfl, rfl, fun _ => .cons htest .nil⟩
  have hsame := differInValues_result hdiffer
  rw [hcall, hother] at hsame
  cases hsame with
  | ok related => exact ⟨hdiffer, _, _, hcall, hother, rfl, related.1⟩

end TableAccess.Statement
