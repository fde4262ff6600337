import TableAccess.Proofs.Identifier.Front
import TableAccess.Proofs.Statement.Style
import TableAccess.Proofs.Text.Joined
/-!
# What the parts of a selection show

The text of an entry of a select list, of a condition and of a term of an order can be told from
what follows it, and it shows which part it is; of the operand of a condition it shows only
whether it is tested for null.  Names in quotes may contain whatever is written between the
parts, but they are read up to their closing quotes first.

Main results:

- Theorem `separates_parts`: separators and keywords are told from each other.
- Theorems `shows_item`, `shows_condition` and `shows_term`: what the texts of parts show.
- Theorem `eq_of_shapes`: conditions are known by what they show and by their operands.
- Theorem `pageText_injective`: different pages have different texts.
-/

namespace TableAccess.Statement

open Text Placeholder Identifier

/-! ## Ends of parts -/

/-- Whether a part of a selection ends before this text. -/
def Apart (rest : List Char) : Prop :=
  ∀ c, rest.head? = some c → c = ' ' ∨ c = ','

/-- A column stops before what is apart from it. -/
theorem Apart.stops {rest : List Char} (h : Apart rest) : Stops rest := by
  constructor
  · intro c hc
    rcases h c hc with rfl | rfl <;> decide
  · rintro r rfl
    rcases h '.' rfl with hdot | hdot <;> cases hdot

/-- What is apart does not go on with a name. -/
theorem Apart.not_isNamePart {rest : List Char} (h : Apart rest) :
    ∀ c, rest.head? = some c → isNamePart c = false := by
  intro c hc
  rcases h c hc with rfl | rfl <;> decide

/-- Whether a text stands between the parts of a list. -/
def IsSeparator (s : List Char) : Prop :=
  s ∈ [", ".toList, " AND ".toList, " OR ".toList]

theorem isSeparator_comma : IsSeparator ", ".toList := by
  simp [IsSeparator]

theorem isSeparator_joiner (joiner : Joiner) :
    IsSeparator (" " ++ joiner.sql ++ " ").toList := by
  cases joiner <;> simp [IsSeparator, Joiner.sql]

/-- Whether no list goes on with this text. -/
def StopsList (rest : List Char) : Prop :=
  rest = [] ∨ ∃ word ∈ [" FROM ".toList, " WHERE ".toList, " ORDER BY ".toList, " LIMIT ".toList],
    ∃ s, rest = word ++ s

/-- Separators and keywords are told from each other. -/
theorem separates_parts : Separates IsSeparator StopsList Apart where
  eq_of_append := by
    intro a b s t ha hb h
    simp only [IsSeparator, List.mem_cons, List.not_mem_nil, or_false] at ha hb
    rcases ha with rfl | rfl | rfl <;> rcases hb with rfl | rfl | rfl <;>
      first | rfl | simp at h
  not_stop := by
    intro a s ha h
    simp only [IsSeparator, StopsList, List.mem_cons, List.not_mem_nil, or_false] at ha h
    rcases h with h | ⟨word, hword, t, h⟩
    · rcases ha with rfl | rfl | rfl <;> simp at h
    · rcases ha with rfl | rfl | rfl <;> rcases hword with rfl | rfl | rfl | rfl <;> simp at h
  after_append := by
    intro a s ha c hc
    simp only [IsSeparator, List.mem_cons, List.not_mem_nil, or_false] at ha
    rcases ha with rfl | rfl | rfl
    · exact .inr (Option.some.inj hc).symm
    · exact .inl (Option.some.inj hc).symm
    · exact .inl (Option.some.inj hc).symm
  after_stop := by
    rintro u (rfl | ⟨word, hword, s, rfl⟩) c hc
    · cases hc
    · simp only [List.mem_cons, List.not_mem_nil, or_false] at hword
      rcases hword with rfl | rfl | rfl | rfl <;> exact .inl (Option.some.inj hc).symm

/-- Texts without a mark are equal if both end at the mark. -/
theorem eq_of_mark {mark : Char} {a b u v : List Char} (ha : mark ∉ a) (hb : mark ∉ b)
    (h : a ++ mark :: u = b ++ mark :: v) : a = b ∧ u = v := by
  have hother : ∀ {s : List Char}, mark ∉ s → ∀ c ∈ s, (c != mark) = true := by
    intro s hs c hc
    rw [bne_iff_ne]
    rintro rfl
    exact hs hc
  have hmark : ∀ {s : List Char} c, (mark :: s).head? = some c → (c != mark) = false := by
    intro s c hc
    obtain rfl := Option.some.inj hc
    exact bne_self_eq_false mark
  obtain ⟨hab, hrest⟩ := eq_of_runs (hother ha) (hother hb) hmark hmark h
  exact ⟨hab, (List.cons.inj hrest).2⟩

/-! ## Lists of parts -/

/-- The text of joined groups after the first one. -/
theorem source_joinGroups_later (joiner : String) (groups : List (List Piece)) :
    source (joinGroups joiner false groups) = later joiner.toList (groups.map source) := by
  induction groups with
  | nil => rfl
  | cons g r ih => simp [joinGroups, ih, later, Piece.source]

/-- The text of groups is their texts with joiners between them. -/
theorem source_joinGroups (joiner : String) (groups : List (List Piece)) :
    source (joinGroups joiner true groups) = joinedBy joiner.toList (groups.map source) := by
  cases groups with
  | nil => rfl
  | cons g r => simp [joinGroups, source_joinGroups_later, joinedBy]

/-! ## Select lists -/

/-- The entries of a select list without the blanks around them; no entry means all. -/
def shownItems (columns : List String) : List String :=
  if columns.isEmpty then ["*"] else columns.map Text.trim

/-- A select list shows at least one entry. -/
theorem shownItems_ne_nil (columns : List String) : shownItems columns ≠ [] := by
  unfold shownItems
  split
  · exact List.cons_ne_nil _ _
  · rename_i hne
    simpa using hne

/-- Whether a text is an entry of a select list: a star, or an identifier that may have a star
as its last segment. -/
def IsItem (item : String) : Prop :=
  item = "*" ∨ ∃ role name, check role name = .ok name ∧
    ∃ ending ∈ [[], ['.', '*']], item.toList = name.toList ++ ending

/-- The text of an entry of a select list is the entry without blanks around it. -/
theorem source_itemPieces (item : String) : source (itemPieces item) = (Text.trim item).toList := by
  unfold itemPieces
  simp only
  split
  · exact List.append_nil _
  · split
    · rename_i table hend
      rw [(Identifier.dropEnding?_eq_some_iff _ _ _).1 hend]
      simp [Piece.source]
    · exact List.append_nil _

/-- An arranged entry of a select list is one that is accepted. -/
theorem isItem_of_arranged {item : String} (h : Arranged (itemPieces item)) :
    IsItem (Text.trim item) := by
  unfold itemPieces at h
  simp only at h
  split at h
  · rename_i hstar
    exact .inl hstar
  · split at h
    · rename_i table hend
      obtain ⟨⟨role, hcheck⟩, -⟩ := h
      refine .inr ⟨role, _, hcheck, ['.', '*'], by simp, ?_⟩
      rw [(Identifier.dropEnding?_eq_some_iff _ _ _).1 hend, String.toList_ofList]
    · obtain ⟨⟨role, hcheck⟩, -⟩ := h
      exact .inr ⟨role, _, hcheck, [], by simp, (List.append_nil _).symm⟩

/-- The text of a select list is its entries with commas between them. -/
theorem selectList_joined {columns : List String} {text : String}
    (h : selectList columns = .ok text) :
    text.toList = joinedBy ", ".toList ((shownItems columns).map String.toList) ∧
      ∀ item ∈ shownItems columns, IsItem item := by
  have htext := (selectList_eq_ok h).1
  unfold selectList at h
  unfold listPieces at htext
  unfold shownItems
  by_cases hempty : columns.isEmpty = true
  · rw [if_pos hempty] at htext ⊢
    refine ⟨?_, fun item hitem => .inl (List.mem_singleton.1 hitem)⟩
    rw [htext]
    simp [Piece.source, joinedBy, later]
  · rw [if_neg hempty] at h htext ⊢
    rw [source_joinGroups] at htext
    refine ⟨?_, fun item hitem => ?_⟩
    · rw [htext]
      simp only [List.map_map, Function.comp_def, source_itemPieces]
    · obtain ⟨column, hcolumn, rfl⟩ := List.mem_map.1 hitem
      cases hitems : columns.mapM Identifier.checkSelectItem with
      | error e => simp [hitems, Except.map] at h
      | ok items =>
        have harranged : Arranged (itemPieces column) :=
          ((mapM_checkSelectItem_eq_ok hitems).2 _ (List.mem_map_of_mem hcolumn)).1
        exact isItem_of_arranged harranged

/-- A star as last segment is no further part of an identifier. -/
theorem stops_ending {ending u : List Char} (h : ending ∈ [[], ['.', '*']]) (hu : Apart u) :
    Stops (ending ++ u) := by
  simp only [List.mem_cons, List.not_mem_nil, or_false] at h
  rcases h with rfl | rfl
  · exact hu.stops
  · refine ⟨ends_dot _, fun r hr c hc => ?_⟩
    obtain rfl := (List.cons.inj hr).2
    obtain rfl := Option.some.inj hc
    decide

/-- No identifier begins with a star. -/
theorem ne_star_of_check {role : Role} {name : String} (h : check role name = .ok name)
    (s u : List Char) : name.toList ++ s ≠ "*".toList ++ u := by
  intro heq
  obtain ⟨c, t, hname, hc⟩ := exists_head_of_check h
  rw [hname] at heq
  obtain rfl : c = '*' := (List.cons.inj heq).1
  revert hc
  decide

/-- An entry of a select list at the front of a text. -/
theorem shows_item : Shows IsItem String.toList id Apart := by
  intro item other u v hitem hother hu hv h
  rcases hitem with rfl | ⟨role, name, hname, ending, hending, htext⟩
  · rcases hother with rfl | ⟨role, name, hname, ending, -, htext⟩
    · exact ⟨rfl, List.append_cancel_left h⟩
    · rw [htext, List.append_assoc] at h
      exact absurd h.symm (ne_star_of_check hname _ _)
  · rcases hother with rfl | ⟨role', name', hname', ending', hending', htext'⟩
    · rw [htext, List.append_assoc] at h
      exact absurd h (ne_star_of_check hname _ _)
    · have hfront := h
      rw [htext, htext', List.append_assoc, List.append_assoc] at hfront
      obtain ⟨rfl, hrest⟩ := eq_of_check hname hname' (stops_ending hending hu)
        (stops_ending hending' hv) hfront
      have hendings : ending = ending' := by
        simp only [List.mem_cons, List.not_mem_nil, or_false] at hending hending'
        rcases hending with rfl | rfl <;> rcases hending' with rfl | rfl
        · rfl
        · exact absurd (hu '.' (by rw [← List.nil_append u, hrest]; rfl)) (by decide)
        · exact absurd (hv '.' (by rw [← List.nil_append v, ← hrest]; rfl)) (by decide)
        · rfl
      subst hendings
      exact ⟨String.toList_inj.1 (htext.trans htext'.symm), List.append_cancel_left hrest⟩

/-! ## Conditions -/

/-- What follows the column of a comparison whose operand is bound; `number` counts the names
that were made up before. -/
def comparisonEnd (number : Nat) (c : Comparison) : List Char :=
  match nullTest? c with
  | some test => test.toList
  | none => ' ' :: ((c.operator.sql ++ " ").toList ++ ':' :: (generatedName number).toList)

/-- The text of a comparison is its column and its end. -/
theorem source_comparisonPieces (number : Nat) (column : String) (c : Comparison) :
    source (comparisonPieces .parameterized number column c) =
      column.toList ++ comparisonEnd number c := by
  unfold comparisonPieces comparisonEnd
  cases nullTest? c with
  | some test => simp [Piece.source]
  | none => simp [Piece.source, operandPiece]

/-- A comparison with its column, and the number of names that were made up before. -/
structure Numbered where
  number : Nat
  column : String
  comparison : Comparison

namespace Numbered

/-- The text of a comparison whose operand is bound. -/
def text (x : Numbered) : List Char :=
  x.column.toList ++ comparisonEnd x.number x.comparison

/-- Whether the column of a comparison passes its check. -/
def Checked (x : Numbered) : Prop :=
  check .column x.column = .ok x.column

/-- A column with its comparison. -/
def condition (x : Numbered) : String × Comparison :=
  (x.column, x.comparison)

end Numbered

/-- What the text of a condition shows if its operand is bound. -/
def conditionShape (condition : String × Comparison) : String × Operator × Bool :=
  (condition.1, condition.2.operator, condition.2.testsNull)

/-- The columns of a filter that is accepted are checked. -/
theorem checked_of_pushWhere {style : OperandStyle} {filter : Filter} {s t : Statement}
    (structured : filter.hasFragments = false)
    (h : (pushWhere style filter s).result = .ok t) :
    ∀ e ∈ filter.values.entries, ∃ column,
      checkColumn (Comparison.ofEntry e.1 e.2).1 = .ok column := by
  unfold pushWhere at h
  simp only at h
  split at h
  · rename_i hempty
    rw [Filter.isEmpty_of_structured structured, List.isEmpty_iff] at hempty
    simp [hempty]
  · rw [if_neg (by simp [structured])] at h
    exact (pushConditions_eq_ok h).2

/-- The conditions of a filter with their numbers. -/
theorem exists_numbered (number : Nat) {entries : List (String × Value)}
    (h : ∀ e ∈ entries, ∃ column,
      checkColumn (Comparison.ofEntry e.1 e.2).1 = .ok column) :
    ∃ xs : List Numbered, (∀ x ∈ xs, x.Checked) ∧
      xs.map Numbered.condition = entries.map (fun e => Comparison.ofEntry e.1 e.2) ∧
      (conditionGroups .parameterized number entries).map source = xs.map Numbered.text := by
  induction entries generalizing number with
  | nil => exact ⟨[], by simp, rfl, rfl⟩
  | cons e r ih =>
    obtain ⟨key, value⟩ := e
    obtain ⟨column, hcolumn⟩ := h (key, value) List.mem_cons_self
    obtain ⟨xs, hchecked, hconditions, htexts⟩ :=
      ih (nextNumber .parameterized number (Comparison.ofEntry key value).2)
        fun e he => h e (List.mem_cons_of_mem _ he)
    refine ⟨⟨number, (Comparison.ofEntry key value).1, (Comparison.ofEntry key value).2⟩ :: xs,
      ?_, ?_, ?_⟩
    · intro x hx
      rcases List.mem_cons.1 hx with rfl | hx
      · exact (checkColumn_eq_ok hcolumn).2
      · exact hchecked x hx
    · rw [List.map_cons, List.map_cons, hconditions]
      rfl
    · rw [conditionGroups, List.map_cons, List.map_cons, htexts, source_comparisonPieces]
      rfl

/-- A comparison is a test for null, or its operand is bound. -/
theorem comparisonEnd_cases (number : Nat) (c : Comparison) :
    (c = ⟨.equal, .null⟩ ∧ comparisonEnd number c = " IS NULL".toList) ∨
    (c = ⟨.notEqual, .null⟩ ∧ comparisonEnd number c = " IS NOT NULL".toList) ∨
    (c.testsNull = false ∧ comparisonEnd number c =
      ' ' :: ((c.operator.sql ++ " ").toList ++ ':' :: (generatedName number).toList)) := by
  obtain ⟨operator, v⟩ := c
  cases v <;> cases operator <;> simp [comparisonEnd, nullTest?, Comparison.testsNull, Value.isNull]

/-- The end of a comparison is apart from the column. -/
theorem apart_comparisonEnd (number : Nat) (c : Comparison) (u : List Char) :
    Apart (comparisonEnd number c ++ u) := by
  intro d hd
  rcases comparisonEnd_cases number c with ⟨-, hend⟩ | ⟨-, hend⟩ | ⟨-, hend⟩
  all_goals
    rw [hend] at hd
    exact .inl (Option.some.inj hd).symm

/-- The operators have different texts. -/
theorem sql_injective : Function.Injective Operator.sql := by
  intro a b h
  cases a <;> cases b <;> first | rfl | exact absurd h (by decide)

/-- No operator is taken for a test for null. -/
theorem sql_ne_test (operator : Operator) (s u : List Char) :
    ' ' :: ((operator.sql ++ " ").toList ++ s) ≠ ' ' :: 'I' :: u := by
  cases operator <;> simp [Operator.sql]

/-- An operator with a bound operand at the front of a text. -/
theorem eq_of_boundEnd {m n : Nat} {a b : Operator} {u v : List Char} (hu : Apart u)
    (hv : Apart v)
    (h : ' ' :: ((a.sql ++ " ").toList ++ ':' :: (generatedName m).toList) ++ u =
      ' ' :: ((b.sql ++ " ").toList ++ ':' :: (generatedName n).toList) ++ v) :
    a = b ∧ u = v := by
  have hmark : ∀ operator : Operator, ':' ∉ (operator.sql ++ " ").toList := by
    intro operator
    cases operator <;> decide
  have hname : ∀ number, Placeholder.isName (generatedName number).toList = true :=
    isName_append_natText (by decide)
  simp only [List.cons_append, List.append_assoc] at h
  obtain ⟨hsql, hrest⟩ := eq_of_mark (hmark a) (hmark b) (List.cons.inj h).2
  have hoperator : a.sql = b.sql := by
    rw [String.toList_append, String.toList_append] at hsql
    exact String.toList_inj.1 (List.append_cancel_right hsql)
  exact ⟨sql_injective hoperator,
    (eq_of_names (hname m) (hname n) hu.not_isNamePart hv.not_isNamePart hrest).2⟩

/-- What follows the column of a comparison tells the operator and whether there is an
operand. -/
theorem eq_of_comparisonEnd {m n : Nat} {c d : Comparison} {u v : List Char} (hu : Apart u)
    (hv : Apart v) (h : comparisonEnd m c ++ u = comparisonEnd n d ++ v) :
    c.operator = d.operator ∧ c.testsNull = d.testsNull ∧ u = v := by
  rcases comparisonEnd_cases m c with ⟨rfl, hc⟩ | ⟨rfl, hc⟩ | ⟨hcnull, hc⟩
  · rcases comparisonEnd_cases n d with ⟨rfl, hd⟩ | ⟨rfl, hd⟩ | ⟨-, hd⟩
    · rw [hc, hd] at h
      exact ⟨rfl, rfl, List.append_cancel_left h⟩
    · rw [hc, hd] at h
      simp at h
    · -- no operator begins with the letter with which a test for null goes on
      rw [hc, hd, List.cons_append, List.append_assoc] at h
      exact absurd h.symm (sql_ne_test _ _ _)
  · rcases comparisonEnd_cases n d with ⟨rfl, hd⟩ | ⟨rfl, hd⟩ | ⟨-, hd⟩
    · rw [hc, hd] at h
      simp at h
    · rw [hc, hd] at h
      exact ⟨rfl, rfl, List.append_cancel_left h⟩
    · rw [hc, hd, List.cons_append, List.append_assoc] at h
      exact absurd h.symm (sql_ne_test _ _ _)
  · rcases comparisonEnd_cases n d with ⟨rfl, hd⟩ | ⟨rfl, hd⟩ | ⟨hdnull, hd⟩
    · rw [hc, hd, List.cons_append, List.append_assoc] at h
      exact absurd h (sql_ne_test _ _ _)
    · rw [hc, hd, List.cons_append, List.append_assoc] at h
      exact absurd h (sql_ne_test _ _ _)
    · rw [hc, hd] at h
      obtain ⟨hoperator, huv⟩ := eq_of_boundEnd hu hv h
      exact ⟨hoperator, hcnull.trans hdnull.symm, huv⟩

/-- A condition at the front of a text. -/
theorem shows_condition :
    Shows Numbered.Checked Numbered.text (fun x => conditionShape x.condition) Apart := by
  intro x y u v hx hy hu hv h
  rw [Numbered.text, Numbered.text, List.append_assoc, List.append_assoc] at h
  obtain ⟨hcolumn, hend⟩ := eq_of_check hx hy (apart_comparisonEnd _ _ u).stops
    (apart_comparisonEnd _ _ v).stops h
  obtain ⟨hoperator, hnull, huv⟩ := eq_of_comparisonEnd hu hv hend
  refine ⟨?_, huv⟩
  simp only [conditionShape, Numbered.condition, hcolumn, hoperator, hnull]

/-- Conditions are known by their shapes and the operands that are bound. -/
theorem eq_of_shapes {xs ys : List (String × Comparison)}
    (hshapes : xs.map conditionShape = ys.map conditionShape)
    (hoperands : Comparison.operands (xs.map (·.2)) = Comparison.operands (ys.map (·.2))) :
    xs = ys := by
  induction xs generalizing ys with
  | nil => exact (List.map_eq_nil_iff.1 hshapes.symm).symm
  | cons x xs ih =>
    cases ys with
    | nil => cases hshapes
    | cons y ys =>
      obtain ⟨hshape, hshapes'⟩ := List.cons.inj hshapes
      obtain ⟨column, operator, v⟩ := x
      obtain ⟨column', operator', w⟩ := y
      simp only [conditionShape, Prod.mk.injEq] at hshape
      obtain ⟨rfl, rfl, hnull⟩ := hshape
      rw [List.map_cons, List.map_cons, Comparison.operands_cons, Comparison.operands_cons,
        hnull] at hoperands
      by_cases htest : Comparison.testsNull ⟨operator, w⟩ = true
      · rw [if_pos htest, if_pos htest] at hoperands
        rw [htest] at hnull
        obtain rfl : v = .null := Comparison.eq_null_of_testsNull hnull
        obtain rfl : w = .null := Comparison.eq_null_of_testsNull htest
        rw [ih hshapes' hoperands]
      · rw [if_neg htest, if_neg htest] at hoperands
        obtain ⟨hoperand, hoperands'⟩ := List.cons.inj hoperands
        obtain rfl : v = w := hoperand
        rw [ih hshapes' hoperands']

/-! ## Orders and pages -/

/-- The text of a term of an order. -/
def termText (term : String × Direction) : List Char :=
  term.1.toList ++ ' ' :: term.2.sql.toList

/-- The text of a page. -/
def pageText (page : Page) : List Char :=
  (" LIMIT " ++ page.limit.sql ++ " OFFSET " ++ Text.natText page.offset).toList

/-- A term of an order at the front of a text. -/
theorem shows_term : Shows (fun term => checkColumn term.1 = .ok term.1) termText id Apart := by
  intro x y u v hx hy _ _ h
  have hblank : ∀ s, Apart (' ' :: s) := fun s c hc => .inl (Option.some.inj hc).symm
  obtain ⟨name, direction⟩ := x
  obtain ⟨name', direction'⟩ := y
  simp only [termText, List.append_assoc, List.cons_append] at h
  obtain ⟨rfl, hrest⟩ := eq_of_check hx hy (hblank _).stops (hblank _).stops h
  obtain ⟨-, hrest⟩ := List.cons.inj hrest
  cases direction <;> cases direction'
  · exact ⟨rfl, List.append_cancel_left hrest⟩
  · simp [Direction.sql] at hrest
  · simp [Direction.sql] at hrest
  · exact ⟨rfl, List.append_cancel_left hrest⟩

/-- Different limits are written differently. -/
theorem limit_sql_injective : Function.Injective Limit.sql := by
  have hall : ∀ count, Text.natText count ≠ "ALL" := by
    intro count h
    have hdigits : Text.natDigits count = "ALL".toList := by
      rw [← h, Text.natText, String.toList_ofList]
    have hletter : 'A' ∈ Text.natDigits count := hdigits ▸ by decide
    exact absurd (Text.isDigit_of_mem_natDigits hletter) (by decide)
  intro a b h
  cases a with
  | all =>
    cases b with
    | all => rfl
    | rows count positive => exact absurd h.symm (hall count)
  | rows count positive =>
    cases b with
    | all => exact absurd h (hall count)
    | rows other positive' =>
      obtain rfl : count = other := Text.natDigits_injective (String.ofList_injective h)
      rfl

/-- Different pages have different texts. -/
theorem pageText_injective : Function.Injective pageText := by
  have hdigits : ∀ count, ' ' ∉ (Text.natText count).toList := by
    intro count hmem
    rw [Text.natText, String.toList_ofList] at hmem
    exact absurd (Text.isDigit_of_mem_natDigits hmem) (by decide)
  have hlimit : ∀ limit : Limit, ' ' ∉ limit.sql.toList := by
    intro limit
    cases limit with
    | all => decide
    | rows count positive => exact hdigits count
  intro a b h
  obtain ⟨limit, offset⟩ := a
  obtain ⟨limit', offset'⟩ := b
  simp only [pageText, String.toList_append, List.append_assoc] at h
  obtain ⟨hlimits, hoffsets⟩ := eq_of_mark (hlimit limit) (hlimit limit')
    (List.append_cancel_left h)
  have hoffset : (Text.natText offset).toList = (Text.natText offset').toList :=
    List.append_cancel_left hoffsets
  obtain rfl := limit_sql_injective (String.toList_inj.1 hlimits)
  obtain rfl : offset = offset' :=
    Text.natDigits_injective (String.ofList_injective (String.toList_inj.1 hoffset))
  rfl

end TableAccess.Statement
