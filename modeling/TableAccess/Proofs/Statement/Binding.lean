import Mathlib.Data.List.Nodup
import TableAccess.Proofs.Statement.Style
/-!
# Values of slots

Every slot of a statement was pushed with a value, but a name that is pushed again has only the
value that was pushed last.  The operands of an update are pushed after its assignments under
names that differ from each other, so they keep their values.  A column is the name of its own
slot if it can be one, also where it is spelled like a made-up name, so an assignment may lose
its value to an operand or to another assignment.

Main results:

- Theorem `bound?_write`: the value that was pushed last under a name is bound to it.
- Theorem `slots_update`: the slots of an update.
- Theorem `placeholderFor_eq_cases`: which columns share the name of their slots.
- Theorem `update_bound`: which slots of an update have their own values.
-/

namespace TableAccess

/-- A name has its value in the first of two lists that has the name. -/
theorem Row.findEntry_append (name : String) (entries others : List (String × Value)) :
    findEntry name (entries ++ others) = (findEntry name entries).or (findEntry name others) := by
  induction entries with
  | nil => rfl
  | cons e r ih =>
    rw [List.cons_append, findEntry, findEntry, ih]
    split <;> rfl

/-- What is found is an entry with that name. -/
theorem Row.mem_of_findEntry {name : String} {entries : List (String × Value)} {value : Value}
    (h : findEntry name entries = some value) : (name, value) ∈ entries := by
  induction entries with
  | nil => cases h
  | cons e r ih =>
    rw [findEntry] at h
    split at h
    · rename_i hname
      rw [← hname, ← Option.some.inj h]
      exact List.mem_cons_self
    · exact List.mem_cons_of_mem e (ih h)

/-- A name among entries has a value there. -/
theorem Row.findEntry_isSome {name : String} {entries : List (String × Value)}
    (h : name ∈ entries.map (·.1)) : (findEntry name entries).isSome = true :=
  (find?_isSome_iff ⟨entries⟩ name).2 h

/-- What is found from the end of entries is one of them. -/
theorem Row.exists_findEntry_reverse {name : String} {entries : List (String × Value)}
    (h : name ∈ entries.map (·.1)) :
    ∃ value, findEntry name entries.reverse = some value ∧ (name, value) ∈ entries := by
  have hfound : (findEntry name entries.reverse).isSome = true := by
    apply findEntry_isSome
    rwa [List.map_reverse, List.mem_reverse]
  obtain ⟨value, hvalue⟩ := Option.isSome_iff_exists.1 hfound
  exact ⟨value, hvalue, List.mem_reverse.1 (mem_of_findEntry hvalue)⟩

namespace Statement

/-! ## Slots -/

/-- The name of a slot with its value. -/
def Piece.slot? : Piece → Option (String × Value)
  | text _ _ => none
  | slot name value => some (name, value)

/-- The names of slots with the values that were pushed, in order. -/
def slots (ps : List Piece) : List (String × Value) :=
  ps.filterMap Piece.slot?

theorem slots_append (ps qs : List Piece) : slots (ps ++ qs) = slots ps ++ slots qs :=
  List.filterMap_append

/-- Joiners are no slots. -/
theorem slots_joinGroups (joiner : String) (first : Bool) (groups : List (List Piece)) :
    slots (joinGroups joiner first groups) = groups.flatMap slots := by
  induction groups generalizing first with
  | nil => rfl
  | cons g r ih =>
    rw [joinGroups, slots_append, slots_append, ih, List.flatMap_cons]
    cases first <;> rfl

/-- The value that was pushed last under a name is bound to it. -/
theorem bound?_write (s : Statement) (ps : List Piece) (name : String) :
    (s.write ps).bound? name =
      (Row.findEntry name (slots ps).reverse).or (s.bound? name) := by
  induction ps generalizing s with
  | nil => rfl
  | cons p r ih =>
    cases p with
    | text origin t => exact ih (s.push t)
    | slot other value =>
      have hslots : slots (.slot other value :: r) = (other, value) :: slots r := rfl
      rw [write, ih, hslots, List.reverse_cons, Row.findEntry_append, Option.or_assoc]
      congr 1
      by_cases hname : name = other
      · subst hname
        simp [pushPlaceholder, Row.findEntry]
      · rw [pushPlaceholder, bound?_bind_of_ne _ value hname]
        simp only [Row.findEntry, if_neg (Ne.symm hname), Option.none_or]
        rfl

/-- A slot whose name is pushed has the value of a slot with that name. -/
theorem exists_bound?_write (s : Statement) {ps : List Piece} {name : String}
    (h : name ∈ (slots ps).map (·.1)) :
    ∃ value, (s.write ps).bound? name = some value ∧ (name, value) ∈ slots ps := by
  obtain ⟨value, hvalue, hmem⟩ := Row.exists_findEntry_reverse h
  refine ⟨value, ?_, hmem⟩
  rw [bound?_write, hvalue]
  rfl

/-- Slots with names that differ from each other keep their values if no others are pushed
after them. -/
theorem bound?_write_of_last (s : Statement) {ps : List Piece}
    {before last : List (String × Value)} (hslots : slots ps = before ++ last)
    (hnodup : (last.map (·.1)).Nodup) {e : String × Value} (he : e ∈ last) :
    (s.write ps).bound? e.1 = some e.2 := by
  obtain ⟨value, hvalue, hmem⟩ := Row.exists_findEntry_reverse (List.mem_map_of_mem he)
  have heq : e = (e.1, value) := List.inj_on_of_nodup_map hnodup he hmem rfl
  rw [bound?_write, hslots, List.reverse_append, Row.findEntry_append, hvalue, heq]
  rfl

/-! ## The slots of an update -/

/-- The names under which the values of a record are pushed, with these values. -/
def assignedBinds (values : Row) : List (String × Value) :=
  values.entries.zipIdx.map fun e => (placeholderFor e.1.1 e.2, e.1.2)

/-- Every assignment has one slot, named by its column and its position. -/
theorem slots_assignmentGroups (position : Nat) (entries : List (String × Value)) :
    (assignmentGroups position entries).flatMap slots =
      (entries.zipIdx position).map fun e => (placeholderFor e.1.1 e.2, e.1.2) := by
  induction entries generalizing position with
  | nil => rfl
  | cons e r ih =>
    rw [List.zipIdx_cons, List.map_cons, ← ih (position + 1), assignmentGroups,
      List.zipIdx_cons, List.map_cons, List.flatMap_cons]
    rfl

/-- A comparison has a slot for its operand unless it is a test for null. -/
theorem slots_comparisonPieces (number : Nat) (column : String) (c : Comparison) :
    slots (comparisonPieces .parameterized number column c) =
      if c.testsNull then [] else [(generatedName number, c.operand)] := by
  unfold comparisonPieces
  rw [← nullTest?_isSome]
  cases nullTest? c <;> rfl

/-- Every comparison but a test for null uses up one number. -/
theorem nextNumber_parameterized (number : Nat) (c : Comparison) :
    nextNumber .parameterized number c = if c.testsNull then number else number + 1 := by
  unfold nextNumber
  rw [← nullTest?_isSome]
  cases nullTest? c <;> rfl

/-- The operands of conditions are bound to made-up names, in order. -/
theorem slots_conditionGroups (number : Nat) (entries : List (String × Value)) :
    (conditionGroups .parameterized number entries).flatMap slots =
      ((Comparison.operands (entries.map fun e => (Comparison.ofEntry e.1 e.2).2)).zipIdx
        number).map fun e => (generatedName e.2, e.1) := by
  induction entries generalizing number with
  | nil => rfl
  | cons e r ih =>
    obtain ⟨key, value⟩ := e
    rw [conditionGroups, List.flatMap_cons, ih, slots_comparisonPieces, nextNumber_parameterized,
      List.map_cons, Comparison.operands_cons]
    split
    · rfl
    · rfl

/-- So they are in the conditions of a filter. -/
theorem slots_wherePieces {filter : Filter} (structured : filter.hasFragments = false) :
    slots (wherePieces .parameterized filter) =
      generatedBinds (Comparison.operands filter.comparisons) := by
  have hgroups := slots_conditionGroups 0 filter.values.entries
  rw [generatedBinds, Filter.comparisons, Filter.conditions, List.map_map]
  unfold wherePieces
  split
  · rename_i hempty
    rw [Filter.isEmpty_of_structured structured, List.isEmpty_iff] at hempty
    rw [hempty]
    rfl
  · exact (slots_joinGroups _ true _).trans hgroups

/-- The slots of an update are those of its assignments and then those of its operands. -/
theorem slots_update (table : String) (values : Row) {filter : Filter}
    (structured : filter.hasFragments = false) :
    slots (Build.update table values filter .parameterized).pieces =
      assignedBinds values ++ generatedBinds (Comparison.operands filter.comparisons) := by
  have hassigned := slots_assignmentGroups 0 values.entries
  rw [Build.pieces, slots_append, slots_append, slots_append, slots_wherePieces structured,
    slots_joinGroups, hassigned]
  exact List.append_nil _

/-! ## Made-up names -/

/-- Whether a name is spelled like one that is made up for a column or for an operand. -/
def IsMadeUp (name : String) : Prop :=
  ∃ n, name = "__c" ++ Text.natText n ∨ name = generatedName n

/-- No name is made up twice for operands. -/
theorem nodup_generatedBinds (operands : List Value) :
    ((generatedBinds operands).map (·.1)).Nodup := by
  rw [map_fst_generatedBinds]
  exact List.nodup_range.map generatedName_injective

/-- Names that are made up for columns differ from those that are made up for operands. -/
theorem append_natText_ne_generatedName (m n : Nat) :
    "__c" ++ Text.natText m ≠ generatedName n := by
  intro h
  have hchars := congrArg String.toList h
  simp [generatedName] at hchars

/-- A slot of a column has the name of the column or one that is made up from its position. -/
theorem placeholderFor_cases (column : String) (position : Nat) :
    placeholderFor column position = column ∨
      placeholderFor column position = "__c" ++ Text.natText position := by
  unfold placeholderFor
  split
  · exact .inl rfl
  · exact .inr rfl

/-- Columns share a name if they are one column, or if one of them is spelled like the name that
is made up for the other. -/
theorem placeholderFor_eq_cases {values : Row} (distinct : values.names.Nodup)
    {e f : (String × Value) × Nat} (he : e ∈ values.entries.zipIdx)
    (hf : f ∈ values.entries.zipIdx)
    (h : placeholderFor e.1.1 e.2 = placeholderFor f.1.1 f.2) :
    e.1 = f.1 ∨ (e.1.1 = "__c" ++ Text.natText f.2 ∧ Placeholder.isName f.1.1.toList = false) ∨
      (f.1.1 = "__c" ++ Text.natText e.2 ∧ Placeholder.isName e.1.1.toList = false) := by
  have hentry (name : e.1.1 = f.1.1) : e.1 = f.1 :=
    List.inj_on_of_nodup_map distinct (List.fst_mem_of_mem_zipIdx he)
      (List.fst_mem_of_mem_zipIdx hf) name
  unfold placeholderFor at h
  split at h
  · split at h
    · exact .inl (hentry h)
    · rename_i hother
      exact .inr (.inl ⟨h, by simpa using hother⟩)
  · rename_i hcolumn
    split at h
    · exact .inr (.inr ⟨h.symm, by simpa using hcolumn⟩)
    · have hposition : e.2 = f.2 := Text.append_natText_injective "__c" h
      have hfirst := List.mem_zipIdx_iff_getElem?.1 he
      have hsecond := List.mem_zipIdx_iff_getElem?.1 hf
      rw [hposition, hsecond] at hfirst
      exact .inl (Option.some.inj hfirst).symm

section Plain

variable {values : Row} (plain : ∀ name ∈ values.names, ¬ IsMadeUp name)
include plain

/-- Columns that are not spelled like made-up names have slots with different names. -/
theorem eq_of_placeholderFor (hnodup : values.names.Nodup) {e f : (String × Value) × Nat}
    (he : e ∈ values.entries.zipIdx) (hf : f ∈ values.entries.zipIdx)
    (h : placeholderFor e.1.1 e.2 = placeholderFor f.1.1 f.2) : e.1 = f.1 := by
  have hmem {e : (String × Value) × Nat} (he : e ∈ values.entries.zipIdx) :
      e.1.1 ∈ values.names := List.mem_map_of_mem (List.fst_mem_of_mem_zipIdx he)
  rcases placeholderFor_eq_cases hnodup he hf h with heq | ⟨hspelled, -⟩ | ⟨hspelled, -⟩
  · exact heq
  · exact absurd ⟨f.2, .inl hspelled⟩ (plain _ (hmem he))
  · exact absurd ⟨e.2, .inl hspelled⟩ (plain _ (hmem hf))

/-- Their slots have other names than operands, too. -/
theorem placeholderFor_ne_generatedName {e : (String × Value) × Nat}
    (he : e ∈ values.entries.zipIdx) (n : Nat) : placeholderFor e.1.1 e.2 ≠ generatedName n := by
  intro h
  rcases placeholderFor_cases e.1.1 e.2 with hname | hname
  · have hmem : e.1.1 ∈ values.names := List.mem_map_of_mem (List.fst_mem_of_mem_zipIdx he)
    exact plain _ hmem ⟨n, .inr (hname ▸ h)⟩
  · exact append_natText_ne_generatedName e.2 n (hname ▸ h)

end Plain

/-! ## The values of an update -/

/-- Which slots of an update have their own values.  An update with bound operands is written
with a slot for each of its assignments and then one for each of its operands.  Every operand
is bound to its slot.  Every assigned value is bound to its slot if and only if no other slot
has the same name and another value; and so it is if the columns differ from each other and
none of them is spelled like a made-up name. -/
theorem update_bound {table : String} {values : Row} {filter : Filter} {s : Statement}
    (accepted : (update table values filter .parameterized).result = .ok s)
    (structured : filter.hasFragments = false) :
    let call := Build.update table values filter .parameterized
    let operands := generatedBinds (Comparison.operands filter.comparisons)
    s.WrittenAs call.pieces ∧ slots call.pieces = assignedBinds values ++ operands ∧
      (∀ e ∈ operands, s.bound? e.1 = some e.2) ∧
      ((∀ e ∈ assignedBinds values, s.bound? e.1 = some e.2) ↔
        ∀ e ∈ assignedBinds values, ∀ f ∈ assignedBinds values ++ operands,
          e.1 = f.1 → e.2 = f.2) ∧
      (values.names.Nodup → (∀ name ∈ values.names, ¬ IsMadeUp name) →
        ∀ e ∈ assignedBinds values, s.bound? e.1 = some e.2) := by
  intro call operands
  have hwritten : s.WrittenAs call.pieces := (update_eq_ok structured accepted).1
  have hslots : slots call.pieces = assignedBinds values ++ operands :=
    slots_update table values structured
  have hbound (name : String) : s.bound? name = ((ofSql "").write call.pieces).bound? name := by
    rw [bound?, hwritten.2, bound?]
  have hoperands : ∀ e ∈ operands, s.bound? e.1 = some e.2 := by
    intro e he
    rw [hbound]
    exact bound?_write_of_last _ hslots (nodup_generatedBinds _) he
  have hiff : (∀ e ∈ assignedBinds values, s.bound? e.1 = some e.2) ↔
      ∀ e ∈ assignedBinds values, ∀ f ∈ assignedBinds values ++ operands,
        e.1 = f.1 → e.2 = f.2 := by
    constructor
    · intro hassigned e he f hf hname
      have hvalue : s.bound? f.1 = some f.2 := by
        rcases List.mem_append.1 hf with hf | hf
        · exact hassigned f hf
        · exact hoperands f hf
      rw [← hname, hassigned e he] at hvalue
      exact Option.some.inj hvalue
    · intro hsame e he
      have hpushed : e.1 ∈ (slots call.pieces).map (·.1) := by
        rw [hslots]
        exact List.mem_map_of_mem (List.mem_append_left _ he)
      obtain ⟨value, hvalue, hmem⟩ := exists_bound?_write (ofSql "") hpushed
      rw [hslots] at hmem
      rw [hbound, hvalue, hsame e he _ hmem rfl]
  refine ⟨hwritten, hslots, hoperands, hiff, fun hnodup hplain => hiff.2 ?_⟩
  intro e he f hf hname
  obtain ⟨p, hp, rfl⟩ := List.mem_map.1 he
  rcases List.mem_append.1 hf with hf | hf
  · obtain ⟨q, hq, rfl⟩ := List.mem_map.1 hf
    have hentry : p.1 = q.1 := eq_of_placeholderFor hplain hnodup hp hq hname
    exact congrArg (·.2) hentry
  · obtain ⟨q, hq, rfl⟩ := List.mem_map.1 hf
    exact absurd hname (placeholderFor_ne_generatedName hplain hp q.2)

/-- A quoted column, a sign and a null: every slot has its own value. -/
theorem update_bound_quoted :
    let values : Row := ⟨[("n", .int 1), ("\"a b\"", .text "x")]⟩
    let filter := Filter.ofRow ⟨[("id", .text "!5"), ("z", .null)]⟩
    ∃ s, (update "t" values filter .parameterized).result = .ok s ∧
      filter.hasFragments = false ∧ values.names.Nodup ∧
      (∀ name ∈ values.names, ¬ IsMadeUp name) ∧
      s.sql = "UPDATE t SET n=:n, \"a b\"=:__c1 WHERE id <> :__f0 AND z IS NULL RETURNING *" ∧
      s.bound? "n" = some (.int 1) ∧ s.bound? "__c1" = some (.text "x") ∧
      s.bound? "__f0" = some (.text "5") := by
  intro values filter
  have haccepted : (update "t" values filter .parameterized).result =
      .ok ⟨"UPDATE t SET n=:n, \"a b\"=:__c1 WHERE id <> :__f0 AND z IS NULL RETURNING *",
        ⟨[("n", .int 1), ("__c1", .text "x"), ("__f0", .text "5")]⟩, 1⟩ := by cbv
  have hstructured : filter.hasFragments = false := by cbv
  have hnodup : values.names.Nodup := by decide
  have hplain : ∀ name ∈ values.names, ¬ IsMadeUp name := by
    rintro name hname ⟨n, h⟩
    have hstart : ∀ name ∈ values.names, name.toList.head? ≠ some '_' := by decide
    apply hstart name hname
    rcases h with rfl | rfl
    · simp
    · simp [generatedName]
  have hassigned : assignedBinds values = [("n", .int 1), ("__c1", .text "x")] := by cbv
  have hoperands : generatedBinds (Comparison.operands filter.comparisons) =
      [("__f0", .text "5")] := by cbv
  obtain ⟨-, -, hwhere, -, hset⟩ := update_bound haccepted hstructured
  have hvalues := hset hnodup hplain
  rw [hassigned] at hvalues
  rw [hoperands] at hwhere
  exact ⟨_, haccepted, hstructured, hnodup, hplain, rfl, hvalues ("n", .int 1) (by simp),
    hvalues ("__c1", .text "x") (by simp), hwhere ("__f0", .text "5") (by simp)⟩

/-- A column that is spelled like the name of an operand is assigned the operand. -/
theorem update_bound_shadowed :
    let values : Row := ⟨[("__f0", .int 1)]⟩
    let filter := Filter.ofRow ⟨[("id", .int 2)]⟩
    ∃ s, (update "t" values filter .parameterized).result = .ok s ∧
      filter.hasFragments = false ∧
      s.sql = "UPDATE t SET __f0=:__f0 WHERE id = :__f0 RETURNING *" ∧
      ("__f0", .int 1) ∈ assignedBinds values ∧ s.bound? "__f0" = some (.int 2) ∧
      s.bound? "__f0" ≠ some (.int 1) := by
  intro values filter
  have haccepted : (update "t" values filter .parameterized).result =
      .ok ⟨"UPDATE t SET __f0=:__f0 WHERE id = :__f0 RETURNING *", ⟨[("__f0", .int 2)]⟩, 1⟩ := by
    cbv
  have hstructured : filter.hasFragments = false := by cbv
  have hassigned : assignedBinds values = [("__f0", .int 1)] := by cbv
  refine ⟨_, haccepted, hstructured, rfl, ?_, rfl, ?_⟩
  · rw [hassigned]
    exact List.mem_singleton_self _
  · intro h
    exact absurd (Value.int.inj (Option.some.inj h)) (by decide)

end Statement

end TableAccess
