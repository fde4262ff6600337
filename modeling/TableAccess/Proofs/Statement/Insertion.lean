import TableAccess.Proofs.Row.History
import TableAccess.Proofs.Statement.Binding
/-!
# Values of an insert

An insert has a slot for every column, in the order of the columns.  The slot has the name of the
column if that can be a placeholder, and otherwise a name that is made up from the position of
the column.  A column may be spelled like such a made-up name; then two columns share one name,
and the one that stands later decides what is bound to it.

Main results:

- Theorem `assignedBinds_agree_iff`: when columns that share a name have one value.
- Theorem `forall_bound?_iff`: when every column has its own value.
- Theorem `exists_insert_iff`: when an insert is accepted.
- Theorem `insert_bound`: which columns of an insert have their own values.
-/

namespace TableAccess.Statement

open Placeholder

/-! ## Slots with their own values -/

/-- A name that is pushed is looked up among what was pushed under it. -/
theorem exists_lookup_reverse {entries : List (String × Value)} {e : String × Value}
    (he : e ∈ entries) :
    ∃ value, entries.reverse.lookup e.1 = some value ∧ (e.1, value) ∈ entries := by
  simpa only [← Row.findEntry_eq_lookup] using
    Row.exists_findEntry_reverse (List.mem_map_of_mem he)

/-- All entries are the last ones with their names, up to their values, exactly if entries with
one name have one value. -/
theorem forall_lookup_reverse_iff (entries : List (String × Value)) :
    (∀ e ∈ entries, entries.reverse.lookup e.1 = some e.2) ↔
      ∀ e ∈ entries, ∀ f ∈ entries, e.1 = f.1 → e.2 = f.2 := by
  constructor
  · intro hown e he f hf hname
    have hvalue := hown f hf
    rw [← hname, hown e he] at hvalue
    exact Option.some.inj hvalue
  · intro hsame e he
    obtain ⟨value, hvalue, hmem⟩ := exists_lookup_reverse he
    rw [hvalue, hsame e he _ hmem rfl]

/-- What was pushed is looked up from its end. -/
theorem bound?_write_ofSql (sql : String) (ps : List Piece) (name : String) :
    ((ofSql sql).write ps).bound? name = (slots ps).reverse.lookup name := by
  rw [bound?_write, Row.findEntry_eq_lookup]
  exact Option.or_none

/-! ## Columns that share a name -/

/-- Whether a column is spelled like the name that is made up for another one, which has another
value. -/
def Clashes (values : Row) : Prop :=
  ∃ e ∈ values.entries.zipIdx, ∃ f ∈ values.entries.zipIdx,
    e.1.1 = "__c" ++ Text.natText f.2 ∧ isName f.1.1.toList = false ∧ e.1.2 ≠ f.1.2

/-- A column that is spelled like the name that is made up for another one shares it. -/
theorem placeholderFor_eq_of_clash {e f : (String × Value) × Nat}
    (spelled : e.1.1 = "__c" ++ Text.natText f.2) (unnamed : isName f.1.1.toList = false) :
    placeholderFor e.1.1 e.2 = placeholderFor f.1.1 f.2 := by
  have hname : isName e.1.1.toList = true := spelled ▸ isName_append_natText (by decide) f.2
  rw [placeholderFor, if_pos hname, placeholderFor, if_neg (by simp [unnamed]), spelled]

/-- Every column has its value among those that are to be bound. -/
theorem mem_assignedBinds {values : Row} {e : (String × Value) × Nat}
    (he : e ∈ values.entries.zipIdx) :
    (placeholderFor e.1.1 e.2, e.1.2) ∈ assignedBinds values :=
  List.mem_map_of_mem he

/-- Columns that share a name have one value exactly if no two of them clash. -/
theorem assignedBinds_agree_iff {values : Row} (distinct : values.names.Nodup) :
    (∀ e ∈ assignedBinds values, ∀ f ∈ assignedBinds values, e.1 = f.1 → e.2 = f.2) ↔
      ¬ Clashes values := by
  constructor
  · rintro hsame ⟨e, he, f, hf, hspelled, hunnamed, hvalue⟩
    have hshared := hsame _ (mem_assignedBinds he) _ (mem_assignedBinds hf)
      (placeholderFor_eq_of_clash hspelled hunnamed)
    exact hvalue hshared
  · intro hclash e he f hf hname
    obtain ⟨p, hp, rfl⟩ := List.mem_map.1 he
    obtain ⟨q, hq, rfl⟩ := List.mem_map.1 hf
    by_contra hvalue
    rcases placeholderFor_eq_cases distinct hp hq hname with heq | ⟨hspelled, hunnamed⟩ |
      ⟨hspelled, hunnamed⟩
    · exact hvalue (congrArg (·.2) heq)
    · exact hclash ⟨p, hp, q, hq, hspelled, hunnamed, hvalue⟩
    · exact hclash ⟨q, hq, p, hp, hspelled, hunnamed, Ne.symm hvalue⟩

/-- Columns that do not begin with an underscore do not clash. -/
theorem not_clashes {values : Row}
    (h : ∀ e ∈ values.entries, e.1.toList.head? ≠ some '_') : ¬ Clashes values := by
  rintro ⟨e, he, f, -, hspelled, -⟩
  exact h e.1 (List.fst_mem_of_mem_zipIdx he) (by simp [hspelled])

/-- Where a name has the value that was pushed last under it for a column, every column has its
own value exactly if no two of them clash. -/
theorem forall_bound?_iff {s : Statement} {values : Row} {rest : String → Option Value}
    (distinct : values.names.Nodup)
    (bound : ∀ name, s.bound? name = ((assignedBinds values).reverse.lookup name).or (rest name)) :
    (∀ e ∈ assignedBinds values, s.bound? e.1 = some e.2) ↔ ¬ Clashes values := by
  have hpushed : ∀ e ∈ assignedBinds values,
      s.bound? e.1 = (assignedBinds values).reverse.lookup e.1 := by
    intro e he
    obtain ⟨value, hvalue, -⟩ := exists_lookup_reverse he
    rw [bound, hvalue]
    rfl
  rw [← assignedBinds_agree_iff distinct, ← forall_lookup_reverse_iff]
  exact forall₂_congr fun e he => by rw [hpushed e he]

/-! ## Accepted inserts -/

/-- Whether a record can be inserted into a table: all names are valid, and there is a value. -/
structure Insertable (table : String) (values : Row) : Prop where
  table : Identifier.checkTable table = .ok table
  nonempty : values.isEmpty = false
  columns : ∀ name ∈ values.names, Identifier.checkColumn name = .ok name

/-- Valid columns are accepted. -/
theorem checkColumns_of_checked {names : List String}
    (h : ∀ name ∈ names, Identifier.checkColumn name = .ok name) : checkColumns names = .ok () := by
  induction names with
  | nil => rfl
  | cons name r ih =>
    rw [checkColumns, h name List.mem_cons_self]
    exact ih fun other hother => h other (List.mem_cons_of_mem name hother)

/-- An insert is accepted exactly if the record can be inserted. -/
theorem exists_insert_iff (table : String) (values : Row) :
    (∃ s, insert table values = .ok s) ↔ Insertable table values := by
  constructor
  · rintro ⟨s, h⟩
    obtain ⟨htable, hcolumns, -⟩ := insert_steps h
    refine ⟨htable, ?_, hcolumns⟩
    rw [insert, htable] at h
    by_contra hempty
    rw [Bool.not_eq_false] at hempty
    obtain ⟨_, ⟨⟩, hvalues⟩ := bind_eq_ok_iff.1 h
    rw [if_pos hempty] at hvalues
    cases hvalues
  · rintro ⟨htable, hnonempty, hcolumns⟩
    unfold insert
    simp only [htable, hnonempty, checkColumns_of_checked hcolumns]
    exact ⟨_, rfl⟩

/-! ## The slots of an insert -/

/-- Every value has one slot, named by its column and its position. -/
theorem slots_valueGroups (position : Nat) (entries : List (String × Value)) :
    (valueGroups position entries).flatMap slots =
      (entries.zipIdx position).map fun e => (placeholderFor e.1.1 e.2, e.1.2) := by
  rw [valueGroups, List.flatMap_map, List.map_eq_flatMap]
  rfl

/-- An insert has one slot for each column, in their order. -/
theorem slots_insert (table : String) (values : Row) :
    slots (Build.insert table values).pieces = assignedBinds values := by
  have hnames : (values.names.map fun n => [Piece.text .identifier n]).flatMap slots = [] := by
    rw [List.flatMap_map, List.flatMap_eq_nil_iff]
    exact fun _ _ => rfl
  rw [Build.pieces, slots_append, slots_append, slots_append, slots_append, slots_joinGroups,
    slots_joinGroups, hnames, slots_valueGroups]
  exact List.append_nil _

/-- Which columns of an insert have their own values.  An insert that is accepted is written with
one slot for each column, in their order.  The value that was pushed last under a name is bound
to it.  So every column has its own value if and only if none of them is spelled like the name
that is made up for another one with another value. -/
theorem insert_bound {table : String} {values : Row} {s : Statement}
    (accepted : insert table values = .ok s) (distinct : values.names.Nodup) :
    let call := Build.insert table values
    s.WrittenAs call.pieces ∧ slots call.pieces = assignedBinds values ∧
      (∀ name, s.bound? name = (assignedBinds values).reverse.lookup name) ∧
      ((∀ e ∈ assignedBinds values, s.bound? e.1 = some e.2) ↔ ¬ Clashes values) := by
  intro call
  have hwritten : s.WrittenAs call.pieces := (insert_eq_ok accepted).1
  have hslots : slots call.pieces = assignedBinds values := slots_insert table values
  have hbound (name : String) : s.bound? name = (assignedBinds values).reverse.lookup name := by
    rw [bound?, hwritten.2, ← hslots]
    exact bound?_write_ofSql "" call.pieces name
  have hrest (name : String) :
      s.bound? name = ((assignedBinds values).reverse.lookup name).or none :=
    (hbound name).trans Option.or_none.symm
  exact ⟨hwritten, hslots, hbound, forall_bound?_iff distinct hrest⟩

/-- A plain, a dotted and a quoted column and one with a dollar sign: each has its own value. -/
theorem insert_bound_mixed :
    let values : Row := ⟨[("n", .int 1), ("t.a", .null), ("\"a b\"", .text "x"), ("c$", .int 2)]⟩
    ∃ s, insert "t" values = .ok s ∧ values.names.Nodup ∧
      s.sql = "INSERT INTO t (n, t.a, \"a b\", c$) VALUES (:n, :__c1, :__c2, :__c3)" ∧
      s.bound? "n" = some (.int 1) ∧ s.bound? "__c1" = some .null ∧
      s.bound? "__c2" = some (.text "x") ∧ s.bound? "__c3" = some (.int 2) := by
  intro values
  have haccepted : insert "t" values =
      .ok ⟨"INSERT INTO t (n, t.a, \"a b\", c$) VALUES (:n, :__c1, :__c2, :__c3)",
        ⟨[("n", .int 1), ("__c1", .null), ("__c2", .text "x"), ("__c3", .int 2)]⟩, 0⟩ := by cbv
  have hdistinct : values.names.Nodup := by decide
  have hassigned : assignedBinds values =
      [("n", .int 1), ("__c1", .null), ("__c2", .text "x"), ("__c3", .int 2)] := by cbv
  have hclash : ¬ Clashes values := not_clashes (by decide)
  have hown := (insert_bound haccepted hdistinct).2.2.2.2 hclash
  rw [hassigned] at hown
  exact ⟨_, haccepted, hdistinct, rfl, hown ("n", .int 1) (by simp), hown ("__c1", .null) (by simp),
    hown ("__c2", .text "x") (by simp), hown ("__c3", .int 2) (by simp)⟩

/-- A column that is spelled like the name of a quoted column has the value of that column. -/
theorem insert_bound_clash :
    let values : Row := ⟨[("__c1", .int 1), ("\"a b\"", .int 2)]⟩
    ∃ s, insert "t" values = .ok s ∧ values.names.Nodup ∧
      s.sql = "INSERT INTO t (__c1, \"a b\") VALUES (:__c1, :__c1)" ∧
      ("__c1", .int 1) ∈ assignedBinds values ∧ s.bound? "__c1" = some (.int 2) ∧
      s.bound? "__c1" ≠ some (.int 1) := by
  intro values
  have haccepted : insert "t" values =
      .ok ⟨"INSERT INTO t (__c1, \"a b\") VALUES (:__c1, :__c1)", ⟨[("__c1", .int 2)]⟩, 0⟩ := by
    cbv
  have hassigned : assignedBinds values = [("__c1", .int 1), ("__c1", .int 2)] := by cbv
  refine ⟨_, haccepted, by decide, rfl, ?_, rfl, ?_⟩
  · rw [hassigned]
    exact List.mem_cons_self
  · intro h
    exact absurd (Value.int.inj (Option.some.inj h)) (by decide)

end TableAccess.Statement
