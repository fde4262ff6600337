import TableAccess.Proofs.Session.InsertList
import TableAccess.Proofs.Session.ReadBack
import TableAccess.Proofs.Statement.Insertion
import TableAccess.Proofs.Wire.Record
/-!
# Records paired with their columns

The values of a record in a list come without names and are paired with the columns by position.
The result is a row, so a column that is named twice has one place and one value.  As long as all
columns differ nothing is lost, and every value reaches the statement that inserts the record.

Main results:

- Theorem `Row.isRecord_of_zip`: which row columns and values are paired to.
- Theorem `Row.split_zip_iff`: when the columns and the values are given back.
- Theorem `insertPositional_binds`: what the statement that inserts the record binds.
-/

namespace TableAccess

variable {columns : List String} {values : List Value} {record : Row}

/-! ## Columns and values as a row -/

namespace Row

/-- Values are paired with columns exactly if there are as many. -/
theorem isSome_zip_iff (columns : List String) (values : List Value) :
    (Row.zip columns values).isSome ↔ values.length = columns.length := by
  rw [Row.zip]
  split
  · exact iff_of_true rfl ‹_›
  · exact iff_of_false (by simp) ‹_›

section Zip

variable (paired : Row.zip columns values = some record)
include paired

theorem length_eq_of_zip : values.length = columns.length :=
  (isSome_zip_iff columns values).1 (by rw [paired]; rfl)

/-- The names of paired values are the columns. -/
theorem keys_zip : Association.keys (columns.zip values) = columns :=
  List.map_fst_zip (length_eq_of_zip paired).ge

/-- Columns and values are paired to the row that is left of them when each column has one
place. -/
theorem isRecord_of_zip : record.IsRecord (columns.zip values) := by
  rw [Row.zip, if_pos (length_eq_of_zip paired)] at paired
  exact (isRecord_iff _ _).2 (Option.some.inj paired).symm

/-- Every pair is an entry exactly if the columns are distinct. -/
theorem entries_zip_iff : record.entries = columns.zip values ↔ columns.Nodup := by
  rw [(isRecord_of_zip paired).entries_eq_iff, keys_zip paired]

/-- The columns and the values are given back exactly if no column is named twice. -/
theorem split_zip_iff : record.split = (columns, values) ↔ columns.Nodup := by
  rw [← entries_zip_iff paired]
  constructor
  · intro hsplit
    obtain ⟨hnames, hvalues⟩ := Prod.mk.inj hsplit
    exact List.zip_of_prod hnames hvalues
  · intro hentries
    have hlength := length_eq_of_zip paired
    rw [split, names, Row.values, hentries, List.map_fst_zip hlength.ge,
      List.map_snd_zip hlength.le]

/-- A paired record has every name once. -/
theorem nodup_names_of_zip : record.names.Nodup := by
  rw [(isRecord_iff _ _).1 (isRecord_of_zip paired)]
  exact (entries_ofList (columns.zip values)).2

end Zip

end Row

namespace Session

open Statement

variable {σ π : Type}

/-! ## The statement that inserts a record -/

/-- What is pushed last under a name by an insert is bound to it, also after the columns to be
returned. -/
theorem bound?_returning_insert {table : String} {statement : Statement}
    (accepted : Statement.insert table record = .ok statement) (key name : String) :
    (statement.returning key).bound? name = (assignedBinds record).reverse.lookup name := by
  have hwritten := (insert_eq_ok accepted).1
  rw [← slots_insert table record, ← bound?_write_ofSql ""]
  exact congrArg (Row.find? · name) hwritten.2

/-- Which values a record in a list is inserted with.  Columns and values are paired if there are
as many of them; a column stands where it is named first and has the value that is paired with it
last, so both are given back exactly if no column is named twice.  The paired record is inserted
by one statement with one slot for each of its columns, which for distinct columns are all of them
with all the values; and unless a column is spelled like the name that is made up for another
one, each has its own value. -/
theorem insertPositional_binds (session : Session σ π) (table : String) (columns : List String)
    (key : String) (values : List Value) :
    ((Row.zip columns values).isSome ↔ values.length = columns.length) ∧
    ∀ record, Row.zip columns values = some record →
      record.names = columns.eraseDups ∧
      (∀ name, record.find? name = (columns.zip values).reverse.lookup name) ∧
      (record.split = (columns, values) ↔ columns.Nodup) ∧
      (columns.Nodup → assignedBinds record =
        (columns.zip values).zipIdx.map fun e => (placeholderFor e.1.1 e.2, e.1.2)) ∧
      ∀ statement, Identifier.checkColumn key = .ok key →
        Statement.insert table record = .ok statement →
          session.insertPositional table columns key values =
            session.query "insert" (statement.returning key) >>= session.readBack table key ∧
          statement.WrittenAs (Build.insert table record).pieces ∧
          slots (Build.insert table record).pieces = assignedBinds record ∧
          (¬ Clashes record →
            ∀ e ∈ assignedBinds record, (statement.returning key).bound? e.1 = some e.2) := by
  refine ⟨Row.isSome_zip_iff columns values, fun record paired => ?_⟩
  obtain ⟨hnames, hvalue⟩ := Row.isRecord_of_zip paired
  rw [Row.keys_zip paired] at hnames
  refine ⟨hnames, hvalue, Row.split_zip_iff paired, fun hdistinct => ?_,
    fun statement hkey accepted => ⟨?_, (insert_eq_ok accepted).1, slots_insert table record, ?_⟩⟩
  · rw [assignedBinds, (Row.entries_zip_iff paired).2 hdistinct]
  · rw [insertPositional, paired]
    exact session.insert_eq_of_accepted hkey accepted
  · have hbound (name : String) : (statement.returning key).bound? name =
        ((assignedBinds record).reverse.lookup name).or none :=
      (bound?_returning_insert accepted key name).trans Option.or_none.symm
    exact (forall_bound?_iff (Row.nodup_names_of_zip paired) hbound).2

/-- A column that is named twice: the first value is neither given back nor inserted. -/
theorem insertPositional_binds_repeated :
    let columns := ["a", "a"]
    let values : List Value := [.int 1, .int 2]
    ∃ record, Row.zip columns values = some record ∧ record.split = (["a"], [.int 2]) ∧
      record.split ≠ (columns, values) ∧
      Statement.insert "t" record = .ok ⟨"INSERT INTO t (a) VALUES (:a)", ⟨[("a", .int 2)]⟩, 0⟩ := by
  intro columns values
  refine ⟨⟨[("a", .int 2)]⟩, rfl, rfl, fun hsplit => ?_, by cbv⟩
  exact absurd (congrArg (·.1.length) hsplit) (by decide)

end Session

end TableAccess
