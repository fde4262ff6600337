import Mathlib.Data.List.Forall2
import Mathlib.Data.List.Induction
import TableAccess.Proofs.Row.History
import TableAccess.Wire.Cell
/-!
# Records of result rows

The cells of a result row are read in the order of their columns and written into a record by
column name.  A result may have several columns of one name, and a record cannot: the name keeps
the place of its first column and has the value of its last one.  The first cell that cannot be
read ends the reading.

Main results:

- Theorem `Row.isRecord_iff`: what is left of values with names.
- Theorem `decodeCells_eq_ok_iff`: which record a row is read as.
- Theorem `decodeCells_eq_error_iff`: which error it is refused with.
- Theorem `decodeRow_keeps`: both, and when no column is lost.
-/

namespace TableAccess

/-! ## Named values as a record -/

namespace Row

open Association

/-- Whether a record is what is left of values with names when each name has one place. -/
structure IsRecord (record : Row) (entries : Association) : Prop where
  /-- A name stands where it came first. -/
  names : record.names = (keys entries).eraseDups
  /-- A name has the value that came last. -/
  value : ∀ name, record.find? name = entries.reverse.lookup name

theorem ofList_append_singleton (entries : Association) (e : String × Value) :
    ofList (entries ++ [e]) = (ofList entries).insert e.1 e.2 := by
  simp [ofList]

/-- The names of entries that are written one by one, each where it came first. -/
theorem names_ofList (entries : Association) :
    (ofList entries).names = (keys entries).eraseDups := by
  induction entries using List.reverseRecOn with
  | nil => rfl
  | append_singleton entries e ih =>
    rw [ofList_append_singleton, names_insert, ih, keys, keys, List.map_append,
      List.eraseDups_append, List.removeAll]
    by_cases hmem : e.1 ∈ keys entries
    · simp [hmem]
    · simp [hmem, List.eraseDups_cons]

/-- The value of a name is the one that was written last. -/
theorem find?_ofList (entries : Association) (name : String) :
    (ofList entries).find? name = entries.reverse.lookup name := by
  induction entries using List.reverseRecOn with
  | nil => rfl
  | append_singleton entries e ih =>
    rw [ofList_append_singleton, List.reverse_append, List.reverse_singleton,
      List.singleton_append]
    obtain ⟨n, v⟩ := e
    by_cases hname : name = n
    · subst hname
      rw [find?_insert_self, List.lookup_cons_self]
    · rw [find?_insert_of_ne _ _ hname, ih, List.lookup_cons, beq_false_of_ne hname]

/-- The entries of distinct names are told by the names and the value of each name. -/
theorem eq_filterMap_of_nodup {entries : Association} (h : (keys entries).Nodup) :
    entries = (keys entries).filterMap fun name =>
      (findEntry name entries).map fun value => (name, value) := by
  induction entries with
  | nil => rfl
  | cons e r ih =>
    have hrest : ∀ name ∈ keys r, findEntry name (e :: r) = findEntry name r := by
      intro name hmem
      obtain ⟨other, hother, rfl⟩ := List.mem_map.1 hmem
      exact if_neg (ne_of_nodup_cons h hother).symm
    have hfirst : findEntry e.1 (e :: r) = some e.2 := if_pos rfl
    rw [keys, List.map_cons, List.filterMap_cons, hfirst]
    refine congrArg _ ((ih (List.nodup_cons.1 h).2).trans ?_)
    exact List.filterMap_congr fun name hmem => by rw [hrest name hmem]

/-- What is left of values with names is what there is when they are written one by one. -/
theorem isRecord_iff (record : Row) (entries : Association) :
    record.IsRecord entries ↔ record = ofList entries := by
  constructor
  · rintro ⟨hnames, hvalue⟩
    have hsame : keys record.entries = keys (ofList entries).entries :=
      hnames.trans (names_ofList entries).symm
    have hnodup : (keys (ofList entries).entries).Nodup := (entries_ofList entries).2
    have hfind : ∀ name, findEntry name record.entries =
        findEntry name (ofList entries).entries :=
      fun name => (hvalue name).trans (find?_ofList entries name).symm
    have hentries : record.entries = (ofList entries).entries := by
      refine (eq_filterMap_of_nodup (hsame ▸ hnodup)).trans ?_
      simp only [hsame, hfind]
      exact (eq_filterMap_of_nodup hnodup).symm
    exact congrArg Row.mk hentries
  · rintro rfl
    exact ⟨names_ofList entries, find?_ofList entries⟩

/-- All values are left exactly if their names are distinct. -/
theorem IsRecord.entries_eq_iff {record : Row} {entries : Association}
    (h : record.IsRecord entries) : record.entries = entries ↔ (keys entries).Nodup := by
  obtain rfl := (isRecord_iff record entries).1 h
  obtain ⟨hentries, hnodup⟩ := entries_ofList entries
  constructor
  · intro heq
    rwa [Row.names, heq] at hnodup
  · intro hdistinct
    rw [hentries, collect_of_nodup hdistinct]

end Row

namespace Wire

open Text

/-! ## Reading the cells of a row -/

/-- A column of a result, with the cell of a row in it. -/
abbrev ResultField := Column × Option Octets

/-- The value of a field, if its cell can be read. -/
def ResultField.value? (field : ResultField) : Option Value :=
  decode field.1.type field.2

/-- Whether these are the values of the fields. -/
def HasValues (fields : List ResultField) (values : List Value) : Prop :=
  List.Forall₂ (fun field value => ResultField.value? field = some value) fields values

/-- The values of fields under the names of their columns. -/
def named (fields : List ResultField) (values : List Value) : Association :=
  (fields.map fun field => field.1.name).zip values

/-- Whether a field is the first one that cannot be read, and these are the fields before it. -/
structure IsFirstUnreadable (fields front : List ResultField) (field : ResultField) : Prop where
  place : ∃ rest, fields = front ++ field :: rest
  before : ∀ f ∈ front, (ResultField.value? f).isSome = true
  unreadable : ResultField.value? field = none

/-- Either all fields have values, or there is a first one that cannot be read. -/
theorem hasValues_or_isFirstUnreadable (fields : List ResultField) :
    (∃ values, HasValues fields values) ∨
      ∃ front field, IsFirstUnreadable fields front field := by
  induction fields with
  | nil => exact .inl ⟨[], .nil⟩
  | cons f r ih =>
    cases hf : ResultField.value? f with
    | none => exact .inr ⟨[], f, ⟨r, rfl⟩, by simp, hf⟩
    | some value =>
      rcases ih with ⟨values, hvalues⟩ | ⟨front, field, ⟨rest, rfl⟩, hbefore, hfails⟩
      · exact .inl ⟨value :: values, .cons hf hvalues⟩
      · refine .inr ⟨f :: front, field, ⟨rest, rfl⟩, ?_, hfails⟩
        simpa [hf] using hbefore

/-- A field that can be read is written into the record. -/
theorem decodeCells_cons_of_some {field : ResultField} {value : Value}
    (h : ResultField.value? field = some value) (position : Nat) (r : List ResultField)
    (record : Row) :
    decodeCells position (field :: r) record =
      decodeCells (position + 1) r (record.insert field.1.name value) := by
  obtain ⟨column, cell⟩ := field
  rw [ResultField.value?] at h
  rw [decodeCells, h]

/-- Values are written into the record in the order of their columns. -/
theorem decodeCells_of_hasValues {fields : List ResultField} {values : List Value}
    (h : HasValues fields values) (position : Nat) (record : Row) :
    decodeCells position fields record =
      .ok ((named fields values).foldl (fun row e => row.insert e.1 e.2) record) := by
  unfold HasValues at h
  induction h generalizing position record with
  | nil => rfl
  | cons hvalue _ ih =>
    rw [decodeCells_cons_of_some hvalue, ih]
    rfl

/-- The first field that cannot be read is reported with the name and the position of its
column. -/
theorem decodeCells_of_isFirstUnreadable {fields front : List ResultField} {field : ResultField}
    (h : IsFirstUnreadable fields front field) (position : Nat) (record : Row) :
    decodeCells position fields record =
      .error (.decode field.1.name (unreadable (position + front.length))) := by
  obtain ⟨⟨rest, rfl⟩, hbefore, hfails⟩ := h
  induction front generalizing position record with
  | nil =>
    obtain ⟨column, cell⟩ := field
    rw [ResultField.value?] at hfails
    rw [List.nil_append, decodeCells, hfails]
    rfl
  | cons f r ih =>
    obtain ⟨value, hvalue⟩ := Option.isSome_iff_exists.1 (hbefore f List.mem_cons_self)
    rw [List.cons_append, decodeCells_cons_of_some hvalue,
      ih _ _ fun g hg => hbefore g (List.mem_cons_of_mem f hg), List.length_cons,
      Nat.add_right_comm, Nat.add_assoc]

/-! ## Reading a row -/

/-- A row is read field by field into an empty record. -/
theorem decodeRow_fields (fields : List ResultField) :
    decodeRow (fields.map (·.1)) (fields.map (·.2)) = decodeCells 0 fields .empty := by
  have hzip : (fields.map (·.1)).zip (fields.map (·.2)) = fields :=
    (List.zip_of_prod rfl rfl).symm
  rw [decodeRow, hzip]

/-- Which record the fields of a row are read as. -/
theorem decodeCells_eq_ok_iff (fields : List ResultField) (record : Row) :
    decodeCells 0 fields .empty = .ok record ↔
      ∃ values, HasValues fields values ∧ record.IsRecord (named fields values) := by
  constructor
  · intro h
    rcases hasValues_or_isFirstUnreadable fields with ⟨values, hvalues⟩ | ⟨front, field, hfirst⟩
    · rw [decodeCells_of_hasValues hvalues] at h
      exact ⟨values, hvalues, (Row.isRecord_iff _ _).2 (Except.ok.inj h).symm⟩
    · rw [decodeCells_of_isFirstUnreadable hfirst] at h
      cases h
  · rintro ⟨values, hvalues, hrecord⟩
    rw [decodeCells_of_hasValues hvalues, (Row.isRecord_iff _ _).1 hrecord]
    rfl

/-- Which error the fields of a row are refused with. -/
theorem decodeCells_eq_error_iff (fields : List ResultField) (error : AccessError) :
    decodeCells 0 fields .empty = .error error ↔
      ∃ front field, IsFirstUnreadable fields front field ∧
        error = .decode field.1.name (unreadable front.length) := by
  constructor
  · intro h
    rcases hasValues_or_isFirstUnreadable fields with ⟨values, hvalues⟩ | ⟨front, field, hfirst⟩
    · rw [decodeCells_of_hasValues hvalues] at h
      cases h
    · rw [decodeCells_of_isFirstUnreadable hfirst, Nat.zero_add] at h
      exact ⟨front, field, hfirst, (Except.error.inj h).symm⟩
  · rintro ⟨front, field, hfirst, rfl⟩
    rw [decodeCells_of_isFirstUnreadable hfirst, Nat.zero_add]

/-- What becomes of the columns of a row.  If every cell can be read, the record has every column
name once, where the first column of the name stands, with the value of the last column of the
name; so every column is left, in order and with its own value, exactly if the names are distinct.
The row is refused exactly if a cell cannot be read, and the error names the first such column
and its position. -/
theorem decodeRow_keeps (fields : List ResultField) :
    let result := decodeRow (fields.map (·.1)) (fields.map (·.2))
    (∀ record, result = .ok record ↔
      ∃ values, HasValues fields values ∧
        record.names = (fields.map fun field => field.1.name).eraseDups ∧
        (∀ name, record.find? name = (named fields values).reverse.lookup name) ∧
        (record.entries = named fields values ↔
          (fields.map fun field => field.1.name).Nodup)) ∧
    ∀ error, result = .error error ↔
      ∃ front field, IsFirstUnreadable fields front field ∧
        error = .decode field.1.name (unreadable front.length) := by
  intro result
  have hkeys : ∀ values, HasValues fields values →
      Association.keys (named fields values) = fields.map fun field => field.1.name := by
    intro values hvalues
    exact List.map_fst_zip (by rw [List.length_map]; exact Nat.le_of_eq hvalues.length_eq)
  refine ⟨fun record => ?_, fun error => ?_⟩
  · rw [show result = _ from decodeRow_fields fields, decodeCells_eq_ok_iff]
    refine exists_congr fun values => and_congr_right fun hvalues => ?_
    rw [← hkeys values hvalues]
    constructor
    · intro hrecord
      exact ⟨hrecord.names, hrecord.value, hrecord.entries_eq_iff⟩
    · rintro ⟨hnames, hvalue, -⟩
      exact ⟨hnames, hvalue⟩
  · rw [show result = _ from decodeRow_fields fields, decodeCells_eq_error_iff]

/-- Of two columns with one name the first is lost. -/
theorem decodeRow_repeated_name :
    let columns : List Column := [⟨"id", .int4⟩, ⟨"id", .int4⟩]
    let cells : List (Option Octets) := [some [0, 0, 0, 1], some [0, 0, 0, 2]]
    HasValues (columns.zip cells) [.int 1, .int 2] ∧
      ∃ record, decodeRow columns cells = .ok record ∧
        record.entries = [("id", .int 2)] ∧ record.size ≠ columns.length :=
  ⟨.cons rfl (.cons rfl .nil), _, rfl, rfl, by decide⟩

end Wire

end TableAccess
