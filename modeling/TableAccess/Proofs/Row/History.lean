import Mathlib.Data.List.Nodup
import TableAccess.Row.Edit
/-!
# Histories of a row

A row is compared with an association list, the plainest map there is.  Writing a name of the
list replaces its value wherever the name stands, writing a new name appends it, and removing
a name drops all its entries.  A row looks only for the first entry of a name, which comes to
the same as long as names are distinct, and they are after every history.

Main results:

- Theorem `insertEntry_eq_write`: writing a row is writing the list.
- Theorem `eraseEntry_eq_without`: removing from a row is removing from the list.
- Theorem `edit_agrees`: what one edit preserves and reports.
- Theorem `history_of_empty`: after every history a row is the association list with the same
  history, and so is all that can be seen of it.
-/

namespace TableAccess

/-! ## Association lists -/

/-- Names with their values, in order. -/
abbrev Association := List (String × Value)

namespace Association

/-- The names of a list. -/
abbrev keys (list : Association) : List String :=
  list.map (·.1)

/-- Write a name: its value is replaced where it stands, and a new name is appended. -/
def write (list : Association) (name : String) (value : Value) : Association :=
  if name ∈ list.keys then
    list.map fun e => if e.1 = name then (name, value) else e
  else
    list ++ [(name, value)]

/-- A list without a name. -/
def without (list : Association) (name : String) : Association :=
  list.filter fun e => e.1 ≠ name

/-- The list that results from writing entries one by one. -/
def collect (entries : List (String × Value)) : Association :=
  entries.foldl (fun list e => list.write e.1 e.2) []

/-- Do an edit. -/
def edit (list : Association) : Row.Edit → Row.Report × Association
  | .insert name value => (.value (list.lookup name), list.write name value)
  | .chain name value => (.done, list.write name value)
  | .remove name => (.value (list.lookup name), list.without name)
  | .collect entries => (.done, collect entries)
  | .zip names values =>
    if names.length = values.length then
      (.done, collect (names.zip values))
    else
      (.refused, list)

/-- Do edits one after the other. -/
def history (list : Association) : List Row.Edit → List Row.Report × Association
  | [] => ([], list)
  | e :: r =>
    let p := list.edit e
    let q := p.2.history r
    (p.1 :: q.1, q.2)

/-! ### Places -/

/-- Writing an existing name keeps all places. -/
theorem keys_write_of_mem {list : Association} {name : String} (h : name ∈ list.keys)
    (value : Value) : (list.write name value).keys = list.keys := by
  rw [write, if_pos h, keys, List.map_map]
  refine List.map_congr_left fun e _ => ?_
  by_cases hname : e.1 = name
  · simp [hname]
  · simp [hname]

/-- Writing a new name appends it. -/
theorem write_of_notMem {list : Association} {name : String} (h : name ∉ list.keys)
    (value : Value) : list.write name value = list ++ [(name, value)] :=
  if_neg h

/-- Leaving a name out keeps the others in order. -/
theorem keys_without (list : Association) (name : String) :
    (list.without name).keys = list.keys.filter fun n => n ≠ name := by
  rw [keys, keys, List.filter_map]
  rfl

theorem notMem_without (list : Association) (name : String) : name ∉ (list.without name).keys := by
  rw [keys_without]
  simp

/-- A name that is removed and written again goes to the end. -/
theorem write_without (list : Association) (name : String) (value : Value) :
    (list.without name).write name value = list.without name ++ [(name, value)] :=
  write_of_notMem (list.notMem_without name) value

/-! ### Distinct names -/

/-- Writing keeps the names distinct. -/
theorem nodup_write {list : Association} (h : list.keys.Nodup) (name : String) (value : Value) :
    (list.write name value).keys.Nodup := by
  by_cases hmem : name ∈ list.keys
  · rw [keys_write_of_mem hmem]
    exact h
  · rw [write_of_notMem hmem, keys, List.map_append]
    refine List.nodup_append.2 ⟨h, List.nodup_singleton name, ?_⟩
    intro n hn m hm heq
    rw [heq, List.mem_singleton.1 hm] at hn
    exact hmem hn

theorem nodup_without {list : Association} (h : list.keys.Nodup) (name : String) :
    (list.without name).keys.Nodup := by
  rw [keys_without]
  exact h.filter _

/-- Writing entries whose names are new and distinct appends them in their order. -/
theorem foldl_write {list : Association} {entries : List (String × Value)}
    (h : (keys (list ++ entries)).Nodup) :
    entries.foldl (fun list e => list.write e.1 e.2) list = list ++ entries := by
  induction entries generalizing list with
  | nil => simp
  | cons e r ih =>
    have hnew : e.1 ∉ list.keys := by
      intro hmem
      rw [keys, List.map_append, List.map_cons] at h
      exact (List.nodup_append.1 h).2.2 e.1 hmem e.1 List.mem_cons_self rfl
    rw [List.foldl_cons, write_of_notMem hnew, ih (by simpa using h)]
    simp

/-- Collecting entries with distinct names gives them back. -/
theorem collect_of_nodup {entries : Association} (h : entries.keys.Nodup) :
    collect entries = entries :=
  @foldl_write [] entries h

end Association

namespace Row

open Association

/-! ## A row as an association list -/

/-- A value is found under the first entry of its name. -/
theorem findEntry_eq_lookup (name : String) (entries : Association) :
    findEntry name entries = entries.lookup name := by
  induction entries with
  | nil => rfl
  | cons e r ih =>
    obtain ⟨n, v⟩ := e
    by_cases h : n = name
    · simp [findEntry, h]
    · have hne : (name == n) = false := beq_false_of_ne (Ne.symm h)
      simp [findEntry, List.lookup_cons, h, hne, ih]

/-- Only the first entry can have its name if names are distinct. -/
theorem ne_of_nodup_cons {e : String × Value} {r : Association} (h : (keys (e :: r)).Nodup)
    {other : String × Value} (hmem : other ∈ r) : other.1 ≠ e.1 := by
  intro heq
  have hname : other.1 ∈ keys r := List.mem_map_of_mem hmem
  rw [heq] at hname
  exact (List.nodup_cons.1 h).1 hname

/-- Writing a row is writing the list. -/
theorem insertEntry_eq_write {entries : Association} (h : entries.keys.Nodup) (name : String)
    (value : Value) : insertEntry name value entries = write entries name value := by
  induction entries with
  | nil => rfl
  | cons e r ih =>
    have hr := ih (List.nodup_cons.1 h).2
    by_cases hname : e.1 = name
    · subst hname
      have hkept : (r.map fun other => if other.1 = e.1 then (e.1, value) else other) = r := by
        conv_rhs => rw [← List.map_id r]
        exact List.map_congr_left fun other hmem => if_neg (ne_of_nodup_cons h hmem)
      simp [insertEntry, write, hkept]
    · by_cases hmem : name ∈ keys r
      · simp [insertEntry, hname, hr, write, hmem]
      · have hnew : name ∉ keys (e :: r) := by simp_all [eq_comm]
        simp [insertEntry, hname, hr, write_of_notMem hmem, write_of_notMem hnew]

/-- Removing from a row is removing from the list. -/
theorem eraseEntry_eq_without {entries : Association} (h : entries.keys.Nodup) (name : String) :
    eraseEntry name entries = without entries name := by
  induction entries with
  | nil => rfl
  | cons e r ih =>
    have hr := ih (List.nodup_cons.1 h).2
    by_cases hname : e.1 = name
    · subst hname
      have hkept : r.filter (fun other => other.1 ≠ e.1) = r :=
        List.filter_eq_self.2 fun other hmem => by simp [ne_of_nodup_cons h hmem]
      rw [eraseEntry, if_pos rfl, without, List.filter_cons_of_neg (by simp), hkept]
    · rw [eraseEntry, if_neg hname, hr, without, without,
        List.filter_cons_of_pos (by simp [hname])]

/-- Writing entries one by one is writing them to the list. -/
theorem entries_foldl_insert {row : Row} (h : row.names.Nodup) (entries : Association) :
    (entries.foldl (fun row e => row.insert e.1 e.2) row).entries =
      entries.foldl (fun list e => write list e.1 e.2) row.entries ∧
    (entries.foldl (fun row e => row.insert e.1 e.2) row).names.Nodup := by
  induction entries generalizing row with
  | nil => exact ⟨rfl, h⟩
  | cons e r ih =>
    have hinsert : (row.insert e.1 e.2).entries = write row.entries e.1 e.2 :=
      insertEntry_eq_write h e.1 e.2
    have hnodup : (row.insert e.1 e.2).names.Nodup := by
      rw [names, hinsert]
      exact nodup_write h e.1 e.2
    rw [List.foldl_cons, List.foldl_cons, ← hinsert]
    exact ih hnodup

/-- Collecting a row is collecting the list, and its names are distinct. -/
theorem entries_ofList (entries : Association) :
    (ofList entries).entries = collect entries ∧ (ofList entries).names.Nodup :=
  @entries_foldl_insert .empty List.nodup_nil entries

/-- A row with distinct names is collected from its own entries. -/
theorem ofList_entries {row : Row} (h : row.names.Nodup) : ofList row.entries = row := by
  have hentries := (entries_ofList row.entries).1
  rw [collect_of_nodup h] at hentries
  exact congrArg Row.mk hentries

/-- A row with distinct names is zipped from its names and values. -/
theorem zip_split {row : Row} (h : row.names.Nodup) :
    Row.zip row.split.1 row.split.2 = some row := by
  have hpairs : row.names.zip row.values = row.entries :=
    (List.zip_of_prod rfl rfl).symm
  rw [Row.zip, if_pos (size_split row).symm]
  exact congrArg some (hpairs ▸ ofList_entries h)

/-! ## Edits and histories -/

/-- One edit does to a row with distinct names what it does to the list, reports the same, and
keeps names distinct. -/
theorem edit_agrees {row : Row} (h : row.names.Nodup) (e : Edit) :
    (row.edit e).1 = (Association.edit row.entries e).1 ∧
      (row.edit e).2.entries = (Association.edit row.entries e).2 ∧
      (row.edit e).2.names.Nodup := by
  have hinsert : ∀ name value, (row.insert name value).entries = write row.entries name value :=
    fun name value => insertEntry_eq_write h name value
  have hkept : ∀ name value, (row.insert name value).names.Nodup := fun name value => by
    rw [names, hinsert]
    exact nodup_write h name value
  have hfind : ∀ name, row.find? name = row.entries.lookup name :=
    fun name => findEntry_eq_lookup name row.entries
  cases e with
  | insert name value =>
    simp only [Row.edit, exchange_eq, Association.edit, hfind]
    exact ⟨trivial, hinsert name value, hkept name value⟩
  | chain name value => exact ⟨rfl, hinsert name value, hkept name value⟩
  | remove name =>
    have herase : (row.erase name).entries = without row.entries name :=
      eraseEntry_eq_without h name
    simp only [Row.edit, take_eq, Association.edit, hfind]
    refine ⟨trivial, herase, ?_⟩
    rw [names, herase]
    exact nodup_without h name
  | collect entries => exact ⟨rfl, entries_ofList entries⟩
  | zip names values =>
    by_cases hlength : names.length = values.length
    · simp only [Row.edit, Row.zip, Association.edit, if_pos hlength, if_pos hlength.symm]
      exact ⟨trivial, entries_ofList (names.zip values)⟩
    · simp only [Row.edit, Row.zip, Association.edit, if_neg hlength, if_neg (Ne.symm hlength)]
      exact ⟨trivial, trivial, h⟩

/-- A history of a row with distinct names is that of the list, and names stay distinct. -/
theorem history_agrees {row : Row} (h : row.names.Nodup) (edits : List Edit) :
    (row.history edits).1 = (Association.history row.entries edits).1 ∧
      (row.history edits).2.entries = (Association.history row.entries edits).2 ∧
      (row.history edits).2.names.Nodup := by
  induction edits generalizing row with
  | nil => exact ⟨rfl, rfl, h⟩
  | cons e r ih =>
    obtain ⟨hreport, hentries, hnodup⟩ := edit_agrees h e
    obtain ⟨hreports, hfinal, hdistinct⟩ := ih hnodup
    rw [hentries] at hreports hfinal
    refine ⟨?_, hfinal, hdistinct⟩
    rw [Row.history, Association.history, hreport, hreports]

/-- Whether all that can be seen of a row is what an association list has. -/
structure Shows (row : Row) (list : Association) : Prop where
  distinct : row.names.Nodup
  /-- Iterating over the row gives the entries of the list in their order. -/
  entries : row.entries = list
  find : ∀ name, row.find? name = list.lookup name
  contains : ∀ name, row.contains name = true ↔ name ∈ list.keys
  size : row.size = list.length
  isEmpty : row.isEmpty = true ↔ list = []
  names : row.names = list.keys
  values : row.values = list.map (·.2)
  split : row.split = list.unzip

/-- A row whose entries are a list of distinct names shows this list everywhere. -/
theorem shows_of_entries {row : Row} {list : Association} (distinct : row.names.Nodup)
    (entries : row.entries = list) : row.Shows list := by
  subst entries
  refine ⟨distinct, rfl, fun name => findEntry_eq_lookup name _, ?_, rfl, List.isEmpty_iff, rfl,
    rfl, ?_⟩
  · exact fun name => row.find?_isSome_iff name
  · rw [List.unzip_eq_map]
    rfl

/-- After every history that starts from the row without columns, a row shows the association
list with the same history, and all edits reported the same.  Its names are distinct, so it is
given back by collecting its entries and by zipping its names and values.  In it a name that
is written again keeps its place, a new name goes to the end, and so does a name that is
removed and written again. -/
theorem history_of_empty (edits : List Edit) :
    let row := (Row.empty.history edits).2
    let list := (Association.history [] edits).2
    (Row.empty.history edits).1 = (Association.history [] edits).1 ∧
      row.Shows list ∧
      ofList row.entries = row ∧
      Row.zip row.split.1 row.split.2 = some row ∧
      ∀ name value,
        (name ∈ row.names → (row.insert name value).names = row.names) ∧
        (name ∉ row.names → (row.insert name value).entries = row.entries ++ [(name, value)]) ∧
        ((row.erase name).insert name value).entries =
          (row.erase name).entries ++ [(name, value)] := by
  obtain ⟨hreports, hentries, hnodup⟩ := @history_agrees .empty List.nodup_nil edits
  refine ⟨hreports, shows_of_entries hnodup hentries, ofList_entries hnodup, zip_split hnodup,
    fun name value => ⟨fun hmem => ?_, fun hnew => ?_, ?_⟩⟩
  · rw [names_insert, if_pos hmem]
  · exact (insertEntry_eq_write hnodup name value).trans (write_of_notMem hnew value)
  · have herase := eraseEntry_eq_without hnodup name
    have hdistinct := nodup_without hnodup name
    change insertEntry name value (eraseEntry name _) = eraseEntry name _ ++ [(name, value)]
    rw [herase, insertEntry_eq_write hdistinct]
    exact write_without _ name value

end Row

end TableAccess
