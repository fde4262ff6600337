import TableAccess.Value
/-!
# Rows

A row maps column names to values and keeps the order in which the names first came.
Writing a name again replaces its value in place.  Rows are the columns of a written
record, the entries of a filter, the values bound by name, and the records of a result.

Main results:

- Theorems `find?_insert_self` and `find?_insert_of_ne`: a written name has its new
  value, and all other names keep theirs.
- Theorem `names_insert`: a new name goes to the end, an old one stays where it is.
- Theorem `size_split`: the names and the values of a row are equally many.
-/

namespace TableAccess

/-- Values by column name, in the order of the names' first appearance. -/
structure Row where
  entries : List (String × Value)
deriving Inhabited

namespace Row

/-! ## Reading -/

/-- The row without columns. -/
def empty : Row := ⟨[]⟩

/-- Whether a row has no columns. -/
def isEmpty (row : Row) : Bool :=
  row.entries.isEmpty

/-- The number of columns. -/
def size (row : Row) : Nat :=
  row.entries.length

/-- The column names in order. -/
def names (row : Row) : List String :=
  row.entries.map (·.1)

/-- The values in the order of their columns. -/
def values (row : Row) : List Value :=
  row.entries.map (·.2)

/-- The value of a name among entries. -/
def findEntry (name : String) : List (String × Value) → Option Value
  | [] => none
  | (n, v) :: r => if n = name then some v else findEntry name r

/-- The value of a column. -/
def find? (row : Row) (name : String) : Option Value :=
  findEntry name row.entries

/-- Whether a row has a column. -/
def contains (row : Row) (name : String) : Bool :=
  (row.find? name).isSome

/-! ## Writing -/

/-- Write a name among entries: in place if it is there, at the end otherwise. -/
def insertEntry (name : String) (value : Value) :
    List (String × Value) → List (String × Value)
  | [] => [(name, value)]
  | (n, v) :: r => if n = name then (n, value) :: r else (n, v) :: insertEntry name value r

/-- A row with the value of a column written. -/
def insert (row : Row) (name : String) (value : Value) : Row :=
  ⟨insertEntry name value row.entries⟩

/-- Entries without the first of a name. -/
def eraseEntry (name : String) : List (String × Value) → List (String × Value)
  | [] => []
  | (n, v) :: r => if n = name then r else (n, v) :: eraseEntry name r

/-- A row without a column. -/
def erase (row : Row) (name : String) : Row :=
  ⟨eraseEntry name row.entries⟩

/-- The row that results from writing entries one by one. -/
def ofList (entries : List (String × Value)) : Row :=
  entries.foldl (fun row e => row.insert e.1 e.2) empty

/-- The names and the values of a row, in the same order. -/
def split (row : Row) : List String × List Value :=
  (row.names, row.values)

/-- The row that pairs names with values by position; none unless there are equally
many. -/
def zip (names : List String) (values : List Value) : Option Row :=
  if values.length = names.length then some (ofList (names.zip values)) else none

/-! ## Comparing and writing out -/

/-- Whether two lists of entries agree in names, values and order. -/
def equalEntries : List (String × Value) → List (String × Value) → Bool
  | [], [] => true
  | (n, v) :: r, (m, w) :: s => n == m && v.equal w && equalEntries r s
  | _, _ => false

/-- Whether two rows agree in names, values and order. -/
def equal (a b : Row) : Bool :=
  equalEntries a.entries b.entries

/-- The row as the text of an object whose fields keep the order of the columns. -/
def toText (row : Row) : String :=
  let fields := row.entries.map fun e => (e.1, e.2.toDocument)
  String.ofList ('{' :: (Document.writeFields fields ++ ['}']))

/-! ## What writing does -/

@[simp]
theorem find?_empty (name : String) : empty.find? name = none :=
  rfl

@[simp]
theorem names_empty : empty.names = [] :=
  rfl

/-- A written name has its new value. -/
@[simp]
theorem find?_insert_self (row : Row) (name : String) (value : Value) :
    (row.insert name value).find? name = some value := by
  obtain ⟨entries⟩ := row
  simp only [find?, insert]
  induction entries with
  | nil => simp [insertEntry, findEntry]
  | cons e r ih =>
    unfold insertEntry
    split
    · rename_i h
      simp [findEntry, h]
    · rename_i h
      simp [findEntry, h, ih]

/-- All other names keep their values. -/
theorem find?_insert_of_ne (row : Row) {name other : String} (value : Value)
    (h : other ≠ name) : (row.insert name value).find? other = row.find? other := by
  obtain ⟨entries⟩ := row
  simp only [find?, insert]
  induction entries with
  | nil => simp [insertEntry, findEntry, Ne.symm h]
  | cons e r ih =>
    unfold insertEntry
    split
    · rename_i heq
      have hne : ¬ e.1 = other := fun h' => h (h'.symm.trans heq)
      simp [findEntry, hne]
    · simp [findEntry, ih]

/-- A name is found exactly if it is among the names. -/
theorem find?_isSome_iff (row : Row) (name : String) :
    (row.find? name).isSome = true ↔ name ∈ row.names := by
  obtain ⟨entries⟩ := row
  simp only [find?, names]
  induction entries with
  | nil => simp [findEntry]
  | cons e r ih =>
    by_cases h : e.1 = name
    · simp [findEntry, h]
    · simp [findEntry, h, ih, Ne.symm h]

/-- Writing an entry appends its name unless the name is there. -/
theorem map_fst_insertEntry (name : String) (value : Value) (entries : List (String × Value)) :
    (insertEntry name value entries).map (·.1) =
      if name ∈ entries.map (·.1) then entries.map (·.1) else entries.map (·.1) ++ [name] := by
  induction entries with
  | nil => simp [insertEntry]
  | cons e r ih =>
    unfold insertEntry
    split
    · rename_i h
      simp [h]
    · rename_i h
      rw [List.map_cons, ih]
      by_cases hmem : name ∈ r.map (·.1)
      · simp [hmem]
      · rw [if_neg hmem, List.map_cons, if_neg (by simpa [Ne.symm h] using hmem)]
        rfl

/-- A new name goes to the end, an old one stays where it is. -/
theorem names_insert (row : Row) (name : String) (value : Value) :
    (row.insert name value).names =
      if name ∈ row.names then row.names else row.names ++ [name] :=
  map_fst_insertEntry name value row.entries

/-- The names and the values of a row are equally many. -/
theorem size_split (row : Row) : row.split.1.length = row.split.2.length := by
  simp [split, names, values]

end Row

end TableAccess
