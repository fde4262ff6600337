import TableAccess.Row
/-!
# Edits of a row

What can be done to a row, as data, so that the whole history of a row can be told.  An edit
reports the value that it replaced or removed, and a history reports what each of its edits
did.

Main results:

- Theorem `exchange_eq`: exchanging a value writes it and gives the value before.
- Theorem `take_eq`: taking a value out removes its column and gives it.
- Theorem `history_append`: a history goes on where its first part ended.
-/

namespace TableAccess.Row

/-! ## Writing with the value before -/

/-- Write a name among entries, and give the value that it had. -/
def exchangeEntry (name : String) (value : Value) :
    List (String × Value) → Option Value × List (String × Value)
  | [] => (none, [(name, value)])
  | (n, v) :: r =>
    if n = name then
      (some v, (n, value) :: r)
    else
      let p := exchangeEntry name value r
      (p.1, (n, v) :: p.2)

/-- Write the value of a column, and give the value that it had. -/
def exchange (row : Row) (name : String) (value : Value) : Option Value × Row :=
  let p := exchangeEntry name value row.entries
  (p.1, ⟨p.2⟩)

/-- Take the first entry of a name out of entries, and give its value. -/
def takeEntry (name : String) :
    List (String × Value) → Option Value × List (String × Value)
  | [] => (none, [])
  | (n, v) :: r =>
    if n = name then
      (some v, r)
    else
      let p := takeEntry name r
      (p.1, (n, v) :: p.2)

/-- Take a column out, and give its value. -/
def take (row : Row) (name : String) : Option Value × Row :=
  let p := takeEntry name row.entries
  (p.1, ⟨p.2⟩)

/-- Exchanging a value gives the old one and writes the new one. -/
theorem exchangeEntry_eq (name : String) (value : Value) (entries : List (String × Value)) :
    exchangeEntry name value entries =
      (findEntry name entries, insertEntry name value entries) := by
  induction entries with
  | nil => rfl
  | cons e r ih =>
    unfold exchangeEntry findEntry insertEntry
    split
    · rfl
    · rw [ih]

/-- Exchanging a value writes it and gives the value before. -/
theorem exchange_eq (row : Row) (name : String) (value : Value) :
    row.exchange name value = (row.find? name, row.insert name value) := by
  unfold exchange
  rw [exchangeEntry_eq]
  rfl

/-- Taking a value gives it and leaves its name out. -/
theorem takeEntry_eq (name : String) (entries : List (String × Value)) :
    takeEntry name entries = (findEntry name entries, eraseEntry name entries) := by
  induction entries with
  | nil => rfl
  | cons e r ih =>
    unfold takeEntry findEntry eraseEntry
    split
    · rfl
    · rw [ih]

/-- Taking a value out removes its column and gives it. -/
theorem take_eq (row : Row) (name : String) :
    row.take name = (row.find? name, row.erase name) := by
  unfold take
  rw [takeEntry_eq]
  rfl

/-! ## Edits -/

/-- Something to do to a row. -/
inductive Edit where
  /-- Write a column, and report the value that it had. -/
  | insert (name : String) (value : Value)
  /-- Write a column as one of a chain. -/
  | chain (name : String) (value : Value)
  /-- Remove a column, and report its value. -/
  | remove (name : String)
  /-- Start again from entries that are written one by one. -/
  | collect (entries : List (String × Value))
  /-- Start again from names and values that are paired by position. -/
  | zip (names : List String) (values : List Value)

/-- What an edit reports. -/
inductive Report where
  | done
  /-- The value that was replaced or removed, if there was one. -/
  | value (before : Option Value)
  /-- There are not as many values as names, and the row is kept. -/
  | refused

/-- Do an edit. -/
def edit (row : Row) : Edit → Report × Row
  | .insert name value =>
    let p := row.exchange name value
    (.value p.1, p.2)
  | .chain name value => (.done, row.insert name value)
  | .remove name =>
    let p := row.take name
    (.value p.1, p.2)
  | .collect entries => (.done, ofList entries)
  | .zip names values =>
    match Row.zip names values with
    | some zipped => (.done, zipped)
    | none => (.refused, row)

/-- Do edits one after the other. -/
def history (row : Row) : List Edit → List Report × Row
  | [] => ([], row)
  | e :: r =>
    let p := row.edit e
    let q := p.2.history r
    (p.1 :: q.1, q.2)

/-- A history goes on where its first part ended. -/
theorem history_append (row : Row) (a b : List Edit) :
    row.history (a ++ b) =
      ((row.history a).1 ++ ((row.history a).2.history b).1,
        ((row.history a).2.history b).2) := by
  induction a generalizing row with
  | nil => rfl
  | cons e r ih => simp only [List.cons_append, history, ih]

end TableAccess.Row
