import TableAccess.Connection.Rehearsal
import TableAccess.Proofs.Session.History
import TableAccess.Proofs.Statement.Form
/-!
# Updating instead of inserting

Inserting a record is two transactions, one that inserts it and one that reads it back.  If
the record is to be updated instead when inserting fails at execution, what counts is only
how inserting as a whole ended: an update is sent if the insert was undone, but also if it
was committed and no row came back, or the record could not be read back.

Main results:

- Theorems `firstValue?_eq_some_iff` and `firstValue?_eq_none_iff`: which value comes back.
- Theorem `insert_effect`: what inserting a record asks for and gives.
- Theorem `fails_iff`: when inserting a record fails at execution.
- Theorem `insertOrUpdate_sends_update_iff`: when an update is sent.
-/

namespace TableAccess.Session

open Access Transaction Statement

variable {σ π : Type}

/-! ## Forms of the statements -/

/-- The positional form of the statement that inserts a record and returns its key. -/
def insertForm (table : String) (values : Row) (key : String) : Except AccessError Positional := do
  let _ ← Identifier.checkColumn key
  let statement ← Statement.insert table values
  Positional.compile (statement.returning key)

/-- The positional form of a select statement. -/
def selectForm (table : String) (columns : List String) (selection : Selection)
    (style : OperandStyle) : Except AccessError Positional := do
  let statement ← (Statement.select table columns selection style).result
  Positional.compile statement

/-- The positional form of the statement that reads a record back. -/
def readForm (table key : String) (id : Value) (style : OperandStyle) :
    Except AccessError Positional :=
  selectForm table ["*"] { Selection.everything with filter := .ofKey key id } style

/-- The positional form of an update statement. -/
def updateForm (table : String) (values : Row) (filter : Filter) (style : OperandStyle) :
    Except AccessError Positional := do
  let statement ← (Statement.update table values filter style).result
  Positional.compile statement

/-- What inserts a record begins with its key words. -/
theorem insertForm_begins {table : String} {values : Row} {key : String} {compiled : Positional}
    (h : insertForm table values key = .ok compiled) : Begins "INSERT INTO " compiled.sql := by
  obtain ⟨column, -, hinsert⟩ := bind_eq_ok_iff.1 h
  obtain ⟨statement, hstatement, hcompile⟩ := bind_eq_ok_iff.1 hinsert
  refine prefix_of_compile hcompile (by decide) ?_
  exact (insert_begins hstatement).continues
    ((continues_push _ " RETURNING ").trans (continues_push _ key))

theorem selectForm_begins {table : String} {columns : List String} {selection : Selection}
    {style : OperandStyle} {compiled : Positional}
    (h : selectForm table columns selection style = .ok compiled) :
    Begins "SELECT " compiled.sql := by
  obtain ⟨statement, hstatement, hcompile⟩ := bind_eq_ok_iff.1 h
  exact prefix_of_compile hcompile (by decide) (select_begins hstatement)

theorem updateForm_begins {table : String} {values : Row} {filter : Filter}
    {style : OperandStyle} {compiled : Positional}
    (h : updateForm table values filter style = .ok compiled) : Begins "UPDATE " compiled.sql := by
  obtain ⟨statement, hstatement, hcompile⟩ := bind_eq_ok_iff.1 h
  exact prefix_of_compile hcompile (by decide) (update_begins hstatement)

/-- A record that is refused before its insert is run does not fail at execution. -/
theorem unexecuted_insertForm (table : String) (values : Row) (key : String) :
    Unexecuted (insertForm table values key) :=
  .bind (unexecuted_check .column key) fun _ _ =>
    .bind (unexecuted_insert table values) fun _ _ => unexecuted_compile _

theorem unexecuted_selectForm (table : String) (columns : List String) (selection : Selection)
    (style : OperandStyle) : Unexecuted (selectForm table columns selection style) :=
  .bind (unexecuted_select table columns selection style) fun _ _ => unexecuted_compile _

/-! ## Values that come back -/

/-- Whether a value comes back in rows: it stands in the first column of the first row. -/
inductive Returns : List Row → Value → Prop where
  | first {row : Row} {rows : List Row} {name : String} {value : Value}
      {more : List (String × Value)} (entries : row.entries = (name, value) :: more) :
      Returns (row :: rows) value

/-- Whether no value comes back in rows: there is no row, or the first one has no columns. -/
inductive ReturnsNothing : List Row → Prop where
  | noRow : ReturnsNothing []
  | noColumn {row : Row} {rows : List Row} (entries : row.entries = []) :
      ReturnsNothing (row :: rows)

/-- The first value of rows is the value that comes back in them. -/
theorem firstValue?_eq_some_iff {rows : List Row} {value : Value} :
    firstValue? rows = some value ↔ Returns rows value := by
  constructor
  · intro h
    cases rows with
    | nil => cases h
    | cons row r =>
      obtain ⟨_ | ⟨⟨name, v⟩, more⟩⟩ := row
      · cases h
      · cases h
        exact .first rfl
  · rintro ⟨hentries⟩
    simp [firstValue?, Row.values, hentries]

/-- Rows have no first value exactly if no value comes back in them. -/
theorem firstValue?_eq_none_iff {rows : List Row} :
    firstValue? rows = none ↔ ReturnsNothing rows := by
  constructor
  · intro h
    cases rows with
    | nil => exact .noRow
    | cons row r =>
      obtain ⟨_ | ⟨⟨name, v⟩, more⟩⟩ := row
      · exact .noColumn rfl
      · cases h
  · rintro (_ | hentries)
    · rfl
    · simp [firstValue?, Row.values, hentries]

/-! ## Effects of the operations -/

section Connected

variable (c : Connection σ π) (settings : Settings)

/-- A session with a connection. -/
abbrev connected : Session σ π :=
  ⟨some c, settings⟩

/-- Selecting runs one statement. -/
theorem select_effect (table : String) (columns : List String) (selection : Selection) (s : σ) :
    (((connected c settings).select table columns selection).run s).effect =
      effectOf c .rows (selectForm table columns selection settings.operandStyle) s := by
  have hselect : (connected c settings).select table columns selection =
      ofNoted (Statement.select table columns selection settings.operandStyle) >>=
        runFor (some c) settings.reportLimit "fetch" .rows := rfl
  rw [hselect, bind_effect, ofNoted_effect]
  unfold selectForm
  cases (Statement.select table columns selection settings.operandStyle).result with
  | error e => rfl
  | ok statement => exact runFor_effect settings.reportLimit "fetch" .rows statement s c

/-- Updating runs one statement. -/
theorem update_effect (table : String) (values : Row) (filter : Filter) (s : σ) :
    (((connected c settings).update table values filter).run s).effect =
      effectOf c .rows (updateForm table values filter settings.operandStyle) s := by
  have hupdate : (connected c settings).update table values filter =
      ofNoted (Statement.update table values filter settings.operandStyle) >>=
        runFor (some c) settings.reportLimit "update" .rows := rfl
  rw [hupdate, bind_effect, ofNoted_effect]
  unfold updateForm
  cases (Statement.update table values filter settings.operandStyle).result with
  | error e => rfl
  | ok statement => exact runFor_effect settings.reportLimit "update" .rows statement s c

/-- Insert a record for the value that the server gives to its key column. -/
def insertReturning (session : Session σ π) (table : String) (values : Row) (key : String) :
    Access σ (List Row) := do
  let _ ← Identifier.checkColumn key
  let statement ← Statement.insert table values
  session.query "insert" (statement.returning key)

/-- Read a record back by the value that its insert returned. -/
def readBack (session : Session σ π) (table key : String) (returned : List Row) :
    Access σ (List Row) :=
  match firstValue? returned with
  | none => fail (.execution none ("insert into " ++ table ++ " returned no " ++ key))
  | some id => session.select table ["*"] { Selection.everything with filter := .ofKey key id }

/-- A record is inserted, and then it is read back. -/
theorem insert_eq (session : Session σ π) (table : String) (values : Row) (key : String) :
    session.insert table values key =
      session.insertReturning table values key >>= session.readBack table key := by
  simp only [insert, insertReturning, bind_assoc]
  rfl

/-- Inserting a record without reading it back runs one statement. -/
theorem insertReturning_effect (table : String) (values : Row) (key : String) (s : σ) :
    (((connected c settings).insertReturning table values key).run s).effect =
      effectOf c .rows (insertForm table values key) s := by
  unfold insertReturning insertForm
  cases Identifier.checkColumn key with
  | error e => rfl
  | ok column =>
    cases Statement.insert table values with
    | error e => rfl
    | ok statement =>
      exact runFor_effect settings.reportLimit "insert" .rows (statement.returning key) s c

/-- What inserting a record asks for and gives. -/
theorem insert_effect (table : String) (values : Row) (key : String) (s : σ) :
    (((connected c settings).insert table values key).run s).effect =
      let first := effectOf c .rows (insertForm table values key) s
      match first.1 with
      | .error e => (.error e, first.2)
      | .ok rows =>
        match firstValue? rows with
        | none =>
          (.error (.execution none ("insert into " ++ table ++ " returned no " ++ key)), first.2)
        | some id =>
          let second := effectOf c .rows (readForm table key id settings.operandStyle) first.2.1
          (second.1, second.2.1, first.2.2 ++ second.2.2) := by
  rw [insert_eq, bind_effect, insertReturning_effect]
  obtain ⟨result, t, calls⟩ := effectOf c .rows (insertForm table values key) s
  cases result with
  | error e => rfl
  | ok rows =>
    simp only [readBack]
    cases firstValue? rows with
    | none => simp [Outcome.effect, Journal.exchanges]
    | some id =>
      simp only
      rw [select_effect]
      rfl

/-- What inserting a record or else updating it asks for and gives. -/
theorem insertOrUpdate_effect (table : String) (values : Row) (key : String) (s : σ) :
    (((connected c settings).insertOrUpdate table values key).run s).effect =
      let inserted := (((connected c settings).insert table values key).run s).effect
      match inserted.1 with
      | .ok rows => (.ok rows, inserted.2)
      | .error e =>
        if e.isExecution then
          match values.find? key with
          | none => (.error (.emptyInput ("no value for identifier field " ++ key)), inserted.2)
          | some id =>
            let second := effectOf c .rows
              (updateForm table values (.ofKey key id.coerceInteger) settings.operandStyle)
              inserted.2.1
            (second.1, second.2.1, inserted.2.2 ++ second.2.2)
        else (.error e, inserted.2) := by
  rw [insertOrUpdate, bind_effect, attempt_effect]
  obtain ⟨result, t, calls⟩ :=
    (((connected c settings).insert table values key).run s).effect
  simp only
  cases result with
  | ok rows => simp [Outcome.effect, Journal.exchanges]
  | error e =>
    simp only
    split
    · rw [bind_effect, give_effect]
      simp only
      cases values.find? key with
      | none => simp [Outcome.effect, Journal.exchanges]
      | some id =>
        simp only
        rw [update_effect]
        rfl
    · simp [Outcome.effect, Journal.exchanges]

end Connected

/-! ## Updates that are sent -/

/-- Whether an update statement was sent to be prepared. -/
def SendsUpdate (log : List Exchange) : Prop :=
  ∃ sql reply, (Call.prepare sql, reply) ∈ log ∧ Begins "UPDATE " sql

/-- An update is sent in one of two logs if it is sent in both of them together. -/
theorem sendsUpdate_append (a b : List Exchange) :
    SendsUpdate (a ++ b) ↔ SendsUpdate a ∨ SendsUpdate b := by
  constructor
  · rintro ⟨sql, reply, hmem, hbegins⟩
    rcases List.mem_append.1 hmem with hmem | hmem
    · exact .inl ⟨sql, reply, hmem, hbegins⟩
    · exact .inr ⟨sql, reply, hmem, hbegins⟩
  · rintro (⟨sql, reply, hmem, hbegins⟩ | ⟨sql, reply, hmem, hbegins⟩)
    · exact ⟨sql, reply, List.mem_append_left b hmem, hbegins⟩
    · exact ⟨sql, reply, List.mem_append_right a hmem, hbegins⟩

/-- A text does not begin with two words neither of which goes on with the other. -/
theorem not_begins {word other sql : String} (h : Begins word sql)
    (hword : ¬ word.toList <+: other.toList ∧ ¬ other.toList <+: word.toList) :
    ¬ Begins other sql := by
  intro hother
  rcases List.prefix_or_prefix_of_prefix h hother with hle | hle
  · exact hword.1 hle
  · exact hword.2 hle

/-- A block sends an update exactly if it is opened and its statement is one. -/
theorem sendsUpdate_blockOf_iff (c : Connection σ π) (compiled : Positional) (s : σ) :
    SendsUpdate (blockOf c .rows compiled s).1.exchanges ↔
      (c.begin s).1 = .ok () ∧ Begins "UPDATE " compiled.sql := by
  have hprepares := Block.prepares_iff (blockOf_runs c .rows compiled s)
  have hopening : (blockOf c .rows compiled s).1.opening = .ok .done ↔ (c.begin s).1 = .ok () := by
    rw [blockOf_opening]
    cases (c.begin s).1 <;> simp [Block.acknowledged, Except.map]
  constructor
  · rintro ⟨sql, reply, hmem, hbegins⟩
    obtain ⟨hopened, rfl⟩ := (hprepares sql).1 ⟨reply, hmem⟩
    exact ⟨hopening.1 hopened, hbegins⟩
  · rintro ⟨hopened, hbegins⟩
    obtain ⟨reply, hmem⟩ := (hprepares compiled.sql).2 ⟨hopening.2 hopened, rfl⟩
    exact ⟨compiled.sql, reply, hmem, hbegins⟩

/-- A statement that is no update sends none. -/
theorem not_sendsUpdate_effectOf (c : Connection σ π) {form : Except AccessError Positional}
    (h : ∀ compiled, form = .ok compiled → ¬ Begins "UPDATE " compiled.sql) (s : σ) :
    ¬ SendsUpdate (effectOf c .rows form s).2.2 := by
  cases form with
  | error e =>
    rintro ⟨sql, reply, hmem, -⟩
    cases hmem
  | ok compiled =>
    intro hsends
    exact h compiled rfl ((sendsUpdate_blockOf_iff c compiled s).1 hsends).2

section Connected

variable (c : Connection σ π) (settings : Settings) (table : String) (values : Row) (key : String)
  (s : σ)

/-- Inserting a record sends no update. -/
theorem not_sendsUpdate_insert :
    ¬ SendsUpdate (((connected c settings).insert table values key).run
      s).journal.exchanges := by
  have hinsert : ∀ compiled, insertForm table values key = .ok compiled →
      ¬ Begins "UPDATE " compiled.sql :=
    fun compiled h => not_begins (insertForm_begins h) (by decide)
  have hread : ∀ id compiled, readForm table key id settings.operandStyle = .ok compiled →
      ¬ Begins "UPDATE " compiled.sql :=
    fun id compiled h => not_begins (selectForm_begins h) (by decide)
  have hfirst := not_sendsUpdate_effectOf c hinsert s
  obtain ⟨-, -, hcalls⟩ := Outcome.effect_eq_iff.1 (insert_effect c settings table values key s)
  simp only at hcalls
  rw [hcalls]
  cases (effectOf c .rows (insertForm table values key) s).1 with
  | error e => exact hfirst
  | ok rows =>
    simp only
    cases firstValue? rows with
    | none => exact hfirst
    | some id =>
      intro hsends
      rcases (sendsUpdate_append _ _).1 hsends with hsends | hsends
      · exact hfirst hsends
      · exact not_sendsUpdate_effectOf c (hread id) _ hsends

/-- Running a statement fails at execution exactly if its block does. -/
theorem effectOf_fails_iff {form : Except AccessError Positional} (h : Unexecuted form) (t : σ)
    {e : AccessError} (hexecution : e.isExecution = true) :
    (effectOf c .rows form t).1 = .error e ↔
      ∃ compiled, form = .ok compiled ∧ (blockOf c .rows compiled t).1.result = .error e := by
  cases form with
  | error e' =>
    constructor
    · rintro ⟨⟩
      have hother := h e rfl
      rw [hexecution] at hother
      cases hother
    · rintro ⟨compiled, hform, -⟩
      cases hform
  | ok compiled =>
    constructor
    · intro hresult
      exact ⟨compiled, rfl, hresult⟩
    · rintro ⟨_, ⟨⟩, hresult⟩
      exact hresult

/-- How inserting a record fails at execution; `committed` says whether its insert was
committed. -/
inductive FailsAtExecution : (committed : Bool) → Prop where
  /-- The insert was not committed. -/
  | undone {compiled : Positional} {e : AccessError}
      (form : insertForm table values key = .ok compiled)
      (result : (blockOf c .rows compiled s).1.result = .error e)
      (execution : e.isExecution = true) : FailsAtExecution false
  /-- The insert was committed, and no value came back. -/
  | unanswered {compiled : Positional} {rows : List Row}
      (form : insertForm table values key = .ok compiled)
      (result : (blockOf c .rows compiled s).1.result = .ok rows)
      (nothing : ReturnsNothing rows) : FailsAtExecution true
  /-- The insert was committed, and reading the record back failed. -/
  | unread {compiled reading : Positional} {rows : List Row} {id : Value} {e : AccessError}
      (form : insertForm table values key = .ok compiled)
      (result : (blockOf c .rows compiled s).1.result = .ok rows)
      (returned : Returns rows id)
      (readForm : readForm table key id settings.operandStyle = .ok reading)
      (readResult :
        (blockOf c .rows reading (blockOf c .rows compiled s).2).1.result = .error e)
      (execution : e.isExecution = true) : FailsAtExecution true

/-- When inserting a record fails at execution. -/
theorem fails_iff :
    (∃ e, (((connected c settings).insert table values key).run s).result = .error e ∧
      e.isExecution = true) ↔
      ∃ committed, FailsAtExecution c settings table values key s committed := by
  obtain ⟨hended, -, -⟩ := Outcome.effect_eq_iff.1 (insert_effect c settings table values key s)
  simp only at hended
  rw [hended]
  constructor
  · rintro ⟨e, hresult, hexecution⟩
    cases hfirst : (effectOf c .rows (insertForm table values key) s).1 with
    | error e' =>
      rw [hfirst] at hresult
      cases hresult
      obtain ⟨compiled, hform, hblock⟩ :=
        (effectOf_fails_iff c (unexecuted_insertForm table values key) s hexecution).1 hfirst
      exact ⟨false, .undone hform hblock hexecution⟩
    | ok rows =>
      rw [hfirst] at hresult
      simp only at hresult
      obtain ⟨compiled, hform, hblock⟩ := (effectOf_eq_ok_iff c .rows _ s rows).1 hfirst
      cases hvalue : firstValue? rows with
      | none => exact ⟨true, .unanswered hform hblock (firstValue?_eq_none_iff.1 hvalue)⟩
      | some id =>
        rw [hvalue, hform] at hresult
        obtain ⟨reading, hread, hreadBlock⟩ :=
          (effectOf_fails_iff c (unexecuted_selectForm _ _ _ _) _ hexecution).1 hresult
        have hreturned := firstValue?_eq_some_iff.1 hvalue
        exact ⟨true, .unread hform hblock hreturned hread hreadBlock hexecution⟩
  · rintro ⟨committed, hfails⟩
    cases hfails with
    | undone form result execution =>
      refine ⟨_, ?_, execution⟩
      simp only [form, effectOf, result]
    | unanswered form result nothing =>
      refine ⟨.execution none ("insert into " ++ table ++ " returned no " ++ key), ?_, rfl⟩
      simp only [form, effectOf, result, firstValue?_eq_none_iff.2 nothing]
    | unread form result returned readForm readResult execution =>
      refine ⟨_, ?_, execution⟩
      simp only [form, effectOf, result, firstValue?_eq_some_iff.2 returned, readForm, readResult]

/-- Whether the record can be updated in this state: it has a value for its key column, the
update has a positional form, and a transaction can be opened. -/
def CanUpdate (t : σ) : Prop :=
  ∃ id compiled, values.find? key = some id ∧
    updateForm table values (.ofKey key id.coerceInteger) settings.operandStyle = .ok compiled ∧
    (c.begin t).1 = .ok ()

/-- The update that is sent instead of an insert that failed. -/
theorem sendsUpdate_instead_iff (id : Value) (t : σ) :
    SendsUpdate (effectOf c .rows
        (updateForm table values (.ofKey key id.coerceInteger) settings.operandStyle) t).2.2 ↔
      ∃ compiled, updateForm table values (.ofKey key id.coerceInteger) settings.operandStyle =
        .ok compiled ∧ (c.begin t).1 = .ok () := by
  cases hform : updateForm table values (.ofKey key id.coerceInteger) settings.operandStyle with
  | error e =>
    constructor
    · rintro ⟨sql, reply, hmem, -⟩
      cases hmem
    · rintro ⟨compiled, hcompiled, -⟩
      cases hcompiled
  | ok compiled =>
    have hiff := sendsUpdate_blockOf_iff c compiled t
    constructor
    · intro hsends
      exact ⟨compiled, rfl, (hiff.1 hsends).1⟩
    · rintro ⟨_, -, hopened⟩
      exact hiff.2 ⟨hopened, updateForm_begins hform⟩

/-- An update is sent exactly if inserting failed at execution and the record can be updated. -/
theorem sendsUpdate_iff :
    SendsUpdate (((connected c settings).insertOrUpdate table values key).run
        s).effect.2.2 ↔
      (∃ e, (((connected c settings).insert table values key).run s).effect.1 =
          .error e ∧ e.isExecution = true) ∧
        CanUpdate c settings table values key
          (((connected c settings).insert table values key).run s).effect.2.1 := by
  have hinsert : ¬ SendsUpdate
      (((connected c settings).insert table values key).run s).effect.2.2 :=
    not_sendsUpdate_insert c settings table values key s
  rw [insertOrUpdate_effect]
  revert hinsert
  generalize (((connected c settings).insert table values key).run s).effect = inserted
  intro hinsert
  obtain ⟨result, t, calls⟩ := inserted
  cases result with
  | ok rows =>
    constructor
    · intro hsends
      exact absurd hsends hinsert
    · rintro ⟨⟨e, he, -⟩, -⟩
      cases he
  | error e =>
    simp only
    by_cases hexecution : e.isExecution = true
    · rw [if_pos hexecution]
      cases hid : values.find? key with
      | none =>
        constructor
        · intro hsends
          exact absurd hsends hinsert
        · rintro ⟨-, id, compiled, hfound, -⟩
          rw [hid] at hfound
          cases hfound
      | some id =>
        have hiff := sendsUpdate_instead_iff c settings table values key id t
        constructor
        · intro hsends
          rcases (sendsUpdate_append _ _).1 hsends with hsends | hsends
          · exact absurd hsends hinsert
          · obtain ⟨compiled, hform, hopened⟩ := hiff.1 hsends
            exact ⟨⟨e, rfl, hexecution⟩, id, compiled, hid, hform, hopened⟩
        · rintro ⟨-, other, compiled, hfound, hform, hopened⟩
          rw [hid] at hfound
          cases hfound
          exact (sendsUpdate_append _ _).2 (.inr (hiff.2 ⟨compiled, hform, hopened⟩))
    · rw [if_neg hexecution]
      constructor
      · intro hsends
        exact absurd hsends hinsert
      · rintro ⟨⟨e', he, hexecution'⟩, -⟩
        cases he
        exact absurd hexecution' hexecution

/-- Where inserting did not fail at execution, its outcome is kept. -/
theorem insertOrUpdate_effect_of_not_fails
    (h : ¬ ∃ e, (((connected c settings).insert table values key).run s).effect.1 =
      .error e ∧ e.isExecution = true) :
    (((connected c settings).insertOrUpdate table values key).run s).effect =
      (((connected c settings).insert table values key).run s).effect := by
  rw [insertOrUpdate_effect]
  revert h
  generalize (((connected c settings).insert table values key).run s).effect = inserted
  intro h
  obtain ⟨result, rest⟩ := inserted
  cases result with
  | ok rows => rfl
  | error e =>
    simp only
    rw [if_neg fun hexecution => h ⟨e, rfl, hexecution⟩]

/-- When an update is sent instead of an insert.  How inserting as a whole ended decides: an
update is sent exactly if inserting failed at execution and the record can be updated in
the state that it left.  An insert that was committed is no exception: then an update is
sent exactly if no value came back or the record could not be read back.  Where inserting
did not fail at execution, its outcome is kept. -/
theorem insertOrUpdate_sends_update_iff :
    (SendsUpdate (((connected c settings).insertOrUpdate table values key).run
          s).journal.exchanges ↔
        (∃ committed, FailsAtExecution c settings table values key s committed) ∧
          CanUpdate c settings table values key
            (((connected c settings).insert table values key).run s).state) ∧
      (∀ compiled, insertForm table values key = .ok compiled →
        (blockOf c .rows compiled s).1.Committed →
          (SendsUpdate (((connected c settings).insertOrUpdate table values key).run
                s).journal.exchanges ↔
            FailsAtExecution c settings table values key s true ∧
              CanUpdate c settings table values key
                (((connected c settings).insert table values key).run s).state)) ∧
      ((∀ committed, ¬ FailsAtExecution c settings table values key s committed) →
        (((connected c settings).insertOrUpdate table values key).run s).effect =
          (((connected c settings).insert table values key).run s).effect) := by
  have hfails := fails_iff c settings table values key s
  have hsends : SendsUpdate (((connected c settings).insertOrUpdate table values key).run
        s).journal.exchanges ↔
      (∃ committed, FailsAtExecution c settings table values key s committed) ∧
        CanUpdate c settings table values key
          (((connected c settings).insert table values key).run s).state := by
    rw [← hfails]
    exact sendsUpdate_iff c settings table values key s
  refine ⟨hsends, fun compiled hform hcommitted => ?_, fun hnone => ?_⟩
  · rw [hsends]
    constructor
    · rintro ⟨⟨committed, hfailed⟩, hupdate⟩
      cases hfailed with
      | undone form result execution =>
        rw [hform] at form
        cases form
        obtain ⟨yield, hyield⟩ := (Block.result_isOk_iff _).2 hcommitted
        rw [hyield] at result
        cases result
      | unanswered form result nothing => exact ⟨.unanswered form result nothing, hupdate⟩
      | unread form result returned readForm readResult execution =>
        exact ⟨.unread form result returned readForm readResult execution, hupdate⟩
    · rintro ⟨hfailed, hupdate⟩
      exact ⟨⟨true, hfailed⟩, hupdate⟩
  · refine insertOrUpdate_effect_of_not_fails c settings table values key s fun hfailed => ?_
    obtain ⟨committed, hcommitted⟩ := hfails.1 hfailed
    exact hnone committed hcommitted

end Connected

/-- An update is sent after an insert that was committed if no row came back. -/
theorem insertOrUpdate_sends_update_after_commit :
    ∃ compiled, insertForm "t" ⟨[("id", .int 5)]⟩ "id" = .ok compiled ∧
      (blockOf Rehearsal.connection .rows compiled ⟨[], [], [], 0⟩).1.Committed ∧
      SendsUpdate (((connected Rehearsal.connection .standard).insertOrUpdate "t"
        ⟨[("id", .int 5)]⟩ "id").run ⟨[], [], [], 0⟩).journal.exchanges := by
  have hform : insertForm "t" ⟨[("id", .int 5)]⟩ "id" =
      .ok ⟨"INSERT INTO t (id) VALUES ($1) RETURNING id", [.int 5], ["id"]⟩ := by cbv
  have hupdate : updateForm "t" ⟨[("id", .int 5)]⟩ (.ofKey "id" (Value.int 5).coerceInteger)
      Settings.standard.operandStyle =
      .ok ⟨"UPDATE t SET id=$1 WHERE id = $2 RETURNING *", [.int 5, .int 5], ["id", "__key"]⟩ := by
    have htable : Identifier.checkTable "t" = .ok "t" := by cbv
    have hcolumn : Identifier.checkColumn "id" = .ok "id" := by cbv
    have hstatement : (Statement.update "t" ⟨[("id", .int 5)]⟩ (.ofKey "id" (.int 5))
        .parameterized).result =
        .ok ⟨"UPDATE t SET id=:id WHERE id = :__key RETURNING *",
          ⟨[("id", .int 5), ("__key", .int 5)]⟩, 0⟩ := by
      simp only [Statement.update, pushAssignments, htable, hcolumn]
      rfl
    have hcompiled : Positional.compile ⟨"UPDATE t SET id=:id WHERE id = :__key RETURNING *",
        ⟨[("id", .int 5), ("__key", .int 5)]⟩, 0⟩ =
          .ok ⟨"UPDATE t SET id=$1 WHERE id = $2 RETURNING *", [.int 5, .int 5],
            ["id", "__key"]⟩ := by
      cbv
    exact bind_eq_ok_iff.2 ⟨_, hstatement, hcompiled⟩
  refine ⟨_, hform, rfl, ?_⟩
  have hinserted := insert_effect Rehearsal.connection .standard "t" ⟨[("id", .int 5)]⟩ "id"
    ⟨[], [], [], 0⟩
  rw [hform] at hinserted
  refine (sendsUpdate_iff Rehearsal.connection .standard "t" _ "id" _).2 ⟨?_, ?_⟩
  · rw [hinserted]
    exact ⟨_, rfl, rfl⟩
  · rw [hinserted]
    exact ⟨.int 5, _, rfl, hupdate, rfl⟩

end TableAccess.Session
