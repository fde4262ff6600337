import TableAccess.Proofs.Session.Fallback
import TableAccess.Proofs.Statement.Keyed
/-!
# Reading inserted records back

A record is inserted in one transaction and read back in another one, by the value that came
back for its key column.  The second transaction is asked for only if the first one was
committed and gave such a value, and the value is bound as it is.

Main results:

- Theorem `texts_effectOf`: which statements are sent when one is run.
- Theorem `insertsOnce_insert`: a record is inserted at most once.
- Theorem `insert_run_of_refused`: a record that cannot be inserted is refused at once.
- Theorem `insert_eq_of_accepted`: what is done with a record that can be inserted.
- Theorem `insert_readsBack`: how inserting a record goes.
-/

namespace TableAccess

open Statement

/-! ## Statements that are sent -/

namespace Call

/-- The text that a call sends to be prepared. -/
def prepared? : Call → Option String
  | prepare sql => some sql
  | _ => none

/-- The text of the statement that a call runs. -/
def run? : Call → Option String
  | query sql _ | execute sql _ => some sql
  | _ => none

end Call

/-- The texts that were sent to be prepared, in order. -/
def preparedTexts (log : List Exchange) : List String :=
  log.filterMap fun x => x.1.prepared?

/-- The texts of the statements that were run, in order. -/
def runTexts (log : List Exchange) : List String :=
  log.filterMap fun x => x.1.run?

/-- A block sends its statement at most once, and no other one. -/
theorem Block.texts_prefix {purpose : Purpose} {block : Block purpose} {sql : String}
    {parameters : List Value} (h : block.Runs sql parameters) :
    preparedTexts block.exchanges <+: [sql] ∧ runTexts block.exchanges <+: [sql] := by
  cases block with
  | unopened e => exact ⟨List.nil_prefix, List.nil_prefix⟩
  | unprepared other e rollback =>
    obtain rfl := h
    exact ⟨List.prefix_refl _, List.nil_prefix⟩
  | undone other values e rollback =>
    obtain ⟨rfl, rfl⟩ := h
    cases purpose <;> exact ⟨List.prefix_refl _, List.prefix_refl _⟩
  | completed other values yield commit =>
    obtain ⟨rfl, rfl⟩ := h
    cases purpose <;> exact ⟨List.prefix_refl _, List.prefix_refl _⟩

namespace Session

open Access Transaction

variable {σ π : Type}

/-- The text of a positional form, if there is one. -/
def textsOf : Except AccessError Positional → List String
  | .ok compiled => [compiled.sql]
  | .error _ => []

/-- Running a statement sends it at most once, and no other one. -/
theorem texts_effectOf (c : Connection σ π) (purpose : Purpose)
    (form : Except AccessError Positional) (s : σ) :
    preparedTexts (effectOf c purpose form s).2.2 <+: textsOf form ∧
      runTexts (effectOf c purpose form s).2.2 <+: textsOf form := by
  cases form with
  | error e => exact ⟨List.nil_prefix, List.nil_prefix⟩
  | ok compiled => exact Block.texts_prefix (blockOf_runs c purpose compiled s)

/-- Whether a text inserts records. -/
def isInsert (sql : String) : Bool :=
  decide ("INSERT INTO ".toList <+: sql.toList)

/-- Whether records were inserted at most once. -/
structure InsertsOnce (log : List Exchange) : Prop where
  prepared : (preparedTexts log).countP isInsert ≤ 1
  run : (runTexts log).countP isInsert ≤ 1

/-- Inserting a record is one statement. -/
theorem countP_insertForm_le (table : String) (values : Row) (key : String) :
    (textsOf (insertForm table values key)).countP isInsert ≤ 1 := by
  cases insertForm table values key with
  | error e => exact Nat.zero_le 1
  | ok compiled => exact List.countP_le_length

/-- Reading a record back inserts none. -/
theorem countP_readForm (table key : String) (id : Value) (style : OperandStyle) :
    (textsOf (readForm table key id style)).countP isInsert = 0 := by
  cases hform : readForm table key id style with
  | error e => rfl
  | ok compiled =>
    have hselect : ¬ Begins "INSERT INTO " compiled.sql :=
      not_begins (selectForm_begins hform) (by decide)
    have hother : isInsert compiled.sql = false := decide_eq_false hselect
    rw [textsOf, List.countP_singleton, hother]
    rfl

section Connected

variable (c : Connection σ π) (settings : Settings) (table : String) (values : Row) (key : String)
  (s : σ)

/-- The calls of an insert begin with those of the statement that inserts the record, and go on
with those of one that reads it back, if there are more. -/
theorem exists_insert_exchanges :
    ∃ id t, (((connected c settings).insert table values key).run s).journal.exchanges <+:
      (effectOf c .rows (insertForm table values key) s).2.2 ++
        (effectOf c .rows (readForm table key id settings.operandStyle) t).2.2 := by
  obtain ⟨-, -, hcalls⟩ := Outcome.effect_eq_iff.1 (insert_effect c settings table values key s)
  simp only at hcalls
  rw [hcalls]
  cases (effectOf c .rows (insertForm table values key) s).1 with
  | error e => exact ⟨.null, s, List.prefix_append _ _⟩
  | ok rows =>
    simp only
    cases firstValue? rows with
    | none => exact ⟨.null, s, List.prefix_append _ _⟩
    | some id => exact ⟨id, _, List.prefix_refl _⟩

/-- A record is inserted at most once. -/
theorem insertsOnce_insert :
    InsertsOnce (((connected c settings).insert table values key).run s).journal.exchanges := by
  obtain ⟨id, t, hcalls⟩ := exists_insert_exchanges c settings table values key s
  obtain ⟨hprepared, hrun⟩ := texts_effectOf c .rows (insertForm table values key) s
  obtain ⟨hprepared', hrun'⟩ :=
    texts_effectOf c .rows (readForm table key id settings.operandStyle) t
  -- Both kinds of texts are those of at most two statements, of which only the first inserts.
  have hle {sent first second : List String} (hsent : sent <+: first ++ second)
      (h : first <+: textsOf (insertForm table values key))
      (h' : second <+: textsOf (readForm table key id settings.operandStyle)) :
      sent.countP isInsert ≤ 1 := by
    calc
      sent.countP isInsert ≤ (first ++ second).countP isInsert := hsent.sublist.countP_le
      _ = first.countP isInsert + second.countP isInsert := List.countP_append
      _ ≤ 1 + 0 := Nat.add_le_add
        (h.sublist.countP_le.trans (countP_insertForm_le table values key))
        (countP_readForm table key id settings.operandStyle ▸ h'.sublist.countP_le)
  constructor
  · have hsent := hcalls.filterMap fun x => x.1.prepared?
    rw [List.filterMap_append] at hsent
    exact hle hsent hprepared hprepared'
  · have hsent := hcalls.filterMap fun x => x.1.run?
    rw [List.filterMap_append] at hsent
    exact hle hsent hrun hrun'

end Connected

/-! ## Records that are refused -/

section Session

variable (session : Session σ π) {table : String} {values : Row} {key : String}

/-- A record that cannot be inserted is refused at once, and no statement failed. -/
theorem insert_run_of_refused
    (h : ¬ (Identifier.checkColumn key = .ok key ∧ Insertable table values)) (s : σ) :
    ∃ e, e.isExecution = false ∧ (session.insert table values key).run s = ⟨.error e, s, []⟩ := by
  cases hkey : Identifier.checkColumn key with
  | error e =>
    exact ⟨e, unexecuted_check .column key e hkey,
      session.insert_run_of_key_error hkey table values s⟩
  | ok column =>
    obtain ⟨rfl, -⟩ := checkColumn_eq_ok hkey
    cases hinsert : Statement.insert table values with
    | error e =>
      refine ⟨e, unexecuted_insert table values e hinsert, ?_⟩
      rw [insert_eq, insertReturning, hkey, hinsert]
      rfl
    | ok statement =>
      have hinsertable := (exists_insert_iff table values).1 ⟨statement, hinsert⟩
      exact absurd ⟨hkey, hinsertable⟩ h

/-! ## Records that are inserted -/

/-- A record that can be inserted is inserted by one statement, and then it is read back. -/
theorem insert_eq_of_accepted (hkey : Identifier.checkColumn key = .ok key)
    {statement : Statement} (accepted : Statement.insert table values = .ok statement) :
    session.insert table values key =
      session.query "insert" (statement.returning key) >>= session.readBack table key := by
  rw [insert_eq, insertReturning, hkey, accepted]
  rfl

/-- A record is read back by the value that was returned, which is bound as it is. -/
theorem readBack_of_some (tableChecked : Identifier.checkTable table = .ok table)
    (hkey : Identifier.checkColumn key = .ok key) {rows : List Row} {id : Value}
    (returned : firstValue? rows = some id) :
    session.readBack table key rows = session.query "fetch" (selectByKey table key id) := by
  rw [readBack, returned]
  simp only [select]
  rw [select_ofKey tableChecked hkey]
  rfl

end Session

/-! ## How inserting a record goes -/

section Connected

variable (c : Connection σ π) (settings : Settings)

/-- Running a statement for its rows is one transaction, or nothing if the statement has no
positional form. -/
theorem query_effect (operation : String) (statement : Statement) (s : σ) :
    (((connected c settings).query operation statement).run s).effect =
      effectOf c .rows (Positional.compile statement) s :=
  runFor_effect settings.reportLimit operation .rows statement s c

/-- How the statement that inserts a record goes. -/
def inserted (inserting : Statement) (s : σ) : Outcome σ (List Row) :=
  ((connected c settings).query "insert" inserting).run s

/-- How reading a record back by the value of its key goes. -/
def fetched (table key : String) (id : Value) (s : σ) : Outcome σ (List Row) :=
  ((connected c settings).query "fetch" (selectByKey table key id)).run s

/-- Whether an outcome is that of a statement that inserts a record and of reading the record
back. -/
structure ReadsBack (table key : String) (inserting : Statement) (s : σ)
    (outcome : Outcome σ (List Row)) : Prop where
  /-- Inserting is one transaction, or nothing if the statement has no positional form. -/
  inserts : (inserted c settings inserting s).effect =
    effectOf c .rows (Positional.compile inserting) s
  /-- If inserting fails, that is all. -/
  failed : ∀ e, (inserted c settings inserting s).result = .error e →
    outcome = ⟨.error e, (inserted c settings inserting s).state,
      (inserted c settings inserting s).journal⟩
  /-- If no value comes back, that is an error, and nothing more is done. -/
  unanswered : ∀ rows, (inserted c settings inserting s).result = .ok rows →
    ReturnsNothing rows →
      outcome = ⟨.error (.execution none ("insert into " ++ table ++ " returned no " ++ key)),
        (inserted c settings inserting s).state, (inserted c settings inserting s).journal⟩
  /-- If a value comes back, the record is read back by it in a transaction of its own. -/
  answered : ∀ rows id, (inserted c settings inserting s).result = .ok rows → Returns rows id →
    let second := fetched c settings table key id (inserted c settings inserting s).state
    second.effect = effectOf c .rows (Positional.compile (selectByKey table key id))
        (inserted c settings inserting s).state ∧
      outcome = ⟨second.result, second.state,
        (inserted c settings inserting s).journal ++ second.journal⟩

/-- A record that can be inserted is inserted and read back. -/
theorem readsBack_of_accepted {table : String} {values : Row} {key : String}
    (hkey : Identifier.checkColumn key = .ok key) {statement : Statement}
    (accepted : Statement.insert table values = .ok statement) (s : σ) :
    ReadsBack c settings table key (statement.returning key) s
      (((connected c settings).insert table values key).run s) := by
  have htable : Identifier.checkTable table = .ok table :=
    ((exists_insert_iff table values).1 ⟨statement, accepted⟩).table
  have hrun := congrArg (fun action => action.run s)
    (insert_eq_of_accepted (connected c settings) hkey accepted)
  simp only [bind_run] at hrun
  rw [hrun]
  refine ⟨query_effect c settings "insert" _ s, fun e hresult => ?_,
    fun rows hresult hnothing => ?_, fun rows id hresult hreturns => ?_⟩
  · rw [inserted] at hresult
    simp only [hresult]
    rfl
  · have hnone := firstValue?_eq_none_iff.2 hnothing
    rw [inserted] at hresult
    simp only [hresult, readBack, hnone, fail_run, List.append_nil]
    rfl
  · have hreturned := firstValue?_eq_some_iff.2 hreturns
    rw [inserted] at hresult
    simp only [hresult, readBack_of_some (connected c settings) htable hkey hreturned]
    exact ⟨query_effect c settings "fetch" _ _, rfl⟩

/-- How inserting a record goes.  A record that cannot be inserted is refused before the
connection is asked for anything.  Any other record is inserted by one statement that returns
the value of its key column.  If that fails, or no value comes back, nothing more is done, and
otherwise the record is read back by this value, whatever value it is.  Each of the two
statements is run in a transaction of its own, and the record is inserted at most once. -/
theorem insert_readsBack (table : String) (values : Row) (key : String) (s : σ) :
    let outcome := ((connected c settings).insert table values key).run s
    (¬ (Identifier.checkColumn key = .ok key ∧ Insertable table values) →
        ∃ e, e.isExecution = false ∧ outcome = ⟨.error e, s, []⟩) ∧
      (Identifier.checkColumn key = .ok key ∧ Insertable table values →
        ∃ statement inserting, Statement.insert table values = .ok statement ∧
          inserting.sql = statement.sql ++ " RETURNING " ++ key ∧
          inserting.binds = statement.binds ∧
          ReadsBack c settings table key inserting s outcome) ∧
      InsertsOnce outcome.journal.exchanges := by
  refine ⟨fun hrefused => (connected c settings).insert_run_of_refused hrefused s, ?_,
    insertsOnce_insert c settings table values key s⟩
  rintro ⟨hkey, hinsertable⟩
  obtain ⟨statement, haccepted⟩ := (exists_insert_iff table values).2 hinsertable
  exact ⟨statement, statement.returning key, haccepted, rfl, rfl,
    readsBack_of_accepted c settings hkey haccepted s⟩

end Connected

/-- The value that comes back is a text that begins like an operator. -/
theorem insert_readsBack_answered :
    let first : List Row := [⟨[("id", .text "!=7")]⟩]
    let second : List Row := [⟨[("id", .text "!=7"), ("a", .int 1)]⟩]
    let s : Rehearsal := ⟨[first, second], [], [], 0⟩
    let values : Row := ⟨[("a", .int 1)]⟩
    let insertSql := "INSERT INTO t (a) VALUES ($1) RETURNING id"
    let fetchSql := "SELECT * FROM t WHERE id = $1"
    let outcome := ((connected Rehearsal.connection .standard).insert "t" values "id").run s
    (Identifier.checkColumn "id" = .ok "id" ∧ Insertable "t" values) ∧
      outcome.result = .ok second ∧
      outcome.journal.exchanges =
        [(.begin, .ok .done), (.prepare insertSql, .ok .done),
          (.query insertSql [.int 1], .ok (.rows first)), (.commit, .ok .done),
          (.begin, .ok .done), (.prepare fetchSql, .ok .done),
          (.query fetchSql [.text "!=7"], .ok (.rows second)), (.commit, .ok .done)] := by
  intro first second s values insertSql fetchSql outcome
  have hkey : Identifier.checkColumn "id" = .ok "id" := by cbv
  have hinserted : Statement.insert "t" values =
      .ok ⟨"INSERT INTO t (a) VALUES (:a)", ⟨[("a", .int 1)]⟩, 0⟩ := by cbv
  have hinsertable : Insertable "t" values := (exists_insert_iff "t" values).1 ⟨_, hinserted⟩
  obtain ⟨statement, ⟨sql, binds, generated⟩, hstatement, hsql, hbinds, hreadsBack⟩ :=
    (insert_readsBack Rehearsal.connection .standard "t" values "id" s).2.1 ⟨hkey, hinsertable⟩
  obtain rfl := Except.ok.inj (hinserted.symm.trans hstatement)
  obtain rfl := hsql
  obtain rfl := hbinds
  have hform : Positional.compile ⟨"INSERT INTO t (a) VALUES (:a)" ++ " RETURNING " ++ "id",
      ⟨[("a", .int 1)]⟩, generated⟩ = .ok ⟨insertSql, [.int 1], ["a"]⟩ := by cbv
  have hread : Positional.compile (selectByKey "t" "id" (.text "!=7")) =
      .ok ⟨fetchSql, [.text "!=7"], ["__key"]⟩ := by cbv
  have hfirst := hreadsBack.inserts
  rw [hform] at hfirst
  obtain ⟨hresult, hstate, hcalls⟩ := Outcome.effect_eq_iff.1 hfirst
  obtain ⟨hsecond, houtcome⟩ := hreadsBack.answered first (.text "!=7") hresult (.first rfl)
  rw [hread] at hsecond
  obtain ⟨hresult', -, hcalls'⟩ := Outcome.effect_eq_iff.1 hsecond
  refine ⟨⟨hkey, hinsertable⟩, ?_, ?_⟩
  · change (((connected Rehearsal.connection .standard).insert "t" values "id").run s).result = _
    rw [houtcome, hresult', hstate]
    rfl
  · change (((connected Rehearsal.connection .standard).insert "t" values
      "id").run s).journal.exchanges = _
    rw [houtcome, Journal.exchanges_append, hcalls, hcalls', hstate]
    rfl

end Session

end TableAccess
