import TableAccess.Proofs.Server.Loss
import TableAccess.Proofs.Session.Trial
/-!
# Values that cannot be sent

The server infers the types of the parameters of a statement, and a value may have no form in
the type of its parameter.  This is found out when the statement is to be run: nothing is sent,
and the transaction is rolled back.  The error is one of execution and not one of binding, so
an update is tried in place of an insert that failed in this way.

Main results:

- Theorem `ended_of_unsendable`: how the transaction ends.
- Theorem `perform_unsendable`: what the operation gives, and when an update is sent.
-/

namespace TableAccess.Server

open Access Session Transaction Wire

/-! ## Parameters -/

/-- The position of the first parameter that cannot be sent as its type. -/
def unsendable? (types : List SqlType) (values : List Value) : Option Nat :=
  (types.zip values).findIdx? fun p => !(send p.1 p.2).isOk

/-- The first parameter that cannot be sent is reported. -/
theorem serialize_eq_error {types : List SqlType} {values : List Value} {position : Nat}
    (h : unsendable? types values = some position) (before : Nat) :
    Link.serialize before types values = .error (before + position) := by
  unfold unsendable? at h
  induction types generalizing values before position with
  | nil => cases h
  | cons type types ih =>
    cases values with
    | nil => cases h
    | cons value values =>
      rw [List.zip_cons_cons, List.findIdx?_cons] at h
      unfold Link.serialize
      cases hsend : send type value with
      | error e =>
        rw [hsend] at h
        cases h
        rfl
      | ok octets =>
        rw [hsend] at h
        obtain ⟨next, hnext, rfl⟩ := Option.map_eq_some_iff.1 h
        simp only
        rw [ih hnext (before + 1), Nat.add_assoc, Nat.add_comm 1 next]
        rfl

/-- Whether some parameter cannot be sent is told by the first one. -/
theorem exists_unsendable {types : List SqlType} {values : List Value}
    (h : ∃ p ∈ types.zip values, (send p.1 p.2).isOk = false) :
    ∃ position, unsendable? types values = some position := by
  apply Option.isSome_iff_exists.1
  rw [unsendable?, List.findIdx?_isSome, List.any_eq_true]
  obtain ⟨p, hmem, hsend⟩ := h
  exact ⟨p, hmem, by rw [hsend]; rfl⟩

namespace Link

/-! ## Requests -/

/-- An opened transaction was asked for on an open connection. -/
theorem begin_of_ok {s t : Script} (h : connection.begin s = (.ok (), t)) :
    t.isOpen = true ∧ t.received = s.received ++ [.simple "BEGIN"] := by
  have opened : s.isOpen = true := by
    by_contra hclosed
    rw [begin_of_not_isOpen (Bool.eq_false_iff.2 hclosed)] at h
    cases h
  refine ⟨reports_begin.isOpen_of_ok opened h, ?_⟩
  have hstate : s.receiveBegin.2 = t := congrArg (·.2) h
  rw [← hstate]
  exact Script.received_receive_of_isOpen _ _ _ _ opened fun _ _ => rfl

/-- A prepared statement was asked for. -/
theorem prepare_of_ok {s t : Script} {sql : String} {statement : Prepared}
    (opened : s.isOpen = true) (h : connection.prepare sql s = (.ok statement, t)) :
    t.isOpen = true ∧ t.received = s.received ++ [.prepare sql] := by
  refine ⟨(reports_prepare sql).isOpen_of_ok opened h, ?_⟩
  have hstate : (prepare sql s).2 = t := congrArg (·.2) h
  rw [← hstate, prepare]
  split
  · exact Script.received_receive_of_isOpen _ _ _ _ opened fun _ _ => rfl
  · rename_i hencodable
    have hresult := congrArg (·.1) h
    simp [connection, atStage, prepare, hencodable, Except.mapError] at hresult

/-- A server that is reached receives the request to roll back. -/
theorem received_rollback {s : Script} (opened : s.isOpen = true) :
    (connection.rollback s).2.received = s.received ++ [.rollback] :=
  Script.received_receive_of_isOpen _ _ _ _ opened fun _ _ => rfl

/-! ## Trials -/

/-- The error of a parameter that cannot be sent. -/
def unsendableError (position : Nat) : AccessError :=
  .execution none ("error serializing parameter " ++ Text.natText position)

/-- Whether the statement of a trial is prepared, the server inferred as many types as there are
parameters, and some parameter cannot be sent as its type; `statement` is what the server knows
about the statement, and `t` is the state of the server once it is prepared. -/
structure Unsendable (trial : Trial Script) (statement : Prepared) (t : Script) : Prop where
  prepared : ∃ opened, connection.begin trial.state = (.ok (), opened) ∧
    connection.prepare trial.compiled.sql opened = (.ok statement, t)
  count : trial.compiled.parameters.length = statement.parameters.length
  fails : ∃ p ∈ statement.parameters.zip trial.compiled.parameters, (send p.1 p.2).isOk = false

/-- Running a statement fails before anything is sent if a parameter cannot be sent. -/
theorem answer_of_unsendable {statement : Prepared} {parameters : List Value} {position : Nat}
    (count : parameters.length = statement.parameters.length)
    (h : unsendable? statement.parameters parameters = some position) (purpose : Purpose)
    (t : Script) :
    answer connection purpose statement parameters t = (.error (unsendableError position), t) := by
  have hserialize := serialize_eq_error h 0
  rw [Nat.zero_add] at hserialize
  have hrun := run_of_serialize_error count hserialize t
  cases purpose with
  | rows =>
    change query statement parameters t = _
    rw [query, hrun]
    rfl
  | count =>
    change execute statement parameters t = _
    rw [execute, hrun]
    rfl

/-- How a transaction ends with a parameter that cannot be sent. -/
theorem ended_of_unsendable {trial : Trial Script} {statement : Prepared} {t : Script}
    {position : Nat} (h : Unsendable trial statement t)
    (first : unsendable? statement.parameters trial.compiled.parameters = some position) :
    trial.ended connection =
        (.undone trial.compiled.sql trial.compiled.parameters (unsendableError position)
          (connection.rollback t).1, (connection.rollback t).2) ∧
      (trial.ended connection).2.received =
        trial.state.received ++ [.simple "BEGIN", .prepare trial.compiled.sql, .rollback] := by
  obtain ⟨opened, hbegin, hprepare⟩ := h.prepared
  obtain ⟨hopened, hbeginReceived⟩ := begin_of_ok hbegin
  obtain ⟨hprepared, hprepareReceived⟩ := prepare_of_ok hopened hprepare
  have hended : trial.ended connection =
      (.undone trial.compiled.sql trial.compiled.parameters (unsendableError position)
        (connection.rollback t).1, (connection.rollback t).2) := by
    rw [Trial.ended, blockOf, hbegin]
    simp only
    rw [hprepare]
    simp only
    rw [answer_of_unsendable h.count first]
  refine ⟨hended, ?_⟩
  rw [hended, received_rollback hprepared, hprepareReceived, hbeginReceived]
  simp

/-! ## Operations -/

section Operations

variable (settings : Settings)

/-- Only an operation of this kind tries an update in place of an insert. -/
theorem eq_insertOrUpdate_of_tasks {operation : Operation} {style : OperandStyle}
    {table key : String} {values : Row} {earlier later : List Task}
    (split : operation.tasks style = earlier ++ .insertOrUpdate table values key :: later) :
    operation = .insertOrUpdate table values key ∧ earlier = [] := by
  have hmem : Task.insertOrUpdate table values key ∈ operation.tasks style := by simp [split]
  have hsingle : ∀ {other : Task}, [other] = earlier ++ .insertOrUpdate table values key :: later →
      other = .insertOrUpdate table values key ∧ earlier = [] := by
    intro other hother
    cases earlier with
    | nil =>
      cases hother
      exact ⟨rfl, rfl⟩
    | cons first r => simp at hother
  cases operation with
  | insertList table columns records key =>
    obtain ⟨record, -, hrecord⟩ := List.mem_map.1 hmem
    unfold Task.ofRecord at hrecord
    split at hrecord <;> cases hrecord
  | insertOrUpdate table values key =>
    obtain ⟨heq, hearlier⟩ := hsingle split
    cases heq
    exact ⟨rfl, hearlier⟩
  | _ => cases (hsingle split).1

/-- A value that cannot be sent.  Let an operation come to a statement that the server prepares
with as many types as there are parameters, and let a parameter have a value that cannot be
sent as its type.  Then the server receives nothing of the parameters, and the transaction is
rolled back.  The task fails with an error of execution, which names the first such
parameter; but if it may try an update in place of an insert, it sends an update whenever the
record can be updated. -/
theorem perform_unsendable (operation : Operation) (s : Script) (earlier : List Task)
    (task : Task) (later : List Task)
    (split : operation.tasks settings.operandStyle = earlier ++ task :: later)
    (trial : Trial Script)
    (tried : trial ∈ trials connection settings
      ((connected connection settings).stateAfterTasks earlier s) task)
    (statement : Prepared) (t : Script) (h : Unsendable trial statement t) :
    let outcome := ((connected connection settings).perform operation).run s
    let rollback := connection.rollback t
    ∃ position, unsendable? statement.parameters trial.compiled.parameters = some position ∧
      (trial.ended connection).1 = .undone trial.compiled.sql trial.compiled.parameters
        (unsendableError position) rollback.1 ∧
      (trial.ended connection).1.exchanges <:+: outcome.journal.exchanges ∧
      (trial.ended connection).2.received =
        trial.state.received ++ [.simple "BEGIN", .prepare trial.compiled.sql, .rollback] ∧
      (Block.noted (unsendableError position) rollback.1).cause = .execution ∧
      ((Answer.ofTasks outcome.result)[earlier.length]? =
          some (.error (Block.noted (unsendableError position) rollback.1)) ∨
        ∃ table values key, operation = .insertOrUpdate table values key ∧
          trial ∈ insertTrials connection settings table values key s ∧
          (SendsUpdate outcome.journal.exchanges ↔
            CanUpdate connection settings table values key (trial.ended connection).2)) := by
  intro outcome rollback
  obtain ⟨position, hposition⟩ := exists_unsendable h.fails
  obtain ⟨hended, hreceived⟩ := ended_of_unsendable h hposition
  have hresult : (trial.ended connection).1.result =
      .error (Block.noted (unsendableError position) rollback.1) := by
    rw [hended]
    rfl
  have htask : task ≠ .lastInsertId := by
    rintro rfl
    cases tried
  have hcause : (Block.noted (unsendableError position) rollback.1).cause = .execution :=
    Block.cause_noted _ _
  refine ⟨position, hposition, by rw [hended], ?_, hreceived, hcause, ?_⟩
  · have hinfix := infix_exchangesOfTrials connection tried
    rw [← exchanges_trials connection settings htask] at hinfix
    have hperform := (connected connection settings).infix_exchanges_perform split s
    exact hinfix.trans hperform
  · rcases undertake_of_fails connection settings tried hresult with hgiven | hinsert
    · left
      have hresults := (connected connection settings).result_perform split s
      rw [hgiven] at hresults
      exact hresults
    · right
      obtain ⟨table, values, key, rfl, hinsert⟩ := hinsert
      obtain ⟨rfl, rfl⟩ := eq_insertOrUpdate_of_tasks split
      have hexecution : (Block.noted (unsendableError position) rollback.1).isExecution = true := by
        rw [AccessError.isExecution, hcause]
        rfl
      have hjournal : outcome.journal.exchanges = (((connected connection settings).insertOrUpdate
          table values key).run s).effect.2.2 :=
        congrArg (·.2.2) (map_effect Answer.rows
          ((connected connection settings).insertOrUpdate table values key) s)
      refine ⟨table, values, key, rfl, hinsert, ?_⟩
      rw [hjournal]
      exact sendsUpdate_of_fails connection settings table values key s hinsert hresult hexecution

end Operations

/-! ## Servers that infer integers -/

/-- A server that infers these types for the statements that it prepares, one list for each. -/
def inferring (types : List (List SqlType)) (received : List Request) : Script :=
  ⟨false, .welcome, [], [], [], types.map fun inferred => .accept ⟨inferred, []⟩, [], true, received⟩

theorem unsendableError_zero :
    unsendableError 0 = .execution none "error serializing parameter 0" := by
  cbv

/-- A text that is no integer cannot be sent as one. -/
theorem perform_unsendable_integer :
    let s := inferring [[.int4]] []
    let t := inferring [] [.simple "BEGIN", .prepare "SELECT $1"]
    let trial : Trial Script := ⟨.count, ⟨"SELECT $1", [.text "x"], ["v"]⟩, s⟩
    let operation : Operation := .executeRaw "SELECT :v" ⟨[("v", .text "x")]⟩
    Unsendable trial ⟨[.int4], []⟩ t ∧
      (Answer.ofTasks (((connected connection .standard).perform operation).run s).result)[0]? =
        some (.error (.execution none "error serializing parameter 0")) ∧
      (trial.ended connection).2.received =
        [.simple "BEGIN", .prepare "SELECT $1", .simple "ROLLBACK"] := by
  intro s t trial operation
  have hform : ((Noted.pure (Statement.raw "SELECT :v" ⟨[("v", .text "x")]⟩)).result >>=
      Positional.compile) = .ok ⟨"SELECT $1", [.text "x"], ["v"]⟩ := by cbv
  have hunsendable : Unsendable trial ⟨[.int4], []⟩ t :=
    ⟨⟨_, rfl, by cbv⟩, rfl, (.int4, .text "x"), List.mem_singleton.2 rfl, by decide⟩
  have htried : trial ∈ trials connection .standard s (.statement .count "raw_query"
      (.pure (Statement.raw "SELECT :v" ⟨[("v", .text "x")]⟩))) := by
    rw [trials, hform]
    exact List.mem_singleton.2 rfl
  obtain ⟨position, hposition, -, -, hreceived, -, hgiven⟩ :=
    perform_unsendable .standard operation s [] _ [] rfl trial htried ⟨[.int4], []⟩ t hunsendable
  have hzero : unsendable? [.int4] [.text "x"] = some 0 := by decide
  obtain rfl : position = 0 := Option.some.inj (hposition.symm.trans hzero)
  refine ⟨hunsendable, ?_, hreceived⟩
  rw [unsendableError_zero] at hgiven
  rcases hgiven with hgiven | ⟨table, values, key, hother, -⟩
  · exact hgiven
  · have hsame : Operation.executeRaw "SELECT :v" ⟨[("v", .text "x")]⟩ =
        .insertOrUpdate table values key := hother
    cases hsame

/-- The positional form of the update that is tried in place of an insert of a text. -/
theorem updateForm_text :
    updateForm "t" ⟨[("id", .text "x")]⟩ (.ofKey "id" (Value.text "x").coerceInteger)
        Settings.standard.operandStyle =
      .ok ⟨"UPDATE t SET id=$1 WHERE id = $2 RETURNING *", [.text "x", .text "x"],
        ["id", "__key"]⟩ := by
  have htable : Identifier.checkTable "t" = .ok "t" := by cbv
  have hcolumn : Identifier.checkColumn "id" = .ok "id" := by cbv
  have hkey : (Value.text "x").coerceInteger = .text "x" := by cbv
  have hstatement : (Statement.update "t" ⟨[("id", .text "x")]⟩ (.ofKey "id" (.text "x"))
      .parameterized).result =
      .ok ⟨"UPDATE t SET id=:id WHERE id = :__key RETURNING *",
        ⟨[("id", .text "x"), ("__key", .text "x")]⟩, 0⟩ := by
    simp only [Statement.update, Statement.pushAssignments, htable, hcolumn]
    rfl
  have hcompiled : Positional.compile ⟨"UPDATE t SET id=:id WHERE id = :__key RETURNING *",
      ⟨[("id", .text "x"), ("__key", .text "x")]⟩, 0⟩ =
        .ok ⟨"UPDATE t SET id=$1 WHERE id = $2 RETURNING *", [.text "x", .text "x"],
          ["id", "__key"]⟩ := by
    cbv
  rw [hkey]
  exact Statement.bind_eq_ok_iff.2 ⟨_, hstatement, hcompiled⟩

/-- An update is sent in place of an insert of a text that is no integer, and it fails in the
same way. -/
theorem insertOrUpdate_sends_update_of_unsendable :
    let s := inferring [[.int4], [.int4, .int4]] []
    let outcome := ((connected connection .standard).perform
      (.insertOrUpdate "t" ⟨[("id", .text "x")]⟩ "id")).run s
    (send .int4 (.text "x")).isOk = false ∧
      outcome.result = .error (.execution none "error serializing parameter 0") ∧
      SendsUpdate outcome.journal.exchanges := by
  intro s outcome
  have hform : insertForm "t" ⟨[("id", .text "x")]⟩ "id" =
      .ok ⟨"INSERT INTO t (id) VALUES ($1) RETURNING id", [.text "x"], ["id"]⟩ := by cbv
  let first : Trial Script :=
    ⟨.rows, ⟨"INSERT INTO t (id) VALUES ($1) RETURNING id", [.text "x"], ["id"]⟩, s⟩
  let t := inferring [[.int4, .int4]] [.simple "BEGIN", .prepare first.compiled.sql]
  have hfirst : Unsendable first ⟨[.int4], []⟩ t :=
    ⟨⟨_, rfl, by cbv⟩, rfl, (.int4, .text "x"), List.mem_singleton.2 rfl, by decide⟩
  have htried : first ∈ insertTrials connection .standard "t" ⟨[("id", .text "x")]⟩ "id" s := by
    unfold insertTrials
    rw [hform]
    exact List.mem_append_left _ (List.mem_singleton.2 rfl)
  have hzero : unsendable? [.int4] [.text "x"] = some 0 := by decide
  have hinserted := (ended_of_unsendable hfirst hzero).1
  obtain ⟨hfailed, hstate⟩ := insert_of_fails connection .standard "t" ⟨[("id", .text "x")]⟩ "id" s
    htried (congrArg (·.1.result) hinserted)
  let u := inferring [[.int4, .int4]] [.simple "BEGIN", .prepare first.compiled.sql, .rollback]
  have hafter : (((connected connection .standard).insert "t" ⟨[("id", .text "x")]⟩ "id").run
      s).effect.2.1 = u := by
    rw [hstate, hinserted]
    rfl
  let second : Trial Script :=
    ⟨.rows, ⟨"UPDATE t SET id=$1 WHERE id = $2 RETURNING *", [.text "x", .text "x"],
      ["id", "__key"]⟩, u⟩
  have hsecond : Unsendable second ⟨[.int4, .int4], []⟩ (inferring [] [.simple "BEGIN",
      .prepare first.compiled.sql, .rollback, .simple "BEGIN", .prepare second.compiled.sql]) :=
    ⟨⟨_, rfl, by cbv⟩, rfl, (.int4, .text "x"), List.mem_cons_self, by decide⟩
  have hinstead : second ∈ insteadTrials connection .standard "t" ⟨[("id", .text "x")]⟩ "id" s := by
    have hexecution : (Block.noted (unsendableError 0) (connection.rollback t).1).isExecution =
      true := rfl
    exact mem_insteadTrials _ _ _ _ _ _ hfailed hafter hexecution rfl updateForm_text
  have hboth : unsendable? [.int4, .int4] [.text "x", .text "x"] = some 0 := by decide
  have hupdated := (ended_of_unsendable hsecond hboth).1
  have hresult := insertOrUpdate_of_fails connection .standard "t" ⟨[("id", .text "x")]⟩ "id" s
    hinstead (congrArg (·.1.result) hupdated)
  rw [unsendableError_zero] at hresult
  have hmap := map_effect Answer.rows
    ((connected connection .standard).insertOrUpdate "t" ⟨[("id", .text "x")]⟩ "id") s
  refine ⟨by decide, ?_, ?_⟩
  · rw [hresult] at hmap
    exact congrArg (·.1) hmap
  · have hsends := (sendsUpdate_iff connection .standard "t" ⟨[("id", .text "x")]⟩ "id" s).2
      ⟨⟨_, hfailed, rfl⟩, .text "x", _, rfl, updateForm_text, by rw [hafter]; rfl⟩
    have hcalls : outcome.journal.exchanges = (((connected connection .standard).insertOrUpdate "t"
        ⟨[("id", .text "x")]⟩ "id").run s).effect.2.2 := congrArg (·.2.2) hmap
    rw [hcalls]
    exact hsends

end Link

end TableAccess.Server
