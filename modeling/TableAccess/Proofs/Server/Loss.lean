import TableAccess.Proofs.Session.Task
import TableAccess.Server.Link
/-!
# Lost connections

A server may drop the connection at any request.  The task that made the request fails, and the
error says that the connection is lost unless the request was to roll back, where the error that
caused the rollback is kept.  From then on the connection stays lost: no task makes the server
receive anything, and each fails with the same error unless its statement is rejected before
the connection is used.

Main results:

- Theorem `blockOf_lost`: how a transaction ends that loses the connection.
- Theorem `undertake_reportsLoss`: every task reports the loss.
- Theorem `undertake_gone`: what a task gives after the loss.
- Theorem `exists_loss`: tasks that lose the connection lose it at one of them.
- Theorem `history_reports_loss`: so it is over whole histories.
-/

namespace TableAccess.Server

open Access Session Transaction

variable {ε ε' α β : Type}

/-! ## Requests -/

/-- The request to roll a transaction back. -/
def Request.rollback : Request :=
  .simple "ROLLBACK"

/-- The request that was received last. -/
def Script.last? (s : Script) : Option Request :=
  s.received.getLast?

/-- Whether what is done with a server reports a lost connection by an error, and leaves a
connection alone that was lost before; `rolling` says whether it rolls a transaction back. -/
structure Reports (gone : ε) (rolling : Prop) (act : Script → Except ε α × Script) : Prop where
  lost : ∀ s, s.isOpen = true → (act s).2.isOpen = false →
    (act s).1 = .error gone ∧ ((act s).2.last? = some .rollback ↔ rolling)
  kept : ∀ s, s.isOpen = false → (act s).2 = s

namespace Reports

/-- What is made of the answer does not matter as long as it keeps the error. -/
theorem map {gone : ε} {rolling : Prop} {act : Script → Except ε α × Script}
    (h : Reports gone rolling act) {next : Except ε α → Except ε' β} {gone' : ε'}
    (hnext : next (.error gone) = .error gone') :
    Reports gone' rolling fun s => (next (act s).1, (act s).2) where
  lost s hopen hlost := by
    obtain ⟨hresult, hlast⟩ := h.lost s hopen hlost
    exact ⟨by rw [hresult, hnext], hlast⟩
  kept := h.kept

/-- What does not reach the server loses no connection. -/
theorem unsent (gone : ε) (rolling : Prop) (result : Except ε α) :
    Reports gone rolling fun s => (result, s) where
  lost s hopen hlost := absurd (hopen.symm.trans hlost) (by decide)
  kept _ _ := rfl

/-- A request that is answered leaves the connection open. -/
theorem isOpen_of_ok {gone : ε} {rolling : Prop} {act : Script → Except ε α × Script}
    (h : Reports gone rolling act) {s t : Script} {a : α} (hopen : s.isOpen = true)
    (hact : act s = (.ok a, t)) : t.isOpen = true := by
  by_contra hclosed
  have hlost := h.lost s hopen
  rw [hact] at hlost
  cases (hlost (Bool.eq_false_iff.2 hclosed)).1

end Reports

/-- A request reports that the connection is dropped. -/
theorem reports_receive (request : Request) {rolling : Prop} (queue : Script → List (Reply α))
    (keep : List (Reply α) → Script → Script) (plain : α)
    (hrolling : request = .rollback ↔ rolling)
    (hopen : ∀ r s, (keep r s).isOpen = s.isOpen)
    (hreceived : ∀ r s, (keep r s).received = s.received) :
    Reports Fault.closed rolling fun s => s.receive request (queue s) keep plain where
  lost s opened lost := by
    have hlast : (s.receive request (queue s) keep plain).2.last? = some request := by
      rw [Script.last?, Script.received_receive_of_isOpen _ _ _ _ opened hreceived]
      simp
    refine ⟨?_, by rw [hlast, Option.some.injEq, hrolling]⟩
    have hkept : ∀ r, (keep r (s.record request)).isOpen = true :=
      fun r => (hopen r _).trans opened
    rw [Script.receive, if_pos opened] at lost ⊢
    cases hqueue : queue s with
    | nil =>
      rw [hqueue] at lost
      exact absurd (opened.symm.trans lost) (by decide)
    | cons reply r =>
      rw [hqueue] at lost
      cases reply with
      | close => rfl
      | refuse refusal => exact absurd ((hkept r).symm.trans lost) (by decide)
      | accept a => exact absurd ((hkept r).symm.trans lost) (by decide)
  kept s closed := by rw [Script.receive_of_not_isOpen _ _ _ _ closed]

namespace Link

/-! ## Calls -/

/-- The error of a lost connection. -/
def gone : AccessError :=
  .connectionUnavailable "connection closed"

/-- At every stage a closed connection is reported as gone. -/
theorem mapError_closed (stage : Stage) :
    (Except.error .closed : Except Fault α).mapError (Fault.toError stage) = .error gone :=
  rfl

theorem reports_begin : Reports gone False connection.begin := by
  have h : Reports Fault.closed False Script.receiveBegin :=
    reports_receive (.simple "BEGIN") Script.begin (fun r s => { s with begin := r }) ()
      (iff_of_false (by decide) id) (fun _ _ => rfl) fun _ _ => rfl
  exact h.map (mapError_closed .transaction)

theorem reports_commit : Reports gone False connection.commit := by
  have h : Reports Fault.closed False Script.receiveCommit :=
    reports_receive (.simple "COMMIT") Script.commit (fun r s => { s with commit := r }) ()
      (iff_of_false (by decide) id) (fun _ _ => rfl) fun _ _ => rfl
  exact h.map (mapError_closed .transaction)

theorem reports_rollback : Reports gone True connection.rollback := by
  have h : Reports Fault.closed True Script.receiveRollback :=
    reports_receive .rollback Script.rollback (fun r s => { s with rollback := r }) ()
      (iff_of_true rfl trivial) (fun _ _ => rfl) fun _ _ => rfl
  exact h.map (mapError_closed .transaction)

theorem reports_ask (sql : String) : Reports Fault.closed False (prepare sql) := by
  unfold prepare
  split
  · exact reports_receive (.prepare sql) Script.prepare (fun r s => { s with prepare := r }) _
      (iff_of_false nofun id) (fun _ _ => rfl) fun _ _ => rfl
  · exact .unsent _ _ _

theorem reports_prepare (sql : String) : Reports gone False (connection.prepare sql) :=
  (reports_ask sql).map (mapError_closed .prepare)

theorem reports_run (prepared : Prepared) (parameters : List Value) :
    Reports Fault.closed False (run prepared parameters) := by
  unfold run
  split
  · split
    · exact .unsent _ _ _
    · exact reports_receive (.bind _) Script.execute (fun r s => { s with execute := r }) _
        (iff_of_false nofun id) (fun _ _ => rfl) fun _ _ => rfl
  · exact .unsent _ _ _

/-- Running a prepared statement reports the loss, for whatever it is run. -/
theorem reports_answer (purpose : Purpose) (prepared : Prepared) (parameters : List Value) :
    Reports gone False (answer connection purpose prepared parameters) := by
  have h := reports_run prepared parameters
  cases purpose with
  | rows =>
    let next (given : Except Fault Sending) : Except AccessError (List Row) :=
      ((given.bind (allRows prepared.columns)).mapError (Fault.toError .execute)).bind
        (Wire.decodeRows prepared.columns)
    have hnext : next (.error .closed) = .error gone := rfl
    exact h.map hnext
  | count =>
    let next (given : Except Fault Sending) : Except AccessError Nat :=
      (given.bind affected).mapError (Fault.toError .execute)
    have hnext : next (.error .closed) = .error gone := rfl
    exact h.map hnext

/-- No sequence is asked for on a connection that was lost. -/
theorem lastInsertId_of_not_isOpen {s : Script} (closed : s.isOpen = false) :
    connection.lastInsertId s = (.error gone, s) := by
  have hask : prepare sequenceSql s = (.error .closed, s) := by
    rw [prepare, if_pos (by decide), Script.receivePrepare,
      Script.receive_of_not_isOpen _ _ _ _ closed]
  change lastInsertId s = _
  rw [lastInsertId, hask]
  rfl

theorem reports_lastInsertId : Reports gone False connection.lastInsertId where
  lost s opened lost := by
    have hask := reports_ask sequenceSql
    change (lastInsertId s).2.isOpen = false at lost
    change (lastInsertId s).1 = _ ∧ ((lastInsertId s).2.last? = _ ↔ _)
    unfold lastInsertId at lost ⊢
    simp only at lost ⊢
    cases hfirst : prepare sequenceSql s with
    | mk result t =>
      rw [hfirst] at lost
      cases result with
      | error fault =>
        have hlost := hask.lost s opened
        rw [hfirst] at hlost
        obtain ⟨hfault, hlast⟩ := hlost lost
        cases hfault
        exact ⟨rfl, hlast⟩
      | ok prepared =>
        obtain ⟨hfault, hlast⟩ := (reports_run prepared []).lost t (hask.isOpen_of_ok opened hfirst)
          lost
        simp only
        rw [hfault]
        exact ⟨rfl, hlast⟩
  kept s closed := by rw [lastInsertId_of_not_isOpen closed]

/-- No transaction is opened on a connection that was lost. -/
theorem begin_of_not_isOpen {s : Script} (closed : s.isOpen = false) :
    connection.begin s = (.error gone, s) := by
  change atStage .transaction s.receiveBegin = _
  rw [Script.receiveBegin, Script.receive_of_not_isOpen _ _ _ _ closed]
  rfl

/-! ## Transactions -/

/-- Whether an outcome that lost the connection reports it: it is an error, and the error says
so unless the connection was lost when a transaction was rolled back. -/
def ReportsIn (result : Except AccessError α) (t : Script) : Prop :=
  ∃ e, result = .error e ∧ (t.last? ≠ some .rollback → e.isConnectionUnavailable = true)

/-- Rolling back because of an error reports the loss. -/
theorem reportsIn_rollback {e : AccessError} {t : Script}
    (h : t.isOpen = false → e.isConnectionUnavailable = true)
    (lost : (connection.rollback t).2.isOpen = false) :
    ReportsIn (α := α) (.error (Block.noted e (connection.rollback t).1))
      (connection.rollback t).2 := by
  refine ⟨_, rfl, fun hlast => ?_⟩
  cases hopen : t.isOpen with
  | true => exact absurd ((reports_rollback.lost t hopen lost).2.2 trivial) hlast
  | false =>
    rw [AccessError.isConnectionUnavailable, Block.cause_noted]
    exact h hopen

/-- How a transaction ends that loses the connection. -/
theorem blockOf_lost {purpose : Purpose} {compiled : Positional} {s : Script}
    (opened : s.isOpen = true) (lost : (blockOf connection purpose compiled s).2.isOpen = false) :
    ReportsIn (blockOf connection purpose compiled s).1.result
      (blockOf connection purpose compiled s).2 := by
  -- A step that fails on an open connection either keeps it open or fails because of the loss.
  have hfailed : ∀ {γ : Type} {act : Script → Except AccessError γ × Script} {t u : Script}
      {e : AccessError}, Reports gone False act → t.isOpen = true → act t = (.error e, u) →
        u.isOpen = false → e = gone ∧ u.last? ≠ some .rollback := by
    intro γ act t u e hact hopen heq hlost
    have h := hact.lost t hopen
    rw [heq] at h
    obtain ⟨he, hlast⟩ := h hlost
    exact ⟨Except.error.inj he, hlast.1⟩
  unfold blockOf at lost ⊢
  cases hbegin : connection.begin s with
  | mk result s₁ =>
    cases result with
    | error e =>
      rw [hbegin] at lost
      obtain ⟨rfl, -⟩ := hfailed reports_begin opened hbegin lost
      exact ⟨gone, rfl, fun _ => rfl⟩
    | ok u =>
      have hopen₁ := reports_begin.isOpen_of_ok opened hbegin
      simp only [hbegin] at lost ⊢
      cases hprepare : connection.prepare compiled.sql s₁ with
      | mk result s₂ =>
        cases result with
        | error e =>
          simp only [hprepare] at lost ⊢
          refine reportsIn_rollback (fun hclosed => ?_) lost
          obtain ⟨rfl, -⟩ := hfailed (reports_prepare _) hopen₁ hprepare hclosed
          rfl
        | ok prepared =>
          have hopen₂ := (reports_prepare _).isOpen_of_ok hopen₁ hprepare
          simp only [hprepare] at lost ⊢
          cases hanswer : answer connection purpose prepared compiled.parameters s₂ with
          | mk result s₃ =>
            cases result with
            | error e =>
              simp only [hanswer] at lost ⊢
              refine reportsIn_rollback (fun hclosed => ?_) lost
              obtain ⟨rfl, -⟩ := hfailed (reports_answer _ _ _) hopen₂ hanswer hclosed
              rfl
            | ok yield =>
              have hopen₃ := (reports_answer _ _ _).isOpen_of_ok hopen₂ hanswer
              simp only [hanswer] at lost ⊢
              obtain ⟨hcommit, -⟩ := reports_commit.lost s₃ hopen₃ lost
              exact ⟨gone, by rw [Block.result, hcommit]; rfl, fun _ => rfl⟩

/-- A transaction on a connection that was lost is not opened. -/
theorem blockOf_of_not_isOpen {s : Script} (closed : s.isOpen = false) (purpose : Purpose)
    (compiled : Positional) :
    blockOf connection purpose compiled s = (.unopened gone, s) := by
  rw [blockOf, begin_of_not_isOpen closed]

/-- A statement that is run on a connection that was lost fails and reaches nothing. -/
theorem effectOf_of_not_isOpen {s : Script} (closed : s.isOpen = false) (purpose : Purpose)
    (form : Except AccessError Positional) :
    ∃ e, (effectOf connection purpose form s).1 = .error e ∧
      (effectOf connection purpose form s).2.1 = s ∧ ∀ compiled, form = .ok compiled → e = gone := by
  cases form with
  | error e => exact ⟨e, rfl, rfl, fun compiled heq => nomatch heq⟩
  | ok compiled =>
    rw [effectOf, blockOf_of_not_isOpen closed]
    exact ⟨gone, rfl, rfl, fun _ _ => rfl⟩

/-! ## Actions -/

/-- Whether an action reports that the connection is lost, and leaves a connection alone that
was lost before. -/
structure ReportsLoss (action : Access Script α) : Prop where
  lost : ∀ s, s.isOpen = true → (action.run s).state.isOpen = false →
    ReportsIn (action.run s).result (action.run s).state
  kept : ∀ s, s.isOpen = false → (action.run s).state = s

namespace ReportsLoss

/-- What makes no call loses no connection. -/
theorem of_state_eq {action : Access Script α} (h : ∀ s, (action.run s).state = s) :
    ReportsLoss action where
  lost s opened lost := absurd (opened.symm.trans ((congrArg Script.isOpen (h s)).symm.trans lost))
    (by decide)
  kept s _ := h s

/-- Two actions one after the other report the loss if each of them does. -/
theorem bind {action : Access Script α} {next : α → Access Script β} (first : ReportsLoss action)
    (second : ∀ a, ReportsLoss (next a)) : ReportsLoss (action >>= next) where
  lost s opened lost := by
    have hfirst := first.lost s opened
    rw [bind_run] at lost ⊢
    cases hrun : action.run s with
    | mk result t journal =>
      rw [hrun] at lost hfirst
      cases result with
      | error e =>
        obtain ⟨_, ⟨⟩, hlast⟩ := hfirst lost
        exact ⟨e, rfl, hlast⟩
      | ok a =>
        cases hopen : t.isOpen with
        | true => exact (second a).lost t hopen lost
        | false =>
          obtain ⟨e, he, -⟩ := hfirst hopen
          cases he
  kept s closed := by
    have hfirst := first.kept s closed
    rw [bind_run]
    cases hrun : action.run s with
    | mk result t journal =>
      rw [hrun] at hfirst
      obtain rfl : t = s := hfirst
      cases result with
      | error e => rfl
      | ok a => exact (second a).kept t closed

/-- What is made of the result does not matter for the loss. -/
theorem map (f : α → β) {action : Access Script α} (h : ReportsLoss action) :
    ReportsLoss (f <$> action) :=
  bind h fun _ => of_state_eq fun _ => rfl

/-- A statement that is run reports the loss. -/
theorem runFor (limit : Option Nat) (operation : String) (purpose : Purpose)
    (statement : Statement) :
    ReportsLoss (Transaction.runFor (some connection) limit operation purpose statement) := by
  have heffect := fun s => runFor_effect limit operation purpose statement s connection
  have hstate := fun s => congrArg (·.2.1) (heffect s)
  have hresult := fun s => congrArg (·.1) (heffect s)
  simp only [Outcome.effect] at hstate hresult
  constructor
  · intro s opened lost
    rw [hstate] at lost ⊢
    rw [hresult]
    cases hform : Positional.compile statement with
    | error e =>
      rw [hform] at lost
      exact absurd (opened.symm.trans lost) (by decide)
    | ok compiled =>
      rw [hform] at lost
      exact blockOf_lost opened lost
  · intro s closed
    obtain ⟨e, -, hkept, -⟩ := effectOf_of_not_isOpen closed purpose (Positional.compile statement)
    rw [hstate, hkept]

end ReportsLoss

/-! ## Tasks -/

section Tasks

variable (settings : Settings)

theorem select_reportsLoss (table : String) (columns : List String) (selection : Selection) :
    ReportsLoss ((connected connection settings).select table columns selection) :=
  .bind (.of_state_eq fun _ => rfl) fun statement =>
    .runFor settings.reportLimit "fetch" .rows statement

theorem update_reportsLoss (table : String) (values : Row) (filter : Filter) :
    ReportsLoss ((connected connection settings).update table values filter) :=
  .bind (.of_state_eq fun _ => rfl) fun statement =>
    .runFor settings.reportLimit "update" .rows statement

/-- Inserting a record reports the loss, also when the record is read back. -/
theorem insert_reportsLoss (table : String) (values : Row) (key : String) :
    ReportsLoss ((connected connection settings).insert table values key) := by
  refine .bind (.of_state_eq fun _ => rfl) fun _ => .bind (.of_state_eq fun _ => rfl) fun _ => ?_
  refine .bind (.runFor settings.reportLimit "insert" .rows _) fun returned => ?_
  split
  · exact .of_state_eq fun _ => rfl
  · exact select_reportsLoss settings table _ _

/-- An update in place of an insert reports that the connection was lost when the insert was
rolled back. -/
theorem update_reportsIn {s : Script} (closed : s.isOpen = false)
    (rolled : s.last? = some .rollback) (table : String) (values : Row) (filter : Filter) :
    let outcome := ((connected connection settings).update table values filter).run s
    ReportsIn outcome.result outcome.state := by
  intro outcome
  obtain ⟨e, heq, -⟩ := effectOf_of_not_isOpen closed .rows
    (updateForm table values filter settings.operandStyle)
  have hresult : outcome.result = .error e :=
    (congrArg (·.1) (update_effect connection settings table values filter s)).trans heq
  have hkept : outcome.state = s :=
    (update_reportsLoss settings table values filter).kept s closed
  refine ⟨e, hresult, fun hlast => absurd ?_ hlast⟩
  rw [hkept, rolled]

/-- Inserting or updating reports the loss; an update is not tried after it. -/
theorem insertOrUpdate_reportsLoss (table : String) (values : Row) (key : String) :
    ReportsLoss ((connected connection settings).insertOrUpdate table values key) where
  lost s opened lost := by
    have hinsert := (insert_reportsLoss settings table values key).lost s opened
    rw [insertOrUpdate, bind_run, attempt_run] at lost ⊢
    generalize ((connected connection settings).insert table values key).run s = inserted
      at lost hinsert ⊢
    obtain ⟨result, t, journal⟩ := inserted
    simp only at lost hinsert ⊢
    cases result with
    | ok rows =>
      obtain ⟨e, he, -⟩ := hinsert lost
      cases he
    | error e =>
      simp only at lost ⊢
      split at lost
      · rename_i hexecution
        -- The insert failed at execution, so the loss of the connection is not its error: it can
        -- only have been lost when the insert was rolled back.
        have hrolled : t.isOpen = false → t.last? = some .rollback := by
          intro hclosed
          by_contra hlast
          obtain ⟨_, ⟨⟩, hreports⟩ := hinsert hclosed
          have hcause := hreports hlast
          simp_all [AccessError.isExecution, AccessError.isConnectionUnavailable]
        rw [if_pos hexecution]
        simp only [bind_run, give_run] at lost ⊢
        cases hid : values.find? key with
        | none =>
          rw [hid] at lost
          exact ⟨_, rfl, fun hlast => absurd (hrolled lost) hlast⟩
        | some id =>
          rw [hid] at lost
          cases hopen : t.isOpen with
          | true => exact (update_reportsLoss settings table values _).lost t hopen lost
          | false => exact update_reportsIn settings hopen (hrolled hopen) table values _
      · rename_i hexecution
        rw [if_neg hexecution]
        exact hinsert lost
  kept s closed := by
    have hinsert := (insert_reportsLoss settings table values key).kept s closed
    rw [insertOrUpdate, bind_run, attempt_run]
    generalize ((connected connection settings).insert table values key).run s = inserted
      at hinsert ⊢
    obtain ⟨result, t, journal⟩ := inserted
    obtain rfl : t = s := hinsert
    simp only
    cases result with
    | ok rows => rfl
    | error e =>
      simp only
      split
      · simp only [bind_run, give_run]
        split
        · rfl
        · exact (update_reportsLoss settings table values _).kept t closed
      · rfl

/-- The value that a sequence gave last is not known after the loss. -/
theorem lastInsertId_reportsLoss :
    ReportsLoss (connected connection settings).lastInsertId where
  lost s opened lost := by
    obtain ⟨hresult, -⟩ := reports_lastInsertId.lost s opened lost
    exact ⟨gone, hresult, fun _ => rfl⟩
  kept := reports_lastInsertId.kept

/-- Every task reports the loss of the connection. -/
theorem undertake_reportsLoss (task : Task) :
    ReportsLoss ((connected connection settings).undertake task) := by
  cases task with
  | insert table values key => exact .map _ (insert_reportsLoss settings table values key)
  | insertOrUpdate table values key =>
    exact .map _ (insertOrUpdate_reportsLoss settings table values key)
  | misfit columns values => exact .of_state_eq fun _ => rfl
  | statement purpose word built =>
    refine .map _ (.bind (.of_state_eq fun _ => rfl) fun statement => ?_)
    exact .runFor settings.reportLimit word purpose statement
  | lastInsertId => exact .map _ (lastInsertId_reportsLoss settings)

/-- After the loss a task whose statement is not rejected fails with the error of a lost
connection. -/
theorem undertake_gone {task : Task} (builds : task.Builds) {s : Script}
    (closed : s.isOpen = false) :
    (((connected connection settings).undertake task).run s).result = .error gone := by
  have hinsert : ∀ {table values key}, (∃ compiled, insertForm table values key = .ok compiled) →
      (((connected connection settings).insert table values key).run s).effect.1 = .error gone := by
    rintro table values key ⟨compiled, hform⟩
    rw [insert_effect, hform, effectOf, blockOf_of_not_isOpen closed]
    rfl
  cases task with
  | insert table values key =>
    have hmap := map_effect Answer.rows ((connected connection settings).insert table values key) s
    rw [hinsert builds] at hmap
    exact congrArg (·.1) hmap
  | insertOrUpdate table values key =>
    have hmap := map_effect Answer.rows
      ((connected connection settings).insertOrUpdate table values key) s
    rw [insertOrUpdate_effect_of_not_fails, hinsert builds] at hmap
    · exact congrArg (·.1) hmap
    · rintro ⟨e, he, hexecution⟩
      rw [hinsert builds] at he
      cases he
      cases hexecution
  | misfit columns values => exact builds.elim
  | statement purpose word built =>
    obtain ⟨compiled, hform⟩ := builds
    have heffect := undertake_statement_effect connection settings purpose word built s
    rw [hform, effectOf, blockOf_of_not_isOpen closed] at heffect
    exact congrArg (·.1) heffect
  | lastInsertId =>
    have hresult : ((connected connection settings).lastInsertId.run s).result = .error gone :=
      congrArg (·.1) (lastInsertId_of_not_isOpen closed)
    have hmap := map_run Answer.identifier (connected connection settings).lastInsertId s
    rw [Outcome.map, hresult] at hmap
    exact congrArg (·.result) hmap

/-- After the loss nothing is received, and no task gives anything but an error. -/
theorem taskOutcomes_gone (tasks : List Task) {s : Script} (closed : s.isOpen = false) :
    List.Forall₂ (fun task outcome => outcome.state = s ∧
        (task.Builds → outcome.result = .error gone))
      tasks ((connected connection settings).taskOutcomes tasks s) := by
  induction tasks with
  | nil => exact .nil
  | cons task r ih =>
    have hkept := (undertake_reportsLoss settings task).kept s closed
    refine .cons ⟨hkept, fun builds => undertake_gone settings builds closed⟩ ?_
    change List.Forall₂ _ r ((connected connection settings).taskOutcomes r
      (((connected connection settings).undertake task).run s).state)
    rw [hkept]
    exact ih

/-- If tasks lose the connection, one of them is the first to do so. -/
theorem exists_loss (tasks : List Task) {s : Script} (opened : s.isOpen = true)
    (lost : ((connected connection settings).stateAfterTasks tasks s).isOpen = false) :
    ∃ earlier task later, tasks = earlier ++ task :: later ∧
      ((connected connection settings).stateAfterTasks earlier s).isOpen = true ∧
      (((connected connection settings).undertake task).run
        ((connected connection settings).stateAfterTasks earlier s)).state.isOpen = false := by
  induction tasks generalizing s with
  | nil => exact absurd (opened.symm.trans lost) (by decide)
  | cons task r ih =>
    cases hfirst : (((connected connection settings).undertake task).run s).state.isOpen with
    | false => exact ⟨[], task, r, rfl, opened, hfirst⟩
    | true =>
      obtain ⟨earlier, other, later, rfl, hopened, hlost⟩ := ih hfirst lost
      exact ⟨task :: earlier, other, later, rfl, hopened, hlost⟩

/-- A lost connection is reported as such from then on.  In a history, let a task be the first
to lose the connection.  Then it gives an error, which says that the connection is lost unless
the request at which it was dropped was to roll back.  All later tasks leave the server as it
was, so that it receives nothing more, and each of them whose statement can be built and
compiled gives the error of a lost connection. -/
theorem history_reports_loss (operations : List Operation) (s : Script)
    (earlier : List Task) (task : Task) (later : List Task)
    (split : (connected connection settings).tasksOf operations = earlier ++ task :: later)
    (opened : ((connected connection settings).stateAfterTasks earlier s).isOpen = true)
    (lost : (((connected connection settings).undertake task).run
      ((connected connection settings).stateAfterTasks earlier s)).state.isOpen = false) :
    let session := connected connection settings
    let outcome := (session.undertake task).run (session.stateAfterTasks earlier s)
    (session.history operations s).flatMap (fun outcome => Answer.ofTasks outcome.result) =
        (session.taskOutcomes earlier s ++
          outcome :: session.taskOutcomes later outcome.state).map (·.result) ∧
      (∃ e, outcome.result = .error e ∧
        (outcome.state.last? ≠ some .rollback → e.isConnectionUnavailable = true)) ∧
      List.Forall₂ (fun next after => after.state = outcome.state ∧
          (next.Builds → ∃ text, after.result = .error (.connectionUnavailable text)))
        later (session.taskOutcomes later outcome.state) := by
  intro session outcome
  refine ⟨?_, (undertake_reportsLoss settings task).lost _ opened lost, ?_⟩
  · rw [(session.history_tasks operations s).1, split, taskOutcomes_append]
    rfl
  · refine (taskOutcomes_gone settings later lost).imp
      fun (next : Task) (after : Outcome Script Answer) h => ⟨h.1, fun builds => ?_⟩
    exact ⟨_, h.2 builds⟩

/-- The server drops the connection when the first of three operations is committed. -/
theorem history_reports_loss_at_commit :
    let s : Script := ⟨false, .welcome, [], [.close], [], [], [], true, []⟩
    let session := connected connection .standard
    let task : Task := .statement .count "raw_query" (.pure (Statement.raw "DELETE FROM t" ⟨[]⟩))
    let later : List Task := [.misfit ["a"] [], .lastInsertId]
    let outcome := (session.undertake task).run s
    session.tasksOf [.executeRaw "DELETE FROM t" ⟨[]⟩, .insertList "t" ["a"] [[]] "id",
        .lastInsertId] = [] ++ task :: later ∧
      s.isOpen = true ∧ outcome.state.isOpen = false ∧
      outcome.state.last? = some (.simple "COMMIT") ∧
      (∃ e, outcome.result = .error e ∧ e.isConnectionUnavailable = true) ∧
      List.Forall₂ (fun (next : Task) (after : Outcome Script Answer) =>
          after.state = outcome.state ∧
            (next.Builds → ∃ text, after.result = .error (.connectionUnavailable text)))
        later (session.taskOutcomes later outcome.state) := by
  intro s session task later outcome
  have hform : ((Noted.pure (Statement.raw "DELETE FROM t" ⟨[]⟩)).result >>= Positional.compile) =
      .ok ⟨"DELETE FROM t", [], []⟩ := by cbv
  have heffect := undertake_statement_effect connection .standard .count "raw_query"
    (.pure (Statement.raw "DELETE FROM t" ⟨[]⟩)) s
  rw [hform] at heffect
  have hstate : outcome.state = ⟨false, .welcome, [], [], [], [], [], false,
      [.simple "BEGIN", .prepare "DELETE FROM t", .bind [], .simple "COMMIT"]⟩ :=
    congrArg (·.2.1) heffect
  have hopen : outcome.state.isOpen = false := by rw [hstate]
  have hlast : outcome.state.last? = some (.simple "COMMIT") := by rw [hstate]; rfl
  obtain ⟨-, ⟨e, he, hreports⟩, hlater⟩ := history_reports_loss .standard
    [.executeRaw "DELETE FROM t" ⟨[]⟩, .insertList "t" ["a"] [[]] "id", .lastInsertId] s
    [] task later rfl rfl hopen
  refine ⟨rfl, rfl, hopen, hlast, ⟨e, he, hreports ?_⟩, hlater⟩
  change outcome.state.last? ≠ some .rollback
  rw [hlast]
  decide

end Tasks

end Link

end TableAccess.Server
