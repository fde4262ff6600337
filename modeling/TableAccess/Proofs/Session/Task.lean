import TableAccess.Proofs.Session.Fallback
/-!
# Tasks of a session

An operation that inserts a list of records does several things, one for each record, and each
of them succeeds or fails on its own.  Histories are therefore told task by task: a task is an
operation or one record of a list.  All operations that run one statement are one kind of task.

Main results:

- Theorem `attemptAll_run`: attempting actions ends as the actions do one after the other.
- Theorem `perform_tasks`: an operation does its tasks one after the other.
- Theorem `history_tasks`: so does a history, and it gives the results of its tasks.
-/

namespace TableAccess

variable {σ π α β : Type}

/-! ## Actions one after the other -/

/-- An outcome with its result changed. -/
def Outcome.map (f : α → β) (outcome : Outcome σ α) : Outcome σ β :=
  ⟨outcome.result.map f, outcome.state, outcome.journal⟩

namespace Access

/-- The state in which actions leave a connection that are done one after the other. -/
def stateAfter (actions : List (Access σ α)) (s : σ) : σ :=
  actions.foldl (fun t action => (action.run t).state) s

/-- The journal of actions that are done one after the other. -/
def journalOf (outcomes : List (Outcome σ α)) : Journal :=
  outcomes.flatMap (·.journal)

theorem stateAfter_append (a b : List (Access σ α)) (s : σ) :
    stateAfter (a ++ b) s = stateAfter b (stateAfter a s) :=
  List.foldl_append

theorem outcomes_append (a b : List (Access σ α)) (s : σ) :
    outcomes (a ++ b) s = outcomes a s ++ outcomes b (stateAfter a s) := by
  induction a generalizing s with
  | nil => rfl
  | cons action r ih =>
    rw [List.cons_append, outcomes, outcomes, List.cons_append, ih]
    rfl

@[simp]
theorem length_outcomes (actions : List (Access σ α)) (s : σ) :
    (outcomes actions s).length = actions.length := by
  induction actions generalizing s with
  | nil => rfl
  | cons action r ih => exact congrArg (· + 1) (ih _)

/-- What is made of a result is made of the outcome. -/
theorem map_run (f : α → β) (action : Access σ α) (s : σ) :
    (f <$> action).run s = (action.run s).map f := by
  have hmap : f <$> action = action >>= fun a => pure (f a) := rfl
  rw [hmap, bind_run, Outcome.map]
  cases (action.run s).result with
  | error e => rfl
  | ok a => simp [Except.map]

theorem outcomes_map (f : α → β) (actions : List (Access σ α)) (s : σ) :
    outcomes (actions.map (f <$> ·)) s = (outcomes actions s).map (Outcome.map f) := by
  induction actions generalizing s with
  | nil => rfl
  | cons action r ih =>
    simp only [List.map_cons, outcomes]
    rw [ih, map_run]
    rfl

theorem stateAfter_map (f : α → β) (actions : List (Access σ α)) (s : σ) :
    stateAfter (actions.map (f <$> ·)) s = stateAfter actions s := by
  rw [stateAfter, List.foldl_map, stateAfter]
  simp only [map_run, Outcome.map]

theorem journalOf_map (f : α → β) (outcomes : List (Outcome σ α)) :
    journalOf (outcomes.map (Outcome.map f)) = journalOf outcomes := by
  rw [journalOf, List.flatMap_map]
  rfl

/-- Attempting actions ends as the actions do one after the other. -/
theorem attemptAll_run (actions : List (Access σ α)) (s : σ) :
    (attemptAll actions).run s =
      ⟨.ok ((outcomes actions s).map (·.result)), stateAfter actions s,
        journalOf (outcomes actions s)⟩ := by
  induction actions generalizing s with
  | nil => rfl
  | cons action r ih =>
    rw [attemptAll, bind_run, attempt_run]
    simp only [bind_run, ih, pure_run, List.append_nil]
    rfl

end Access

/-! ## Tasks -/

open Access

/-- A single thing that a session does. -/
inductive Task where
  | insert (table : String) (values : Row) (key : String)
  | insertOrUpdate (table : String) (values : Row) (key : String)
  /-- A record of a list that does not fit its columns. -/
  | misfit (columns : List String) (values : List Value)
  /-- One statement; `word` names its operation in notices. -/
  | statement (purpose : Purpose) (word : String) (built : Noted Statement)
  | lastInsertId

/-- The task of inserting a record of a list. -/
def Task.ofRecord (table : String) (columns : List String) (key : String)
    (values : List Value) : Task :=
  match Row.zip columns values with
  | some record => .insert table record key
  | none => .misfit columns values

/-- The tasks of an operation. -/
def Operation.tasks (style : OperandStyle) : Operation → List Task
  | .insert table values key => [.insert table values key]
  | .insertList table columns records key => records.map (Task.ofRecord table columns key)
  | .insertOrUpdate table values key => [.insertOrUpdate table values key]
  | .update table values filter =>
    [.statement .rows "update" (Statement.update table values filter style)]
  | .select table columns selection =>
    [.statement .rows "fetch" (Statement.select table columns selection style)]
  | .selectAll table order =>
    [.statement .rows "fetch"
      (Statement.select table [] { Selection.everything with order := order } style)]
  | .delete table key value =>
    [.statement .count "delete" (.ofExcept (Statement.delete table key value style))]
  | .truncate table options =>
    [.statement .count "delete_all" (.ofExcept (Statement.truncate table options))]
  | .executeRaw sql values => [.statement .count "raw_query" (.pure (Statement.raw sql values))]
  | .queryRaw sql values => [.statement .rows "raw_fetch" (.pure (Statement.raw sql values))]
  | .lastInsertId => [.lastInsertId]

/-- What is given for every task of an operation, if this is given for the operation. -/
def Answer.ofTasks : Except AccessError Answer → List (Except AccessError Answer)
  | .ok (.list results) => results.map fun result => result.map .rows
  | result => [result]

/-- Whether the statement that a task runs first can be built and compiled; asking for the value
of a sequence takes no statement. -/
def Task.Builds : Task → Prop
  | .insert table values key | .insertOrUpdate table values key =>
    ∃ compiled, Session.insertForm table values key = .ok compiled
  | .misfit _ _ => False
  | .statement _ _ built => ∃ compiled, (built.result >>= Positional.compile) = .ok compiled
  | .lastInsertId => True

namespace Session

variable (session : Session σ π)

/-- Do a task. -/
def undertake : Task → Access σ Answer
  | .insert table values key => .rows <$> session.insert table values key
  | .insertOrUpdate table values key => .rows <$> session.insertOrUpdate table values key
  | .misfit columns values =>
    fail (.validation ("row has " ++ Text.natText values.length ++ " values for " ++
      Text.natText columns.length ++ " columns"))
  | .statement purpose word built =>
    purpose.answer <$> (ofNoted built >>=
      Transaction.runFor session.connection session.settings.reportLimit word purpose)
  | .lastInsertId => .identifier <$> session.lastInsertId

/-- A record of a list is inserted as a task of its own. -/
theorem undertake_ofRecord (table : String) (columns : List String) (key : String)
    (values : List Value) :
    session.undertake (.ofRecord table columns key values) =
      .rows <$> session.insertPositional table columns key values := by
  unfold Task.ofRecord insertPositional
  cases Row.zip columns values with
  | some record => rfl
  | none => rfl

/-- How the tasks of operations end that are done one after the other. -/
def taskOutcomes (tasks : List Task) (s : σ) : List (Outcome σ Answer) :=
  outcomes (tasks.map session.undertake) s

/-- The state in which tasks leave a connection that are done one after the other. -/
def stateAfterTasks (tasks : List Task) (s : σ) : σ :=
  stateAfter (tasks.map session.undertake) s

theorem stateAfterTasks_append (a b : List Task) (s : σ) :
    session.stateAfterTasks (a ++ b) s =
      session.stateAfterTasks b (session.stateAfterTasks a s) := by
  rw [stateAfterTasks, List.map_append, stateAfter_append]
  rfl

theorem taskOutcomes_append (a b : List Task) (s : σ) :
    session.taskOutcomes (a ++ b) s =
      session.taskOutcomes a s ++ session.taskOutcomes b (session.stateAfterTasks a s) := by
  rw [taskOutcomes, List.map_append, outcomes_append]
  rfl

theorem length_taskOutcomes (tasks : List Task) (s : σ) :
    (session.taskOutcomes tasks s).length = tasks.length := by
  simp [taskOutcomes]

/-- Whether an outcome is that of tasks which are done one after the other. -/
structure EndsAs (outcome : Outcome σ Answer) (tasks : List Task) (s : σ) : Prop where
  results : Answer.ofTasks outcome.result = (session.taskOutcomes tasks s).map (·.result)
  state : outcome.state = session.stateAfterTasks tasks s
  journal : outcome.journal = journalOf (session.taskOutcomes tasks s)

/-- What a task gives is no list of results. -/
theorem undertake_ne_list (task : Task) (s : σ)
    (results : List (Except AccessError (List Row))) :
    ((session.undertake task).run s).result ≠ .ok (.list results) := by
  have hmap : ∀ {γ : Type} (f : γ → Answer) (action : Access σ γ),
      (∀ c, f c ≠ .list results) → ((f <$> action).run s).result ≠ .ok (.list results) := by
    intro γ f action hf
    rw [map_run, Outcome.map]
    cases (action.run s).result with
    | error e => exact fun heq => nomatch heq
    | ok c => exact fun heq => hf c (Except.ok.inj heq)
  cases task with
  | insert table values key => exact hmap _ _ fun _ heq => nomatch heq
  | insertOrUpdate table values key => exact hmap _ _ fun _ heq => nomatch heq
  | misfit columns values => exact fun heq => nomatch heq
  | statement purpose word built =>
    refine hmap _ _ fun yield heq => ?_
    cases purpose <;> exact nomatch heq
  | lastInsertId => exact hmap _ _ fun _ heq => nomatch heq

/-- A single task ends as it does. -/
theorem endsAs_one {outcome : Outcome σ Answer} {task : Task} {s : σ}
    (h : outcome = (session.undertake task).run s) : session.EndsAs outcome [task] s := by
  subst h
  refine ⟨?_, rfl, (List.append_nil _).symm⟩
  change Answer.ofTasks ((session.undertake task).run s).result =
    [((session.undertake task).run s).result]
  unfold Answer.ofTasks
  split
  · rename_i results hresult
    exact absurd hresult (session.undertake_ne_list task s results)
  · rfl

/-- The tasks of an operation that inserts a list of records. -/
theorem endsAs_insertList (table : String) (columns : List String) (records : List (List Value))
    (key : String) (s : σ) :
    session.EndsAs ((session.perform (.insertList table columns records key)).run s)
      (records.map (Task.ofRecord table columns key)) s := by
  have hactions : (records.map (Task.ofRecord table columns key)).map session.undertake =
      (records.map (session.insertPositional table columns key)).map (.rows <$> ·) := by
    rw [List.map_map, List.map_map]
    exact List.map_congr_left fun values _ => session.undertake_ofRecord table columns key values
  have hrun : (session.perform (.insertList table columns records key)).run s =
      Outcome.map .list ((session.insertList table columns records key).run s) :=
    map_run _ _ s
  rw [insertList, attemptAll_run] at hrun
  rw [hrun]
  constructor
  · rw [taskOutcomes, hactions, outcomes_map, List.map_map]
    exact List.map_map
  · rw [stateAfterTasks, hactions, stateAfter_map]
    rfl
  · rw [taskOutcomes, hactions, outcomes_map]
    exact (journalOf_map Answer.rows _).symm

/-- An operation does its tasks one after the other. -/
theorem perform_tasks (operation : Operation) (s : σ) :
    session.EndsAs ((session.perform operation).run s)
      (operation.tasks session.settings.operandStyle) s := by
  cases operation with
  | insertList table columns records key =>
    exact session.endsAs_insertList table columns records key s
  | _ =>
    apply session.endsAs_one
    rfl

section Single

variable {operation : Operation} {earlier : List Task} {task : Task} {later : List Task}

/-- An operation gives the result of each of its tasks. -/
theorem result_perform
    (split : operation.tasks session.settings.operandStyle = earlier ++ task :: later) (s : σ) :
    (Answer.ofTasks ((session.perform operation).run s).result)[earlier.length]? =
      some ((session.undertake task).run (session.stateAfterTasks earlier s)).result := by
  have hlength : ((session.taskOutcomes earlier s).map (·.result)).length = earlier.length := by
    rw [List.length_map, length_taskOutcomes]
  rw [(session.perform_tasks operation s).results, split, taskOutcomes_append, List.map_append,
    ← hlength, List.getElem?_append_right (Nat.le_refl _), Nat.sub_self]
  rfl

/-- What a task asks for is part of what its operation asks for. -/
theorem infix_exchanges_perform
    (split : operation.tasks session.settings.operandStyle = earlier ++ task :: later) (s : σ) :
    ((session.undertake task).run (session.stateAfterTasks earlier s)).journal.exchanges <:+:
      ((session.perform operation).run s).journal.exchanges := by
  rw [(session.perform_tasks operation s).journal, split, taskOutcomes_append, journalOf,
    List.flatMap_append, Journal.exchanges_append]
  refine List.IsInfix.trans ?_ (List.suffix_append _ _).isInfix
  change _ <:+: Journal.exchanges (_ ++ journalOf _)
  rw [Journal.exchanges_append]
  exact (List.prefix_append _ _).isInfix

end Single

/-- The tasks of operations, in order. -/
def tasksOf (operations : List Operation) : List Task :=
  operations.flatMap (Operation.tasks session.settings.operandStyle)

/-- A history does the tasks of its operations one after the other, and it gives their
results. -/
theorem history_tasks (operations : List Operation) (s : σ) :
    ((session.history operations s).flatMap fun outcome => Answer.ofTasks outcome.result) =
        (session.taskOutcomes (session.tasksOf operations) s).map (·.result) ∧
      finalState s (session.history operations s) =
        session.stateAfterTasks (session.tasksOf operations) s ∧
      journalOf (session.history operations s) =
        journalOf (session.taskOutcomes (session.tasksOf operations) s) := by
  induction operations generalizing s with
  | nil => exact ⟨rfl, rfl, rfl⟩
  | cons operation r ih =>
    obtain ⟨hresults, hstate, hjournal⟩ := session.perform_tasks operation s
    obtain ⟨ihresults, ihstate, ihjournal⟩ := ih ((session.perform operation).run s).state
    have htasks : session.tasksOf (operation :: r) =
        operation.tasks session.settings.operandStyle ++ session.tasksOf r := rfl
    rw [history_cons, htasks, taskOutcomes_append, stateAfterTasks_append, ← hstate]
    refine ⟨?_, ihstate, ?_⟩
    · rw [List.flatMap_cons, List.map_append, hresults, ihresults]
    · rw [journalOf, List.flatMap_cons, journalOf, List.flatMap_append, hjournal]
      exact congrArg _ ihjournal

/-! ## Statements of tasks -/

section Connected

variable (c : Connection σ π) (settings : Settings)

/-- What a task of one statement does and gives. -/
theorem undertake_statement_effect (purpose : Purpose) (word : String) (built : Noted Statement)
    (s : σ) :
    (((connected c settings).undertake (.statement purpose word built)).run s).effect =
      let ended := Transaction.effectOf c purpose (built.result >>= Positional.compile) s
      (ended.1.map purpose.answer, ended.2) := by
  rw [undertake, Transaction.map_effect, Transaction.bind_effect, Transaction.ofNoted_effect]
  cases built.result with
  | error e => rfl
  | ok statement =>
    simp only [Transaction.runFor_effect]
    rfl

end Connected

end Session

end TableAccess
