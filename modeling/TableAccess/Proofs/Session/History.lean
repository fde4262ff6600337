import TableAccess.Proofs.Transaction.Run
import TableAccess.Session.Operation
/-!
# Histories of a session

Whatever a connection answers and whatever a session is asked for, the calls on the
connection fall into blocks, so no transaction is left open and none is ended twice.  An
operation that runs one statement asks for one block, and for nothing if its statement
cannot be built or compiled.

Main results:

- Theorem `perform_inParts`: the calls of every operation fall into blocks.
- Theorem `perform_statement`: what an operation that runs one statement asks for and gives.
- Theorem `history_blocks`: every history of a session is a sequence of complete
  transactions.
-/

namespace TableAccess

open Access

variable {σ π α β : Type}

/-! ## Actions in blocks -/

/-- Whether the calls of an action fall into blocks, whatever state it starts from. -/
def InParts (action : Access σ α) : Prop :=
  ∀ s, ∃ parts, (action.run s).journal.exchanges = exchangesOf parts

namespace InParts

/-- An action without calls falls into no blocks at all. -/
theorem of_no_calls {action : Access σ α} (h : ∀ s, (action.run s).journal.exchanges = []) :
    InParts action :=
  fun s => ⟨[], h s⟩

theorem pure (a : α) : InParts (Pure.pure a : Access σ α) :=
  of_no_calls fun _ => rfl

theorem fail (e : AccessError) : InParts (Access.fail e : Access σ α) :=
  of_no_calls fun _ => rfl

theorem give (notice : Notice) : InParts (Access.give notice : Access σ Unit) :=
  of_no_calls fun _ => rfl

theorem ofExcept (result : Except AccessError α) : InParts (Access.ofExcept result : Access σ α) :=
  of_no_calls fun _ => rfl

theorem ofNoted (noted : Noted α) : InParts (Access.ofNoted noted : Access σ α) :=
  of_no_calls fun _ => Journal.exchanges_ofNotices _

/-- Two actions one after the other fall into the blocks of both. -/
theorem bind {action : Access σ α} {next : α → Access σ β} (first : InParts action)
    (second : ∀ a, InParts (next a)) : InParts (action >>= next) := by
  intro s
  obtain ⟨parts, hparts⟩ := first s
  rw [bind_run]
  cases (action.run s).result with
  | error e => exact ⟨parts, hparts⟩
  | ok a =>
    obtain ⟨more, hmore⟩ := second a (action.run s).state
    refine ⟨parts ++ more, ?_⟩
    rw [Journal.exchanges_append, hparts, hmore]
    exact List.flatMap_append.symm

theorem map (f : α → β) {action : Access σ α} (h : InParts action) : InParts (f <$> action) :=
  bind h fun a => pure (f a)

theorem attempt {action : Access σ α} (h : InParts action) : InParts action.attempt :=
  fun s => h s

/-- Actions that are all attempted fall into the blocks of each. -/
theorem attemptAll {actions : List (Access σ α)} (h : ∀ action ∈ actions, InParts action) :
    InParts (Access.attemptAll actions) := by
  induction actions with
  | nil => exact pure []
  | cons action r ih =>
    have hr := ih fun other hother => h other (List.mem_cons_of_mem action hother)
    refine bind (attempt (h action List.mem_cons_self)) fun result => ?_
    exact bind hr fun results => pure (result :: results)

/-- A statement that is run is one block, or none. -/
theorem runFor (connection : Option (Connection σ π)) (limit : Option Nat) (operation : String)
    (purpose : Purpose) (statement : Statement) :
    InParts (Transaction.runFor connection limit operation purpose statement) := by
  intro s
  cases connection with
  | none => exact ⟨[], by rw [Transaction.runFor_none]; rfl⟩
  | some c =>
    have heffect := Transaction.runFor_effect limit operation purpose statement s c
    cases hcompile : Positional.compile statement with
    | error e =>
      rw [hcompile] at heffect
      exact ⟨[], congrArg (·.2.2) heffect⟩
    | ok compiled =>
      rw [hcompile] at heffect
      refine ⟨[.block (Transaction.blockOf c purpose compiled s).1], ?_⟩
      exact (congrArg (·.2.2) heffect).trans (List.append_nil _).symm

end InParts

namespace Session

variable (session : Session σ π)

/-! ## Operations in blocks -/

theorem query_inParts (operation : String) (statement : Statement) :
    InParts (session.query operation statement) :=
  .runFor session.connection session.settings.reportLimit operation .rows statement

theorem execute_inParts (operation : String) (statement : Statement) :
    InParts (session.execute operation statement) :=
  .runFor session.connection session.settings.reportLimit operation .count statement

theorem select_inParts (table : String) (columns : List String) (selection : Selection) :
    InParts (session.select table columns selection) :=
  .bind (.ofNoted _) fun statement => session.query_inParts "fetch" statement

theorem update_inParts (table : String) (values : Row) (filter : Filter) :
    InParts (session.update table values filter) :=
  .bind (.ofNoted _) fun statement => session.query_inParts "update" statement

/-- Inserting a record falls into blocks, one for each statement. -/
theorem insert_inParts (table : String) (values : Row) (key : String) :
    InParts (session.insert table values key) := by
  refine .bind (.ofExcept _) fun _ => .bind (.ofExcept _) fun statement => ?_
  refine .bind (session.query_inParts "insert" _) fun returned => ?_
  split
  · exact .fail _
  · exact session.select_inParts table _ _

/-- Inserting records one by one falls into the blocks of all of them. -/
theorem insertList_inParts (table : String) (columns : List String)
    (records : List (List Value)) (key : String) :
    InParts (session.insertList table columns records key) := by
  refine .attemptAll fun action haction => ?_
  obtain ⟨values, -, rfl⟩ := List.mem_map.1 haction
  unfold insertPositional
  split
  · exact session.insert_inParts table _ key
  · exact .fail _

/-- Inserting a record, and updating it if that fails, falls into blocks. -/
theorem insertOrUpdate_inParts (table : String) (values : Row) (key : String) :
    InParts (session.insertOrUpdate table values key) := by
  refine .bind (.attempt (session.insert_inParts table values key)) fun result => ?_
  split
  · exact .pure _
  · split
    · refine .bind (.give _) fun _ => ?_
      split
      · exact .fail _
      · exact session.update_inParts table values _
    · exact .fail _

/-- The value that a sequence gave last is asked for between blocks. -/
theorem lastInsertId_inParts : InParts session.lastInsertId := by
  unfold lastInsertId
  split
  · exact .fail _
  · rename_i c _
    exact fun s => ⟨[.lastInsertId ((c.lastInsertId s).1.map .identifier)], rfl⟩

/-- The calls of every operation fall into blocks. -/
theorem perform_inParts (operation : Operation) : InParts (session.perform operation) := by
  cases operation with
  | insert table values key => exact .map _ (session.insert_inParts table values key)
  | insertList table columns records key =>
    exact .map _ (session.insertList_inParts table columns records key)
  | insertOrUpdate table values key =>
    exact .map _ (session.insertOrUpdate_inParts table values key)
  | update table values filter => exact .map _ (session.update_inParts table values filter)
  | select table columns selection => exact .map _ (session.select_inParts table columns selection)
  | selectAll table order => exact .map _ (session.select_inParts table _ _)
  | delete table key value =>
    exact .map _ (.bind (.ofExcept _) fun statement => session.execute_inParts "delete" statement)
  | truncate table options =>
    exact .map _ (.bind (.ofExcept _) fun statement =>
      session.execute_inParts "delete_all" statement)
  | executeRaw sql values => exact .map _ (session.execute_inParts "raw_query" _)
  | queryRaw sql values => exact .map _ (session.query_inParts "raw_fetch" _)
  | lastInsertId => exact .map _ session.lastInsertId_inParts

end Session

/-! ## Operations of one statement -/

/-- The answer of an operation from what its statement yields. -/
def Purpose.answer : (purpose : Purpose) → purpose.Yield → Answer
  | rows => .rows
  | count => .affected

/-- What an operation that runs one statement runs it for, and the statement or why it cannot
be built. -/
def Operation.statement? (style : OperandStyle) :
    Operation → Option (Purpose × Except AccessError Statement)
  | update table values filter => some (.rows, (Statement.update table values filter style).result)
  | select table columns selection =>
    some (.rows, (Statement.select table columns selection style).result)
  | selectAll table order =>
    some (.rows, (Statement.select table [] { Selection.everything with order := order }
      style).result)
  | delete table key value => some (.count, Statement.delete table key value style)
  | truncate table options => some (.count, Statement.truncate table options)
  | executeRaw sql values => some (.count, .ok (Statement.raw sql values))
  | queryRaw sql values => some (.rows, .ok (Statement.raw sql values))
  | insert _ _ _ | insertList _ _ _ _ | insertOrUpdate _ _ _ | lastInsertId => none

namespace Session

variable (session : Session σ π)

/-- Whether an outcome is that of a statement which is run in one block, or not at all if it
cannot be built or compiled. -/
structure RunsOnce (purpose : Purpose) (built : Except AccessError Statement)
    (outcome : Outcome σ Answer) : Prop where
  rejected : ∀ e, built = .error e →
    outcome.journal.exchanges = [] ∧ outcome.result = .error e
  unconnected : ∀ statement, built = .ok statement → session.connection = none →
    outcome.journal.exchanges = [] ∧
      outcome.result = .error (.connectionUnavailable Transaction.noConnection)
  uncompiled : ∀ statement c e, built = .ok statement → session.connection = some c →
    Positional.compile statement = .error e →
      outcome.journal.exchanges = [] ∧ outcome.result = .error e
  run : ∀ statement c compiled, built = .ok statement → session.connection = some c →
    Positional.compile statement = .ok compiled →
      ∃ block : Block purpose, block.Runs compiled.sql compiled.parameters ∧
        outcome.journal.exchanges = block.exchanges ∧
        block.Gives block.result ∧ outcome.result = block.result.map purpose.answer ∧
        ((∃ answer, outcome.result = .ok answer) ↔ block.Committed)

/-- An operation that runs one statement builds it first. -/
theorem perform_eq {operation : Operation} {purpose : Purpose}
    {built : Except AccessError Statement}
    (h : operation.statement? session.settings.operandStyle = some (purpose, built)) :
    ∃ (noted : Noted Statement) (word : String), noted.result = built ∧
      session.perform operation = purpose.answer <$> (ofNoted noted >>=
        Transaction.runFor session.connection session.settings.reportLimit word purpose) := by
  cases operation with
  | update table values filter =>
    obtain ⟨rfl, rfl⟩ := Prod.mk.inj (Option.some.inj h)
    exact ⟨_, "update", rfl, rfl⟩
  | select table columns selection =>
    obtain ⟨rfl, rfl⟩ := Prod.mk.inj (Option.some.inj h)
    exact ⟨_, "fetch", rfl, rfl⟩
  | selectAll table order =>
    obtain ⟨rfl, rfl⟩ := Prod.mk.inj (Option.some.inj h)
    exact ⟨_, "fetch", rfl, rfl⟩
  | delete table key value =>
    obtain ⟨rfl, rfl⟩ := Prod.mk.inj (Option.some.inj h)
    exact ⟨.ofExcept _, "delete", rfl, rfl⟩
  | truncate table options =>
    obtain ⟨rfl, rfl⟩ := Prod.mk.inj (Option.some.inj h)
    exact ⟨.ofExcept _, "delete_all", rfl, rfl⟩
  | executeRaw sql values =>
    obtain ⟨rfl, rfl⟩ := Prod.mk.inj (Option.some.inj h)
    exact ⟨Pure.pure (Statement.raw sql values), "raw_query", rfl, rfl⟩
  | queryRaw sql values =>
    obtain ⟨rfl, rfl⟩ := Prod.mk.inj (Option.some.inj h)
    exact ⟨Pure.pure (Statement.raw sql values), "raw_fetch", rfl, rfl⟩
  | _ => cases h

/-- What an operation of one statement does is what running the statement does. -/
theorem perform_effect {operation : Operation} {purpose : Purpose}
    {built : Except AccessError Statement}
    (h : operation.statement? session.settings.operandStyle = some (purpose, built)) (s : σ) :
    ∃ word, ((session.perform operation).run s).effect =
      match built with
      | .error e => (.error e, s, [])
      | .ok statement =>
        let effect := ((Transaction.runFor session.connection session.settings.reportLimit word
          purpose statement).run s).effect
        (effect.1.map purpose.answer, effect.2) := by
  obtain ⟨noted, word, rfl, hperform⟩ := session.perform_eq h
  refine ⟨word, ?_⟩
  rw [hperform, Transaction.map_effect, Transaction.bind_effect, Transaction.ofNoted_effect]
  cases noted.result <;> rfl

/-- What an operation that runs one statement asks for and gives. -/
theorem perform_statement {operation : Operation} {purpose : Purpose}
    {built : Except AccessError Statement}
    (h : operation.statement? session.settings.operandStyle = some (purpose, built)) (s : σ) :
    session.RunsOnce purpose built ((session.perform operation).run s) := by
  obtain ⟨word, heffect⟩ := session.perform_effect h s
  have hresult := congrArg (·.1) heffect
  have hcalls := congrArg (·.2.2) heffect
  constructor
  · rintro e rfl
    exact ⟨hcalls, hresult⟩
  · rintro statement rfl hconnection
    simp only [hconnection, Transaction.runFor_none] at hcalls hresult
    exact ⟨hcalls, hresult⟩
  · rintro statement c e rfl hconnection hcompile
    simp only [hconnection, Transaction.runFor_effect, hcompile] at hcalls hresult
    exact ⟨hcalls, hresult⟩
  · rintro statement c compiled rfl hconnection hcompile
    simp only [hconnection, Transaction.runFor_effect, hcompile] at hcalls hresult
    have hblock : ((session.perform operation).run s).result =
        (Transaction.blockOf c purpose compiled s).1.result.map purpose.answer := hresult
    refine ⟨(Transaction.blockOf c purpose compiled s).1, Transaction.blockOf_runs c purpose _ s,
      hcalls, Block.gives_result _, hblock, ?_⟩
    rw [← Block.result_isOk_iff, hblock]
    cases (Transaction.blockOf c purpose compiled s).1.result with
    | error e => simp [Except.map]
    | ok yield => simp [Except.map]

/-! ## Whole histories -/

/-- The calls of a history with what they gave, in order. -/
def log (operations : List Operation) (s : σ) : List Exchange :=
  (session.history operations s).flatMap fun outcome => outcome.journal.exchanges

/-- The calls of a whole history fall into blocks. -/
theorem log_eq_exchangesOf (operations : List Operation) (s : σ) :
    ∃ parts, session.log operations s = exchangesOf parts := by
  induction operations generalizing s with
  | nil => exact ⟨[], rfl⟩
  | cons operation r ih =>
    obtain ⟨parts, hparts⟩ := session.perform_inParts operation s
    obtain ⟨more, hmore⟩ := ih ((session.perform operation).run s).state
    refine ⟨parts ++ more, ?_⟩
    have hlog : session.log (operation :: r) s =
        ((session.perform operation).run s).journal.exchanges ++
          session.log r ((session.perform operation).run s).state := rfl
    rw [hlog, hparts, hmore]
    exact List.flatMap_append.symm

/-- Every history of a session is a sequence of complete transactions, whatever the connection
answers.  Its calls fall into blocks, so every transaction that is opened ends exactly once
before the next one, and it is rolled back exactly if preparing or running its statement
failed.  An operation that runs one statement asks for exactly one block, whose result it
gives, and for nothing if its statement cannot be built or compiled.  The error of a step that
failed keeps its cause and its state code, and if the rollback failed as well, what it failed
with is appended to the text. -/
theorem history_blocks (operations : List Operation) (s : σ) :
    (∃ parts, session.log operations s = exchangesOf parts) ∧
      Complete (session.log operations s) ∧
      ∀ (operation : Operation) (purpose : Purpose) (built : Except AccessError Statement) (t : σ),
        operation.statement? session.settings.operandStyle = some (purpose, built) →
          session.RunsOnce purpose built ((session.perform operation).run t) := by
  obtain ⟨parts, hparts⟩ := session.log_eq_exchangesOf operations s
  refine ⟨⟨parts, hparts⟩, ?_, fun _ _ _ t h => session.perform_statement h t⟩
  rw [hparts]
  exact complete_of_parts parts

end Session

end TableAccess
