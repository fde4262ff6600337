import TableAccess.Proofs.Transaction.Block
import TableAccess.Transaction
/-!
# One statement, one block

Running a statement in a transaction asks the connection for one block, whatever the
connection answers, and the result is what the block gives.  A statement that has no
positional form is not run at all.  Notices are left aside: what matters of an outcome is
its result, its state and its calls.

Main results:

- Theorem `enclosed_effect`: what is run in a transaction is a block.
- Theorem `runFor_effect`: what running a statement does and gives.
-/

namespace TableAccess

@[simp]
theorem Journal.exchanges_append (a b : Journal) :
    Journal.exchanges (a ++ b) = a.exchanges ++ b.exchanges :=
  List.filterMap_append

@[simp]
theorem Journal.exchanges_ofNotices (ns : List Notice) : (Journal.ofNotices ns).exchanges = [] := by
  induction ns with
  | nil => rfl
  | cons n r ih => exact ih

/-! ## Effects -/

/-- An outcome without its notices: the result, the state and the calls. -/
def Outcome.effect {σ α : Type} (outcome : Outcome σ α) :
    Except AccessError α × σ × List Exchange :=
  (outcome.result, outcome.state, outcome.journal.exchanges)

/-- An effect is known by its three parts. -/
theorem Outcome.effect_eq_iff {σ α : Type} {outcome : Outcome σ α}
    {effect : Except AccessError α × σ × List Exchange} :
    outcome.effect = effect ↔ outcome.result = effect.1 ∧ outcome.state = effect.2.1 ∧
      outcome.journal.exchanges = effect.2.2 := by
  rw [Outcome.effect, Prod.ext_iff, Prod.ext_iff]

namespace Transaction

open Access

variable {σ π : Type}

/-- What a connection answers if a prepared statement is run. -/
def answer (c : Connection σ π) : (purpose : Purpose) → π → List Value → σ →
    Except AccessError purpose.Yield × σ
  | .rows => c.query
  | .count => c.execute

/-- The block that running a statement in a transaction asks for, and the state in which it
leaves the connection. -/
def blockOf (c : Connection σ π) (purpose : Purpose) (compiled : Positional) (s : σ) :
    Block purpose × σ :=
  match c.begin s with
  | (.error e, t) => (.unopened e, t)
  | (.ok (), t) =>
    match c.prepare compiled.sql t with
    | (.error e, t) =>
      let ended := c.rollback t
      (.unprepared compiled.sql e ended.1, ended.2)
    | (.ok statement, t) =>
      match answer c purpose statement compiled.parameters t with
      | (.error e, t) =>
        let ended := c.rollback t
        (.undone compiled.sql compiled.parameters e ended.1, ended.2)
      | (.ok yield, t) =>
        let ended := c.commit t
        (.completed compiled.sql compiled.parameters yield ended.1, ended.2)

/-- What running a statement does and gives, if this is its positional form or the reason why
it has none. -/
def effectOf (c : Connection σ π) (purpose : Purpose) (form : Except AccessError Positional)
    (s : σ) : Except AccessError purpose.Yield × σ × List Exchange :=
  match form with
  | .error e => (.error e, s, [])
  | .ok compiled =>
    let ended := blockOf c purpose compiled s
    (ended.1.result, ended.2, ended.1.exchanges)

/-- A statement that is run gives a result exactly if its block does. -/
theorem effectOf_eq_ok_iff (c : Connection σ π) (purpose : Purpose)
    (form : Except AccessError Positional) (s : σ) (yield : purpose.Yield) :
    (effectOf c purpose form s).1 = .ok yield ↔
      ∃ compiled, form = .ok compiled ∧ (blockOf c purpose compiled s).1.result = .ok yield := by
  cases form with
  | error e => simp [effectOf]
  | ok compiled => simp [effectOf]

/-- A block runs the statement it was asked for. -/
theorem blockOf_runs (c : Connection σ π) (purpose : Purpose) (compiled : Positional) (s : σ) :
    (blockOf c purpose compiled s).1.Runs compiled.sql compiled.parameters := by
  unfold blockOf
  split
  · trivial
  · split
    · exact rfl
    · split
      · exact ⟨rfl, rfl⟩
      · exact ⟨rfl, rfl⟩

/-- A block is opened exactly if the connection opens a transaction. -/
theorem blockOf_opening (c : Connection σ π) (purpose : Purpose) (compiled : Positional) (s : σ) :
    (blockOf c purpose compiled s).1.opening = Block.acknowledged (c.begin s).1 := by
  unfold blockOf
  split
  · rename_i hbegin
    rw [hbegin]
    rfl
  · rename_i hbegin
    rw [hbegin]
    split
    · rfl
    · split <;> rfl

/-- Prepare and run a statement. -/
def prepared (c : Connection σ π) (purpose : Purpose) (compiled : Positional) :
    Access σ purpose.Yield :=
  match purpose with
  | .rows => queryPrepared c compiled
  | .count => executePrepared c compiled

/-- Run a statement in a transaction. -/
def runFor (connection : Option (Connection σ π)) (limit : Option Nat) (operation : String)
    (purpose : Purpose) (statement : Statement) : Access σ purpose.Yield :=
  match purpose with
  | .rows => query connection limit operation statement
  | .count => execute connection limit operation statement

/-- Undoing a transaction is one call, and its error tells how the call went. -/
theorem undo_effect {α : Type} (c : Connection σ π) (operation : String) (cause : AccessError)
    (s : σ) :
    ((undo c operation cause : Access σ α).run s).effect =
      (.error (Block.noted cause (c.rollback s).1), (c.rollback s).2,
        [(.rollback, Block.acknowledged (c.rollback s).1)]) := by
  simp only [undo, bind_run, give_run, attempt_run, Connection.rollingBack, make_run]
  cases (c.rollback s).1 <;> rfl

/-- The effect of two actions, given those of each. -/
theorem bind_effect {α β : Type} (action : Access σ α) (next : α → Access σ β) (s : σ) :
    ((action >>= next).run s).effect =
      match (action.run s).effect with
      | (.ok a, t, calls) =>
        let second := ((next a).run t).effect
        (second.1, second.2.1, calls ++ second.2.2)
      | (.error e, t, calls) => (.error e, t, calls) := by
  rw [bind_run]
  cases hrun : action.run s with
  | mk result state journal =>
    cases result with
    | error e => rfl
    | ok a => simp [Outcome.effect]

/-- What is made of a result does not change the state and the calls. -/
theorem map_effect {α β : Type} (f : α → β) (action : Access σ α) (s : σ) :
    ((f <$> action).run s).effect =
      ((action.run s).effect.1.map f, (action.run s).effect.2) := by
  have hmap : f <$> action = action >>= fun a => pure (f a) := rfl
  rw [hmap, bind_run]
  cases hrun : action.run s with
  | mk result state journal =>
    cases result with
    | error e => rfl
    | ok a => simp [Outcome.effect, Except.map]

theorem give_effect (notice : Notice) (s : σ) :
    ((give notice).run s).effect = (.ok (), s, []) :=
  rfl

/-- A result with notices has the effect of the result. -/
theorem ofNoted_effect {α : Type} (noted : Noted α) (s : σ) :
    ((ofNoted noted).run s).effect = (noted.result, s, []) := by
  simp [Outcome.effect]

/-- An attempt has the effect of the action, and it does not fail. -/
theorem attempt_effect {α : Type} (action : Access σ α) (s : σ) :
    (action.attempt.run s).effect =
      (.ok (action.run s).effect.1, (action.run s).effect.2.1, (action.run s).effect.2.2) :=
  rfl

/-- How a call is made on a statement that is prepared for it. -/
theorem preparing_bind_effect {α : Type} (c : Connection σ π) (sql : String) (call : Call)
    (reply : α → Reply) (act : π → σ → Except AccessError α × σ) (s : σ) :
    ((c.preparing sql >>= fun statement => make call reply (act statement)).run s).effect =
      match c.prepare sql s with
      | (.error e, t) => (.error e, t, [(.prepare sql, .error e)])
      | (.ok statement, t) =>
        ((act statement t).1, (act statement t).2,
          [(.prepare sql, .ok .done), (call, (act statement t).1.map reply)]) := by
  simp only [bind_run, Connection.preparing, make_run]
  cases c.prepare sql s with
  | mk result t => cases result <;> rfl

/-- How a statement is prepared and run. -/
theorem prepared_effect (c : Connection σ π) (purpose : Purpose) (compiled : Positional) (s : σ) :
    ((prepared c purpose compiled).run s).effect =
      match c.prepare compiled.sql s with
      | (.error e, t) => (.error e, t, [(.prepare compiled.sql, .error e)])
      | (.ok statement, t) =>
        let given := answer c purpose statement compiled.parameters t
        (given.1, given.2, [(.prepare compiled.sql, .ok .done),
          (purpose.call compiled.sql compiled.parameters, given.1.map purpose.reply)]) := by
  cases purpose with
  | rows =>
    exact preparing_bind_effect c compiled.sql _ _ (fun p => c.query p compiled.parameters) s
  | count =>
    exact preparing_bind_effect c compiled.sql _ _ (fun p => c.execute p compiled.parameters) s

/-- Committing a transaction is one call, which may fail. -/
theorem committing_effect {α : Type} (c : Connection σ π) (notice : Notice) (a : α) (s : σ) :
    ((do c.committing; give notice; return a : Access σ α).run s).effect =
      ((c.commit s).1.map fun _ => a, (c.commit s).2,
        [(.commit, Block.acknowledged (c.commit s).1)]) := by
  simp only [bind_run, Connection.committing, make_run, give_run]
  cases (c.commit s).1 <;> rfl

/-- What is run in a transaction is a block. -/
theorem enclosed_effect (c : Connection σ π) (operation : String) (purpose : Purpose)
    (affected : purpose.Yield → Nat) (compiled : Positional) (s : σ) :
    ((enclosed c operation affected (prepared c purpose compiled)).run s).effect =
      effectOf c purpose (.ok compiled) s := by
  unfold effectOf blockOf
  cases hbegin : c.begin s with
  | mk opened s₁ =>
    cases opened with
    | error e =>
      rw [enclosed_run_of_begin_error (by rw [hbegin]), hbegin]
      rfl
    | ok u =>
      have hopen : (c.beginning.run s).effect = (.ok (), s₁, [(.begin, .ok .done)]) := by
        simp only [Connection.beginning, make_run, hbegin]
        rfl
      rw [enclosed, bind_effect, hopen]
      simp only
      rw [bind_effect, attempt_effect, prepared_effect]
      simp only
      cases hprepare : c.prepare compiled.sql s₁ with
      | mk statement? s₂ =>
        cases statement? with
        | error e =>
          simp only
          rw [undo_effect]
          rfl
        | ok statement =>
          simp only
          cases hanswer : answer c purpose statement compiled.parameters s₂ with
          | mk yield? s₃ =>
            cases yield? with
            | error e =>
              simp only
              rw [undo_effect]
              rfl
            | ok yield =>
              simp only
              rw [committing_effect]
              rfl

section Statements

variable (limit : Option Nat) (operation : String) (purpose : Purpose) (statement : Statement)
  (s : σ)

/-- Without a connection no statement is run. -/
theorem runFor_none :
    (runFor (none : Option (Connection σ π)) limit operation purpose statement).run s =
      ⟨.error (.connectionUnavailable noConnection), s, []⟩ := by
  cases purpose <;> rfl

variable (c : Connection σ π)

/-- A statement is compiled before it is run in a transaction. -/
theorem runFor_some : ∃ affected : purpose.Yield → Nat,
    runFor (some c) limit operation purpose statement = (do
      let compiled ← ofNoted (Positional.compileNoted statement)
      give (.executing operation (loggedSql limit compiled.sql) compiled.parameters.length)
      enclosed c operation affected (prepared c purpose compiled)) := by
  cases purpose with
  | rows => exact ⟨List.length, rfl⟩
  | count => exact ⟨id, rfl⟩

/-- What running a statement does and gives. -/
theorem runFor_effect :
    ((runFor (some c) limit operation purpose statement).run s).effect =
      effectOf c purpose (Positional.compile statement) s := by
  obtain ⟨affected, hrun⟩ := runFor_some limit operation purpose statement c
  rw [hrun, bind_effect, ofNoted_effect, Positional.result_compileNoted]
  cases Positional.compile statement with
  | error e => rfl
  | ok compiled =>
    simp only
    rw [bind_effect, give_effect]
    simp only
    rw [enclosed_effect]
    rfl

end Statements

end Transaction

end TableAccess
