import TableAccess.Proofs.Session.Task
/-!
# Trials of tasks

A task runs statements one after the other, each in a transaction of its own.  Which statement
comes next, and whether there is one, depends on how the one before ended.  The trials of a task
are the statements that it comes to try, each with the state in which its transaction begins.

Main results:

- Theorem `exchanges_trials`: a task asks for the blocks of its trials.
- Theorem `undertake_of_fails`: a task gives the error of a trial that fails, unless it may still
  try an update.
-/

namespace TableAccess.Session

open Access Transaction

variable {σ π : Type} (c : Connection σ π) (settings : Settings)

/-! ## Trials -/

/-- A statement that is tried, and the state in which its transaction begins. -/
structure Trial (σ : Type) where
  purpose : Purpose
  compiled : Positional
  state : σ

/-- The block of a trial, and the state in which it leaves the connection. -/
def Trial.ended (trial : Trial σ) : Block trial.purpose × σ :=
  blockOf c trial.purpose trial.compiled trial.state

/-- The trial of a statement with this positional form, if it has one. -/
def trialsOf (purpose : Purpose) (form : Except AccessError Positional) (s : σ) : List (Trial σ) :=
  match form with
  | .error _ => []
  | .ok compiled => [⟨purpose, compiled, s⟩]

section Records

variable (table : String) (values : Row) (key : String) (s : σ)

/-- The trials of inserting a record: the insert, and what reads the record back. -/
def insertTrials : List (Trial σ) :=
  let first := effectOf c .rows (insertForm table values key) s
  trialsOf .rows (insertForm table values key) s ++
    match first.1 with
    | .error _ => []
    | .ok rows =>
      match firstValue? rows with
      | none => []
      | some id => trialsOf .rows (readForm table key id settings.operandStyle) first.2.1

/-- The trial of updating a record instead of inserting it. -/
def insteadTrials : List (Trial σ) :=
  let inserted := (((connected c settings).insert table values key).run s).effect
  match inserted.1 with
  | .ok _ => []
  | .error e =>
    if e.isExecution then
      match values.find? key with
      | none => []
      | some id =>
        trialsOf .rows
          (updateForm table values (.ofKey key id.coerceInteger) settings.operandStyle)
          inserted.2.1
    else []

end Records

/-- The trials of a task. -/
def trials (s : σ) : Task → List (Trial σ)
  | .insert table values key => insertTrials c settings table values key s
  | .insertOrUpdate table values key =>
    insertTrials c settings table values key s ++ insteadTrials c settings table values key s
  | .statement purpose _ built => trialsOf purpose (built.result >>= Positional.compile) s
  | .misfit _ _ | .lastInsertId => []

/-! ## Blocks -/

/-- What trials ask for, in order. -/
def exchangesOfTrials (trials : List (Trial σ)) : List Exchange :=
  trials.flatMap fun trial => (trial.ended c).1.exchanges

@[simp]
theorem exchangesOfTrials_append (a b : List (Trial σ)) :
    exchangesOfTrials c (a ++ b) = exchangesOfTrials c a ++ exchangesOfTrials c b :=
  List.flatMap_append

/-- What a trial asks for is part of what all trials ask for. -/
theorem infix_exchangesOfTrials {trial : Trial σ} {trials : List (Trial σ)} (h : trial ∈ trials) :
    (trial.ended c).1.exchanges <:+: exchangesOfTrials c trials := by
  obtain ⟨a, b, rfl⟩ := List.append_of_mem h
  exact ⟨exchangesOfTrials c a, exchangesOfTrials c b, by
    simp [exchangesOfTrials, List.append_assoc]⟩

/-- Running a statement asks for the block of its trial. -/
theorem effectOf_exchanges (purpose : Purpose) (form : Except AccessError Positional) (s : σ) :
    (effectOf c purpose form s).2.2 = exchangesOfTrials c (trialsOf purpose form s) := by
  cases form with
  | error e => rfl
  | ok compiled => exact (List.append_nil _).symm

/-- A statement fails where its trial does. -/
theorem effectOf_of_fails {purpose : Purpose} {form : Except AccessError Positional} {s : σ}
    {trial : Trial σ} (h : trial ∈ trialsOf purpose form s) {e : AccessError}
    (fails : (trial.ended c).1.result = .error e) :
    (effectOf c purpose form s).1 = .error e ∧
      (effectOf c purpose form s).2.1 = (trial.ended c).2 := by
  cases form with
  | error e' => cases h
  | ok compiled =>
    obtain rfl := List.mem_singleton.1 h
    exact ⟨fails, rfl⟩

section Records

variable (table : String) (values : Row) (key : String) (s : σ)

/-- Inserting a record asks for the blocks of its trials. -/
theorem insert_exchanges :
    (((connected c settings).insert table values key).run s).effect.2.2 =
      exchangesOfTrials c (insertTrials c settings table values key s) := by
  rw [insert_effect, insertTrials, exchangesOfTrials_append, ← effectOf_exchanges]
  simp only
  cases (effectOf c .rows (insertForm table values key) s).1 with
  | error e => exact (List.append_nil _).symm
  | ok rows =>
    simp only
    cases firstValue? rows with
    | none => exact (List.append_nil _).symm
    | some id =>
      simp only
      rw [effectOf_exchanges, effectOf_exchanges]

/-- So does inserting or updating, with the trial of the update at the end. -/
theorem insertOrUpdate_exchanges :
    (((connected c settings).insertOrUpdate table values key).run s).effect.2.2 =
      exchangesOfTrials c (insertTrials c settings table values key s ++
        insteadTrials c settings table values key s) := by
  rw [insertOrUpdate_effect, exchangesOfTrials_append, ← insert_exchanges, insteadTrials]
  generalize (((connected c settings).insert table values key).run s).effect = inserted
  obtain ⟨result, t, calls⟩ := inserted
  cases result with
  | ok rows => exact (List.append_nil _).symm
  | error e =>
    simp only
    split
    · cases values.find? key with
      | none => exact (List.append_nil _).symm
      | some id =>
        simp only
        rw [effectOf_exchanges]
    · exact (List.append_nil _).symm

/-- Inserting a record ends with a trial that fails. -/
theorem insert_of_fails {trial : Trial σ} (h : trial ∈ insertTrials c settings table values key s)
    {e : AccessError} (fails : (trial.ended c).1.result = .error e) :
    (((connected c settings).insert table values key).run s).effect.1 = .error e ∧
      (((connected c settings).insert table values key).run s).effect.2.1 =
        (trial.ended c).2 := by
  rw [insert_effect]
  unfold insertTrials at h
  simp only at h ⊢
  rcases List.mem_append.1 h with hfirst | hsecond
  · obtain ⟨hresult, hstate⟩ := effectOf_of_fails c hfirst fails
    rw [hresult]
    exact ⟨rfl, hstate⟩
  · revert hsecond
    cases (effectOf c .rows (insertForm table values key) s).1 with
    | error e' => intro hsecond; cases hsecond
    | ok rows =>
      simp only
      cases firstValue? rows with
      | none => intro hsecond; cases hsecond
      | some id =>
        intro hsecond
        exact effectOf_of_fails c hsecond fails

/-- If the insert fails at execution, an update is sent exactly if the record can be updated. -/
theorem sendsUpdate_of_fails {trial : Trial σ}
    (h : trial ∈ insertTrials c settings table values key s) {e : AccessError}
    (fails : (trial.ended c).1.result = .error e) (execution : e.isExecution = true) :
    SendsUpdate (((connected c settings).insertOrUpdate table values key).run s).effect.2.2 ↔
      CanUpdate c settings table values key (trial.ended c).2 := by
  obtain ⟨hfailed, hstate⟩ := insert_of_fails c settings table values key s h fails
  rw [sendsUpdate_iff, hfailed, hstate]
  constructor
  · rintro ⟨-, hupdate⟩
    exact hupdate
  · intro hupdate
    exact ⟨⟨e, rfl, execution⟩, hupdate⟩

/-- If the update in place of an insert fails, its error is given. -/
theorem insertOrUpdate_of_fails {trial : Trial σ}
    (h : trial ∈ insteadTrials c settings table values key s) {e : AccessError}
    (fails : (trial.ended c).1.result = .error e) :
    (((connected c settings).insertOrUpdate table values key).run s).effect.1 = .error e := by
  rw [insertOrUpdate_effect]
  unfold insteadTrials at h
  revert h
  generalize (((connected c settings).insert table values key).run s).effect = inserted
  obtain ⟨result, t, calls⟩ := inserted
  cases result with
  | ok rows => intro h; cases h
  | error cause =>
    simp only
    split
    · cases values.find? key with
      | none => intro h; cases h
      | some id =>
        intro h
        exact (effectOf_of_fails c h fails).1
    · intro h
      cases h

/-- The update that is tried in place of an insert that failed at execution. -/
theorem mem_insteadTrials {e : AccessError} {id : Value} {compiled : Positional} {t : σ}
    (failed : (((connected c settings).insert table values key).run s).effect.1 = .error e)
    (state : (((connected c settings).insert table values key).run s).effect.2.1 = t)
    (execution : e.isExecution = true) (found : values.find? key = some id)
    (form : updateForm table values (.ofKey key id.coerceInteger) settings.operandStyle =
      .ok compiled) :
    ⟨.rows, compiled, t⟩ ∈ insteadTrials c settings table values key s := by
  unfold insteadTrials
  simp only
  rw [failed]
  simp only
  rw [if_pos execution, found]
  simp only
  rw [form, state]
  exact List.mem_singleton.2 rfl

end Records

/-- A task asks for the blocks of its trials; only the value of a sequence is asked for outside
of a block. -/
theorem exchanges_trials {task : Task} (h : task ≠ .lastInsertId) (s : σ) :
    (((connected c settings).undertake task).run s).effect.2.2 =
      exchangesOfTrials c (trials c settings s task) := by
  cases task with
  | insert table values key =>
    rw [undertake, map_effect]
    exact insert_exchanges c settings table values key s
  | insertOrUpdate table values key =>
    rw [undertake, map_effect]
    exact insertOrUpdate_exchanges c settings table values key s
  | misfit columns values => rfl
  | statement purpose word built =>
    rw [undertake_statement_effect]
    exact effectOf_exchanges c purpose _ s
  | lastInsertId => exact absurd rfl h

/-- A task gives the error of a trial that fails, unless the trial belongs to an insert in place
of which an update may be tried. -/
theorem undertake_of_fails {task : Task} {s : σ} {trial : Trial σ}
    (h : trial ∈ trials c settings s task) {e : AccessError}
    (fails : (trial.ended c).1.result = .error e) :
    (((connected c settings).undertake task).run s).result = .error e ∨
      ∃ table values key, task = .insertOrUpdate table values key ∧
        trial ∈ insertTrials c settings table values key s := by
  have hmap : ∀ {γ : Type} (f : γ → Answer) {action : Access σ γ},
      (action.run s).effect.1 = .error e → ((f <$> action).run s).result = .error e := by
    intro γ f action hresult
    have heffect := map_effect f action s
    rw [hresult] at heffect
    exact congrArg (·.1) heffect
  cases task with
  | insert table values key =>
    exact .inl (hmap _ (insert_of_fails c settings table values key s h fails).1)
  | insertOrUpdate table values key =>
    rcases List.mem_append.1 h with hinsert | hinstead
    · exact .inr ⟨table, values, key, rfl, hinsert⟩
    · exact .inl (hmap _ (insertOrUpdate_of_fails c settings table values key s hinstead fails))
  | misfit columns values => cases h
  | statement purpose word built =>
    have heffect := undertake_statement_effect c settings purpose word built s
    simp only [(effectOf_of_fails c h fails).1] at heffect
    exact .inl (congrArg (·.1) heffect)
  | lastInsertId => cases h

end TableAccess.Session
