import TableAccess.Proofs.Session.ReadBack
/-!
# The update after a failed insert

The update that is sent after a failed insert is for the records with the key of the data.
The key has a name of its own in it, but that name is not kept from the columns, whose values
are bound first.  So the update is for other records if a column has that name and another value
than the key.

Main results:

- Theorem `insertable_of_fails`: only records that can be inserted fail at execution.
- Theorem `bound?_key_eq_iff`: when the key of an update is bound to its own value.
- Theorem `insertOrUpdate_keyed`: which records are updated after a failed insert, and how.
-/

namespace TableAccess

namespace Statement

/-- Where the key of an update is offered its value after the columns have theirs, it has its own
value exactly if no column with the reserved name has another one. -/
theorem bound?_key_eq_iff {s : Statement} {values : Row} {value : Value}
    (bound : s.bound? "__key" = some ((values.find? "__key").getD value)) :
    s.bound? "__key" = some value ↔ ∀ v, values.find? "__key" = some v → v = value := by
  rw [bound, Option.some_inj]
  cases values.find? "__key" with
  | none => simp
  | some v => simp

end Statement

namespace Session

open Access Transaction Statement

variable {σ π : Type} (c : Connection σ π) (settings : Settings) {table : String} {values : Row}
  {key : String} {s : σ} {e : AccessError} {id : Value}

/-- Only records that can be inserted fail at execution. -/
theorem insertable_of_fails
    (failed : (((connected c settings).insert table values key).run s).result = .error e)
    (execution : e.isExecution = true) :
    Identifier.checkColumn key = .ok key ∧ Insertable table values := by
  by_contra hrefused
  obtain ⟨e', hother, hrun⟩ := (connected c settings).insert_run_of_refused hrefused s
  rw [hrun] at failed
  obtain rfl := Except.error.inj failed
  rw [execution] at hother
  cases hother

/-- After an insert that failed at execution one statement is run, if the record has a value for
its key column. -/
theorem insertOrUpdate_effect_of_fails
    (failed : (((connected c settings).insert table values key).run s).result = .error e)
    (execution : e.isExecution = true) (found : values.find? key = some id)
    {statement : Statement}
    (built : (Statement.update table values (.ofKey key id.coerceInteger)
      settings.operandStyle).result = .ok statement) :
    (((connected c settings).insertOrUpdate table values key).run s).effect =
      let first := (((connected c settings).insert table values key).run s).effect
      let second := effectOf c .rows (Positional.compile statement) first.2.1
      (second.1, second.2.1, first.2.2 ++ second.2.2) := by
  have hform : updateForm table values (.ofKey key id.coerceInteger) settings.operandStyle =
      Positional.compile statement := by
    rw [updateForm, built]
    rfl
  have hresult : (((connected c settings).insert table values key).run s).effect.1 = .error e :=
    failed
  rw [insertOrUpdate_effect]
  simp only [hresult, execution, found, hform, if_true]

/-- A connection on which the first query fails because its record is there already. -/
def duplicate : Rehearsal :=
  ⟨[], [], [(.query, .execution (some "23505") "duplicate key")], 0⟩

/-- On this connection inserting a record fails at execution. -/
theorem insert_run_duplicate {compiled : Positional}
    (form : insertForm table values key = .ok compiled) :
    (((connected Rehearsal.connection settings).insert table values key).run
      duplicate).result = .error (.execution (some "23505") "duplicate key") := by
  have heffect := congrArg (·.1) (insert_effect Rehearsal.connection settings table values key
    duplicate)
  rw [form] at heffect
  exact heffect

/-- Which records are updated after an insert that failed at execution, and how.  One statement
is run, in either style of operands, and its condition is that the key column has the value that
is bound to the reserved name.  This is the value of the key, with a text that is an integer made
one and any other text left as it is, exactly if no column that has the reserved name has another
value; otherwise it is the value of that column.  Every column has its own value if and only if
none of them is spelled like the name that is made up for another one with another value. -/
theorem insertOrUpdate_keyed
    (failed : (((connected c settings).insert table values key).run s).result = .error e)
    (execution : e.isExecution = true) (found : values.find? key = some id)
    (distinct : values.names.Nodup) :
    ∃ statement, (Statement.update table values (.ofKey key id.coerceInteger)
        settings.operandStyle).result = .ok statement ∧
      (((connected c settings).insertOrUpdate table values key).run s).effect =
        (let first := (((connected c settings).insert table values key).run s).effect
        let second := effectOf c .rows (Positional.compile statement) first.2.1
        (second.1, second.2.1, first.2.2 ++ second.2.2)) ∧
      statement.sql = "UPDATE " ++ table ++ " SET " ++ assignmentsText values ++ " WHERE " ++
        key ++ " = :__key RETURNING *" ∧
      statement.bound? "__key" = some ((values.find? "__key").getD id.coerceInteger) ∧
      (statement.bound? "__key" = some id.coerceInteger ↔
        ∀ v, values.find? "__key" = some v → v = id.coerceInteger) ∧
      ((∀ a ∈ assignedBinds values, statement.bound? a.1 = some a.2) ↔ ¬ Clashes values) := by
  obtain ⟨hkey, hinsertable⟩ := insertable_of_fails c settings failed execution
  obtain ⟨statement, hbuilt, hsql, hbound⟩ :=
    update_ofKey hinsertable hkey id.coerceInteger settings.operandStyle
  have hreserved : statement.bound? "__key" =
      some ((values.find? "__key").getD id.coerceInteger) := by
    rw [hbound, lookup_assignedBinds_key distinct, if_pos rfl]
    cases values.find? "__key" <;> rfl
  exact ⟨statement, hbuilt, insertOrUpdate_effect_of_fails c settings failed execution found hbuilt,
    hsql, hreserved, bound?_key_eq_iff hreserved, forall_bound?_iff distinct hbound⟩

/-- A key that begins with a sign: the update is for the records with this very text. -/
theorem insertOrUpdate_keyed_signed :
    let values : Row := ⟨[("id", .text "!5"), ("n", .int 1)]⟩
    (((connected Rehearsal.connection .standard).insert "t" values "id").run duplicate).result =
        .error (.execution (some "23505") "duplicate key") ∧
      values.find? "id" = some (.text "!5") ∧ values.names.Nodup ∧
      ∃ statement, (Statement.update "t" values (.ofKey "id" (Value.text "!5").coerceInteger)
          .parameterized).result = .ok statement ∧
        statement.sql = "UPDATE t SET id=:id, n=:n WHERE id = :__key RETURNING *" ∧
        statement.bound? "__key" = some (.text "!5") ∧ statement.bound? "id" = some (.text "!5") ∧
        statement.bound? "n" = some (.int 1) := by
  intro values
  have hform : insertForm "t" values "id" =
      .ok ⟨"INSERT INTO t (id, n) VALUES ($1, $2) RETURNING id", [.text "!5", .int 1],
        ["id", "n"]⟩ := by cbv
  have hfailed := insert_run_duplicate .standard hform
  have hdistinct : values.names.Nodup := by decide
  obtain ⟨statement, hbuilt, -, hsql, hkey, -, hown⟩ :=
    insertOrUpdate_keyed Rehearsal.connection .standard hfailed rfl rfl hdistinct
  have hcoerced : (Value.text "!5").coerceInteger = .text "!5" := by cbv
  have hnone : values.find? "__key" = none := by decide
  have htext : assignmentsText values = "id=:id, n=:n" := by cbv
  have hassigned : assignedBinds values = [("id", .text "!5"), ("n", .int 1)] := by cbv
  have hvalues := hown.2 (not_clashes (by decide))
  rw [hassigned] at hvalues
  refine ⟨hfailed, rfl, hdistinct, statement, hbuilt, ?_, ?_, hvalues ("id", .text "!5") (by simp),
    hvalues ("n", .int 1) (by simp)⟩
  · rw [hsql, htext]
    rfl
  · rw [hkey, hnone, hcoerced]
    rfl

/-- A column with the reserved name: the update is for the records whose key is the value of that
column. -/
theorem insertOrUpdate_keyed_shadowed :
    let values : Row := ⟨[("id", .int 5), ("__key", .int 7)]⟩
    (((connected Rehearsal.connection .standard).insert "t" values "id").run duplicate).result =
        .error (.execution (some "23505") "duplicate key") ∧
      values.find? "id" = some (.int 5) ∧ values.names.Nodup ∧
      ∃ statement, (Statement.update "t" values (.ofKey "id" (Value.int 5).coerceInteger)
          .parameterized).result = .ok statement ∧
        statement.sql = "UPDATE t SET id=:id, __key=:__key WHERE id = :__key RETURNING *" ∧
        statement.bound? "__key" = some (.int 7) ∧
        statement.bound? "__key" ≠ some (Value.int 5).coerceInteger ∧
        Positional.compile statement =
          .ok ⟨"UPDATE t SET id=$1, __key=$2 WHERE id = $2 RETURNING *", [.int 5, .int 7],
            ["id", "__key"]⟩ := by
  have htable : Identifier.checkTable "t" = .ok "t" := by cbv
  have hid : Identifier.checkColumn "id" = .ok "id" := by cbv
  have hreserved : Identifier.checkColumn "__key" = .ok "__key" := by cbv
  intro values
  have hform : insertForm "t" values "id" =
      .ok ⟨"INSERT INTO t (id, __key) VALUES ($1, $2) RETURNING id", [.int 5, .int 7],
        ["id", "__key"]⟩ := by cbv
  have hcompiled : Positional.compile
      ⟨"UPDATE t SET id=:id, __key=:__key WHERE id = :__key RETURNING *",
        ⟨[("id", .int 5), ("__key", .int 7)]⟩, 0⟩ =
      .ok ⟨"UPDATE t SET id=$1, __key=$2 WHERE id = $2 RETURNING *", [.int 5, .int 7],
        ["id", "__key"]⟩ := by cbv
  have hfailed := insert_run_duplicate .standard hform
  have hbuilt : (Statement.update "t" values (.ofKey "id" (Value.int 5).coerceInteger)
      .parameterized).result =
      .ok ⟨"UPDATE t SET id=:id, __key=:__key WHERE id = :__key RETURNING *",
        ⟨[("id", .int 5), ("__key", .int 7)]⟩, 0⟩ := by
    simp only [values, Statement.update, pushAssignments, htable, hid, hreserved]
    rfl
  refine ⟨hfailed, rfl, by decide, _, hbuilt, rfl, rfl, fun h => ?_, hcompiled⟩
  exact absurd (Value.int.inj (Option.some.inj h)) (by decide)

end Session

end TableAccess
