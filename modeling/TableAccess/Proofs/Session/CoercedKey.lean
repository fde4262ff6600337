import TableAccess.Proofs.Session.KeyedUpdate
import TableAccess.Proofs.Wire.Coerced
import TableAccess.Server.Link
/-!
# Keys that are coerced

In the update that is sent after a failed insert the key stands twice: among the assignments as
it was given, and in the condition with a text that is an integer made one.  Both are parameters
of the type of the key column, and what the server is sent for them may differ.

Main results:

- Theorem `exists_assigned_key`: the key among the assignments has its own value.
- Theorem `coerced_key_sent_alike`: when a text key is sent alike in both places.
-/

namespace TableAccess

namespace Statement

/-- The key of an update is bound to its own value where it is assigned, if no columns clash. -/
theorem exists_assigned_key {s : Statement} {values : Row} {key : String} {id : Value}
    (found : values.find? key = some id)
    (own : ∀ a ∈ assignedBinds values, s.bound? a.1 = some a.2) :
    ∃ position, values.entries[position]? = some (key, id) ∧
      s.bound? (placeholderFor key position) = some id := by
  have hmem : (key, id) ∈ values.entries := Row.mem_of_findEntry found
  obtain ⟨position, hposition⟩ := List.mem_iff_getElem?.1 hmem
  have hindexed : ((key, id), position) ∈ values.entries.zipIdx :=
    List.mem_zipIdx_iff_getElem?.2 hposition
  exact ⟨position, hposition, own _ (mem_assignedBinds hindexed)⟩

end Statement

namespace Session

open Access Transaction Statement Wire

/-- When a text key is the same key for the server in both places.  A text that is sent as a
parameter of some type is sent alike after it was coerced if and only if it is no integer of 64
bits, or the type makes no difference between the text and the integer.  And in the update after
an insert that failed at execution the assignment of the key column is bound to the text and the
condition to what it is coerced into, provided that no column clashes with another one or has the
reserved name with another value. -/
theorem coerced_key_sent_alike {type : SqlType} {text : String} {octets : Option Text.Octets}
    (sent : send type (.text text) = .ok octets) :
    (send type (Value.text text).coerceInteger = .ok octets ↔ AlikeAsInteger type text) ∧
    ∀ {σ π : Type} (c : Connection σ π) (settings : Settings) (table : String) (values : Row)
      (key : String) (s : σ) (e : AccessError),
      (((connected c settings).insert table values key).run s).result = .error e →
      e.isExecution = true → values.find? key = some (.text text) → values.names.Nodup →
      ¬ Clashes values →
      (∀ v, values.find? "__key" = some v → v = (Value.text text).coerceInteger) →
      ∃ statement position,
        (((connected c settings).insertOrUpdate table values key).run s).effect =
          (let first := (((connected c settings).insert table values key).run s).effect
          let second := effectOf c .rows (Positional.compile statement) first.2.1
          (second.1, second.2.1, first.2.2 ++ second.2.2)) ∧
        statement.sql = "UPDATE " ++ table ++ " SET " ++ assignmentsText values ++ " WHERE " ++
          key ++ " = :__key RETURNING *" ∧
        values.entries[position]? = some (key, .text text) ∧
        statement.bound? (placeholderFor key position) = some (.text text) ∧
        statement.bound? "__key" = some (Value.text text).coerceInteger := by
  refine ⟨send_coerceInteger_iff sent, ?_⟩
  intro σ π c settings table values key s e failed execution found distinct own reserved
  obtain ⟨hkey, hinsertable⟩ := insertable_of_fails c settings failed execution
  obtain ⟨statement, hbuilt, hsql, hbound⟩ :=
    update_ofKey hinsertable hkey (Value.text text).coerceInteger settings.operandStyle
  have hassigned := (forall_bound?_iff distinct hbound).2 own
  have hreserved : statement.bound? "__key" =
      some ((values.find? "__key").getD (Value.text text).coerceInteger) := by
    rw [hbound, lookup_assignedBinds_key distinct, if_pos rfl]
    cases values.find? "__key" <;> rfl
  obtain ⟨position, hposition, hown⟩ := exists_assigned_key found hassigned
  exact ⟨statement, position,
    insertOrUpdate_effect_of_fails c settings failed execution found hbuilt, hsql, hposition, hown,
    (bound?_key_eq_iff hreserved).2 reserved⟩

/-- A key with blanks around it, in a column of integers: the text and the integer that stands for
it in the condition are sent alike. -/
theorem coerced_key_sent_alike_padded :
    let values : Row := ⟨[("id", .text " 7 ")]⟩
    (((connected Rehearsal.connection .standard).insert "t" values "id").run duplicate).result =
        .error (.execution (some "23505") "duplicate key") ∧
      values.find? "id" = some (.text " 7 ") ∧ values.names.Nodup ∧ ¬ Clashes values ∧
      (∃ (statement : Statement) (position : Nat),
        statement.sql = "UPDATE t SET id=:id WHERE id = :__key RETURNING *" ∧
        statement.bound? (placeholderFor "id" position) = some (.text " 7 ") ∧
        statement.bound? "__key" = some (Value.text " 7 ").coerceInteger) ∧
      send .int4 (.text " 7 ") = .ok (some [0, 0, 0, 7]) ∧
      send .int4 (Value.text " 7 ").coerceInteger = .ok (some [0, 0, 0, 7]) := by
  intro values
  have hform : insertForm "t" values "id" =
      .ok ⟨"INSERT INTO t (id) VALUES ($1) RETURNING id", [.text " 7 "], ["id"]⟩ := by cbv
  have hfailed := insert_run_duplicate .standard hform
  have hclash : ¬ Clashes values := not_clashes (by decide)
  have hnone : values.find? "__key" = none := by decide
  have htext : assignmentsText values = "id=:id" := by cbv
  have hsent : send .int4 (.text " 7 ") = .ok (some [0, 0, 0, 7]) := rfl
  have halike : AlikeAsInteger .int4 " 7 " := fun _ _ => trivial
  obtain ⟨statement, position, -, hsql, -, hassigned, hcompared⟩ :=
    (coerced_key_sent_alike hsent).2 Rehearsal.connection .standard "t" values "id" duplicate _
      hfailed rfl rfl (by decide) hclash fun v hv => by
        rw [hnone] at hv
        cases hv
  refine ⟨hfailed, rfl, by decide, hclash, ⟨statement, position, ?_, hassigned, hcompared⟩, hsent,
    (coerced_key_sent_alike hsent).1.2 halike⟩
  rw [hsql, htext]
  rfl

/-- A key with zeros in front, in a text column: the update looks for the records whose key is
another text, and gives them the key. -/
theorem coerced_key_sent_alike_zeros :
    let values : Row := ⟨[("id", .text "007")]⟩
    (((connected Rehearsal.connection .standard).insert "t" values "id").run duplicate).result =
        .error (.execution (some "23505") "duplicate key") ∧
      updateForm "t" values (.ofKey "id" (Value.text "007").coerceInteger) .parameterized =
        .ok ⟨"UPDATE t SET id=$1 WHERE id = $2 RETURNING *", [.text "007", .int 7],
          ["id", "__key"]⟩ ∧
      Server.Link.serialize 0 [.text, .text] [.text "007", .int 7] =
        .ok [some [48, 48, 55], some [55]] ∧
      ¬ ∀ (type : SqlType) (text : String) (octets : Option Text.Octets),
        send type (.text text) = .ok octets →
          send type (Value.text text).coerceInteger = .ok octets := by
  intro values
  have hform : insertForm "t" values "id" =
      .ok ⟨"INSERT INTO t (id) VALUES ($1) RETURNING id", [.text "007"], ["id"]⟩ := by cbv
  have hcoerced : (Value.text "007").coerceInteger = .int 7 := by cbv
  have htext : send .text (.text "007") = .ok (some [48, 48, 55]) := by cbv
  have hinteger : send .text (.int 7) = .ok (some [55]) := by cbv
  have htable : Identifier.checkTable "t" = .ok "t" := by cbv
  have hid : Identifier.checkColumn "id" = .ok "id" := by cbv
  have hbuilt : (Statement.update "t" values (.ofKey "id" (.int 7)) .parameterized).result =
      .ok ⟨"UPDATE t SET id=:id WHERE id = :__key RETURNING *",
        ⟨[("id", .text "007"), ("__key", .int 7)]⟩, 0⟩ := by
    simp only [values, Statement.update, pushAssignments, htable, hid]
    rfl
  have hcompiled : Positional.compile ⟨"UPDATE t SET id=:id WHERE id = :__key RETURNING *",
        ⟨[("id", .text "007"), ("__key", .int 7)]⟩, 0⟩ =
      .ok ⟨"UPDATE t SET id=$1 WHERE id = $2 RETURNING *", [.text "007", .int 7],
        ["id", "__key"]⟩ := by cbv
  refine ⟨insert_run_duplicate .standard hform, ?_, ?_, fun hevery => ?_⟩
  · rw [hcoerced, updateForm, hbuilt]
    exact hcompiled
  · simp only [Server.Link.serialize, htext, hinteger]
    rfl
  · have hsame := hevery .text "007" _ htext
    rw [hcoerced, hinteger] at hsame
    cases hsame

end Session

end TableAccess
