import TableAccess.Proofs.Session.Task
/-!
# Lists of records

Inserting a list of records is inserting those that fit the columns, one after the other, and
giving an error for every other one.  What becomes of a record does not depend on whether the
records before it were refused or failed, except through the connection.

Main results:

- Theorem `insertPositional_of_misfit`: a record that does not fit is refused, and nothing else
  happens.
- Theorem `insertList_outcomes`: a list of records beside the inserts of those that fit.
- Theorem `insertList_eq_singleInserts`: inserting a list is inserting its records one by one.
-/

namespace TableAccess.Session

open Access

variable {σ π : Type}

/-! ## Records that fit their columns -/

/-- The error for a record that does not have one value for each column. -/
def misfitError (columns : List String) (values : List Value) : AccessError :=
  .validation ("row has " ++ Text.natText values.length ++ " values for " ++
    Text.natText columns.length ++ " columns")

/-- The results for a list of records, given the results for those that fit the columns.  A record
that fits has the next of these, and any other one has an error. -/
inductive Arranges (columns : List String) :
    (records : List (List Value)) → (singles results : List (Except AccessError (List Row))) →
      Prop where
  | nil : Arranges columns [] [] []
  | fitting {values : List Value} {records : List (List Value)}
      {result : Except AccessError (List Row)}
      {singles results : List (Except AccessError (List Row))}
      (fits : values.length = columns.length) (others : Arranges columns records singles results) :
      Arranges columns (values :: records) (result :: singles) (result :: results)
  | misfit {values : List Value} {records : List (List Value)}
      {singles results : List (Except AccessError (List Row))}
      (misfits : values.length ≠ columns.length)
      (others : Arranges columns records singles results) :
      Arranges columns (values :: records) singles (.error (misfitError columns values) :: results)

/-- Every record has one result. -/
theorem Arranges.length_eq {columns : List String} {records : List (List Value)}
    {singles results : List (Except AccessError (List Row))}
    (h : Arranges columns records singles results) : results.length = records.length := by
  induction h with
  | nil => rfl
  | fitting _ _ ih => exact congrArg (· + 1) ih
  | misfit _ _ ih => exact congrArg (· + 1) ih

section List

variable (session : Session σ π) (table : String) (columns : List String) (key : String)

/-- The inserts of the records that fit the columns, in order. -/
def singleInserts (records : List (List Value)) : List (Access σ (List Row)) :=
  (records.filterMap (Row.zip columns)).map fun record => session.insert table record key

variable {columns}

/-- A record that fits is inserted with its values under the columns. -/
theorem insertPositional_of_fits {values : List Value} (h : values.length = columns.length) :
    ∃ record, Row.zip columns values = some record ∧
      session.insertPositional table columns key values = session.insert table record key := by
  have hzip : Row.zip columns values = some (Row.ofList (columns.zip values)) := if_pos h
  exact ⟨_, hzip, by rw [insertPositional, hzip]⟩

/-- A record that does not fit is refused, and nothing else happens. -/
theorem insertPositional_of_misfit {values : List Value} (h : values.length ≠ columns.length) :
    Row.zip columns values = none ∧
      session.insertPositional table columns key values = fail (misfitError columns values) := by
  have hzip : Row.zip columns values = none := if_neg h
  exact ⟨hzip, by rw [insertPositional, hzip, misfitError]⟩

/-! ## One record after the other -/

/-- A list of records beside the inserts of those that fit: the connection is left in the same
state with the same journal, and the results are those of the inserts and the errors. -/
theorem insertList_outcomes (records : List (List Value)) (s : σ) :
    let inserts := session.singleInserts table columns key records
    let actions := records.map (session.insertPositional table columns key)
    stateAfter actions s = stateAfter inserts s ∧
      journalOf (outcomes actions s) = journalOf (outcomes inserts s) ∧
      Arranges columns records ((outcomes inserts s).map (·.result))
        ((outcomes actions s).map (·.result)) := by
  induction records generalizing s with
  | nil => exact ⟨rfl, rfl, .nil⟩
  | cons values records ih =>
    by_cases hfits : values.length = columns.length
    · obtain ⟨record, hzip, hinsert⟩ := session.insertPositional_of_fits table key hfits
      have hinserts : session.singleInserts table columns key (values :: records) =
          session.insert table record key :: session.singleInserts table columns key records := by
        rw [singleInserts, List.filterMap_cons_some hzip]
        rfl
      obtain ⟨hstate, hjournal, hresults⟩ := ih ((session.insert table record key).run s).state
      rw [hinserts, List.map_cons, hinsert]
      exact ⟨hstate, congrArg (((session.insert table record key).run s).journal ++ ·) hjournal,
        .fitting hfits hresults⟩
    · obtain ⟨hzip, hfail⟩ := session.insertPositional_of_misfit table key hfits
      have hinserts : session.singleInserts table columns key (values :: records) =
          session.singleInserts table columns key records := by
        rw [singleInserts, List.filterMap_cons_none hzip]
        rfl
      -- a refused record leaves the state and the journal as they are
      obtain ⟨hstate, hjournal, hresults⟩ := ih s
      rw [hinserts, List.map_cons, hfail]
      exact ⟨hstate, hjournal, .misfit hfits hresults⟩

variable (columns)

/-- Inserting a list is inserting its records one by one.  There is one result for each record,
in order; a record that does not fit the columns has an error, and nothing is done for it; the
records that fit have the results of their own inserts, which are all that the connection sees.
And inserting two lists one after the other is inserting both as one. -/
theorem insertList_eq_singleInserts (records : List (List Value)) (s : σ) :
    let inserts := session.singleInserts table columns key records
    let outcome := (session.insertList table columns records key).run s
    (∃ results, outcome.result = .ok results ∧ results.length = records.length ∧
      Arranges columns records ((outcomes inserts s).map (·.result)) results) ∧
    outcome.state = stateAfter inserts s ∧
    outcome.journal = journalOf (outcomes inserts s) ∧
    (∀ values ∈ records, values.length ≠ columns.length → ∀ t : σ,
      (session.insertPositional table columns key values).run t =
        ⟨.error (misfitError columns values), t, []⟩) ∧
    ∀ a b, records = a ++ b →
      let first := (session.insertList table columns a key).run s
      let second := (session.insertList table columns b key).run first.state
      ∃ x y, first.result = .ok x ∧ second.result = .ok y ∧
        outcome = ⟨.ok (x ++ y), second.state, first.journal ++ second.journal⟩ := by
  intro inserts outcome
  obtain ⟨hstate, hjournal, hresults⟩ := session.insertList_outcomes table key records s
  have hrun (list : List (List Value)) (t : σ) := attemptAll_run
    (list.map (session.insertPositional table columns key)) t
  have houtcome : outcome = _ := hrun records s
  refine ⟨⟨_, congrArg Outcome.result houtcome, hresults.length_eq, hresults⟩,
    (congrArg Outcome.state houtcome).trans hstate,
    (congrArg Outcome.journal houtcome).trans hjournal, fun values _ hmisfit t => ?_,
    fun a b hab => ?_⟩
  · rw [(session.insertPositional_of_misfit table key hmisfit).2, fail_run]
  · subst hab
    refine ⟨_, _, congrArg Outcome.result (hrun a s), congrArg Outcome.result (hrun b _), ?_⟩
    rw [houtcome, insertList, insertList, hrun, hrun, List.map_append, outcomes_append,
      stateAfter_append, List.map_append, journalOf, List.flatMap_append]
    rfl

end List

end TableAccess.Session
