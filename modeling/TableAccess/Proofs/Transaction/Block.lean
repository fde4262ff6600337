import TableAccess.Journal
/-!
# Blocks of calls

What a connection is asked for falls into blocks.  A block is one transaction, from the call
that opens it to the call that ends it; a transaction that cannot be opened is a block of
one call.  Between blocks nothing is asked for but the value that a sequence gave last.

Main results:

- Theorem `gives_result`: what a block gives, in every way that it may go.
- Theorem `exists_block`: after a call that opens a transaction comes the rest of a block.
- Theorem `complete_of_parts`: in a log that falls into blocks every transaction that is
  opened ends exactly once.
-/

namespace TableAccess

/-! ## Exchanges -/

/-- A call with what it gave. -/
abbrev Exchange := Call × Except AccessError Reply

/-- The call of an entry with what it gave. -/
def Entry.exchange? : Entry → Option Exchange
  | call c reply => some (c, reply)
  | notice _ => none

/-- The calls of a journal with what they gave, in order. -/
def Journal.exchanges (journal : Journal) : List Exchange :=
  journal.filterMap Entry.exchange?

namespace Call

/-- Whether a call opens a transaction. -/
def isBegin : Call → Bool
  | begin => true
  | _ => false

/-- Whether a call ends a transaction. -/
def isEnd : Call → Bool
  | commit | rollback => true
  | _ => false

/-- Whether a call undoes a transaction. -/
def isRollback : Call → Bool
  | rollback => true
  | _ => false

/-- Whether a call prepares a statement. -/
def isPrepare : Call → Bool
  | prepare _ => true
  | _ => false

end Call

/-- Whether preparing or running a statement failed. -/
def isFailedStep (x : Exchange) : Bool :=
  (x.1.isPrepare || x.1.isRun) && !x.2.isOk

/-! ## Blocks -/

/-- What a statement is run for. -/
inductive Purpose where
  | rows
  | count

namespace Purpose

/-- What running a statement yields. -/
abbrev Yield : Purpose → Type
  | rows => List Row
  | count => Nat

/-- The call that runs a statement. -/
def call : Purpose → String → List Value → Call
  | rows => .query
  | count => .execute

/-- What the call gives if it does not fail. -/
def reply : (purpose : Purpose) → purpose.Yield → Reply
  | rows => .rows
  | count => .affected

end Purpose

/-- A transaction that runs one statement, with what every call gave. -/
inductive Block (purpose : Purpose) where
  /-- The transaction could not be opened. -/
  | unopened (e : AccessError)
  /-- The statement could not be prepared, and the transaction was rolled back. -/
  | unprepared (sql : String) (e : AccessError) (rollback : Except AccessError Unit)
  /-- The prepared statement failed, and the transaction was rolled back. -/
  | undone (sql : String) (parameters : List Value) (e : AccessError)
      (rollback : Except AccessError Unit)
  /-- The statement was run, and the transaction was to be committed. -/
  | completed (sql : String) (parameters : List Value) (yield : purpose.Yield)
      (commit : Except AccessError Unit)

namespace Block

variable {purpose : Purpose}

/-- What a call without a result gave. -/
def acknowledged (reply : Except AccessError Unit) : Except AccessError Reply :=
  reply.map fun _ => .done

/-- The calls of a block after the one that opens it. -/
def later : Block purpose → List Exchange
  | unopened _ => []
  | unprepared sql e rollback =>
    [(.prepare sql, .error e), (.rollback, acknowledged rollback)]
  | undone sql parameters e rollback =>
    [(.prepare sql, .ok .done), (purpose.call sql parameters, .error e),
      (.rollback, acknowledged rollback)]
  | completed sql parameters yield commit =>
    [(.prepare sql, .ok .done), (purpose.call sql parameters, .ok (purpose.reply yield)),
      (.commit, acknowledged commit)]

/-- What the call that opens a block gave. -/
def opening : Block purpose → Except AccessError Reply
  | unopened e => .error e
  | _ => .ok .done

/-- The calls of a block. -/
def exchanges (block : Block purpose) : List Exchange :=
  (.begin, block.opening) :: block.later

/-- The error of a step, with a note if the rollback because of it failed. -/
def noted (e : AccessError) : Except AccessError Unit → AccessError
  | .ok () => e
  | .error rollback => e.withRollbackFailure rollback

/-- A note about a failed rollback keeps the cause. -/
@[simp]
theorem cause_noted (e : AccessError) (rollback : Except AccessError Unit) :
    (noted e rollback).cause = e.cause := by
  cases rollback with
  | ok u => rfl
  | error failure => exact AccessError.cause_withRollbackFailure e failure

/-- Whether an error tells that a step failed with the error `e` and how the rollback because of it
ended.  It is `e` itself if the rollback succeeded.  If not, its cause, its state code and the
words for its cause are those of `e`, and what the rollback failed with is appended to its text. -/
inductive Tells (e : AccessError) : Except AccessError Unit → AccessError → Prop where
  | rolledBack : Tells e (.ok ()) e
  | notRolledBack {rollback reported : AccessError}
      (cause : reported.cause = e.cause) (sqlState : reported.sqlState? = e.sqlState?)
      (heading : reported.heading = e.heading)
      (text : reported.text = e.text ++ (" (rollback failed: " ++ rollback.message ++ ")")) :
      Tells e (.error rollback) reported

/-- The error of a block tells of the step that failed and of the rollback. -/
theorem tells_noted (e : AccessError) (rollback : Except AccessError Unit) :
    Tells e rollback (noted e rollback) := by
  cases rollback with
  | ok u => exact .rolledBack
  | error failure =>
    exact .notRolledBack (AccessError.cause_withRollbackFailure e failure)
      (AccessError.sqlState_withRollbackFailure e failure)
      (AccessError.heading_withRollbackFailure e failure)
      (AccessError.text_withRollbackFailure e failure)

/-- What a block gives: what its statement yields if it is committed, and the error of the
step that failed otherwise. -/
def result : Block purpose → Except AccessError purpose.Yield
  | unopened e => .error e
  | unprepared _ e rollback => .error (noted e rollback)
  | undone _ _ e rollback => .error (noted e rollback)
  | completed _ _ yield commit => commit.map fun _ => yield

/-- Whether this is what a block gives: what its statement yields if it is committed, and
otherwise an error that tells of the step that failed. -/
inductive Gives : Block purpose → Except AccessError purpose.Yield → Prop where
  | unopened (e : AccessError) : Gives (.unopened e) (.error e)
  | unprepared (sql : String) {e reported : AccessError} {rollback : Except AccessError Unit}
      (tells : Tells e rollback reported) :
      Gives (.unprepared sql e rollback) (.error reported)
  | undone (sql : String) (parameters : List Value) {e reported : AccessError}
      {rollback : Except AccessError Unit} (tells : Tells e rollback reported) :
      Gives (.undone sql parameters e rollback) (.error reported)
  | committed (sql : String) (parameters : List Value) (yield : purpose.Yield) :
      Gives (.completed sql parameters yield (.ok ())) (.ok yield)
  | uncommitted (sql : String) (parameters : List Value) (yield : purpose.Yield)
      (e : AccessError) : Gives (.completed sql parameters yield (.error e)) (.error e)

/-- The result of a block is what it gives. -/
theorem gives_result (block : Block purpose) : block.Gives block.result := by
  cases block with
  | unopened e => exact .unopened e
  | unprepared sql e rollback => exact .unprepared sql (tells_noted e rollback)
  | undone sql parameters e rollback =>
    exact .undone sql parameters (tells_noted e rollback)
  | completed sql parameters yield commit =>
    cases commit with
    | ok u => exact .committed sql parameters yield
    | error e => exact .uncommitted sql parameters yield e

/-- Whether a block ended with a successful commit. -/
def Committed : Block purpose → Prop
  | completed _ _ _ commit => commit = .ok ()
  | _ => False

/-- Whether a block prepares and runs nothing but this statement. -/
def Runs (sql : String) (parameters : List Value) : Block purpose → Prop
  | unopened _ => True
  | unprepared text _ _ => text = sql
  | undone text values _ _ => text = sql ∧ values = parameters
  | completed text values _ _ => text = sql ∧ values = parameters

/-- A block gives a result exactly if it was committed. -/
theorem result_isOk_iff (block : Block purpose) :
    (∃ yield, block.result = .ok yield) ↔ block.Committed := by
  cases block with
  | unopened e => simp [result, Committed]
  | unprepared sql e rollback => simp [result, Committed]
  | undone sql parameters e rollback => simp [result, Committed]
  | completed sql parameters yield commit =>
    cases commit with
    | ok u => simp [result, Committed, Except.map]
    | error e => simp [result, Committed, Except.map]

/-- A block that is opened sends its statement to be prepared, and nothing else. -/
theorem prepares_iff {block : Block purpose} {sql : String} {parameters : List Value}
    (h : block.Runs sql parameters) (text : String) :
    (∃ reply, (Call.prepare text, reply) ∈ block.exchanges) ↔
      block.opening = .ok .done ∧ text = sql := by
  have hrun : ∀ values, Call.prepare text ≠ purpose.call sql values := by
    intro values
    cases purpose <;> simp [Purpose.call]
  cases block with
  | unopened e => simp [exchanges, later, opening]
  | unprepared other e rollback =>
    obtain rfl := h
    simp [exchanges, later, opening]
  | undone other values e rollback =>
    obtain ⟨rfl, rfl⟩ := h
    simp [exchanges, later, opening, hrun]
  | completed other values yield commit =>
    obtain ⟨rfl, rfl⟩ := h
    simp [exchanges, later, opening, hrun]

/-- Only the first call of a block opens a transaction. -/
theorem not_isBegin_of_mem_later {block : Block purpose} {x : Exchange} (h : x ∈ block.later) :
    x.1.isBegin = false := by
  cases block with
  | unopened e => cases h
  | unprepared sql e rollback =>
    simp only [later, List.mem_cons, List.not_mem_nil, or_false] at h
    rcases h with rfl | rfl <;> rfl
  | undone sql parameters e rollback =>
    simp only [later, List.mem_cons, List.not_mem_nil, or_false] at h
    rcases h with rfl | rfl | rfl <;> first | rfl | (cases purpose <;> rfl)
  | completed sql parameters yield commit =>
    simp only [later, List.mem_cons, List.not_mem_nil, or_false] at h
    rcases h with rfl | rfl | rfl <;> first | rfl | (cases purpose <;> rfl)

end Block

/-- A part of what a connection is asked for. -/
inductive Part where
  /-- One transaction. -/
  | block {purpose : Purpose} (block : Block purpose)
  /-- The value that a sequence gave last. -/
  | lastInsertId (reply : Except AccessError Reply)

/-- The calls of a part. -/
def Part.exchanges : Part → List Exchange
  | block b => b.exchanges
  | lastInsertId reply => [(.lastInsertId, reply)]

/-- The calls of parts, in order. -/
def exchangesOf (parts : List Part) : List Exchange :=
  parts.flatMap Part.exchanges

/-! ## Complete transactions -/

/-- The calls before the next one that opens a transaction. -/
def untilBegin (log : List Exchange) : List Exchange :=
  log.takeWhile fun x => !x.1.isBegin

/-- Whether in a log every transaction that is opened ends exactly once before the next call
that opens one, prepares one statement, and is rolled back exactly if preparing or running
it failed; and whether a transaction that is not opened is left alone. -/
structure Complete (log : List Exchange) : Prop where
  ends : ∀ a reply b, log = a ++ (.begin, .ok reply) :: b →
    ((untilBegin b).countP fun x => x.1.isEnd) = 1
  prepares : ∀ a reply b, log = a ++ (.begin, .ok reply) :: b →
    ((untilBegin b).countP fun x => x.1.isPrepare) = 1
  rolledBack : ∀ a reply b, log = a ++ (.begin, .ok reply) :: b →
    ((untilBegin b).countP fun x => x.1.isRollback) = (untilBegin b).countP isFailedStep
  refused : ∀ a e b, log = a ++ (.begin, .error e) :: b →
    ∀ x ∈ untilBegin b, x.1 = .lastInsertId

/-- Before the first block there are only calls between blocks. -/
theorem eq_lastInsertId_of_mem_untilBegin {parts : List Part} {x : Exchange}
    (h : x ∈ untilBegin (exchangesOf parts)) : x.1 = .lastInsertId := by
  induction parts with
  | nil => cases h
  | cons part r ih =>
    cases part with
    | block b => cases h
    | lastInsertId reply =>
      rcases List.mem_cons.1 h with rfl | h
      · rfl
      · exact ih h

/-- After a call that opens a transaction comes the rest of a block, and then only calls
between blocks until the next transaction. -/
theorem exists_block {parts : List Part} {a b : List Exchange} {reply : Except AccessError Reply}
    (h : exchangesOf parts = a ++ (.begin, reply) :: b) :
    ∃ (purpose : Purpose) (block : Block purpose) (between : List Exchange),
      block.opening = reply ∧ untilBegin b = block.later ++ between ∧
        ∀ x ∈ between, x.1 = .lastInsertId := by
  induction parts generalizing a with
  | nil => simp [exchangesOf] at h
  | cons part r ih =>
    have hparts : exchangesOf (part :: r) = part.exchanges ++ exchangesOf r := rfl
    rw [hparts] at h
    cases part with
    | lastInsertId other =>
      cases a with
      | nil => cases h
      | cons y a => exact ih (List.cons.inj h).2
    | @block purpose block =>
      cases a with
      | nil =>
        obtain ⟨hfirst, hb⟩ := List.cons.inj h
        have hlater : ∀ x ∈ block.later, (!x.1.isBegin) = true := fun x hx => by
          rw [Block.not_isBegin_of_mem_later hx]
          rfl
        refine ⟨purpose, block, untilBegin (exchangesOf r), (Prod.ext_iff.1 hfirst).2, ?_,
          fun x hx => eq_lastInsertId_of_mem_untilBegin hx⟩
        rw [← hb]
        exact List.takeWhile_append_of_pos hlater
      | cons y a =>
        have htail : block.later ++ exchangesOf r = a ++ (.begin, reply) :: b :=
          (List.cons.inj h).2
        rcases List.append_eq_append_iff.1 htail with ⟨c, -, hr⟩ | ⟨c, hlater, hr⟩
        · exact ih hr
        · cases c with
          | nil => exact ih (a := []) hr.symm
          | cons z c =>
            obtain ⟨rfl, -⟩ := List.cons.inj hr
            have hmem : (Call.begin, reply) ∈ block.later := by simp [hlater]
            cases Block.not_isBegin_of_mem_later hmem

/-- What is decided by the calls alone does not depend on the calls between blocks. -/
theorem countP_append_between {between : List Exchange}
    (h : ∀ x ∈ between, x.1 = .lastInsertId) {p : Exchange → Bool}
    (hp : ∀ reply, p (.lastInsertId, reply) = false) (log : List Exchange) :
    (log ++ between).countP p = log.countP p := by
  have hnone : between.countP p = 0 := by
    rw [List.countP_eq_zero]
    rintro ⟨call, reply⟩ hx
    obtain rfl := h _ hx
    simp [hp reply]
  rw [List.countP_append, hnone, Nat.add_zero]

/-- In a block that is opened one statement is prepared and the transaction ends once, and
it is rolled back exactly if a step failed. -/
theorem Block.countP_later {purpose : Purpose} {block : Block purpose} {reply : Reply}
    (h : block.opening = .ok reply) :
    (block.later.countP fun x => x.1.isEnd) = 1 ∧
      (block.later.countP fun x => x.1.isPrepare) = 1 ∧
      (block.later.countP fun x => x.1.isRollback) = block.later.countP isFailedStep := by
  cases block with
  | unopened e => cases h
  | unprepared sql e rollback => exact ⟨rfl, rfl, rfl⟩
  | undone sql parameters e rollback => cases purpose <;> exact ⟨rfl, rfl, rfl⟩
  | completed sql parameters yield commit => cases purpose <;> exact ⟨rfl, rfl, rfl⟩

/-- In a log that falls into blocks every transaction that is opened ends exactly once. -/
theorem complete_of_parts (parts : List Part) : Complete (exchangesOf parts) where
  ends a reply b h := by
    obtain ⟨purpose, block, between, hopening, hb, hbetween⟩ := exists_block h
    rw [hb, countP_append_between hbetween fun _ => rfl]
    exact (Block.countP_later hopening).1
  prepares a reply b h := by
    obtain ⟨purpose, block, between, hopening, hb, hbetween⟩ := exists_block h
    rw [hb, countP_append_between hbetween fun _ => rfl]
    exact (Block.countP_later hopening).2.1
  rolledBack a reply b h := by
    obtain ⟨purpose, block, between, hopening, hb, hbetween⟩ := exists_block h
    rw [hb, countP_append_between hbetween fun _ => rfl,
      countP_append_between hbetween fun _ => rfl]
    exact (Block.countP_later hopening).2.2
  refused a e b h := by
    obtain ⟨purpose, block, between, hopening, hb, hbetween⟩ := exists_block h
    cases block with
    | unopened e =>
      rw [hb]
      exact hbetween
    | _ => cases hopening

end TableAccess
