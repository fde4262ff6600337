/-!
# Errors of data access

Every operation fails with one of eight causes.  Errors of preparing and executing a
statement carry the five-character state code of the server if it sent one.  When
undoing a transaction fails as well, a note is appended to the error that caused the
undoing, and its cause is kept.

Main results:

- Theorem `cause_withRollbackFailure`: a failed rollback keeps the cause.
- Theorem `sqlState_withRollbackFailure`: it keeps the state code.
- Theorem `message_withRollbackFailure`: it appends its note to the message.
-/

namespace TableAccess

/-- The causes of failure. -/
inductive Cause where
  | emptyInput
  | connectionUnavailable
  | prepare
  | execution
  | transaction
  | bind
  | validation
  | decode
deriving DecidableEq, Repr

/-- An error of data access. -/
inductive AccessError where
  /-- A write was given no column values. -/
  | emptyInput (text : String)
  /-- There is no connection, or it was lost. -/
  | connectionUnavailable (text : String)
  /-- The server refused to prepare a statement. -/
  | prepare (sqlState : Option String) (text : String)
  /-- A statement failed when it was run. -/
  | execution (sqlState : Option String) (text : String)
  /-- A transaction could not be opened, committed or rolled back. -/
  | transaction (text : String)
  /-- A placeholder has no value, or a value cannot be sent as the type of its parameter; the
  latter is found when the statement is run, and is reported as `execution`. -/
  | bind (text : String)
  /-- A name, a direction or other input is not valid. -/
  | validation (text : String)
  /-- A result column could not be read. -/
  | decode (column : String) (text : String)
deriving DecidableEq, Repr

namespace AccessError

/-! ## Views -/

/-- The cause of an error. -/
def cause : AccessError → Cause
  | emptyInput _ => .emptyInput
  | connectionUnavailable _ => .connectionUnavailable
  | prepare _ _ => .prepare
  | execution _ _ => .execution
  | transaction _ => .transaction
  | bind _ => .bind
  | validation _ => .validation
  | decode _ _ => .decode

/-- The text of an error without the words for its cause. -/
def text : AccessError → String
  | emptyInput t => t
  | connectionUnavailable t => t
  | prepare _ t => t
  | execution _ t => t
  | transaction t => t
  | bind t => t
  | validation t => t
  | decode _ t => t

/-- The words for the cause of an error, which come before its text. -/
def heading : AccessError → String
  | emptyInput _ => "Empty input: "
  | connectionUnavailable _ => "Connection unavailable: "
  | prepare _ _ => "Prepare failed: "
  | execution _ _ => "Execution failed: "
  | transaction _ => "Transaction error: "
  | bind _ => "Bind error: "
  | validation _ => "Validation error: "
  | decode column _ => "Decode error on column '" ++ column ++ "': "

/-- The message of an error. -/
def message (e : AccessError) : String :=
  e.heading ++ e.text

/-- The state code that the server sent. -/
def sqlState? : AccessError → Option String
  | prepare s _ => s
  | execution s _ => s
  | _ => none

/-- Whether a statement failed when it was run. -/
def isExecution (e : AccessError) : Bool :=
  e.cause = .execution

/-- Whether the connection is missing or lost. -/
def isConnectionUnavailable (e : AccessError) : Bool :=
  e.cause = .connectionUnavailable

/-- Whether a unique constraint was violated. -/
def isUniqueViolation (e : AccessError) : Bool :=
  e.sqlState? = some "23505"

/-- Whether a foreign key constraint was violated. -/
def isForeignKeyViolation (e : AccessError) : Bool :=
  e.sqlState? = some "23503"

/-! ## Failed rollbacks -/

/-- The note about a rollback that failed. -/
def rollbackNote (rollback : AccessError) : String :=
  " (rollback failed: " ++ rollback.message ++ ")"

/-- An error with the note about a rollback that failed. -/
def withRollbackFailure (e rollback : AccessError) : AccessError :=
  let note := rollbackNote rollback
  match e with
  | emptyInput t => emptyInput (t ++ note)
  | connectionUnavailable t => connectionUnavailable (t ++ note)
  | prepare s t => prepare s (t ++ note)
  | execution s t => execution s (t ++ note)
  | transaction t => transaction (t ++ note)
  | bind t => bind (t ++ note)
  | validation t => validation (t ++ note)
  | decode c t => decode c (t ++ note)

/-- A failed rollback keeps the cause. -/
@[simp]
theorem cause_withRollbackFailure (e rollback : AccessError) :
    (e.withRollbackFailure rollback).cause = e.cause := by
  cases e <;> rfl

/-- A failed rollback keeps the state code. -/
@[simp]
theorem sqlState_withRollbackFailure (e rollback : AccessError) :
    (e.withRollbackFailure rollback).sqlState? = e.sqlState? := by
  cases e <;> rfl

/-- A failed rollback keeps the heading. -/
@[simp]
theorem heading_withRollbackFailure (e rollback : AccessError) :
    (e.withRollbackFailure rollback).heading = e.heading := by
  cases e <;> rfl

/-- A failed rollback appends its note to the text. -/
@[simp]
theorem text_withRollbackFailure (e rollback : AccessError) :
    (e.withRollbackFailure rollback).text = e.text ++ rollbackNote rollback := by
  cases e <;> rfl

/-- A failed rollback appends its note to the message. -/
theorem message_withRollbackFailure (e rollback : AccessError) :
    (e.withRollbackFailure rollback).message = e.message ++ rollbackNote rollback := by
  rw [message, message, heading_withRollbackFailure, text_withRollbackFailure,
    String.append_assoc]

end AccessError

end TableAccess
