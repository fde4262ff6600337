import TableAccess.Error
import TableAccess.Text.Digits
/-!
# Faults

Why a request to the server has no usable answer: the server refused it, the connection was
lost, or the request or the answer was not well formed.  What kind of error a fault becomes
depends on the stage at which it occurs, except that a lost connection is the same error at
every stage.

Main results:

- Theorem `toError_closed`: a lost connection is reported as such at every stage.
- Theorem `cause_toError`: every other fault becomes the error of its stage.
-/

namespace TableAccess.Server

/-- An error that the server reports. -/
structure Refusal where
  /-- The state code, of five characters. -/
  code : String
  message : String
  detail : Option String
deriving DecidableEq, Repr

/-- The message of a refusal, with its detail if there is one. -/
def Refusal.text (refusal : Refusal) : String :=
  match refusal.detail with
  | none => refusal.message
  | some detail => refusal.message ++ ": " ++ detail

/-- Why a request has no usable answer. -/
inductive Fault where
  /-- The connection was lost. -/
  | closed
  /-- No server listens. -/
  | unreachable
  /-- The server reported an error. -/
  | refused (refusal : Refusal)
  /-- A text to be sent holds a character that ends texts on the wire. -/
  | unencodable
  /-- The statement has another number of parameters. -/
  | parameterCount (expected given : Nat)
  /-- A value cannot be sent as its parameter. -/
  | unserializable (position : Nat)
  /-- A row has another number of cells than there are columns. -/
  | malformed
  /-- There is not exactly one row. -/
  | rowCount
deriving DecidableEq, Repr

/-- When a fault occurs. -/
inductive Stage where
  | connect
  | prepare
  | execute
  | transaction
deriving DecidableEq, Repr

/-- The cause of the errors of a stage. -/
def Stage.cause : Stage → Cause
  | .connect => .connectionUnavailable
  | .prepare => .prepare
  | .execute => .execution
  | .transaction => .transaction

namespace Fault

/-- The words for a fault, whatever the server said about it. -/
def summary : Fault → String
  | closed => "connection closed"
  | unreachable => "error connecting to server"
  | refused _ => "db error"
  | unencodable => "error encoding message to server"
  | parameterCount expected given =>
    "expected " ++ Text.natText expected ++ " parameters but got " ++ Text.natText given
  | unserializable position => "error serializing parameter " ++ Text.natText position
  | malformed => "error parsing response from server"
  | rowCount => "query returned an unexpected number of rows"

/-- The words for a fault: those of the server, if it said anything. -/
def text : Fault → String
  | refused refusal => refusal.text
  | fault => fault.summary

/-- The state code that the server sent. -/
def sqlState? : Fault → Option String
  | refused refusal => some refusal.code
  | _ => none

/-- The error that a fault is at a stage. -/
def toError (stage : Stage) (fault : Fault) : AccessError :=
  if fault = closed then
    .connectionUnavailable fault.text
  else
    match stage with
    | .connect => .connectionUnavailable fault.text
    | .prepare => .prepare fault.sqlState? fault.text
    | .execute => .execution fault.sqlState? fault.text
    | .transaction => .transaction fault.text

/-- A lost connection is reported as such at every stage. -/
@[simp]
theorem toError_closed (stage : Stage) :
    toError stage closed = .connectionUnavailable "connection closed" :=
  rfl

/-- Every other fault becomes the error of its stage. -/
theorem cause_toError {fault : Fault} (h : fault ≠ closed) (stage : Stage) :
    (toError stage fault).cause = stage.cause := by
  cases stage <;> simp [toError, h, AccessError.cause, Stage.cause]

end Fault

end TableAccess.Server
