import TableAccess.Error
import TableAccess.Text.Digits
/-!
# Notices

What the library reports about its work besides results and errors.  A notice says what
happened; its severity, channel, wording and fields follow from that.

Main results:

- Theorem `channel_eq_statements_iff`: only the notice that a statement is executed goes
  to the channel for statements.
-/

namespace TableAccess

/-- How serious a notice is. -/
inductive Severity where
  | trace
  | debug
  | info
  | warn
  | error
deriving DecidableEq, Repr

/-- Where a notice is sent. -/
inductive Channel where
  | general
  | statements
deriving DecidableEq, Repr

/-- What happened. -/
inductive Notice where
  /-- A value bound by name was not needed by the statement. -/
  | unreferenced (name : String)
  /-- A name was bound already, and the earlier value is kept. -/
  | bindingKept (name : String)
  /-- An update has no filter. -/
  | unfiltered (table : String)
  /-- A page was asked for without an order. -/
  | unordered (table : String)
  /-- A statement is about to be executed. -/
  | executing (operation sql : String) (parameters : Nat)
  /-- The transaction of a statement was committed. -/
  | committed (operation : String) (affected : Nat)
  /-- A statement failed, and its transaction is rolled back. -/
  | rollingBack (operation : String) (error : AccessError)
  /-- The rollback failed as well. -/
  | rollbackFailed (operation : String) (error : AccessError)
  /-- An insert failed, and an update is tried in its place. -/
  | updatingInstead (table : String) (error : AccessError)
  /-- The port in the environment is no port number. -/
  | portIgnored (port : String)
  /-- There is no complete login. -/
  | notConnecting (host database : String)
  /-- Connecting failed. -/
  | connectionFailed (host reason : String)
  /-- A connection was made. -/
  | connected (host : String) (port : Nat) (database : String)
deriving DecidableEq, Repr

namespace Notice

/-- How serious a notice is. -/
def severity : Notice → Severity
  | unreferenced _ | committed _ _ => .trace
  | bindingKept _ | unfiltered _ | unordered _ | executing _ _ _ | updatingInstead _ _ => .debug
  | connected _ _ _ => .info
  | rollingBack _ _ | portIgnored _ | notConnecting _ _ => .warn
  | rollbackFailed _ _ | connectionFailed _ _ => .error

/-- Where a notice is sent. -/
def channel : Notice → Channel
  | executing _ _ _ => .statements
  | _ => .general

/-- The wording of a notice. -/
def message : Notice → String
  | unreferenced _ => "binding not referenced by statement"
  | bindingKept _ => "keeping earlier binding for placeholder"
  | unfiltered _ => "update without filter touches every row"
  | unordered _ => "pagination ignored without ORDER BY"
  | executing _ _ _ => "executing statement"
  | committed _ _ => "committed"
  | rollingBack _ _ => "statement failed, rolling back"
  | rollbackFailed _ _ => "rollback failed"
  | updatingInstead _ _ => "insert failed, updating instead"
  | portIgnored _ => "ignoring invalid PGPORT"
  | notConnecting _ _ => "incomplete credentials, not connecting"
  | connectionFailed _ _ => "connection failed"
  | connected _ _ _ => "connected"

/-- The fields of a notice. -/
def fields : Notice → List (String × String)
  | unreferenced name => [("name", name)]
  | bindingKept name => [("name", name)]
  | unfiltered table => [("table", table)]
  | unordered table => [("table", table)]
  | executing operation sql parameters =>
    [("op", operation), ("sql", sql), ("params", Text.natText parameters)]
  | committed operation affected => [("op", operation), ("affected", Text.natText affected)]
  | rollingBack operation error => [("op", operation), ("error", error.message)]
  | rollbackFailed operation error => [("op", operation), ("error", error.message)]
  | updatingInstead table error => [("table", table), ("error", error.message)]
  | portIgnored port => [("port", port)]
  | notConnecting host database => [("host", host), ("database", database)]
  | connectionFailed host reason => [("host", host), ("error", reason)]
  | connected host port database =>
    [("host", host), ("port", Text.natText port), ("database", database)]

/-- Only the notice that a statement is executed goes to the channel for statements. -/
theorem channel_eq_statements_iff (n : Notice) :
    n.channel = .statements ↔ ∃ operation sql parameters,
      n = executing operation sql parameters := by
  cases n <;> simp [channel]

end Notice

end TableAccess
