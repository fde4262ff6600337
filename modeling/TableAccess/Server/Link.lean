import TableAccess.Login
import TableAccess.Server.Script
import TableAccess.Session
import TableAccess.Wire.Parameter
/-!
# Links

A link is a connection to a server over its wire protocol.  Parameters are sent in the
binary form of the types that the server inferred for them, and rows are read by the types
of their columns.  A value that cannot be sent is noticed before anything is sent.

Main results:

- Theorem `run_of_length_ne`: a statement does not reach the server with a wrong number of
  parameters.
- Theorem `run_of_serialize_error`: it does not reach the server with a value that cannot
  be sent.
- Theorem `connect_run_of_not_hasCredentials`: without credentials nothing is sent.
-/

namespace TableAccess.Server

open Text Wire

namespace Link

/-! ## Sending -/

/-- The octets of parameters, or the position of the first value that cannot be sent;
`position` counts the parameters before. -/
def serialize : (position : Nat) → List SqlType → List Value →
    Except Nat (List (Option Octets))
  | position, type :: types, value :: values =>
    match send type value with
    | .error _ => .error position
    | .ok octets => (serialize (position + 1) types values).map (octets :: ·)
  | _, _, _ => .ok []

/-- Whether a text can be sent: the character zero ends texts on the wire. -/
def isEncodable (s : String) : Bool :=
  !s.toList.contains '\x00'

/-- Ask the server to prepare a statement. -/
def prepare (sql : String) (s : Script) : Except Fault Prepared × Script :=
  if isEncodable sql then s.receivePrepare sql else (.error .unencodable, s)

/-- Run a prepared statement. -/
def run (prepared : Prepared) (parameters : List Value) (s : Script) :
    Except Fault Sending × Script :=
  if parameters.length = prepared.parameters.length then
    match serialize 0 prepared.parameters parameters with
    | .error position => (.error (.unserializable position), s)
    | .ok octets => s.receiveBind octets
  else
    (.error (.parameterCount prepared.parameters.length parameters.length), s)

/-! ## Receiving -/

/-- All rows that were sent, unless one does not fit the columns or an error came after
them. -/
def allRows (columns : List Column) (sending : Sending) : Except Fault (List Cells) :=
  if sending.rows.all fun row => row.length = columns.length then
    match sending.failure with
    | some refusal => .error (.refused refusal)
    | none => .ok sending.rows
  else
    .error .malformed

/-- The only row of those that are still to come, given the row that was `found` before. -/
def onlyRow (columns : List Column) (failure : Option Refusal) :
    (found : Option Cells) → List Cells → Except Fault Cells
  | found, row :: r =>
    if row.length = columns.length then
      match found with
      | none => onlyRow columns failure (some row) r
      | some _ => .error .rowCount
    else
      .error .malformed
  | found, [] =>
    match failure, found with
    | some refusal, _ => .error (.refused refusal)
    | none, some row => .ok row
    | none, none => .error .rowCount

/-- The number at the end of a tag; zero if there is none. -/
def affectedCount (tag : String) : Nat :=
  let word := (tag.toList.reverse.takeWhile (· ≠ ' ')).reverse
  match readInteger .nat64 word with
  | .ok i => i.toNat
  | .error _ => 0

/-- The number of rows that a statement affected, unless an error came. -/
def affected (sending : Sending) : Except Fault Nat :=
  match sending.failure with
  | some refusal => .error (.refused refusal)
  | none => .ok (affectedCount sending.tag)

/-- The column that holds the value of a sequence. -/
def sequenceColumn : String := "lastval"

/-- The value of a sequence: the first cell of a row, as an integer of eight octets. -/
def sequenceValue (columns : List Column) (cells : Cells) : Except AccessError Int64 :=
  match columns, cells with
  | column :: _, cell :: _ =>
    match column.type, decode .int8 cell with
    | .int8, some (.int i) => .ok i
    | _, _ => .error (.decode sequenceColumn (unreadable 0))
  | _, _ => .error (.decode sequenceColumn "invalid column `0`")

/-! ## The connection -/

/-- The answer to a request, with its fault as the error of a stage. -/
def atStage {α : Type} (stage : Stage) (answer : Except Fault α × Script) :
    Except AccessError α × Script :=
  (answer.1.mapError (Fault.toError stage), answer.2)

/-- Run a prepared statement and read its rows. -/
def query (prepared : Prepared) (parameters : List Value) (s : Script) :
    Except AccessError (List Row) × Script :=
  let answer := run prepared parameters s
  let rows := (answer.1.bind (allRows prepared.columns)).mapError (Fault.toError .execute)
  (rows.bind (decodeRows prepared.columns), answer.2)

/-- Run a prepared statement and read the number of rows it affected. -/
def execute (prepared : Prepared) (parameters : List Value) (s : Script) :
    Except AccessError Nat × Script :=
  let answer := run prepared parameters s
  atStage .execute (answer.1.bind affected, answer.2)

/-- The statement that asks for the value that a sequence gave last. -/
def sequenceSql : String := "SELECT LASTVAL()"

/-- Ask for the value that a sequence gave last. -/
def lastInsertId (s : Script) : Except AccessError Int64 × Script :=
  let first := prepare sequenceSql s
  match first.1 with
  | .error fault => (.error (fault.toError .execute), first.2)
  | .ok prepared =>
    let answer := run prepared [] first.2
    let row := answer.1.bind fun sending =>
      onlyRow prepared.columns sending.failure none sending.rows
    ((row.mapError (Fault.toError .execute)).bind (sequenceValue prepared.columns), answer.2)

/-- The connection to a scripted server. -/
def connection : Connection Script Prepared where
  begin s := atStage .transaction s.receiveBegin
  commit s := atStage .transaction s.receiveCommit
  rollback s := atStage .transaction s.receiveRollback
  prepare sql s := atStage .prepare (prepare sql s)
  query := query
  execute := execute
  lastInsertId := lastInsertId

/-! ## Connecting -/

/-- The parameters that start a connection, in the order of their names. -/
def startupParameters (login : Login) : List (String × String) :=
  (login.applicationName.map fun name => ("application_name", name)).toList ++
    [("client_encoding", "UTF8"), ("database", login.database), ("user", login.user)]

/-- Start a connection. -/
def start (login : Login) (s : Script) : Except Fault Unit × Script :=
  if (startupParameters login).all fun p => isEncodable p.2 then
    s.receiveStartup (startupParameters login) login.password
  else
    (.error .unencodable, s)

/-- A session on the server of a login.  Without complete credentials there is no attempt
to connect, and the session has no connection. -/
def connect (login : Login) (settings : Settings) : Access Script (Session Script Prepared) := do
  if login.hasCredentials then
    match ← Access.change (start login) with
    | .ok () =>
      Access.give (.connected login.host login.port.toNat login.database)
      return ⟨some connection, settings⟩
    | .error fault =>
      Access.give (.connectionFailed login.host fault.summary)
      Access.fail (fault.toError .connect)
  else
    Access.give (.notConnecting login.host login.database)
    return ⟨none, settings⟩

/-! ## Laws -/

/-- A statement does not reach the server with a wrong number of parameters. -/
theorem run_of_length_ne {prepared : Prepared} {parameters : List Value}
    (h : parameters.length ≠ prepared.parameters.length) (s : Script) :
    run prepared parameters s =
      (.error (.parameterCount prepared.parameters.length parameters.length), s) := by
  simp [run, h]

/-- A statement does not reach the server with a value that cannot be sent. -/
theorem run_of_serialize_error {prepared : Prepared} {parameters : List Value} {position : Nat}
    (count : parameters.length = prepared.parameters.length)
    (h : serialize 0 prepared.parameters parameters = .error position) (s : Script) :
    run prepared parameters s = (.error (.unserializable position), s) := by
  simp [run, count, h]

/-- Without credentials nothing is sent. -/
theorem connect_run_of_not_hasCredentials {login : Login} (h : login.hasCredentials = false)
    (settings : Settings) (s : Script) :
    (connect login settings).run s =
      ⟨.ok ⟨none, settings⟩, s, [.notice (.notConnecting login.host login.database)]⟩ := by
  simp only [connect, h]
  rfl

end Link

end TableAccess.Server
