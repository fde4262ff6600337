import TableAccess.Server.Fault
import TableAccess.Wire.Cell
/-!
# Scripted servers

A scripted server follows a script: for every kind of request it has a queue of replies,
and once a queue is empty it goes on with a plain success.  It keeps what it received.  When
it drops the connection it receives nothing any more.

Main results:

- Theorem `receive_of_not_isOpen`: without a connection nothing is received.
- Theorem `isOpen_receive_of_ok`: an answered request leaves the connection open.
- Theorem `received_receive_of_isOpen`: an open connection receives exactly the request.
-/

namespace TableAccess.Server

open Text Wire

/-! ## Messages -/

/-- What a client sends. -/
inductive Request where
  /-- The start of a connection, with its parameters. -/
  | startup (parameters : List (String × String))
  | password (text : String)
  /-- A statement without parameters and rows. -/
  | simple (sql : String)
  | prepare (sql : String)
  /-- The parameters of the statement to be run. -/
  | bind (parameters : List (Option Octets))
deriving DecidableEq, Repr

/-- The cells of a row. -/
abbrev Cells := List (Option Octets)

/-- What the server knows about a prepared statement. -/
structure Prepared where
  parameters : List SqlType
  columns : List Column

/-- What the server sends for a statement that is run. -/
structure Sending where
  rows : List Cells
  /-- The command that was run, with the number of rows at its end. -/
  tag : String
  /-- An error after the rows. -/
  failure : Option Refusal

/-- A reply to a request. -/
inductive Reply (α : Type) where
  /-- The connection is dropped. -/
  | close
  | refuse (refusal : Refusal)
  | accept (a : α)

/-- How the server meets a new connection. -/
inductive Greeting where
  /-- No server listens. -/
  | absent
  /-- The connection is dropped. -/
  | close
  | refuse (refusal : Refusal)
  | welcome

/-! ## Scripts -/

/-- The state of a scripted server. -/
structure Script where
  asksPassword : Bool
  greeting : Greeting
  begin : List (Reply Unit)
  commit : List (Reply Unit)
  rollback : List (Reply Unit)
  prepare : List (Reply Prepared)
  execute : List (Reply Sending)
  /-- Whether there is a connection. -/
  isOpen : Bool
  /-- What was received, in order. -/
  received : List Request

namespace Script

/-- The statement without parameters and columns. -/
def plainStatement : Prepared := ⟨[], []⟩

/-- The tag of a reply that gives none. -/
def plainTag : String := "SELECT 0"

/-- The reply without rows. -/
def plainSending : Sending := ⟨[], plainTag, none⟩

/-- Record a request. -/
def record (request : Request) (s : Script) : Script :=
  { s with received := s.received ++ [request] }

/-- Drop the connection. -/
def drop (s : Script) : Script :=
  { s with isOpen := false }

/-- Receive a request that has the given queue of replies; `keep` stores what is left of
the queue, and `plain` is the answer once it is empty. -/
def receive {α : Type} (request : Request) (queue : List (Reply α))
    (keep : List (Reply α) → Script → Script) (plain : α) (s : Script) :
    Except Fault α × Script :=
  if s.isOpen then
    let s := s.record request
    match queue with
    | [] => (.ok plain, s)
    | .close :: r => (.error .closed, (keep r s).drop)
    | .refuse refusal :: r => (.error (.refused refusal), keep r s)
    | .accept a :: r => (.ok a, keep r s)
  else
    (.error .closed, s)

/-! ## Requests -/

/-- Receive the request to open a transaction. -/
def receiveBegin (s : Script) : Except Fault Unit × Script :=
  s.receive (.simple "BEGIN") s.begin (fun r s => { s with begin := r }) ()

/-- Receive the request to commit a transaction. -/
def receiveCommit (s : Script) : Except Fault Unit × Script :=
  s.receive (.simple "COMMIT") s.commit (fun r s => { s with commit := r }) ()

/-- Receive the request to roll a transaction back. -/
def receiveRollback (s : Script) : Except Fault Unit × Script :=
  s.receive (.simple "ROLLBACK") s.rollback (fun r s => { s with rollback := r }) ()

/-- Receive the request to prepare a statement. -/
def receivePrepare (sql : String) (s : Script) : Except Fault Prepared × Script :=
  s.receive (.prepare sql) s.prepare (fun r s => { s with prepare := r }) plainStatement

/-- Receive the parameters of a statement to be run. -/
def receiveBind (parameters : List (Option Octets)) (s : Script) :
    Except Fault Sending × Script :=
  s.receive (.bind parameters) s.execute (fun r s => { s with execute := r }) plainSending

/-- Receive the start of a connection, and the password if the server asks for it. -/
def receiveStartup (parameters : List (String × String)) (password : String) (s : Script) :
    Except Fault Unit × Script :=
  match s.greeting with
  | .absent => (.error .unreachable, s)
  | greeting =>
    let s := s.record (.startup parameters)
    let s := if s.asksPassword then s.record (.password password) else s
    match greeting with
    | .refuse refusal => (.error (.refused refusal), s)
    | .welcome => (.ok (), { s with isOpen := true })
    | _ => (.error .closed, s)

/-! ## Laws -/

section Laws

variable {α : Type} (request : Request) (queue : List (Reply α))
  (keep : List (Reply α) → Script → Script) (plain : α)

/-- Without a connection nothing is received. -/
theorem receive_of_not_isOpen {s : Script} (h : s.isOpen = false) :
    s.receive request queue keep plain = (.error .closed, s) := by
  simp [receive, h]

/-- An open connection receives exactly the request, provided that storing the queue leaves
what was received. -/
theorem received_receive_of_isOpen {s : Script} (h : s.isOpen = true)
    (kept : ∀ r s, (keep r s).received = s.received) :
    (s.receive request queue keep plain).2.received = s.received ++ [request] := by
  unfold receive
  rw [if_pos h]
  cases queue with
  | nil => rfl
  | cons reply r => cases reply <;> simp [drop, kept, record]

/-- An answered request leaves the connection open, provided that storing the queue does. -/
theorem isOpen_receive_of_ok {s : Script} {a : α}
    (kept : ∀ r s, (keep r s).isOpen = s.isOpen)
    (h : (s.receive request queue keep plain).1 = .ok a) :
    (s.receive request queue keep plain).2.isOpen = true := by
  unfold receive at h ⊢
  split
  · rename_i hopen
    rw [if_pos hopen] at h
    cases queue with
    | nil => exact hopen
    | cons reply r => cases reply <;> simp_all [record]
  · rename_i hopen
    simp [hopen] at h

end Laws

end Script

end TableAccess.Server
