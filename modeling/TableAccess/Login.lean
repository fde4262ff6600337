import TableAccess.Notice
import TableAccess.Text.Integer
/-!
# Logins

A login says where a server is found and as whom to connect.  It can be read from the
variables of an environment; a variable that is not set keeps the usual value, and so does
a port that is no port number.

Main results:

- Theorem `hasCredentials_iff`: credentials are complete if database, user and password all
  have text.
- Theorem `ofEnvironment_of_unset`: without variables the login is the usual one.
- Theorem `environmentNotices_eq_nil_iff`: reading an environment gives a notice exactly if
  its port is no port number.
-/

namespace TableAccess

/-- Where and as whom to connect. -/
structure Login where
  host : String
  port : UInt16
  database : String
  user : String
  password : String
  /-- The name under which the application makes itself known to the server. -/
  applicationName : Option String
deriving DecidableEq, Repr

/-- Where a server listens. -/
inductive Endpoint where
  /-- On a host in the network. -/
  | network (host : String)
  /-- On a socket in a directory. -/
  | directory (path : String)
deriving DecidableEq, Repr

namespace Login

/-! ## Making logins -/

/-- The login on the same machine, without credentials. -/
def usual : Login :=
  { host := "localhost", port := 5432, database := "", user := "", password := "",
    applicationName := none }

/-- The usual login with credentials. -/
def ofCredentials (database user password : String) : Login :=
  { usual with database := database, user := user, password := password }

/-- Read a port number. -/
def readPort? (s : String) : Option UInt16 :=
  match Text.readInteger .nat16 s.toList with
  | .ok i => some (UInt16.ofNat i.toNat)
  | .error _ => none

/-- The login that the variables of an environment describe. -/
def ofEnvironment (lookUp : String → Option String) : Login :=
  { usual with
    host := (lookUp "PGHOST").getD usual.host
    port := ((lookUp "PGPORT").bind readPort?).getD usual.port
    database := (lookUp "PGDATABASE").getD usual.database
    user := (lookUp "PGUSER").getD usual.user
    password := (lookUp "PGPASSWORD").getD usual.password }

/-- The notices about an environment. -/
def environmentNotices (lookUp : String → Option String) : List Notice :=
  match lookUp "PGPORT" with
  | none => []
  | some port => if (readPort? port).isSome then [] else [.portIgnored port]

/-! ## Using logins -/

/-- Whether database, user and password are all given. -/
def hasCredentials (login : Login) : Bool :=
  !login.database.isEmpty && !login.user.isEmpty && !login.password.isEmpty

/-- Where the server of a login listens: a host that begins with a slash is a directory. -/
def endpoint (login : Login) : Endpoint :=
  match login.host.toList with
  | '/' :: _ => .directory login.host
  | _ => .network login.host

/-! ## Laws -/

/-- Credentials are complete if database, user and password all have text. -/
theorem hasCredentials_iff (login : Login) :
    login.hasCredentials = true ↔
      login.database.isEmpty = false ∧ login.user.isEmpty = false ∧
        login.password.isEmpty = false := by
  simp [hasCredentials, and_assoc]

/-- Without variables the login is the usual one. -/
theorem ofEnvironment_of_unset {lookUp : String → Option String}
    (unset : ∀ name, lookUp name = none) : ofEnvironment lookUp = usual := by
  simp [ofEnvironment, unset, usual]

/-- Reading an environment gives a notice exactly if its port is no port number. -/
theorem environmentNotices_eq_nil_iff (lookUp : String → Option String) :
    environmentNotices lookUp = [] ↔
      ∀ port, lookUp "PGPORT" = some port → (readPort? port).isSome = true := by
  unfold environmentNotices
  cases lookUp "PGPORT" with
  | none => simp
  | some port => cases h : readPort? port <;> simp [h]

end Login

end TableAccess
