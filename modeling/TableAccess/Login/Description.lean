import TableAccess.Login
import TableAccess.Session
import TableAccess.Text.Escaped
/-!
# Descriptions

Logins and settings as they are shown to people.  The password of a login is never shown.

Main results:

- Theorem `description_password`: two logins that differ in their passwords only have the
  same description.
-/

namespace TableAccess

open Text.Escaped

/-- A description of named fields between braces. -/
def describeFields (name : String) (fields : List (String × String)) : String :=
  name ++ " \x7b " ++ String.intercalate ", " (fields.map fun f => f.1 ++ ": " ++ f.2) ++ " \x7d"

/-- A description of what may be missing. -/
def describeOption : Option String → String
  | none => "None"
  | some description => "Some(" ++ description ++ ")"

namespace Login

/-- What is shown in place of a password. -/
def redacted : String := "<redacted>"

/-- The description of a login. -/
def description (login : Login) : String :=
  describeFields "ConnectOptions"
    [("host", quote login.host), ("port", Text.natText login.port.toNat),
     ("database", quote login.database), ("user", quote login.user),
     ("password", quote redacted),
     ("application_name", describeOption (login.applicationName.map quote))]

/-- Two logins that differ in their passwords only have the same description. -/
theorem description_password (login : Login) (password : String) :
    { login with password := password }.description = login.description :=
  rfl

end Login

namespace Settings

/-- The description of an operand style. -/
def styleName : OperandStyle → String
  | .parameterized => "Parameterized"
  | .inline => "Inline"

/-- The description of settings. -/
def description (settings : Settings) : String :=
  describeFields "DalConfig"
    [("filter_binding", styleName settings.operandStyle),
     ("max_logged_sql", describeOption (settings.reportLimit.map Text.natText))]

end Settings

end TableAccess
