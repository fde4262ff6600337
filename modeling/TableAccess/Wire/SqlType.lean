/-!
# Types of parameters and columns

The server tells the type of every parameter and result column.  The types that values
are converted for have a constructor of their own; all others are known by name only.  Four
of these hold texts: `citext`, and `ltree`, `lquery` and `ltxtquery`, whose texts come after
a version.

Main results:

- Theorem `ofName_name`: the name of a type with a constructor of its own leads back to
  it.
-/

namespace TableAccess

/-- A type of the server. -/
inductive SqlType where
  | bool
  | int2
  | int4
  | int8
  | oid
  | float4
  | float8
  | numeric
  | json
  | jsonb
  | text
  | varchar
  | bpchar
  | name
  | unknown
  | uuid
  | date
  | time
  | timestamp
  | timestamptz
  | other (typeName : String)
deriving DecidableEq, Repr, Inhabited

namespace SqlType

/-- The types with a constructor of their own. -/
def all : List SqlType :=
  [bool, int2, int4, int8, oid, float4, float8, numeric, json, jsonb, text, varchar, bpchar,
   name, unknown, uuid, date, time, timestamp, timestamptz]

/-- The name of a type. -/
def typeName : SqlType → String
  | bool => "bool"
  | int2 => "int2"
  | int4 => "int4"
  | int8 => "int8"
  | oid => "oid"
  | float4 => "float4"
  | float8 => "float8"
  | numeric => "numeric"
  | json => "json"
  | jsonb => "jsonb"
  | text => "text"
  | varchar => "varchar"
  | bpchar => "bpchar"
  | name => "name"
  | unknown => "unknown"
  | uuid => "uuid"
  | date => "date"
  | time => "time"
  | timestamp => "timestamp"
  | timestamptz => "timestamptz"
  | other n => n

/-- The type with a name. -/
def ofName (n : String) : SqlType :=
  (all.find? fun t => t.typeName == n).getD (other n)

/-- Whether a type takes values of every kind as texts. -/
def isText : SqlType → Bool
  | text | varchar | bpchar | name | unknown => true
  | _ => false

/-! ## Types known by name -/

/-- The name of the type of texts without regard to letter case. -/
def caseless : String := "citext"

/-- The names of the types whose texts come after a version. -/
def versioned : List String := ["ltree", "lquery", "ltxtquery"]

/-- The version before a text, the only one there is. -/
def textVersion : UInt8 := 1

/-- The name of a type with a constructor of its own leads back to it. -/
theorem ofName_name : ∀ t ∈ all, ofName t.typeName = t := by
  decide +kernel

end SqlType

end TableAccess
