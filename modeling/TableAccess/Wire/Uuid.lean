import TableAccess.Text.Octets
/-!
# Universally unique identifiers

An identifier of sixteen octets is written as hexadecimal digits with hyphens after the
eighth, twelfth, sixteenth and twentieth.  It may also be given without hyphens, in
braces, or after the words `urn:uuid:`, in any letter case.

Main results:

- Theorem `write_length`: the written form has 36 characters.
-/

namespace TableAccess.Wire.Uuid

open Text

/-- The lengths of the groups of hexadecimal digits. -/
def groups : List Nat := [8, 4, 4, 4, 12]

/-- The digits of groups that are separated by hyphens and make up a whole text. -/
def joinGroups : List Nat → List Char → Option (List Char)
  | [], [] => some []
  | [], _ :: _ => none
  | [n], s => if s.length = n then some s else none
  | n :: more, s =>
    match s.drop n with
    | '-' :: rest => (joinGroups more rest).map (s.take n ++ ·)
    | _ => none

/-- The octets of 32 hexadecimal digits. -/
def ofDigits (digits : List Char) : Option Octets :=
  if digits.length = 32 then readHexDigits digits else none

/-- Read the written form with hyphens. -/
def readHyphenated (s : List Char) : Option Octets :=
  (joinGroups groups s).bind ofDigits

/-- The rest of a text after given words, letter case aside. -/
def afterWords : List Char → List Char → Option (List Char)
  | [], s => some s
  | _ :: _, [] => none
  | w :: words, c :: s => if c.toLower = w then afterWords words s else none

/-- Read an identifier in any of its forms. -/
def read (s : List Char) : Option Octets :=
  match s with
  | '{' :: r =>
    if r.getLast? = some '}' then readHyphenated r.dropLast else none
  | _ =>
    match afterWords "urn:uuid:".toList s with
    | some r => readHyphenated r
    | none => (ofDigits s).or (readHyphenated s)

/-- The written form of sixteen octets. -/
def write (octets : Octets) : List Char :=
  let digits := hexDigits octets
  let part (start count : Nat) : List Char := (digits.drop start).take count
  part 0 8 ++ '-' :: (part 8 4 ++ '-' :: (part 12 4 ++ '-' :: (part 16 4 ++ '-' :: part 20 12)))

/-- The number of hexadecimal digits. -/
theorem length_hexDigits (octets : Octets) : (hexDigits octets).length = 2 * octets.length := by
  induction octets with
  | nil => rfl
  | cons b r ih =>
    simp only [hexDigits, List.length_cons, ih]
    omega

/-- The written form has 36 characters. -/
theorem write_length {octets : Octets} (h : octets.length = 16) :
    (write octets).length = 36 := by
  have hdigits := length_hexDigits octets
  rw [h] at hdigits
  simp only [write, List.length_append, List.length_cons, List.length_take, List.length_drop,
    hdigits]
  omega

end TableAccess.Wire.Uuid
