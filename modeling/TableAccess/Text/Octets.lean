/-!
# Text as octets

Lengths of SQL in log records are counted in the octets of its UTF-8 form, and text
travels to the server in that form.

Main results:

- Theorem `utf8Length_append`: the octets of two texts add up.
- Theorem `truncate_isPrefix`: a truncated text starts the text.
- Theorem `utf8Length_truncate_le`: a truncated text is within the limit.
-/

namespace TableAccess.Text

/-- A string of octets. -/
abbrev Octets := List UInt8

/-! ## Lengths -/

/-- The number of octets of a text in UTF-8. -/
def utf8Length : List Char → Nat
  | [] => 0
  | c :: r => c.utf8Size + utf8Length r

@[simp]
theorem utf8Length_nil : utf8Length [] = 0 :=
  rfl

@[simp]
theorem utf8Length_cons (c : Char) (r : List Char) :
    utf8Length (c :: r) = c.utf8Size + utf8Length r :=
  rfl

/-- The octets of two texts add up. -/
theorem utf8Length_append (s t : List Char) :
    utf8Length (s ++ t) = utf8Length s + utf8Length t := by
  induction s with
  | nil => simp
  | cons c r ih => simp [ih, Nat.add_assoc]

/-! ## Truncation between characters -/

/-- The characters at the front of a text whose octets together stay within a limit. -/
def truncate : Nat → List Char → List Char
  | _, [] => []
  | limit, c :: r => if c.utf8Size ≤ limit then c :: truncate (limit - c.utf8Size) r else []

/-- A truncated text starts the text. -/
theorem truncate_isPrefix (limit : Nat) (s : List Char) : truncate limit s <+: s := by
  induction s generalizing limit with
  | nil => simp [truncate]
  | cons c r ih =>
    rw [truncate]
    split
    · exact List.prefix_cons_inj c |>.2 (ih _)
    · exact List.nil_prefix

/-- A truncated text is within the limit. -/
theorem utf8Length_truncate_le (limit : Nat) (s : List Char) :
    utf8Length (truncate limit s) ≤ limit := by
  induction s generalizing limit with
  | nil => simp [truncate]
  | cons c r ih =>
    rw [truncate]
    split
    · have := ih (limit - c.utf8Size)
      simp only [utf8Length_cons]
      omega
    · simp

/-! ## Octets of a text -/

/-- The UTF-8 form of a string. -/
def utf8Encode (s : String) : Octets :=
  s.toUTF8.toList

/-- The string with a given UTF-8 form, if the octets are one. -/
def utf8Decode? (octets : Octets) : Option String :=
  String.fromUTF8? ⟨octets.toArray⟩

/-! ## Hexadecimal form -/

/-- The hexadecimal digit that stands for a number below sixteen. -/
def hexChar (n : Nat) : Char :=
  if n < 10 then Char.ofNat (48 + n) else Char.ofNat (87 + n)

/-- The value of a hexadecimal digit in either letter case. -/
def hexValue? (c : Char) : Option Nat :=
  if '0' ≤ c && c ≤ '9' then some (c.toNat - 48)
  else if 'a' ≤ c && c ≤ 'f' then some (c.toNat - 87)
  else if 'A' ≤ c && c ≤ 'F' then some (c.toNat - 55)
  else none

/-- Octets as pairs of hexadecimal digits. -/
def hexDigits : Octets → List Char
  | [] => []
  | b :: r => hexChar (b.toNat / 16) :: hexChar (b.toNat % 16) :: hexDigits r

/-- The octets that pairs of hexadecimal digits stand for. -/
def readHexDigits : List Char → Option Octets
  | [] => some []
  | [_] => none
  | c :: d :: r => do
    let high ← hexValue? c
    let low ← hexValue? d
    let rest ← readHexDigits r
    return UInt8.ofNat (16 * high + low) :: rest

/-- A hexadecimal digit reads back as its value. -/
theorem hexValue?_hexChar (n : Nat) (h : n < 16) : hexValue? (hexChar n) = some n := by
  have digit : ∀ m : Fin 16, hexValue? (hexChar m.val) = some m.val := by decide
  exact digit ⟨n, h⟩

/-- Octets read back from their hexadecimal form. -/
theorem readHexDigits_hexDigits (octets : Octets) :
    readHexDigits (hexDigits octets) = some octets := by
  induction octets with
  | nil => rfl
  | cons b r ih =>
    have hb : b.toNat < 256 := b.toNat_lt
    rw [hexDigits, readHexDigits, hexValue?_hexChar _ (by omega),
      hexValue?_hexChar _ (by omega), ih]
    simp only [Option.bind_eq_bind, Option.bind_some, Option.pure_def, Option.some.injEq,
      List.cons.injEq, and_true]
    rw [Nat.div_add_mod, UInt8.ofNat_toNat]

end TableAccess.Text
