/-!
# Blank characters

The blanks are the code points that carry the Unicode property White_Space.
Integers, dates, sort directions and select items are read after the blanks at
their ends are removed, and raw filter fragments count only if they are not
blank throughout.

Main results:

- Theorem `isBlank_of_isWhitespace`: every character of the core class
  `Char.isWhitespace` is a blank.
- Theorem `isBlank_iff`: the class is its table of code points.
- Theorem `dropBlanks_append_of_blank`: leading blanks are dropped one by one.
-/

namespace TableAccess.Text

/-! ## The class -/

/-- Code points of the blanks, as closed ranges in increasing order. -/
def blankRanges : List (Nat × Nat) :=
  [(0x09, 0x0D), (0x20, 0x20), (0x85, 0x85), (0xA0, 0xA0), (0x1680, 0x1680),
   (0x2000, 0x200A), (0x2028, 0x2029), (0x202F, 0x202F), (0x205F, 0x205F),
   (0x3000, 0x3000)]

/-- Whether a code point lies in one of the given closed ranges. -/
def inRanges (ranges : List (Nat × Nat)) (n : Nat) : Bool :=
  ranges.any fun r => r.1 ≤ n && n ≤ r.2

/-- Whether a character is white space in the sense of Unicode. -/
def isBlank (c : Char) : Bool :=
  inRanges blankRanges c.toNat

/-- The blanks are exactly the characters of the table. -/
theorem isBlank_iff (c : Char) :
    isBlank c = true ↔ ∃ r ∈ blankRanges, r.1 ≤ c.toNat ∧ c.toNat ≤ r.2 := by
  simp [isBlank, inRanges]

/-- Every white space character of the core library is a blank. -/
theorem isBlank_of_isWhitespace (c : Char) (h : c.isWhitespace = true) :
    isBlank c = true := by
  simp only [Char.isWhitespace, Bool.or_eq_true, decide_eq_true_eq] at h
  rcases h with ((rfl | rfl) | rfl) | rfl <;> decide

/-! ## Removing blanks at the ends -/

/-- A text without its leading blanks. -/
def dropBlanks (s : List Char) : List Char :=
  s.dropWhile isBlank

/-- A text without its trailing blanks. -/
def dropTrailingBlanks : List Char → List Char
  | [] => []
  | c :: r =>
    match dropTrailingBlanks r with
    | [] => if isBlank c then [] else [c]
    | rest => c :: rest

/-- A text without the blanks at its two ends. -/
def trimChars (s : List Char) : List Char :=
  dropTrailingBlanks (dropBlanks s)

/-- A string without the blanks at its two ends. -/
def trim (s : String) : String :=
  String.ofList (trimChars s.toList)

@[simp]
theorem dropBlanks_nil : dropBlanks [] = [] :=
  rfl

theorem dropBlanks_cons (c : Char) (r : List Char) :
    dropBlanks (c :: r) = if isBlank c then dropBlanks r else c :: r := by
  simp [dropBlanks, List.dropWhile_cons]

/-- Leading blanks are dropped whatever follows them. -/
theorem dropBlanks_append_of_blank (b s : List Char) (h : ∀ c ∈ b, isBlank c = true) :
    dropBlanks (b ++ s) = dropBlanks s := by
  induction b with
  | nil => rfl
  | cons c r ih =>
    rw [List.cons_append, dropBlanks_cons, if_pos (h c (by simp))]
    exact ih fun d hd => h d (by simp [hd])

/-- Removing leading blanks never lengthens a text. -/
theorem length_dropBlanks_le (s : List Char) : (dropBlanks s).length ≤ s.length := by
  induction s with
  | nil => simp
  | cons c r ih =>
    rw [dropBlanks_cons]
    split
    · exact Nat.le_succ_of_le ih
    · exact Nat.le_refl _

end TableAccess.Text
