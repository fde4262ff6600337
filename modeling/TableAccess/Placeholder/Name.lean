/-!
# Placeholder names

A placeholder is written as a colon and a name: a letter or underscore followed by
letters, digits and underscores, all of them ASCII.

Main results:

- Theorem `isName_cons`: what a name consists of.
-/

namespace TableAccess.Placeholder

/-- Whether a character may begin a name. -/
def isNameStart (c : Char) : Bool :=
  c == '_' || c.isAlpha

/-- Whether a character may be part of a name. -/
def isNamePart (c : Char) : Bool :=
  c == '_' || c.isAlphanum

/-- Whether a text can be written after a colon as it is. -/
def isName : List Char → Bool
  | [] => false
  | c :: r => isNameStart c && r.all isNamePart

/-- A name begins with a letter or an underscore, and digits may follow as well. -/
theorem isName_cons (c : Char) (r : List Char) :
    isName (c :: r) = true ↔ isNameStart c = true ∧ ∀ d ∈ r, isNamePart d = true := by
  simp [isName]

/-- A character that may begin a name may be part of one. -/
theorem isNamePart_of_isNameStart {c : Char} (h : isNameStart c = true) :
    isNamePart c = true := by
  simp only [isNameStart, isNamePart, Char.isAlphanum, Bool.or_eq_true] at *
  rcases h with h | h
  · exact .inl h
  · exact .inr (.inl h)

end TableAccess.Placeholder
