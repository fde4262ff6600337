import TableAccess.Proofs.Text.Offset
/-!
# Reported SQL

SQL is reported within a limit of octets.  What does not fit is cut where one of its characters
ends.  A limit inside of a character is lowered octet by octet until such a place is reached, and
there is none between it and the limit.

Main results:

- Theorem `isBoundary_iff`: the places where a text may be cut are the ends of its fronts.
- Theorem `truncate_eq_iff`: a truncated text is the longest front within the limit.
- Theorem `loggedSql_longest_front`: what is searched octet by octet, and what is reported.
-/

namespace TableAccess

namespace Text

/-! ## Where a text may be cut -/

/-- The places where a text may be cut are the ends of its fronts. -/
theorem isBoundary_iff (s : List Char) (i : Nat) :
    isBoundary s i = true ↔ ∃ front, front <+: s ∧ utf8Length front = i := by
  constructor
  · fun_induction sliceFrom s i with
    | case1 s => exact fun _ => ⟨[], List.nil_prefix, rfl⟩
    | case2 i =>
      intro h
      rw [isBoundary, sliceFrom] at h
      cases h
    | case3 c r i hfits ih =>
      intro h
      rw [isBoundary, sliceFrom, if_pos hfits] at h
      obtain ⟨front, hfront, hlength⟩ := ih h
      refine ⟨c :: front, (List.prefix_cons_inj c).2 hfront, ?_⟩
      rw [utf8Length_cons]
      omega
    | case4 c r i hinside =>
      intro h
      rw [isBoundary, sliceFrom, if_neg hinside] at h
      cases h
  · rintro ⟨front, ⟨rest, rfl⟩, rfl⟩
    rw [isBoundary, sliceFrom_append]
    rfl

/-- Two fronts of a text that take as many octets are the same. -/
theorem eq_of_isPrefix {s a b : List Char} (ha : a <+: s) (hb : b <+: s)
    (h : utf8Length a = utf8Length b) : a = b := by
  have hrest : ∀ {front t : List Char}, utf8Length front = utf8Length (front ++ t) → t = [] := by
    intro front t hlength
    cases t with
    | nil => rfl
    | cons c t =>
      have hless := lt_utf8Length_append_cons front c t
      omega
  rcases List.prefix_or_prefix_of_prefix ha hb with ⟨t, rfl⟩ | ⟨t, rfl⟩
  · rw [hrest h, List.append_nil]
  · rw [hrest h.symm, List.append_nil]

/-! ## The longest front within a limit -/

/-- Whether a text is the longest one that stands at the front of another, ends where a character
ends and has no more octets than a limit. -/
structure IsLongestFront (limit : Nat) (s front : List Char) : Prop where
  isPrefix : front <+: s
  boundary : isBoundary s (utf8Length front) = true
  within : utf8Length front ≤ limit
  longest : ∀ i ≤ limit, isBoundary s i = true → i ≤ utf8Length front

section LongestFront

variable {limit : Nat} {s a b : List Char}

/-- There is only one longest front. -/
theorem IsLongestFront.eq (ha : IsLongestFront limit s a) (hb : IsLongestFront limit s b) :
    a = b := by
  have hle := hb.longest _ ha.within ha.boundary
  have hge := ha.longest _ hb.within hb.boundary
  exact eq_of_isPrefix ha.isPrefix hb.isPrefix (Nat.le_antisymm hle hge)

variable (limit s)

/-- A truncated text is the longest front within the limit. -/
theorem isLongestFront_truncate : IsLongestFront limit s (truncate limit s) where
  isPrefix := truncate_isPrefix limit s
  boundary := (isBoundary_iff s _).2 ⟨_, truncate_isPrefix limit s, rfl⟩
  within := utf8Length_truncate_le limit s
  longest := by
    intro i hi hboundary
    obtain ⟨front, hfront, rfl⟩ := (isBoundary_iff s i).1 hboundary
    rcases List.prefix_or_prefix_of_prefix hfront (truncate_isPrefix limit s) with
      ⟨t, ht⟩ | ⟨t, rfl⟩
    · rw [← ht, utf8Length_append]
      omega
    · cases t with
      | nil => exact Nat.le_of_eq (congrArg utf8Length (List.append_nil _))
      | cons c t =>
        -- a longer front has the first character that was left out, which does not fit
        obtain ⟨rest, hrest⟩ := hfront
        have htext : s = truncate limit s ++ c :: (t ++ rest) := by
          rw [← List.cons_append, ← List.append_assoc, hrest]
        have hless := lt_of_truncate htext
        rw [utf8Length_append, utf8Length_cons] at hi
        omega

/-- A truncated text is the longest front within the limit. -/
theorem truncate_eq_iff (front : List Char) :
    truncate limit s = front ↔ IsLongestFront limit s front := by
  constructor
  · rintro rfl
    exact isLongestFront_truncate limit s
  · exact (isLongestFront_truncate limit s).eq

end LongestFront

end Text

namespace Transaction

open Text

/-- What is reported of a statement.  The search that lowers a limit octet by octet gives the
longest front of the SQL that ends with a character and has no more octets than the limit, and
nothing else.  Without a limit, and if the limit is not exceeded, the SQL is reported whole;
otherwise its longest front is reported, with an ellipsis after it. -/
theorem loggedSql_longest_front (limit : Nat) (sql : String) :
    (∀ front, truncateByOffset limit sql.toList = .ok front ↔
      IsLongestFront limit sql.toList front) ∧
    loggedSql none sql = sql ∧
    ∃ front, IsLongestFront limit sql.toList front ∧
      loggedSql (some limit) sql =
        if utf8Length sql.toList ≤ limit then sql else String.ofList front ++ "..." := by
  refine ⟨fun front => ?_, rfl, _, isLongestFront_truncate limit sql.toList, rfl⟩
  rw [truncateByOffset_eq, Except.ok.injEq, truncate_eq_iff]

/-- A limit inside of a character is lowered to where the character begins. -/
example : loggedSql (some 9) "SELECT 'ä'" = "SELECT '..." := by cbv

end Transaction

end TableAccess
