import TableAccess.Comparison
import TableAccess.Proofs.Identifier.Offset
import TableAccess.Proofs.Placeholder.Scan
import TableAccess.Transaction
/-!
# Texts are cut between characters

Statements, identifiers, signs and reported SQL are all read by offsets that count octets.  No
text leads to an offset that is out of bounds or to a slice that begins or ends inside a
character, and every loop over offsets comes to its end.

Main results:

- Theorem `truncateByOffset_eq`: a limit is lowered to the end of a character.
- Theorem `no_misstep`: everything that is read by offsets is read without a misstep.
-/

namespace TableAccess

open Text

/-! ## Signs -/

/-- The sign at the front of a text, with the number of its octets. -/
def Operator.signOf : Char → Option Char → Option (Operator × Nat)
  | '!', some '%' => some (.notLike, 2)
  | '!', some '=' => some (.notEqual, 2)
  | '!', _ => some (.notEqual, 1)
  | '<', some '=' => some (.atMost, 2)
  | '<', _ => some (.less, 1)
  | '>', some '=' => some (.atLeast, 2)
  | '>', _ => some (.greater, 1)
  | '%', _ => some (.like, 1)
  | _, _ => none

/-- The operator of the sign at the front of a text, and the text after the sign. -/
def Operator.splitSignByOffset (s : List Char) : Checked (Option (Operator × List Char)) :=
  match s with
  | [] => return none
  | c :: r =>
    match signOf c r.head? with
    | none => return none
    | some (operator, length) => do
      return some (operator, ← sliceFrom s length)

/-- A text that does not go on with a character has another one next, or none. -/
theorem Operator.head?_ne {d : Char} {r : List Char} (h : ∀ rest, r = d :: rest → False) :
    r.head? ≠ some d := by
  intro hhead
  obtain ⟨rest, rfl⟩ := List.head?_eq_some_iff.1 hhead
  exact h rest rfl

/-- The text is sliced after its sign. -/
theorem Operator.splitSignByOffset_of_signOf {c : Char} {r : List Char} (sign rest : List Char)
    {operator : Operator} (text : c :: r = sign ++ rest)
    (h : signOf c r.head? = some (operator, utf8Length sign)) :
    splitSignByOffset (c :: r) = .ok (some (operator, rest)) := by
  have hslice := sliceFrom_append sign rest
  rw [← text] at hslice
  simp only [splitSignByOffset, h, hslice, bind, Except.bind]
  rfl

/-- A sign is split off without a misstep. -/
theorem Operator.splitSignByOffset_eq (s : List Char) :
    splitSignByOffset s = .ok (splitSign s) := by
  unfold splitSign
  split
  · exact splitSignByOffset_of_signOf ['!', '%'] _ rfl rfl
  · exact splitSignByOffset_of_signOf ['!', '='] _ rfl rfl
  · rename_i r hpercent hequal
    apply splitSignByOffset_of_signOf ['!'] r rfl
    change signOf '!' r.head? = some (.notEqual, 1)
    have hlike := head?_ne hpercent
    have hequals := head?_ne hequal
    unfold signOf
    split <;> simp_all
  · exact splitSignByOffset_of_signOf ['<', '='] _ rfl rfl
  · rename_i r hequal
    apply splitSignByOffset_of_signOf ['<'] r rfl
    change signOf '<' r.head? = some (.less, 1)
    have hequals := head?_ne hequal
    unfold signOf
    split <;> simp_all
  · exact splitSignByOffset_of_signOf ['>', '='] _ rfl rfl
  · rename_i r hequal
    apply splitSignByOffset_of_signOf ['>'] r rfl
    change signOf '>' r.head? = some (.greater, 1)
    have hequals := head?_ne hequal
    unfold signOf
    split <;> simp_all
  · exact splitSignByOffset_of_signOf ['%'] _ rfl rfl
  · rename_i hother
    cases s with
    | nil => rfl
    | cons c r =>
      have hsign : signOf c r.head? = none := by
        unfold signOf
        split <;> simp_all
      simp only [splitSignByOffset, hsign]
      rfl

/-! ## Truncation -/

namespace Text

/-- An iteration that lowers a limit inside of a character. -/
def lowerStep (s : List Char) (limit : Nat) : Checked (Iteration Nat Nat) :=
  if 0 < limit ∧ isBoundary s limit = false then
    return .again (limit - 1)
  else
    return .stop limit

/-- The front of a text that is within a limit of octets. -/
def truncateByOffset (limit : Nat) (s : List Char) : Checked (List Char) :=
  if utf8Length s ≤ limit then
    return s
  else do
    let stop ← loop id (lowerStep s) limit
    sliceTo s stop

/-- The first character that is left out does not fit the limit. -/
theorem lt_of_truncate {limit : Nat} {s r : List Char} {c : Char}
    (h : s = truncate limit s ++ c :: r) :
    limit < utf8Length (truncate limit s) + c.utf8Size := by
  induction s generalizing limit with
  | nil => simp [truncate] at h
  | cons d s ih =>
    rw [truncate] at h ⊢
    split
    · rename_i hfits
      rw [if_pos hfits, List.cons_append] at h
      have hrest := ih (List.cons.inj h).2
      rw [utf8Length_cons]
      omega
    · rename_i hfits
      rw [if_neg hfits, List.nil_append] at h
      obtain ⟨rfl, -⟩ := List.cons.inj h
      rw [utf8Length_nil]
      omega

/-- A limit inside of a character is lowered to where the character begins. -/
theorem loop_lowerStep (a r : List Char) {c : Char} {k : Nat} (hk : k < c.utf8Size) :
    loop id (lowerStep (a ++ c :: r)) (utf8Length a + k) = .ok (utf8Length a) := by
  induction k with
  | zero =>
    apply loop_of_stop
    rw [lowerStep, if_neg]
    · rfl
    · rintro ⟨-, hinside⟩
      rw [Nat.add_zero, isBoundary, sliceFrom_append] at hinside
      cases hinside
  | succ k ih =>
    have hagain : lowerStep (a ++ c :: r) (utf8Length a + (k + 1)) =
        .ok (.again (utf8Length a + k)) := by
      apply if_pos
      refine ⟨by omega, ?_⟩
      rw [isBoundary, sliceFrom_inside a r (Nat.succ_pos k) hk]
      rfl
    have hless : id (utf8Length a + k) < id (utf8Length a + (k + 1)) := Nat.lt_succ_self _
    rw [loop_of_again hagain hless]
    exact ih (by omega)

/-- A limit is lowered to the end of a character. -/
theorem truncateByOffset_eq (limit : Nat) (s : List Char) :
    truncateByOffset limit s = .ok (truncate limit s) := by
  obtain ⟨rest, htext⟩ := truncate_isPrefix limit s
  have hle := utf8Length_truncate_le limit s
  have hlength := congrArg utf8Length htext
  rw [utf8Length_append] at hlength
  rw [truncateByOffset]
  cases rest with
  | nil =>
    rw [List.append_nil] at htext
    rw [htext] at hle ⊢
    exact if_pos hle
  | cons c r =>
    have hlt := lt_of_truncate htext.symm
    have hloop := loop_lowerStep (truncate limit s) r
      (show limit - utf8Length (truncate limit s) < c.utf8Size by omega)
    have hslice := sliceTo_append (truncate limit s) (c :: r)
    rw [htext] at hloop hslice
    rw [Nat.add_sub_cancel' hle] at hloop
    rw [utf8Length_cons] at hlength
    rw [if_neg (by omega)]
    simp only [hloop, bind, Except.bind, hslice]

end Text

/-! ## Everything by offsets -/

/-- The positional form of a statement. -/
def Positional.compileByOffset (s : Statement) : Checked (Except AccessError Positional) := do
  let p ← Placeholder.scan s.sql.toList
  return (lookUp s.binds p.2).map fun parameters => ⟨String.ofList p.1, parameters, p.2⟩

/-- SQL as it is reported. -/
def Transaction.loggedSqlByOffset (limit : Option Nat) (sql : String) : Checked String :=
  match limit with
  | none => return sql
  | some limit =>
    if utf8Length sql.toList ≤ limit then
      return sql
    else do
      let front ← truncateByOffset limit sql.toList
      return String.ofList front ++ ellipsis

/-- No text leads to a misstep.  Whatever is compiled, checked, split or reported, every octet
that is looked at and every slice lies within the text, no slice begins or ends inside a
character, and every iteration of a loop makes progress; so there is a result, and it is what
a reader of characters finds. -/
theorem no_misstep :
    (∀ statement, Positional.compileByOffset statement = .ok (Positional.compile statement)) ∧
      (∀ role name, Identifier.checkByOffset role name = .ok (Identifier.check role name)) ∧
      (∀ item, Identifier.checkSelectItemByOffset item = .ok (Identifier.checkSelectItem item)) ∧
      (∀ s, Operator.splitSignByOffset s = .ok (Operator.splitSign s)) ∧
      ∀ limit sql, Transaction.loggedSqlByOffset limit sql =
        .ok (Transaction.loggedSql limit sql) := by
  refine ⟨fun statement => ?_, Identifier.checkByOffset_eq, Identifier.checkSelectItemByOffset_eq,
    Operator.splitSignByOffset_eq, fun limit sql => ?_⟩
  · simp only [Positional.compileByOffset, Placeholder.scan_eq, bind, Except.bind]
    rfl
  · cases limit with
    | none => rfl
    | some limit =>
      rw [Transaction.loggedSqlByOffset, Transaction.loggedSql]
      split
      · rfl
      · simp only [truncateByOffset_eq, bind, Except.bind]
        rfl

end TableAccess
