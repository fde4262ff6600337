import TableAccess.Identifier
import TableAccess.Text.Offset
/-!
# Identifiers by offsets

A name is checked segment by segment: the length of the segment at its front is counted in
octets, and the name is sliced after it.

Main results:

- Theorem `segmentLength_eq`: a segment ends between two characters.
- Theorem `faultByOffset?_eq`: a check by offsets makes no misstep.
-/

namespace TableAccess.Identifier

open Text

/-! ## Segments -/

/-- The length of the quoted segment at the front of a text, with its quotes. -/
def quotedLength (s : List Char) : Checked (Option Nat) :=
  afterQuote s '"'.toUInt8 1

/-- The length of the plain segment at the front of a text; zero if there is none. -/
def plainLength : List Char → Nat
  | [] => 0
  | c :: r => if isStart c then utf8Length (c :: r.takeWhile isPart) else 0

/-- The length of the segment at the front of a text. -/
def segmentLength (s : List Char) : Checked (Except Fault Nat) :=
  if s.head? = some '"' then do
    match ← quotedLength s with
    | some 2 => return .error .emptyQuoted
    | some n => return .ok n
    | none => return .error .unclosedQuote
  else
    match plainLength s with
    | 0 => return .error .unexpectedCharacter
    | n => return .ok n

/-- An iteration of a check: pass one segment, and the dot after it. -/
def checkStep (s : List Char) : Checked (Iteration (List Char) (Option Fault)) := do
  match ← segmentLength s with
  | .error fault => return .stop (some fault)
  | .ok n =>
    match ← sliceFrom s n with
    | ['.'] => return .stop (some .trailingDot)
    | '.' :: rest => return .again rest
    | [] => return .stop none
    | _ => return .stop (some .unexpectedCharacter)

/-- The fault of a name, if it is no identifier. -/
def faultByOffset? (name : List Char) : Checked (Option Fault) :=
  if name.isEmpty then return some .empty
  else if name.contains '\x00' then return some .containsNul
  else loop utf8Length checkStep name

/-- Check a name and give it back unchanged. -/
def checkByOffset (role : Role) (name : String) : Checked (Except AccessError String) := do
  match ← faultByOffset? name.toList with
  | none => return .ok name
  | some fault => return .error (invalid role name fault)

/-- Check an entry of a select list. -/
def checkSelectItemByOffset (item : String) : Checked (Except AccessError String) :=
  let item := trim item
  if item = "*" then
    return .ok item
  else
    match dropEnding? ['.', '*'] item.toList with
    | some table => do
      return (← checkByOffset .table (String.ofList table)).map fun _ => item
    | none => checkByOffset .column item

/-! ## Slices between segments -/

/-- The octets of a quoted segment, if it is closed. -/
theorem quotedLength_eq (r : List Char) :
    quotedLength ('"' :: r) =
      .ok ((Quoted.split '"' r).map fun p => utf8Length p.1 + 2) := by
  have hafter := afterQuote_eq (show '"'.toNat < 128 by decide) ['"'] r
  have hone : utf8Length ['"'] = 1 := rfl
  rw [hone] at hafter
  change quotedLength ('"' :: r) = _ at hafter
  rw [hafter]
  cases Quoted.split '"' r with
  | none => rfl
  | some p =>
    simp only [Option.map_some]
    congr 2
    omega

/-- A segment is a part of the text, and its length is that of this part. -/
theorem segmentLength_eq (s : List Char) :
    (∃ fault, segment s = .error fault ∧ segmentLength s = .ok (.error fault)) ∨
      ∃ front rest, front ≠ [] ∧ s = front ++ rest ∧ segment s = .ok rest ∧
        segmentLength s = .ok (.ok (utf8Length front)) := by
  cases s with
  | nil => exact .inl ⟨.unexpectedCharacter, rfl, rfl⟩
  | cons c r =>
    by_cases hquote : c = '"'
    · subst hquote
      have hhead : ('"' :: r).head? = some '"' := rfl
      rw [segment, segmentLength, if_pos hhead, quotedLength_eq]
      cases hsplit : Quoted.split '"' r with
      | none => exact .inl ⟨.unclosedQuote, rfl, rfl⟩
      | some p =>
        obtain ⟨body, rest⟩ := p
        cases body with
        | nil => exact .inl ⟨.emptyQuoted, rfl, rfl⟩
        | cons d body =>
          right
          have htext := Quoted.split_append _ _ _ _ hsplit
          refine ⟨'"' :: (d :: body) ++ ['"'], rest, List.cons_ne_nil _ _, ?_, rfl, ?_⟩
          · rw [htext]
            simp
          · have hlength : utf8Length ('"' :: (d :: body) ++ ['"']) =
                utf8Length (d :: body) + 2 := by
              have hsize : '"'.utf8Size = 1 := rfl
              simp only [List.cons_append, utf8Length_cons, utf8Length_append, utf8Length_nil, hsize]
              omega
            obtain ⟨n, hn⟩ := exists_utf8Length_cons d body
            rw [hlength, Option.map_some, hn]
            rfl
    · have hhead : ¬ (c :: r).head? = some '"' := fun heq => hquote (Option.some.inj heq)
      rw [segment, if_neg hquote, segmentLength, if_neg hhead, plainLength]
      by_cases hstart : isStart c = true
      · right
        rw [if_pos hstart, if_pos hstart]
        refine ⟨c :: r.takeWhile isPart, r.dropWhile isPart, List.cons_ne_nil _ _, ?_, rfl, ?_⟩
        · rw [List.cons_append, List.takeWhile_append_dropWhile]
        · obtain ⟨n, hn⟩ := exists_utf8Length_cons c (r.takeWhile isPart)
          rw [hn]
          rfl
      · left
        rw [if_neg hstart, if_neg hstart]
        exact ⟨.unexpectedCharacter, rfl, rfl⟩

/-- An iteration of a check slices the text after its first segment. -/
theorem checkStep_of_ok {s rest : List Char} (h : segment s = .ok rest) :
    ∃ front, front ≠ [] ∧ s = front ++ rest ∧ checkStep s =
      .ok (match rest with
        | ['.'] => .stop (some .trailingDot)
        | '.' :: next => .again next
        | [] => .stop none
        | _ => .stop (some .unexpectedCharacter)) := by
  rcases segmentLength_eq s with ⟨fault, hfault, -⟩ | ⟨front, after, hne, rfl, hafter, hlength⟩
  · rw [hfault] at h
    cases h
  · rw [hafter] at h
    cases h
    refine ⟨front, hne, rfl, ?_⟩
    simp only [checkStep, hlength, bind, Except.bind, sliceFrom_append]
    split <;> rfl

/-- The check of the segments of a text makes no misstep. -/
theorem loop_checkStep (s : List Char) :
    loop utf8Length checkStep s = .ok (segmentsFault s) := by
  fun_induction segmentsFault s with
  | case1 s fault h =>
    apply loop_of_stop
    rcases segmentLength_eq s with ⟨other, hother, hlength⟩ | ⟨front, rest, -, -, hrest, -⟩
    · rw [h] at hother
      cases hother
      simp only [checkStep, hlength, bind, Except.bind]
      rfl
    · rw [h] at hrest
      cases hrest
  | case2 s h =>
    obtain ⟨front, -, -, hstep⟩ := checkStep_of_ok h
    exact loop_of_stop hstep
  | case3 s h =>
    obtain ⟨front, -, -, hstep⟩ := checkStep_of_ok h
    exact loop_of_stop hstep
  | case4 s rest h hnil hdot hhead ih =>
    obtain ⟨front, hne, htext, hstep⟩ := checkStep_of_ok h
    obtain ⟨tail, rfl⟩ := List.head?_eq_some_iff.1 hhead
    cases tail with
    | nil => exact absurd rfl hdot
    | cons d tail =>
      have hagain : checkStep s = .ok (.again (d :: tail)) := hstep
      rw [loop_of_again hagain]
      · exact ih
      · rw [htext, utf8Length_append, utf8Length_cons '.']
        have hpos := '.'.utf8Size_pos
        omega
  | case5 s rest h hnil hdot hhead =>
    obtain ⟨front, -, -, hstep⟩ := checkStep_of_ok h
    refine loop_of_stop (hstep.trans ?_)
    split
    · exact absurd rfl hdot
    · exact absurd rfl hhead
    · exact absurd rfl hnil
    · rfl

/-- A check by offsets makes no misstep. -/
theorem faultByOffset?_eq (name : List Char) : faultByOffset? name = .ok (fault? name) := by
  unfold faultByOffset? fault?
  split
  · rfl
  · split
    · rfl
    · exact loop_checkStep name

/-- The check by offsets never missteps, and it gives what the check gives. -/
theorem checkByOffset_eq (role : Role) (name : String) :
    checkByOffset role name = .ok (check role name) := by
  simp only [checkByOffset, check, faultByOffset?_eq, bind, Except.bind]
  cases fault? name.toList <;> rfl

/-- So does the check of an entry of a select list. -/
theorem checkSelectItemByOffset_eq (item : String) :
    checkSelectItemByOffset item = .ok (checkSelectItem item) := by
  unfold checkSelectItemByOffset checkSelectItem
  simp only
  split
  · rfl
  · cases dropEnding? ['.', '*'] (trim item).toList with
    | some table =>
      simp only [checkByOffset_eq, bind, Except.bind]
      rfl
    | none => exact checkByOffset_eq .column _

end TableAccess.Identifier
