import TableAccess.Proofs.Statement.Shown
/-!
# Conditions of filter entries

The longest sign at the front of a key chooses the operator, and the value is the operand as it
is.  Only if the key has no sign a text value is looked at: then the longest sign at its front
chooses the operator, and the text after the sign is the operand.  The resulting comparison is
written as a column, an operator and one operand, unless it is an equality or an inequality with
null.

Main results:

- Theorem `splitSign_eq_some_iff`: what is split off a text is the longest sign at its front.
- Theorem `ofEntry_eq_iff`: the comparison that an entry stands for.
- Theorem `writesCondition_pushComparison`: the condition that a comparison is written as.
-/

namespace TableAccess

namespace Operator

/-! ## The longest sign -/

/-- Whether a sign of an operator is the longest sign at the front of a text, and what follows
it. -/
structure SignedBy (s : List Char) (operator : Operator) (sign rest : List Char) : Prop where
  mem : sign ∈ operator.signs
  text : s = sign ++ rest
  longest : ∀ other : Operator, ∀ candidate ∈ other.signs, candidate <+: s →
    candidate.length ≤ sign.length

/-- Whether no sign stands at the front of a text. -/
def Unsigned (s : List Char) : Prop :=
  ∀ operator : Operator, ∀ sign ∈ operator.signs, ¬ sign <+: s

section Sign

variable {operator : Operator} {sign : List Char} (mem : sign ∈ operator.signs)
include mem

/-- The signs, each with its operator. -/
theorem signs_cases :
    (sign = ['!'] ∧ operator = .notEqual) ∨ (sign = ['!', '='] ∧ operator = .notEqual) ∨
    (sign = ['!', '%'] ∧ operator = .notLike) ∨ (sign = ['<'] ∧ operator = .less) ∨
    (sign = ['<', '='] ∧ operator = .atMost) ∨ (sign = ['>'] ∧ operator = .greater) ∨
    (sign = ['>', '='] ∧ operator = .atLeast) ∨ (sign = ['%'] ∧ operator = .like) := by
  cases operator with
  | equal => cases mem
  | _ => simpa [signs] using mem

/-- No operator shares a sign with another one. -/
theorem eq_of_mem_signs {other : Operator} (h : sign ∈ other.signs) : other = operator := by
  rcases signs_cases mem with ⟨rfl, rfl⟩ | ⟨rfl, rfl⟩ | ⟨rfl, rfl⟩ | ⟨rfl, rfl⟩ | ⟨rfl, rfl⟩ |
    ⟨rfl, rfl⟩ | ⟨rfl, rfl⟩ | ⟨rfl, rfl⟩
  all_goals simpa using signs_cases h

/-- A sign has one or two characters. -/
theorem length_sign : sign.length = 1 ∨ sign.length = 2 := by
  rcases signs_cases mem with ⟨rfl, -⟩ | ⟨rfl, -⟩ | ⟨rfl, -⟩ | ⟨rfl, -⟩ | ⟨rfl, -⟩ | ⟨rfl, -⟩ |
    ⟨rfl, -⟩ | ⟨rfl, -⟩
  all_goals simp

/-- A sign of two characters is split off, whatever follows it. -/
theorem splitSign_of_two (two : sign.length = 2) (rest : List Char) :
    splitSign (sign ++ rest) = some (operator, rest) := by
  rcases signs_cases mem with ⟨rfl, rfl⟩ | ⟨rfl, rfl⟩ | ⟨rfl, rfl⟩ | ⟨rfl, rfl⟩ | ⟨rfl, rfl⟩ |
    ⟨rfl, rfl⟩ | ⟨rfl, rfl⟩ | ⟨rfl, rfl⟩
  all_goals first | rfl | cases two

/-- A text with a sign at its front is split. -/
theorem splitSign_ne_none (rest : List Char) : splitSign (sign ++ rest) ≠ none := by
  unfold splitSign
  rcases signs_cases mem with ⟨rfl, -⟩ | ⟨rfl, -⟩ | ⟨rfl, -⟩ | ⟨rfl, -⟩ | ⟨rfl, -⟩ | ⟨rfl, -⟩ |
    ⟨rfl, -⟩ | ⟨rfl, -⟩
  all_goals
    split
    all_goals simp_all

end Sign

section Split

variable {s sign sign' rest rest' : List Char} {operator operator' : Operator}

/-- A text has only one longest sign. -/
theorem SignedBy.unique (h : SignedBy s operator sign rest)
    (h' : SignedBy s operator' sign' rest') : operator = operator' ∧ rest = rest' := by
  have hlength : sign.length = sign'.length :=
    Nat.le_antisymm (h'.longest _ _ h.mem ⟨rest, h.text.symm⟩)
      (h.longest _ _ h'.mem ⟨rest', h'.text.symm⟩)
  obtain ⟨rfl, hrest⟩ := List.append_inj (h.text.symm.trans h'.text) hlength
  exact ⟨eq_of_mem_signs h'.mem h.mem, hrest⟩

/-- What is split off a text is the longest sign at its front. -/
theorem exists_signedBy (h : splitSign s = some (operator, rest)) :
    ∃ sign, SignedBy s operator sign rest := by
  obtain ⟨sign, hmem, htext⟩ := splitSign_append h
  refine ⟨sign, hmem, htext, fun other candidate hcandidate hfront => ?_⟩
  have hpos := length_sign hmem
  rcases length_sign hcandidate with hone | htwo
  · omega
  · obtain ⟨t, rfl⟩ := hfront
    rw [splitSign_of_two hcandidate htwo] at h
    obtain ⟨-, rfl⟩ := Prod.mk.injEq .. ▸ Option.some.inj h
    exact Nat.le_of_eq (congrArg List.length (List.append_cancel_right htext))

/-- Nothing is split off a text exactly if no sign stands at its front. -/
theorem splitSign_eq_none_iff : splitSign s = none ↔ Unsigned s := by
  constructor
  · rintro h operator sign hmem ⟨rest, rfl⟩
    exact splitSign_ne_none hmem rest h
  · intro h
    cases hsplit : splitSign s with
    | none => rfl
    | some p =>
      obtain ⟨sign, hsigned⟩ := exists_signedBy hsplit
      exact absurd ⟨p.2, hsigned.text.symm⟩ (h p.1 sign hsigned.mem)

/-- What is split off a text is the longest sign at its front. -/
theorem splitSign_eq_some_iff :
    splitSign s = some (operator, rest) ↔ ∃ sign, SignedBy s operator sign rest := by
  refine ⟨exists_signedBy, ?_⟩
  rintro ⟨sign, h⟩
  cases hsplit : splitSign s with
  | none => exact absurd ⟨rest, h.text.symm⟩ (splitSign_eq_none_iff.1 hsplit operator sign h.mem)
  | some p =>
    obtain ⟨other, hother⟩ := exists_signedBy hsplit
    obtain ⟨hoperator, hrest⟩ := hother.unique h
    rw [← hoperator, ← hrest]

end Split

theorem ofSigned?_eq_none_iff (s : String) : ofSigned? s = none ↔ Unsigned s.toList := by
  rw [ofSigned?, Option.map_eq_none_iff, splitSign_eq_none_iff]

theorem ofSigned?_eq_some_iff (s : String) (operator : Operator) (rest : String) :
    ofSigned? s = some (operator, rest) ↔
      ∃ sign, SignedBy s.toList operator sign rest.toList := by
  rw [ofSigned?, ← splitSign_eq_some_iff, Option.map_eq_some_iff]
  constructor
  · rintro ⟨⟨operator, rest⟩, hsplit, h⟩
    obtain ⟨rfl, rfl⟩ := Prod.mk.injEq .. ▸ h
    rw [String.toList_ofList]
    exact hsplit
  · intro h
    exact ⟨_, h, by rw [String.ofList_toList]⟩

end Operator

/-! ## Comparisons of entries -/

namespace Comparison

open Operator

/-- Whether an entry with a key and a value stands for the comparison of a column. -/
inductive StandsFor (key : String) (value : Value) : String → Comparison → Prop where
  /-- The key has a sign: the value is the operand, whatever text it may be. -/
  | keyed {operator : Operator} {sign : List Char} {column : String}
      (signed : SignedBy key.toList operator sign column.toList)
      (kept : operator.isPattern = false ∨ value.isNull = true) :
      StandsFor key value column ⟨operator, value⟩
  /-- The key has the sign of a pattern: the text of the value is enclosed in percent signs. -/
  | keyedPattern {operator : Operator} {sign : List Char} {column : String}
      (signed : SignedBy key.toList operator sign column.toList)
      (pattern : operator.isPattern = true) (present : value.isNull = false) :
      StandsFor key value column ⟨operator, .text ("%" ++ value.display ++ "%")⟩
  /-- Only the value has a sign: the text after the sign is the operand. -/
  | signed {operator : Operator} {sign : List Char} {text rest : String}
      (unsigned : Unsigned key.toList) (isText : value = .text text)
      (signed : SignedBy text.toList operator sign rest.toList)
      (kept : operator.isPattern = false) : StandsFor key value key ⟨operator, .text rest⟩
  /-- Only the value has a sign, and it is that of a pattern. -/
  | signedPattern {operator : Operator} {sign : List Char} {text rest : String}
      (unsigned : Unsigned key.toList) (isText : value = .text text)
      (signed : SignedBy text.toList operator sign rest.toList)
      (pattern : operator.isPattern = true) :
      StandsFor key value key ⟨operator, .text ("%" ++ rest ++ "%")⟩
  /-- There is no sign: the value itself is compared for equality. -/
  | plain (unsigned : Unsigned key.toList)
      (bare : ∀ text, value = .text text → Unsigned text.toList) :
      StandsFor key value key ⟨.equal, value⟩

/-- The value is the operand unless it is a pattern. -/
theorem keyedOperand_of_kept {operator : Operator} {value : Value}
    (kept : operator.isPattern = false ∨ value.isNull = true) :
    keyedOperand operator value = value := by
  unfold keyedOperand
  rcases kept with hplain | hnull
  · rw [if_neg (by simp [hplain])]
  · cases value <;> simp_all [Value.isNull]

/-- A pattern is the text of the value between percent signs. -/
theorem keyedOperand_of_pattern {operator : Operator} {value : Value}
    (pattern : operator.isPattern = true) (present : value.isNull = false) :
    keyedOperand operator value = .text ("%" ++ value.display ++ "%") := by
  unfold keyedOperand
  rw [if_pos pattern]
  cases value with
  | null => cases present
  | _ => rfl

section Entry

variable {key : String} {value : Value} {column : String} {comparison : Comparison}

/-- The comparison that an entry stands for is the one that it is read as. -/
theorem StandsFor.ofEntry_eq (h : StandsFor key value column comparison) :
    ofEntry key value = (column, comparison) := by
  cases h with
  | keyed signed kept =>
    have hkey := (ofSigned?_eq_some_iff _ _ _).2 ⟨_, signed⟩
    simp only [ofEntry, hkey, keyedOperand_of_kept kept]
  | keyedPattern signed pattern present =>
    have hkey := (ofSigned?_eq_some_iff _ _ _).2 ⟨_, signed⟩
    simp only [ofEntry, hkey, keyedOperand_of_pattern pattern present]
  | signed unsigned isText signed kept =>
    have hkey := (ofSigned?_eq_none_iff key).2 unsigned
    have htext := (ofSigned?_eq_some_iff _ _ _).2 ⟨_, signed⟩
    simp [ofEntry, hkey, isText, ofValue, htext, kept]
  | signedPattern unsigned isText signed pattern =>
    have hkey := (ofSigned?_eq_none_iff key).2 unsigned
    have htext := (ofSigned?_eq_some_iff _ _ _).2 ⟨_, signed⟩
    simp [ofEntry, hkey, isText, ofValue, htext, pattern, Comparison.pattern]
  | plain unsigned bare =>
    have hkey := (ofSigned?_eq_none_iff key).2 unsigned
    simp only [ofEntry, hkey, Prod.mk.injEq, true_and]
    cases value with
    | text s => simp only [ofValue, (ofSigned?_eq_none_iff s).2 (bare s rfl)]
    | _ => exact ofValue_of_not_text rfl

/-- Every entry stands for a comparison. -/
theorem exists_standsFor (key : String) (value : Value) :
    ∃ column comparison, StandsFor key value column comparison := by
  cases hkey : ofSigned? key with
  | some p =>
    obtain ⟨sign, hsigned⟩ := (ofSigned?_eq_some_iff key p.1 p.2).1 hkey
    cases hpattern : p.1.isPattern with
    | false => exact ⟨_, _, .keyed hsigned (.inl hpattern)⟩
    | true =>
      cases hnull : value.isNull with
      | true => exact ⟨_, _, .keyed hsigned (.inr hnull)⟩
      | false => exact ⟨_, _, .keyedPattern hsigned hpattern hnull⟩
  | none =>
    have hunsigned := (ofSigned?_eq_none_iff key).1 hkey
    cases htext : value.text?.bind ofSigned? with
    | none =>
      refine ⟨_, _, .plain hunsigned ?_⟩
      rintro text rfl
      exact (ofSigned?_eq_none_iff text).1 htext
    | some p =>
      obtain ⟨text, hvalue, hsplit⟩ := Option.bind_eq_some_iff.1 htext
      have hisText : value = .text text := by
        cases value <;> simp_all [Value.text?]
      obtain ⟨sign, hsigned⟩ := (ofSigned?_eq_some_iff text p.1 p.2).1 hsplit
      cases hpattern : p.1.isPattern with
      | false => exact ⟨_, _, .signed hunsigned hisText hsigned hpattern⟩
      | true => exact ⟨_, _, .signedPattern hunsigned hisText hsigned hpattern⟩

/-- The comparison that an entry stands for. -/
theorem ofEntry_eq_iff :
    ofEntry key value = (column, comparison) ↔ StandsFor key value column comparison := by
  refine ⟨fun h => ?_, StandsFor.ofEntry_eq⟩
  obtain ⟨column', comparison', hstands⟩ := exists_standsFor key value
  obtain ⟨rfl, rfl⟩ := Prod.mk.injEq .. ▸ hstands.ofEntry_eq.symm.trans h
  exact hstands

end Entry

/-- The sign of the key is used before that of the value. -/
example : ofEntry "!%name" (.text ">=5") = ("name", ⟨.notLike, .text "%>=5%"⟩) := by cbv

end Comparison

/-! ## Conditions of comparisons -/

namespace Statement

/-- What the comparison of a column adds to a statement `s`, `t` being the statement with the
condition.  It is a test for null exactly if it is an equality or an inequality with null, and
otherwise the column, the operator and one operand. -/
structure WritesCondition (style : OperandStyle) (s : Statement) (column : String)
    (comparison : Comparison) (t : Statement) : Prop where
  isNull : t.sql = s.sql ++ (column ++ " IS NULL") ↔ comparison = ⟨.equal, .null⟩
  isNotNull : t.sql = s.sql ++ (column ++ " IS NOT NULL") ↔ comparison = ⟨.notEqual, .null⟩
  test : comparison.testsNull = true → t.binds = s.binds ∧ t.generated = s.generated
  inline : comparison.testsNull = false → style = .inline →
    t = s.push (column ++ " " ++ comparison.operator.sql ++ " " ++ comparison.operand.literal)
  parameterized : comparison.testsNull = false → style = .parameterized →
    let name := generatedName s.generated
    t = ⟨s.sql ++ (column ++ " " ++ comparison.operator.sql ++ " :" ++ name),
      s.binds.insert name comparison.operand, s.generated + 1⟩

/-- A comparison is a test for null or has an operand. -/
theorem comparison_cases (comparison : Comparison) :
    comparison = ⟨.equal, .null⟩ ∨ comparison = ⟨.notEqual, .null⟩ ∨
      (comparison.testsNull = false ∧ nullTest? comparison = none) := by
  obtain ⟨operator, v⟩ := comparison
  cases v <;> cases operator <;> simp [Comparison.testsNull, nullTest?, Value.isNull]

/-- What is written for a comparison with an operand. -/
theorem exists_operandText {comparison : Comparison} (h : nullTest? comparison = none)
    (style : OperandStyle) (s : Statement) (column : String) :
    ∃ operand, (s.pushComparison style column comparison).sql =
      s.sql ++ (column ++ (" " ++ (comparison.operator.sql ++ " " ++ operand))) := by
  unfold pushComparison
  rw [h]
  cases style with
  | inline => exact ⟨comparison.operand.literal, by simp [pushOperand, String.append_assoc]⟩
  | parameterized =>
    exact ⟨":" ++ generatedName s.generated,
      by simp [pushOperand, pushGenerated, String.append_assoc]⟩

/-- No operator with its operand reads like a test for null. -/
theorem operator_ne_test (operator : Operator) (operand test : String) :
    " " ++ (operator.sql ++ " " ++ operand) ≠ " I" ++ test := by
  intro h
  have hchars := congrArg String.toList h
  have htest : (" I" ++ test).toList = ' ' :: 'I' :: test.toList := String.toList_append
  rw [htest, String.toList_append, String.toList_append] at hchars
  exact sql_ne_test operator operand.toList test.toList hchars

/-- The condition that a comparison is written as. -/
theorem writesCondition_pushComparison (style : OperandStyle) (s : Statement) (column : String)
    (comparison : Comparison) :
    WritesCondition style s column comparison (s.pushComparison style column comparison) := by
  rcases comparison_cases comparison with rfl | rfl | ⟨hoperand, hnull⟩
  · refine ⟨iff_of_true (String.append_assoc ..) rfl, iff_of_false (fun h => ?_) (by simp),
      fun _ => ⟨rfl, rfl⟩, nofun, nofun⟩
    have htexts := h.symm.trans (String.append_assoc ..)
    simp at htexts
  · refine ⟨iff_of_false (fun h => ?_) (by simp), iff_of_true (String.append_assoc ..) rfl,
      fun _ => ⟨rfl, rfl⟩, nofun, nofun⟩
    have htexts := h.symm.trans (String.append_assoc ..)
    simp at htexts
  · obtain ⟨operand, hsql⟩ := exists_operandText hnull style s column
    have hne : ∀ test, (s.pushComparison style column comparison).sql ≠
        s.sql ++ (column ++ (" I" ++ test)) := by
      intro test h
      rw [hsql, String.append_right_inj, String.append_right_inj] at h
      exact operator_ne_test _ _ _ h
    refine ⟨iff_of_false (hne "S NULL") ?_, iff_of_false (hne "S NOT NULL") ?_, ?_, ?_, ?_⟩
    · rintro rfl
      cases hoperand
    · rintro rfl
      cases hoperand
    · intro htest
      rw [hoperand] at htest
      cases htest
    · rintro - rfl
      simp only [pushComparison, hnull, pushOperand, push, String.append_assoc]
    · rintro - rfl
      simp only [pushComparison, hnull, pushOperand, pushGenerated, pushPlaceholder, bind, push,
        String.append_assoc]
      rfl

end Statement

end TableAccess
