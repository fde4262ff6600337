import TableAccess.Identifier
import TableAccess.Statement
/-!
# Clauses

The parts of a statement that narrow it: conditions, order and page.  Conditions come
either from SQL fragments, which are appended as they are while the entries of the filter
are bound by name, or from the entries, each of which becomes one condition.

Main results:

- Theorem `pushComparison_null`: an equality with null is written as a test for null.
- Theorem `pushWhere_empty`: an empty filter writes nothing.
-/

namespace TableAccess.Statement

/-! ## Conditions -/

/-- Append an operand, as a placeholder or as a literal. -/
def pushOperand (style : OperandStyle) (s : Statement) (operand : Value) : Statement :=
  match style with
  | .parameterized => s.pushGenerated operand
  | .inline => s.push operand.literal

/-- The test for null that stands for a comparison with null. -/
def nullTest? (comparison : Comparison) : Option String :=
  match comparison.operand, comparison.operator with
  | .null, .equal => some " IS NULL"
  | .null, .notEqual => some " IS NOT NULL"
  | _, _ => none

/-- Append the comparison of a column. -/
def pushComparison (style : OperandStyle) (s : Statement) (column : String)
    (comparison : Comparison) : Statement :=
  match nullTest? comparison with
  | some test => (s.push column).push test
  | none =>
    pushOperand style
      ((((s.push column).push " ").push comparison.operator.sql).push " ") comparison.operand

/-- Append entries as conditions.  `joiner` is written before each one but the first. -/
def pushConditions (style : OperandStyle) (joiner : String) :
    (first : Bool) → List (String × Value) → Statement → Except AccessError Statement
  | _, [], s => .ok s
  | first, (key, value) :: r, s => do
    let entry := Comparison.ofEntry key value
    let column ← Identifier.checkColumn entry.1
    let s := if first then s else s.push joiner
    pushConditions style joiner false r (s.pushComparison style column entry.2)

/-- Append SQL fragments with a joiner between them. -/
def pushFragments (joiner : String) : List String → Statement → Statement
  | [], s => s
  | f :: r, s => r.foldl (fun s f => (s.push joiner).push f) (s.push f)

/-- A name without the colons at its front. -/
def bareName (name : String) : String :=
  String.ofList (name.toList.dropWhile (· == ':'))

/-- The error for a sign on a name that a fragment may use. -/
def signedName (name : String) : AccessError :=
  .validation
    ("sign prefix on '" ++ name ++ "' cannot be used with raw filter fragments")

/-- Bind entries by name for SQL fragments.  Values that were bound before are kept. -/
def bindEntries : List (String × Value) → Statement → Noted Statement
  | [], s => Pure.pure s
  | (key, value) :: r, s => do
    let name := bareName key
    if (Operator.ofSigned? name).isSome then
      Noted.ofExcept (.error (signedName name))
    else
      let s ← s.bindIfAbsent name value
      bindEntries r s

/-- Append the conditions of a filter, if it has any. -/
def pushWhere (style : OperandStyle) (filter : Filter) (s : Statement) : Noted Statement :=
  let joiner := " " ++ filter.joiner.sql ++ " "
  if filter.isEmpty then
    Pure.pure s
  else if filter.hasFragments then
    bindEntries filter.values.entries (pushFragments joiner filter.liveFragments (s.push " WHERE "))
  else
    Noted.ofExcept (pushConditions style joiner true filter.values.entries (s.push " WHERE "))

/-! ## Order and page -/

/-- Append the terms of an order.  A comma is written before each one but the first. -/
def pushTerms : (first : Bool) → List (String × Direction) → Statement →
    Except AccessError Statement
  | _, [], s => .ok s
  | first, (name, direction) :: r, s => do
    let column ← Identifier.checkColumn name
    let s := if first then s else s.push ", "
    pushTerms false r (((s.push column).push " ").push direction.sql)

/-- Append an order that is not empty. -/
def pushOrder (order : Order) (s : Statement) : Except AccessError Statement :=
  pushTerms true order.terms (s.push " ORDER BY ")

/-- Append a page. -/
def pushPage (page : Page) (s : Statement) : Statement :=
  s.push (" LIMIT " ++ page.limit.sql ++ " OFFSET " ++ Text.natText page.offset)

/-! ## Special cases -/

/-- An equality with null is written as a test for null. -/
theorem pushComparison_null (style : OperandStyle) (s : Statement) (column : String) :
    s.pushComparison style column ⟨.equal, .null⟩ = (s.push column).push " IS NULL" :=
  rfl

/-- An empty filter writes nothing. -/
theorem pushWhere_empty (style : OperandStyle) {filter : Filter} (h : filter.isEmpty = true)
    (s : Statement) : pushWhere style filter s = Pure.pure s := by
  simp [pushWhere, h]

end TableAccess.Statement
