import TableAccess.Placeholder.Token
import TableAccess.Statement
/-!
# Positional statements

The server knows only numbered parameters.  Every placeholder of a statement is replaced
by a dollar sign and the number of its name, names being numbered in the order of their
first appearance; all other text is kept.

Main results:

- Theorem `place_extends`: numbering a text only adds names.
- Theorem `compile_names`: the parameters of a compiled statement are the values bound to
  its names, in order.
-/

namespace TableAccess

/-- A statement with numbered parameters. -/
structure Positional where
  sql : String
  parameters : List Value
  names : List String

namespace Positional

open Placeholder

/-! ## Numbering -/

/-- The parameter with a number, counted from zero, as it is written. -/
def parameterText (position : Nat) : List Char :=
  '$' :: Text.natDigits (position + 1)

/-- The text of tokens with numbered parameters, and all names, given the names that have
numbers already. -/
def place : List String → List Token → List Char × List String
  | names, [] => ([], names)
  | names, .verbatim text :: r =>
    let p := place names r
    (text ++ p.1, p.2)
  | names, .placeholder name :: r =>
    match names.idxOf? (String.ofList name) with
    | some position =>
      let p := place names r
      (parameterText position ++ p.1, p.2)
    | none =>
      let p := place (names ++ [String.ofList name]) r
      (parameterText names.length ++ p.1, p.2)

/-- Numbering a text only adds names. -/
theorem place_extends (names : List String) (ts : List Token) : names <+: (place names ts).2 := by
  induction ts generalizing names with
  | nil => exact List.prefix_refl names
  | cons t r ih =>
    cases t with
    | verbatim text => exact ih names
    | placeholder name =>
      unfold place
      split
      · exact ih names
      · exact (List.prefix_append names _).trans (ih _)

/-! ## Values -/

/-- The error for a placeholder without a value. -/
def unbound (name : String) : AccessError :=
  .bind ("no value bound for placeholder :" ++ name)

/-- The values bound to names, or the error for the first name without one. -/
def lookUp (binds : Row) : List String → Except AccessError (List Value)
  | [] => .ok []
  | name :: r =>
    match binds.find? name with
    | none => .error (unbound name)
    | some value => (lookUp binds r).map (value :: ·)

/-- The positional form of a statement. -/
def compile (s : Statement) : Except AccessError Positional :=
  let p := place [] (tokens s.sql.toList)
  (lookUp s.binds p.2).map fun parameters => ⟨String.ofList p.1, parameters, p.2⟩

/-- The bound names that a positional statement does not use, in the order of binding. -/
def unreferenced (s : Statement) (compiled : Positional) : List String :=
  s.binds.names.filter fun name => !compiled.names.contains name

/-- The positional form of a statement, with a notice for every bound name that is not
used. -/
def compileNoted (s : Statement) : Noted Positional :=
  match compile s with
  | .error e => ⟨.error e, []⟩
  | .ok compiled => ⟨.ok compiled, (unreferenced s compiled).map .unreferenced⟩

/-! ## What is compiled -/

/-- Notices do not change what a statement is compiled into. -/
@[simp]
theorem result_compileNoted (s : Statement) : (compileNoted s).result = compile s := by
  unfold compileNoted
  split <;> simp_all

/-- Values are found for all names, in their order. -/
theorem lookUp_eq_ok_iff (binds : Row) (names : List String) (values : List Value) :
    lookUp binds names = .ok values ↔ names.map binds.find? = values.map some := by
  induction names generalizing values with
  | nil => cases values <;> simp [lookUp]
  | cons name r ih =>
    simp only [lookUp]
    cases hfind : binds.find? name with
    | none => cases values <;> simp [hfind]
    | some value =>
      cases hr : lookUp binds r with
      | error e =>
        simp only [Except.map, reduceCtorEq, false_iff]
        intro h
        cases values with
        | nil => simp at h
        | cons w ws =>
          simp only [List.map_cons, List.cons.injEq] at h
          exact absurd ((ih ws).2 h.2) (by simp [hr])
      | ok rest =>
        simp only [Except.map, Except.ok.injEq]
        have hrest := (ih rest).1 hr
        cases values with
        | nil => simp
        | cons w ws =>
          simp only [List.cons.injEq, List.map_cons, hfind, Option.some.injEq, hrest]
          refine and_congr_right fun _ => ⟨fun h => by rw [h], fun h => ?_⟩
          exact (List.map_inj_right fun _ _ => Option.some.inj).1 h

/-- A compiled statement has the names that have numbers, and their values. -/
theorem compile_steps {s : Statement} {compiled : Positional} (h : compile s = .ok compiled) :
    compiled.names = (place [] (tokens s.sql.toList)).2 ∧
      lookUp s.binds compiled.names = .ok compiled.parameters := by
  unfold compile at h
  simp only at h
  cases hlook : lookUp s.binds (place [] (tokens s.sql.toList)).2 with
  | error e => simp [hlook, Except.map] at h
  | ok values =>
    rw [hlook] at h
    obtain rfl := Except.ok.inj h
    exact ⟨rfl, hlook⟩

/-- The parameters of a compiled statement are the values bound to its names, in order. -/
theorem compile_names {s : Statement} {compiled : Positional} (h : compile s = .ok compiled) :
    compiled.names.map s.bound? = compiled.parameters.map some :=
  (lookUp_eq_ok_iff _ _ _).1 (compile_steps h).2

end Positional

end TableAccess
