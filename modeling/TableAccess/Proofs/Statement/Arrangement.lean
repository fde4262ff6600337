import TableAccess.Proofs.Identifier.Segment
import TableAccess.Proofs.Statement.Literal
import TableAccess.Proofs.Statement.Piece
/-!
# Arranged pieces

The pieces of the statements that are built are arranged: fixed text begins no longer
lexeme, and a name, a literal or a slot is followed by a blank or a mark with which neither
of them could go on.  In arranged pieces the slots are visible unless an identifier opens a
dollar-quoted body.

Main results:

- Theorem `Arranged.append`: pieces that are arranged one after the other.
- Theorem `Arranged.slotsVisible`: the slots of arranged pieces are visible, unless an
  identifier opens a body.
-/

namespace TableAccess.Statement

open Placeholder

/-! ## Arrangement -/

/-- Whether a name, a literal or a slot ends before this text. -/
def Bounds (rest : List Char) : Prop :=
  ∀ c, rest.head? = some c → c ∈ [' ', ',', ')', '=', '.']

/-- Whether text may come from there. -/
def Origin.Admits : Origin → String → Prop
  | fixed, s => IsPlainText s.toList
  | identifier, s => ∃ role, Identifier.check role s = .ok s
  | literal, s => ∃ value : Value, s = value.literal

/-- Whether pieces are arranged. -/
def Arranged : List Piece → Prop
  | [] => True
  | .text origin s :: r => origin.Admits s ∧ (origin ≠ .fixed → Bounds (source r)) ∧ Arranged r
  | .slot name _ :: r => isName name.toList = true ∧ Bounds (source r) ∧ Arranged r

@[simp]
theorem source_nil : source [] = [] :=
  rfl

@[simp]
theorem source_cons (p : Piece) (r : List Piece) : source (p :: r) = p.source ++ source r :=
  rfl

@[simp]
theorem source_append (ps qs : List Piece) : source (ps ++ qs) = source ps ++ source qs :=
  List.flatMap_append

theorem bounds_nil : Bounds [] := by
  intro c hc
  cases hc

/-- What follows is decided by the first text, if there is any. -/
theorem Bounds.append {s rest : List Char} (hs : Bounds s) (hrest : Bounds rest) :
    Bounds (s ++ rest) := by
  cases s with
  | nil => exact hrest
  | cons c r => exact hs

theorem bounds_cons {c : Char} (h : c ∈ [' ', ',', ')', '=', '.']) (r : List Char) :
    Bounds (c :: r) := by
  intro d hd
  obtain rfl := Option.some.inj hd
  exact h

/-- Plain text may stand before arranged pieces. -/
theorem Arranged.fixed {s : String} {r : List Piece} (hs : IsPlainText s.toList)
    (hr : Arranged r) : Arranged (.text .fixed s :: r) :=
  ⟨hs, fun hother => absurd rfl hother, hr⟩

/-- A valid name may stand before arranged pieces if its bounds are kept. -/
theorem Arranged.identifier {role : Identifier.Role} {name result : String} {r : List Piece}
    (hname : Identifier.check role name = .ok result) (hbounds : Bounds (source r))
    (hr : Arranged r) : Arranged (.text .identifier name :: r) := by
  obtain rfl := ((Identifier.check_eq_ok_iff role name result).1 hname).2
  exact ⟨⟨role, hname⟩, fun _ => hbounds, hr⟩

/-- Pieces that are arranged one after the other. -/
theorem Arranged.append {ps qs : List Piece} (hps : Arranged ps) (hqs : Arranged qs)
    (h : Bounds (source qs)) : Arranged (ps ++ qs) := by
  induction ps with
  | nil => exact hqs
  | cons p r ih =>
    have hbounds (hr : Bounds (source r)) : Bounds (source (r ++ qs)) := by
      rw [source_append]
      exact hr.append h
    cases p with
    | text origin s =>
      obtain ⟨hadmits, hother, hr⟩ := hps
      exact ⟨hadmits, fun horigin => hbounds (hother horigin), ih hr⟩
    | slot name value =>
      obtain ⟨hname, hend, hr⟩ := hps
      exact ⟨hname, hbounds hend, ih hr⟩

/-! ## What arranged pieces show -/

/-- No part of a name is a character that bounds. -/
theorem Bounds.not_isNamePart {rest : List Char} (h : Bounds rest) :
    ∀ c, rest.head? = some c → isNamePart c = false := by
  intro c hc
  have hmem := h c hc
  simp only [List.mem_cons, List.not_mem_nil, or_false] at hmem
  rcases hmem with rfl | rfl | rfl | rfl | rfl <;> decide

/-- An identifier ends at a bound. -/
theorem Bounds.ends {rest : List Char} (h : Bounds rest) : Identifier.Ends rest := by
  intro c hc
  have hmem := h c hc
  simp only [List.mem_cons, List.not_mem_nil, or_false] at hmem
  rcases hmem with rfl | rfl | rfl | rfl | rfl <;> decide

/-- The slots of arranged pieces are placeholders that end where the next piece begins. -/
theorem Arranged.separated {ps : List Piece} (h : Arranged ps) : Separated ps := by
  induction ps with
  | nil => trivial
  | cons p r ih =>
    cases p with
    | text origin s => exact ih h.2.2
    | slot name value => exact ⟨h.1, h.2.1.not_isNamePart, ih h.2.2⟩

/-- Text of an arranged piece is passed over, unless it is an identifier that opens a
body. -/
theorem Origin.Admits.passes {origin : Origin} {s : String} (h : origin.Admits s)
    {rest : List Char} (hrest : origin ≠ .fixed → Bounds rest)
    (hbody : origin = .identifier → ¬ Identifier.OpensBody s) : Passes rest s.toList := by
  cases origin with
  | fixed => exact passes_of_plain h rest
  | identifier =>
    obtain ⟨role, hrole⟩ := h
    have hbounds := hrest (by simp)
    exact Identifier.passes_of_not_opensBody hrole (hbody rfl) hbounds.ends
  | literal =>
    obtain ⟨value, rfl⟩ := h
    have hbounds := hrest (by simp)
    refine passes_literal value fun hquote => ?_
    exact absurd (hbounds '\'' hquote) (by decide)

/-- The slots of arranged pieces are visible after a text that is passed over, unless an
identifier opens a body. -/
theorem Arranged.slotsVisible {before : List Char} {ps : List Piece} (h : Arranged ps)
    (hbody : ∀ name ∈ identifiers ps, ¬ Identifier.OpensBody name)
    (hbefore : Passes (source ps) before) : SlotsVisible before ps := by
  induction ps generalizing before with
  | nil => exact hbefore
  | cons p r ih =>
    cases p with
    | text origin s =>
      obtain ⟨hadmits, hbounds, hr⟩ := h
      have htext : Passes (source r) s.toList := hadmits.passes hbounds fun horigin =>
        hbody s (by simp [identifiers, horigin, Piece.identifier?])
      refine ih hr (fun name hname => hbody name ?_) (hbefore.append htext)
      unfold identifiers at hname ⊢
      rw [List.filterMap_cons]
      split
      · exact hname
      · exact List.mem_cons_of_mem _ hname
    | slot name value =>
      obtain ⟨hname, -, hr⟩ := h
      refine ⟨fun rest hstart => ?_, ih hr hbody (passes_nil _)⟩
      exact hbefore.before_placeholder (beginsPlaceholder_slot hname (source r)) hstart

/-! ## Groups with joiners between them -/

/-- Pieces in groups, with a joiner before each group but the first. -/
def joinGroups (joiner : String) : (first : Bool) → List (List Piece) → List Piece
  | _, [] => []
  | first, g :: r =>
    (if first then [] else [.text .fixed joiner]) ++ g ++ joinGroups joiner false r

/-- Groups are written one after the other, with the joiner before all but one. -/
theorem write_joinGroups_cons (s : Statement) (joiner : String) (first : Bool)
    (g : List Piece) (r : List (List Piece)) :
    s.write (joinGroups joiner first (g :: r)) =
      ((if first then s else s.push joiner).write g).write (joinGroups joiner false r) := by
  cases first with
  | true => rw [joinGroups, write_append]; rfl
  | false => rw [joinGroups, write_append]; rfl

/-- Whether a text may stand between groups. -/
def IsJoiner (joiner : String) : Prop :=
  IsPlainText joiner.toList ∧ ∃ c ∈ [' ', ','], joiner.toList.head? = some c

/-- A joiner bounds what stands before it. -/
theorem IsJoiner.bounds {joiner : String} (h : IsJoiner joiner) (rest : List Char) :
    Bounds (joiner.toList ++ rest) := by
  obtain ⟨-, c, hc, hhead⟩ := h
  intro d hd
  rw [List.head?_append, hhead] at hd
  obtain rfl := Option.some.inj hd
  simp only [List.mem_cons, List.not_mem_nil, or_false] at hc
  rcases hc with rfl | rfl <;> decide

/-- Later groups begin with a joiner. -/
theorem IsJoiner.bounds_joinGroups {joiner : String} (h : IsJoiner joiner)
    (groups : List (List Piece)) : Bounds (source (joinGroups joiner false groups)) := by
  cases groups with
  | nil => exact bounds_nil
  | cons g r =>
    have := h.bounds (source (g ++ joinGroups joiner false r))
    simpa [joinGroups, Piece.source] using this

/-- Groups that are arranged are arranged together. -/
theorem arranged_joinGroups {joiner : String} (hjoiner : IsJoiner joiner) (first : Bool)
    {groups : List (List Piece)} (h : ∀ g ∈ groups, Arranged g) :
    Arranged (joinGroups joiner first groups) := by
  induction groups generalizing first with
  | nil => trivial
  | cons g r ih =>
    have hr : Arranged (joinGroups joiner false r) := ih false fun g hg => h g (by simp [hg])
    have hg : Arranged (g ++ joinGroups joiner false r) :=
      (h g (by simp)).append hr (hjoiner.bounds_joinGroups r)
    cases first with
    | true => simpa [joinGroups] using hg
    | false =>
      have hall : Arranged (.text .fixed joiner :: (g ++ joinGroups joiner false r)) :=
        ⟨hjoiner.1, by simp, hg⟩
      simpa [joinGroups] using hall

end TableAccess.Statement
