import Mathlib.Data.List.Basic
/-!
# Joined texts

The text of a part shows some view of the part if it can be told from what follows it: parts
whose texts stand at the front of one text have one view.  So does the text of a list of parts,
if it is known what stands between the parts and what follows the list cannot be taken for
that.

Main results:

- Theorem `Separates.eq_of_later`: the later parts of a list are read in one way.
- Theorem `Separates.eq_of_joinedBy`: so is a list of parts with separators between them.
-/

namespace TableAccess.Text

/-- Texts with a separator before each of them. -/
def later (separator : List Char) (texts : List (List Char)) : List Char :=
  texts.flatMap (separator ++ ·)

/-- Texts with a separator between them. -/
def joinedBy (separator : List Char) : List (List Char) → List Char
  | [] => []
  | s :: r => s ++ later separator r

/-- Later texts, the first one and the others, before what follows. -/
theorem later_cons_append (separator s : List Char) (texts : List (List Char)) (u : List Char) :
    later separator (s :: texts) ++ u = separator ++ (s ++ (later separator texts ++ u)) := by
  simp [later]

/-- Whether the text of a part shows a view of it wherever it stands at the front of a text, if
what follows may stand after parts. -/
def Shows {α β : Type} (part : α → Prop) (text : α → List Char) (view : α → β)
    (after : List Char → Prop) : Prop :=
  ∀ {a b u v}, part a → part b → after u → after v → text a ++ u = text b ++ v →
    view a = view b ∧ u = v

/-- Whether these separators can be told from each other and from what follows a list, and
separators and what follows the list may stand after a part. -/
structure Separates (separator stop after : List Char → Prop) : Prop where
  eq_of_append : ∀ {a b s t}, separator a → separator b → a ++ s = b ++ t → a = b
  not_stop : ∀ {a s}, separator a → ¬ stop (a ++ s)
  after_append : ∀ {a} s, separator a → after (a ++ s)
  after_stop : ∀ {u}, stop u → after u

section Lists

variable {separator stop after : List Char → Prop}
  (hseparates : Separates separator stop after)
include hseparates

/-- After a text comes a separator, or what follows the last one. -/
theorem Separates.after_later {a u : List Char} (ha : separator a) (hu : stop u)
    (texts : List (List Char)) : after (later a texts ++ u) := by
  cases texts with
  | nil => exact hseparates.after_stop hu
  | cons s r =>
    rw [later_cons_append]
    exact hseparates.after_append _ ha

variable {α β : Type} {part : α → Prop} {text : α → List Char} {view : α → β}
  (hshows : Shows part text view after)
include hshows

/-- The later parts of a list are read in one way. -/
theorem Separates.eq_of_later {xs ys : List α} (hxs : ∀ x ∈ xs, part x) (hys : ∀ y ∈ ys, part y)
    {a b u v : List Char} (ha : separator a) (hb : separator b) (hu : stop u) (hv : stop v)
    (h : later a (xs.map text) ++ u = later b (ys.map text) ++ v) :
    xs.map view = ys.map view ∧ u = v ∧ (xs ≠ [] → a = b) := by
  induction xs generalizing ys with
  | nil =>
    cases ys with
    | nil => exact ⟨rfl, h, fun hne => absurd rfl hne⟩
    | cons y ys =>
      rw [List.map_cons, later_cons_append] at h
      change u = _ at h
      exact absurd (h ▸ hu) (hseparates.not_stop hb)
  | cons x xs ih =>
    rw [List.map_cons, later_cons_append] at h
    cases ys with
    | nil =>
      change _ = v at h
      exact absurd (h ▸ hv) (hseparates.not_stop ha)
    | cons y ys =>
      rw [List.map_cons, later_cons_append] at h
      have hab := hseparates.eq_of_append ha hb h
      subst hab
      obtain ⟨hview, hrest⟩ := hshows (hxs x (by simp)) (hys y (by simp))
        (hseparates.after_later ha hu _) (hseparates.after_later ha hv _)
        (List.append_cancel_left h)
      obtain ⟨hviews, huv, -⟩ := ih (fun x hx => hxs x (by simp [hx]))
        (fun y hy => hys y (by simp [hy])) hrest
      exact ⟨by rw [List.map_cons, List.map_cons, hview, hviews], huv, fun _ => rfl⟩

/-- A list of parts with separators between them is read in one way. -/
theorem Separates.eq_of_joinedBy {xs ys : List α} (hxs : ∀ x ∈ xs, part x)
    (hys : ∀ y ∈ ys, part y) (hx : xs ≠ []) (hy : ys ≠ []) {a b u v : List Char}
    (ha : separator a) (hb : separator b) (hu : stop u) (hv : stop v)
    (h : joinedBy a (xs.map text) ++ u = joinedBy b (ys.map text) ++ v) :
    xs.map view = ys.map view ∧ u = v ∧ (2 ≤ xs.length → a = b) := by
  cases xs with
  | nil => exact absurd rfl hx
  | cons x xs =>
    cases ys with
    | nil => exact absurd rfl hy
    | cons y ys =>
      rw [List.map_cons, List.map_cons, joinedBy, joinedBy, List.append_assoc,
        List.append_assoc] at h
      obtain ⟨hview, hrest⟩ := hshows (hxs x (by simp)) (hys y (by simp))
        (hseparates.after_later ha hu _) (hseparates.after_later hb hv _) h
      obtain ⟨hviews, huv, hab⟩ := hseparates.eq_of_later hshows (fun x hx => hxs x (by simp [hx]))
        (fun y hy => hys y (by simp [hy])) ha hb hu hv hrest
      refine ⟨by rw [List.map_cons, List.map_cons, hview, hviews], huv, fun hlength => hab ?_⟩
      rintro rfl
      simp at hlength

end Lists

end TableAccess.Text
