import TableAccess.Notice
/-!
# Results with notices

Building a statement gives a result or an error, and on the way it may give notices.
The notices that came before an error are kept.

Main results:

- Theorem `result_bind`: the result of two steps does not depend on the notices.
- Theorem `notices_bind`: the notices of two steps come one after the other.
-/

namespace TableAccess

/-- A result or an error, with the notices given on the way. -/
structure Noted (α : Type) where
  result : Except AccessError α
  notices : List Notice

namespace Noted

variable {α β : Type}

/-- A result without notices. -/
def pure (a : α) : Noted α := ⟨.ok a, []⟩

/-- Continue with a result, if there is one. -/
def bind (x : Noted α) (f : α → Noted β) : Noted β :=
  match x.result with
  | .ok a => ⟨(f a).result, x.notices ++ (f a).notices⟩
  | .error e => ⟨.error e, x.notices⟩

instance : Monad Noted where
  pure := pure
  bind := bind

/-- A result that gives no notices. -/
def ofExcept (result : Except AccessError α) : Noted α := ⟨result, []⟩

instance : MonadLift (Except AccessError) Noted := ⟨ofExcept⟩

/-- Give a notice. -/
def give (notice : Notice) : Noted Unit := ⟨.ok (), [notice]⟩

/-- Give a notice if a condition holds. -/
def giveIf (condition : Bool) (notice : Notice) : Noted Unit :=
  ⟨.ok (), if condition then [notice] else []⟩

@[simp]
theorem result_pure (a : α) : (Pure.pure a : Noted α).result = .ok a :=
  rfl

@[simp]
theorem notices_pure (a : α) : (Pure.pure a : Noted α).notices = [] :=
  rfl

@[simp]
theorem result_ofExcept (result : Except AccessError α) : (ofExcept result).result = result :=
  rfl

@[simp]
theorem notices_ofExcept (result : Except AccessError α) : (ofExcept result).notices = [] :=
  rfl

@[simp]
theorem result_give (notice : Notice) : (give notice).result = .ok () :=
  rfl

@[simp]
theorem result_giveIf (condition : Bool) (notice : Notice) :
    (giveIf condition notice).result = .ok () :=
  rfl

/-- The result of two steps does not depend on the notices. -/
@[simp]
theorem result_bind (x : Noted α) (f : α → Noted β) :
    (x >>= f).result = x.result >>= fun a => (f a).result := by
  change (bind x f).result = _
  unfold bind
  cases x.result <;> rfl

/-- The notices of two steps come one after the other. -/
theorem notices_bind (x : Noted α) (f : α → Noted β) :
    (x >>= f).notices =
      match x.result with
      | .ok a => x.notices ++ (f a).notices
      | .error _ => x.notices := by
  change (bind x f).notices = _
  unfold bind
  cases x.result <;> rfl

end Noted

end TableAccess
