import TableAccess.Journal
import TableAccess.Noted
/-!
# Actions on a connection

An action starts from the state of a connection, ends with a result or an error and with a
new state, and writes a journal.  State and journal are kept when an action fails, so that
what happened before an error is never lost.

Main results:

- Theorem `bind_run`: of two actions the second starts where the first ended, and the
  journals come one after the other.
- Theorem `attempt_run`: an attempted action never fails and otherwise does the same.
- Theorem `attemptAll_append`: attempting two lists of actions is attempting one list and
  then the other.
-/

namespace TableAccess

/-- How an action ended. -/
structure Outcome (σ α : Type) where
  result : Except AccessError α
  state : σ
  journal : Journal

/-- An action on a connection whose states are of type `σ`. -/
def Access (σ α : Type) : Type := σ → Outcome σ α

namespace Access

variable {σ α β : Type}

/-- Start an action. -/
def run (action : Access σ α) (s : σ) : Outcome σ α :=
  action s

/-- Give a result. -/
protected def pure (a : α) : Access σ α := fun s => ⟨.ok a, s, []⟩

/-- Continue with the result of an action, if there is one. -/
protected def bind (action : Access σ α) (next : α → Access σ β) : Access σ β := fun s =>
  let first := action s
  match first.result with
  | .ok a =>
    let second := next a first.state
    ⟨second.result, second.state, first.journal ++ second.journal⟩
  | .error e => ⟨.error e, first.state, first.journal⟩

instance : Monad (Access σ) where
  pure := Access.pure
  bind := Access.bind

/-! ## Elementary actions -/

/-- Fail. -/
def fail (e : AccessError) : Access σ α := fun s => ⟨.error e, s, []⟩

/-- Give a notice. -/
def give (notice : Notice) : Access σ Unit := fun s => ⟨.ok (), s, [.notice notice]⟩

/-- Take over a result. -/
def ofExcept (result : Except AccessError α) : Access σ α := fun s => ⟨result, s, []⟩

/-- Take over a result with its notices. -/
def ofNoted (noted : Noted α) : Access σ α := fun s =>
  ⟨noted.result, s, Journal.ofNotices noted.notices⟩

instance : MonadLift (Except AccessError) (Access σ) := ⟨ofExcept⟩

instance : MonadLift Noted (Access σ) := ⟨ofNoted⟩

/-- Make a call on the connection. -/
def make (call : Call) (reply : α → Reply) (act : σ → Except AccessError α × σ) :
    Access σ α := fun s =>
  let answer := act s
  ⟨answer.1, answer.2, [.call call (answer.1.map reply)]⟩

/-- Change the state. -/
def change (act : σ → α × σ) : Access σ α := fun s =>
  let answer := act s
  ⟨.ok answer.1, answer.2, []⟩

/-! ## Errors as results -/

/-- Turn the error of an action into a result. -/
def attempt (action : Access σ α) : Access σ (Except AccessError α) := fun s =>
  let first := action s
  ⟨.ok first.result, first.state, first.journal⟩

/-- Attempt actions one after the other. -/
def attemptAll : List (Access σ α) → Access σ (List (Except AccessError α))
  | [] => pure []
  | action :: r => do
    let result ← attempt action
    let results ← attemptAll r
    return result :: results

/-- How actions end that are attempted one after the other. -/
def outcomes : List (Access σ α) → σ → List (Outcome σ α)
  | [], _ => []
  | action :: r, s =>
    let first := action.run s
    first :: outcomes r first.state

/-! ## Laws -/

@[simp]
theorem pure_run (a : α) (s : σ) : (pure a : Access σ α).run s = ⟨.ok a, s, []⟩ :=
  rfl

@[simp]
theorem fail_run (e : AccessError) (s : σ) : (fail e : Access σ α).run s = ⟨.error e, s, []⟩ :=
  rfl

@[simp]
theorem give_run (notice : Notice) (s : σ) :
    (give notice).run s = ⟨.ok (), s, [.notice notice]⟩ :=
  rfl

@[simp]
theorem ofExcept_run (result : Except AccessError α) (s : σ) :
    (ofExcept result).run s = ⟨result, s, []⟩ :=
  rfl

@[simp]
theorem ofNoted_run (noted : Noted α) (s : σ) :
    (ofNoted noted).run s = ⟨noted.result, s, Journal.ofNotices noted.notices⟩ :=
  rfl

/-- A call is recorded with what it gave. -/
@[simp]
theorem make_run (call : Call) (reply : α → Reply) (act : σ → Except AccessError α × σ)
    (s : σ) :
    (make call reply act).run s =
      ⟨(act s).1, (act s).2, [.call call ((act s).1.map reply)]⟩ :=
  rfl

@[simp]
theorem change_run (act : σ → α × σ) (s : σ) :
    (change act).run s = ⟨.ok (act s).1, (act s).2, []⟩ :=
  rfl

/-- Of two actions the second starts where the first ended, and the journals come one
after the other. -/
theorem bind_run (action : Access σ α) (next : α → Access σ β) (s : σ) :
    (action >>= next).run s =
      match (action.run s).result with
      | .ok a =>
        let second := (next a).run (action.run s).state
        ⟨second.result, second.state, (action.run s).journal ++ second.journal⟩
      | .error e => ⟨.error e, (action.run s).state, (action.run s).journal⟩ :=
  rfl

/-- An attempted action never fails and otherwise does the same. -/
@[simp]
theorem attempt_run (action : Access σ α) (s : σ) :
    action.attempt.run s =
      ⟨.ok (action.run s).result, (action.run s).state, (action.run s).journal⟩ :=
  rfl

/-- Attempting no action gives no result. -/
@[simp]
theorem attemptAll_nil_run (s : σ) :
    (attemptAll ([] : List (Access σ α))).run s = ⟨.ok [], s, []⟩ :=
  rfl

/-- Mapping the identity changes no action. -/
theorem id_map_run (action : Access σ α) : id <$> action = action := by
  funext s
  change (action >>= pure).run s = action.run s
  rw [bind_run]
  cases action.run s with
  | mk result state journal => cases result <;> simp

/-- Sequencing of actions is associative. -/
theorem bind_bind_run {γ : Type} (action : Access σ α) (f : α → Access σ β)
    (g : β → Access σ γ) : action >>= f >>= g = action >>= fun a => f a >>= g := by
  funext s
  change (action >>= f >>= g).run s = (action >>= fun a => f a >>= g).run s
  simp only [bind_run]
  cases action.run s with
  | mk result state journal =>
    cases result with
    | error e => rfl
    | ok a =>
      cases h : (f a).run state with
      | mk result' state' journal' => cases result' <;> simp [h]

instance : LawfulMonad (Access σ) :=
  LawfulMonad.mk' (Access σ) id_map_run
    (fun a next => by
      funext s
      change ((pure a : Access σ _) >>= next).run s = (next a).run s
      simp [bind_run])
    bind_bind_run

/-- Attempting two lists of actions is attempting one list and then the other. -/
theorem attemptAll_append (a b : List (Access σ α)) :
    attemptAll (a ++ b) = do
      let first ← attemptAll a
      let second ← attemptAll b
      return first ++ second := by
  induction a with
  | nil => simp [attemptAll]
  | cons action r ih => simp [attemptAll, ih]

end Access

end TableAccess
