import TableAccess.Placeholder.Name
import TableAccess.Text.Quoted
/-!
# Tokens of SQL text

SQL text is divided into placeholders and the parts that are copied as they are: string
constants, quoted identifiers, comments, dollar-quoted bodies, cast operators and single
characters.  A region that is not closed reaches to the end of the text.

Main results:

- Theorem `source_next`: a token and what follows it make up the text.
- Theorem `next_length`: every token takes at least one character.
- Theorem `source_tokens`: the tokens of a text make up the text.
-/

namespace TableAccess.Placeholder

open Text

/-- A part of SQL text. -/
inductive Token where
  /-- Text that is copied as it is. -/
  | verbatim (text : List Char)
  /-- A placeholder, without its colon. -/
  | placeholder (name : List Char)
deriving DecidableEq, Repr

/-- The text of a token. -/
def Token.source : Token → List Char
  | .verbatim text => text
  | .placeholder name => ':' :: name

/-! ## Regions -/

/-- A text up to and including the first occurrence of `stop`, and what follows; all of
it if `stop` does not occur. -/
def through (stop : List Char) : List Char → List Char × List Char
  | [] => ([], [])
  | c :: r =>
    if stop.isPrefixOf (c :: r) then
      (stop, (c :: r).drop stop.length)
    else
      let p := through stop r
      (c :: p.1, p.2)

/-- The delimiter of a dollar-quoted body, given the text after its first dollar sign, and
what follows it. -/
def dollarTag? (s : List Char) : Option (List Char × List Char) :=
  let name := s.takeWhile isNamePart
  match s.dropWhile isNamePart with
  | '$' :: rest =>
    if name.isEmpty || isName name then some ('$' :: (name ++ ['$']), rest) else none
  | _ => none

/-- The token that begins with a character, given the text after it, and what follows
the token. -/
def next (c : Char) (r : List Char) : Token × List Char :=
  if c = '\'' ∨ c = '"' then
    match Quoted.split c r with
    | some (body, rest) => (.verbatim (c :: (body ++ [c])), rest)
    | none => (.verbatim (c :: r), [])
  else if c = '-' ∧ r.head? = some '-' then
    let p := through ['\n'] r
    (.verbatim (c :: p.1), p.2)
  else if c = '/' ∧ r.head? = some '*' then
    let p := through ['*', '/'] r.tail
    (.verbatim (c :: '*' :: p.1), p.2)
  else if c = '$' then
    match dollarTag? r with
    | some (tag, rest) =>
      let p := through tag rest
      (.verbatim (tag ++ p.1), p.2)
    | none => (.verbatim [c], r)
  else if c = ':' ∧ r.head? = some ':' then
    (.verbatim [c, ':'], r.tail)
  else if c = ':' ∧ r.head?.any isNameStart = true then
    (.placeholder (r.takeWhile isNamePart), r.dropWhile isNamePart)
  else
    (.verbatim [c], r)

/-! ## Nothing is lost -/

/-- What was passed and what follows make up the text. -/
theorem through_append (stop s : List Char) : (through stop s).1 ++ (through stop s).2 = s := by
  induction s with
  | nil => rfl
  | cons c r ih =>
    unfold through
    split
    · rename_i h
      obtain ⟨t, ht⟩ := List.isPrefixOf_iff_prefix.1 h
      simp [← ht]
    · simp [ih]

/-- The delimiter and what follows it make up the text with its first dollar sign. -/
theorem dollarTag?_append {s tag rest : List Char} (h : dollarTag? s = some (tag, rest)) :
    '$' :: s = tag ++ rest := by
  unfold dollarTag? at h
  simp only at h
  split at h
  · rename_i hdrop
    split at h
    · obtain ⟨rfl, rfl⟩ := Prod.mk.injEq .. ▸ Option.some.inj h
      have := List.takeWhile_append_dropWhile (p := isNamePart) (l := s)
      rw [hdrop] at this
      simp [this]
    · simp at h
  · simp at h

/-- A token and what follows it make up the text. -/
theorem source_next (c : Char) (r : List Char) :
    (next c r).1.source ++ (next c r).2 = c :: r := by
  have head_eq : ∀ d : Char, r.head? = some d → d :: r.tail = r := by
    intro d hd
    cases r with
    | nil => simp at hd
    | cons e t => simp_all
  unfold next
  split
  · split
    · rename_i hsplit
      simp [Token.source, Quoted.split_append _ _ _ _ hsplit]
    · simp [Token.source]
  · split
    · simp [Token.source, through_append]
    · split
      · rename_i h
        simp [Token.source, through_append, head_eq _ h.2]
      · split
        · rename_i hdollar
          split
          · rename_i htag
            subst hdollar
            rw [Token.source, List.append_assoc, through_append, ← dollarTag?_append htag]
          · simp [Token.source]
        · split
          · rename_i h
            simp [Token.source, head_eq _ h.2]
          · split
            · rename_i h
              simp [Token.source, h.1, List.takeWhile_append_dropWhile]
            · simp [Token.source]

/-- Every token has a text. -/
theorem source_next_ne_nil (c : Char) (r : List Char) : (next c r).1.source ≠ [] := by
  unfold next
  repeat' split
  all_goals simp_all [Token.source]
  rename_i htag
  have := dollarTag?_append htag
  rename_i tag rest _
  intro h
  unfold dollarTag? at htag
  simp only at htag
  split at htag
  · split at htag
    · simp_all
    · simp at htag
  · simp at htag

/-- Every token takes at least one character. -/
theorem next_length (c : Char) (r : List Char) : (next c r).2.length ≤ r.length := by
  have happend := congrArg List.length (source_next c r)
  have hpos := List.length_pos_iff.2 (source_next_ne_nil c r)
  simp only [List.length_append, List.length_cons] at happend
  omega

/-! ## All tokens -/

/-- The tokens of a text. -/
def tokens : List Char → List Token
  | [] => []
  | c :: r =>
    let p := next c r
    p.1 :: tokens p.2
termination_by s => s.length
decreasing_by
  exact Nat.lt_succ_of_le (next_length c r)

/-- The tokens of a text make up the text. -/
theorem source_tokens (s : List Char) : (tokens s).flatMap Token.source = s := by
  fun_induction tokens s with
  | case1 => rfl
  | case2 c r p ih => rw [List.flatMap_cons, ih, source_next]

end TableAccess.Placeholder
