import TableAccess.Proofs.Placeholder.ServerReading
import TableAccess.Proofs.Text.Integer
/-!
# Parameters of the caller

SQL text may have numbered parameters in it before it is compiled.  They are copied like other
text.  The names are numbered as if these parameters were not there, so the parameter of a name
and a parameter of the caller may be the same one.

Main results:

- Theorem `passes_parameter`: a numbered parameter is passed over.
- Theorem `hasNumber_iff`: which number a name has.
- Theorem `compile_beside_parameters`: what becomes of the parameters of the caller, and when no
  name has the number of one.
-/

namespace TableAccess.Placeholder

open Text Positional

/-! ## Numbered parameters in SQL text -/

/-- Whether lexemes end in a word. -/
def EndInWord (xs : List Lexeme) : Prop :=
  ∃ ys c r, xs = ys ++ (c :: r).map Lexeme.single ∧ isWordStart c = true ∧
    ∀ d ∈ r, isWordPart d = true

/-- Whether a numbered parameter stands between two texts, given the lexemes of the first one: a
dollar sign and a decimal number, not in a region and not as part of a word. -/
structure ParameterBetween (xs : List Lexeme) (before digits after : List Char) : Prop where
  reads : Reads ('$' :: (digits ++ after)) before xs
  apart : ¬ EndInWord xs
  ne_nil : digits ≠ []
  number : ∀ c ∈ digits, isDigit c = true
  maximal : ∀ c, after.head? = some c → isDigit c = false

/-- Whether a text has a parameter with this number. -/
def HasParameter (s : List Char) (n : Nat) : Prop :=
  ∃ xs before digits after, s = before ++ '$' :: (digits ++ after) ∧
    ParameterBetween xs before digits after ∧ digitsValue digits = n

/-- Lexemes do not end in a word if the last one is no character of a word. -/
theorem not_endInWord {xs : List Lexeme}
    (h : ∀ c, xs.getLast? = some (.single c) → isWordPart c = false) : ¬ EndInWord xs := by
  rintro ⟨ys, c, r, rfl, hc, hr⟩
  have hpart : isWordPart ((c :: r).getLast (by simp)) = true := by
    rcases List.mem_cons.1 (List.getLast_mem (List.cons_ne_nil c r)) with hlast | hlast
    · rw [hlast]
      exact isWordPart_of_isWordStart hc
    · exact hr _ hlast
  rw [h _ (by rw [List.getLast?_append_of_ne_nil _ (by simp), List.getLast?_map,
    List.getLast?_eq_some_getLast]; rfl)] at hpart
  cases hpart

/-- No name begins with a digit. -/
theorem isNameStart_of_isDigit {c : Char} (h : isDigit c = true) : isNameStart c = false := by
  have hall : digitChars.all (fun d => !isNameStart d) = true := by decide
  simpa using test_of_isDigit hall h

/-- A dollar sign and digits are read as single characters: they do not open a dollar-quoted
body. -/
theorem reads_parameter {digits : List Char} (hne : digits ≠ [])
    (hdigits : ∀ c ∈ digits, isDigit c = true) (rest : List Char) :
    Reads rest ('$' :: digits) (('$' :: digits).map .single) := by
  obtain ⟨d, ds, rfl⟩ := List.exists_cons_of_ne_nil hne
  have hd := hdigits d List.mem_cons_self
  have hdollar : ¬ BeginsLonger ('$' :: (d :: ds ++ rest)) := by
    refine not_beginsLonger_dollar fun c hc => ?_
    obtain rfl := Option.some.inj hc
    exact ⟨ne_of_isDigit hd (by decide), isNameStart_of_isDigit hd⟩
  exact .cons (x := .single '$') (.single hdollar) (reads_of_plain
    (fun c hc => isPlain_of_isDigit (isDigit_eq c ▸ hdigits c hc)) rest)

/-- A numbered parameter is passed over. -/
theorem passes_parameter {digits : List Char} (hne : digits ≠ [])
    (hdigits : ∀ c ∈ digits, isDigit c = true) (rest : List Char) :
    Passes rest ('$' :: digits) :=
  ⟨_, reads_parameter hne hdigits rest, liveNames_map_single _⟩

/-- A text with a parameter in it is read as the texts on both sides of it are. -/
theorem ParameterBetween.exists_reads {xs ys : List Lexeme} {before digits after : List Char}
    (h : ParameterBetween xs before digits after) (hys : Reads [] after ys) :
    ∃ zs, Reads [] (before ++ '$' :: (digits ++ after)) (xs ++ (zs ++ ys)) ∧ liveNames zs = [] ∧
      zs.flatMap Lexeme.text = '$' :: digits := by
  obtain ⟨zs, hzs, hlive⟩ := passes_parameter h.ne_nil h.number after
  have hrest : Reads [] ('$' :: (digits ++ after)) (zs ++ ys) :=
    .append (by rwa [List.append_nil]) hys
  exact ⟨zs, .append (by rw [List.append_nil]; exact h.reads) hrest, hlive, hzs.source_eq⟩

end TableAccess.Placeholder

namespace TableAccess.Positional

open Text Placeholder

/-! ## Numbers of names -/

/-- Whether a name has a number in a positional statement, so that its placeholders were replaced
by the parameter with this number. -/
def HasNumber (compiled : Positional) (name : String) (n : Nat) : Prop :=
  name ∈ compiled.names ∧ numbered compiled.names name = '$' :: natDigits n

section Number

variable {compiled : Positional} {name : String} {n : Nat}

/-- A name has one number, by where it first came. -/
theorem hasNumber_iff :
    compiled.HasNumber name n ↔ name ∈ compiled.names ∧ n = compiled.names.idxOf name + 1 := by
  refine and_congr_right fun _ => ?_
  rw [numbered, ← parameterText_eq, parameterText, List.cons.injEq]
  constructor
  · rintro ⟨-, h⟩
    exact (natDigits_injective h).symm
  · rintro rfl
    exact ⟨rfl, rfl⟩

/-- The numbers of the names are those from one to the number of names. -/
theorem exists_hasNumber_iff (distinct : compiled.names.Nodup) :
    (∃ name, compiled.HasNumber name n) ↔ 1 ≤ n ∧ n ≤ compiled.names.length := by
  constructor
  · rintro ⟨name, h⟩
    obtain ⟨hname, rfl⟩ := hasNumber_iff.1 h
    have hlt := List.idxOf_lt_length_of_mem hname
    omega
  · rintro ⟨hpos, hle⟩
    have hlt : n - 1 < compiled.names.length := by omega
    refine ⟨compiled.names[n - 1], hasNumber_iff.2 ⟨List.getElem_mem hlt, ?_⟩⟩
    rw [distinct.idxOf_getElem _ hlt, Nat.sub_add_cancel hpos]

/-- The parameter with the number of a name is the value that is bound to the name. -/
theorem HasNumber.parameter (h : compiled.HasNumber name n) {s : Statement}
    (accepted : compile s = .ok compiled) : compiled.parameters[n - 1]? = s.bound? name := by
  obtain ⟨hname, rfl⟩ := hasNumber_iff.1 h
  have hvalues := congrArg (·[compiled.names.idxOf name]?) (compile_names accepted)
  simp only [List.getElem?_map, List.getElem?_idxOf hname, Option.map_some] at hvalues
  rw [Nat.add_sub_cancel]
  cases hfound : compiled.parameters[compiled.names.idxOf name]? with
  | none => simp [hfound] at hvalues
  | some value =>
    rw [hfound] at hvalues
    exact (Option.some.inj hvalues).symm

end Number

/-- No name has two numbers in a compiled statement. -/
theorem names_nodup {s : Statement} {compiled : Positional} (accepted : compile s = .ok compiled) :
    compiled.names.Nodup :=
  (compile_steps accepted).1 ▸ place_nodup List.nodup_nil _

/-! ## Names beside parameters -/

/-- What becomes of the numbered parameters in a text that is compiled.  Each of them is copied,
and the names are numbered from one on in the order of their first occurrence, as the lexemes
around it have them.  So a name has the number of such a parameter if there are as many names,
and then the value bound to the name is the parameter.  No name has the number of a parameter
exactly if every such number is zero or greater than the number of names. -/
theorem compile_beside_parameters {s : Statement} {compiled : Positional}
    (accepted : compile s = .ok compiled) :
    (∀ xs ys before digits after, s.sql.toList = before ++ '$' :: (digits ++ after) →
      ParameterBetween xs before digits after → Reads [] after ys →
        compiled.names = (liveNames (xs ++ ys)).eraseDups ∧
        compiled.sql = String.ofList (xs.flatMap (Lexeme.positional compiled.names) ++
          '$' :: (digits ++ ys.flatMap (Lexeme.positional compiled.names)))) ∧
    (∀ n, HasParameter s.sql.toList n →
      ((∃ name, compiled.HasNumber name n) ↔ 1 ≤ n ∧ n ≤ compiled.names.length)) ∧
    (∀ name n, compiled.HasNumber name n → compiled.parameters[n - 1]? = s.bound? name) ∧
    ((∀ n, HasParameter s.sql.toList n → ∀ name, ¬ compiled.HasNumber name n) ↔
      ∀ n, HasParameter s.sql.toList n → n = 0 ∨ compiled.names.length < n) := by
  have hnumbers {n : Nat} := exists_hasNumber_iff (n := n) (names_nodup accepted)
  refine ⟨fun xs ys before digits after htext hbetween hys => ?_, fun n _ => hnumbers,
    fun name n h => h.parameter accepted, forall₂_congr fun n _ => ?_⟩
  · obtain ⟨zs, hzs, hlive, hsource⟩ := hbetween.exists_reads hys
    obtain ⟨hnames, -, hsql⟩ := (compile_eq_ok_iff (htext ▸ hzs) compiled).1 accepted
    constructor
    · rw [hnames, liveNames_append, liveNames_append, hlive, List.nil_append, liveNames_append]
    · rw [hsql, List.flatMap_append, List.flatMap_append, positional_of_liveNames hlive, hsource]
      rfl
  · rw [← not_exists, hnumbers]
    omega

/-- A parameter of the caller whose number is beyond those of the names. -/
theorem compile_beside_parameters_beyond :
    let s : Statement := ⟨"SELECT :b, $3, :a, :b", ⟨[("a", .int 7), ("b", .int 8)]⟩, 0⟩
    let compiled : Positional := ⟨"SELECT $1, $3, $2, $1", [.int 8, .int 7], ["b", "a"]⟩
    compile s = .ok compiled ∧ HasParameter s.sql.toList 3 ∧
      ¬ ∃ name, compiled.HasNumber name 3 := by
  intro s compiled
  have hcompiled : compile s = .ok compiled := by cbv
  have hparameter : HasParameter s.sql.toList 3 := by
    refine ⟨"SELECT ".toList.map .single ++ .live ['b'] :: ", ".toList.map .single,
      "SELECT :b, ".toList, ['3'], ", :a, :b".toList, by decide,
      ⟨?_, ?_, by simp, List.all_eq_true.1 (by decide), ?_⟩, by decide⟩
    · refine .append (s := "SELECT ".toList) (t := ":b, ".toList)
        (reads_of_plain (by decide) _) ?_
      exact .cons (x := .live ['b']) (.live (by decide) (fun c hc => by cases hc; decide))
        (reads_of_plain (by decide) _)
    · exact not_endInWord fun c hc => by cases hc; decide
    · exact fun c hc => by cases hc; decide
  refine ⟨hcompiled, hparameter, fun hname => ?_⟩
  exact absurd (((compile_beside_parameters hcompiled).2.1 3 hparameter).1 hname).2 (by decide)

/-- A name that has the number of a parameter of the caller. -/
theorem compile_beside_parameters_alias :
    let s : Statement := ⟨"SELECT $1, :a", ⟨[("a", .int 7)]⟩, 0⟩
    let compiled : Positional := ⟨"SELECT $1, $1", [.int 7], ["a"]⟩
    compile s = .ok compiled ∧ HasParameter s.sql.toList 1 ∧ compiled.HasNumber "a" 1 := by
  intro s compiled
  have hcompiled : compile s = .ok compiled := by cbv
  have hnumber : compiled.HasNumber "a" 1 := hasNumber_iff.2 ⟨by decide, by decide⟩
  refine ⟨hcompiled, ?_, hnumber⟩
  refine ⟨"SELECT ".toList.map .single, "SELECT ".toList, ['1'], ", :a".toList, by decide,
    ⟨reads_of_plain (by decide) _, ?_, by simp, List.all_eq_true.1 (by decide), ?_⟩, by decide⟩
  · exact not_endInWord fun c hc => by cases hc; decide
  · exact fun c hc => by cases hc; decide

end TableAccess.Positional
