import TableAccess.Placeholder.Scan
/-!
# Scans make no missteps

A scan steps through the octets of characters beyond ASCII, but it does not slice there: what it
looks for are ASCII characters, and no octet of another character is one.  So a scan is never
wrong about an offset, and it reads the same tokens as a reader of characters does.

Main results:

- Theorem `skipDollarQuoted_eq`: how dollar-quoted bodies are skipped.
- Theorem `scan_next`: how a token is passed that stays as it is.
- Theorem `scan_eq`: a scan numbers the tokens of the text.
-/

namespace TableAccess.Placeholder

open Text

/-! ## Names -/

/-- Names have ASCII characters only. -/
theorem toNat_lt_of_isNamePart {c : Char} (h : isNamePart c = true) : c.toNat < 128 := by
  change (c == '_' || ((decide ('A'.val ≤ c.val ∧ c.val ≤ 'Z'.val) ||
    (decide ('a'.val ≤ c.val) && decide (c.val ≤ 'z'.val))) ||
    (decide ('0'.val ≤ c.val) && decide (c.val ≤ '9'.val)))) = true at h
  simp only [Bool.or_eq_true, Bool.and_eq_true, beq_iff_eq, decide_eq_true_eq,
    UInt32.le_iff_toNat_le] at h
  change c.val.toNat < 128
  rcases h with rfl | (⟨-, hupper⟩ | ⟨-, hlower⟩) | ⟨-, hdigit⟩
  · decide
  · exact Nat.lt_of_le_of_lt hupper (by decide)
  · exact Nat.lt_of_le_of_lt hlower (by decide)
  · exact Nat.lt_of_le_of_lt hdigit (by decide)

theorem toNat_lt_of_isNameStart {c : Char} (h : isNameStart c = true) : c.toNat < 128 :=
  toNat_lt_of_isNamePart (isNamePart_of_isNameStart h)

/-- The end of a name is searched for after each of its characters. -/
theorem afterName_pass {c : Char} (hpart : isNamePart c = true) (a r : List Char) :
    afterName (a ++ c :: r) (utf8Length a) = afterName (a ++ [c] ++ r) (utf8Length (a ++ [c])) := by
  rw [utf8Length_append, utf8Length_cons, utf8Length_nil, Nat.add_zero, List.append_assoc]
  refine loop_pass_char id rfl (fun i => rfl) fun i bound ⟨x, hx, hoctet⟩ => ?_
  rw [id, afterNameStep, if_pos bound, octetAt_of_octet? hoctet]
  apply if_pos
  rw [isNamePartOctet, test_ofUInt8 (fun _ => toNat_lt_of_isNamePart) hx]
  exact hpart

/-- The search for the end of a name passes the parts of a name. -/
theorem afterName_eq (a r : List Char) :
    afterName (a ++ r) (utf8Length a) =
      .ok (utf8Length a + utf8Length (r.takeWhile isNamePart)) := by
  induction r generalizing a with
  | nil =>
    apply loop_of_stop
    rw [List.append_nil, afterNameStep, if_neg (Nat.lt_irrefl _)]
    rfl
  | cons c r ih =>
    by_cases hpart : isNamePart c = true
    · rw [afterName_pass hpart, ih, List.takeWhile_cons_of_pos hpart, utf8Length_append,
        utf8Length_cons, utf8Length_cons, utf8Length_nil]
      congr 1
      omega
    · obtain ⟨x, hx, hoctet⟩ := exists_octet c r c.utf8Size_pos
      rw [← octet?_append_zero a] at hoctet
      apply loop_of_stop
      rw [List.takeWhile_cons_of_neg hpart, afterNameStep,
        if_pos (lt_utf8Length_append_cons a c r), octetAt_of_octet? hoctet]
      apply if_neg
      rw [isNamePartOctet, test_ofUInt8 (fun _ => toNat_lt_of_isNamePart) hx]
      exact hpart

/-! ## Regions -/

/-- A quoted text is skipped up to its closing quote. -/
theorem skipQuoted_eq {q : Char} (ascii : q.toNat < 128) (a r : List Char) :
    skipQuoted (a ++ q :: r) (utf8Length a) q.toUInt8 =
      .ok (match Quoted.split q r with
        | some p => utf8Length a + utf8Length p.1 + 2
        | none => utf8Length (a ++ q :: r)) := by
  have hsize : q.utf8Size = 1 := (utf8Size_eq_one_iff q).2 ascii
  have hclosed := afterQuote_eq ascii (a ++ [q]) r
  rw [utf8Length_append, utf8Length_cons, utf8Length_nil, hsize, List.append_assoc] at hclosed
  change afterQuote (a ++ q :: r) q.toUInt8 (utf8Length a + 1) = _ at hclosed
  rw [skipQuoted, hclosed]
  cases Quoted.split q r with
  | none => rfl
  | some p =>
    change Except.ok (utf8Length a + (1 + 0) + utf8Length p.1 + 1) =
      Except.ok (utf8Length a + utf8Length p.1 + 2)
    congr 1
    omega

/-- The first occurrence of a text ends where passing through it ends. -/
theorem find?_elim {stop : List Char} (hstop : stop ≠ []) (s : List Char) (i : Nat) :
    (find? stop s).elim (i + utf8Length s) (fun p => i + p + utf8Length stop) =
      i + utf8Length (through stop s).1 := by
  induction s generalizing i with
  | nil =>
    have hempty : stop.isEmpty = false := by simpa using hstop
    simp [find?, through, hempty]
  | cons c r ih =>
    rw [find?, through]
    split
    · simp
    · rw [utf8Length_cons, utf8Length_cons, ← Nat.add_assoc, ← Nat.add_assoc, ← ih]
      cases find? stop r with
      | none => rfl
      | some p => exact congrArg (· + utf8Length stop) (Nat.add_assoc i _ p).symm

/-- Whether a dollar sign may begin a delimiter is seen by the next character. -/
theorem opensTag_eq (a r : List Char) :
    opensTag (a ++ r) (utf8Length a) = .ok (r.head?.all fun c => isNameStart c || c == '$') := by
  cases r with
  | nil =>
    rw [List.append_nil, opensTag, if_neg (Nat.lt_irrefl _)]
    rfl
  | cons c r =>
    obtain ⟨x, hx, hoctet⟩ := exists_octet c r c.utf8Size_pos
    rw [← octet?_append_zero a] at hoctet
    have hstart := test_ofUInt8 (fun _ => toNat_lt_of_isNameStart) hx
    have hdollar : (x == '$'.toUInt8) = (c == '$') := by
      rw [Bool.eq_iff_iff, beq_iff_eq, beq_iff_eq]
      exact eq_toUInt8_iff hx (by decide)
    rw [opensTag, if_pos (lt_utf8Length_append_cons a c r), octetAt_of_octet? hoctet]
    change Except.ok (isNameStartOctet x || x == '$'.toUInt8) = _
    rw [isNameStartOctet, hstart, hdollar]
    rfl

/-- A tag may go on exactly if it is empty or a name, given that a dollar sign ends it. -/
theorem opens_iff {r rest : List Char} (hrest : r.dropWhile isNamePart = '$' :: rest) :
    (r.head?.all fun c => isNameStart c || c == '$') =
      ((r.takeWhile isNamePart).isEmpty || isName (r.takeWhile isNamePart)) := by
  cases r with
  | nil => cases hrest
  | cons c r =>
    by_cases hpart : isNamePart c = true
    · have hdollar : (c == '$') = false := by
        rw [beq_eq_false_iff_ne]
        intro heq
        rw [heq] at hpart
        exact absurd hpart (by decide)
      have hall : (r.takeWhile isNamePart).all isNamePart = true := List.all_takeWhile
      rw [List.takeWhile_cons_of_pos hpart, isName, hall]
      simp [hdollar]
    · rw [List.dropWhile_cons_of_neg hpart] at hrest
      rw [List.takeWhile_cons_of_neg hpart]
      obtain ⟨rfl, -⟩ := List.cons.inj hrest
      rfl

/-- Without a dollar sign after it there is no tag. -/
theorem dollarTag?_eq_none {r : List Char} (h : (r.dropWhile isNamePart).head? ≠ some '$') :
    dollarTag? r = none := by
  unfold dollarTag?
  simp only
  split
  · rename_i hrest
    rw [hrest] at h
    exact absurd rfl h
  · rfl

/-- A run of parts of names before a dollar sign ends a delimiter exactly if it is a tag. -/
theorem dollarTag?_of_dropWhile {r rest : List Char}
    (h : r.dropWhile isNamePart = '$' :: rest) :
    dollarTag? r =
      if ((r.takeWhile isNamePart).isEmpty || isName (r.takeWhile isNamePart)) = true then
        some ('$' :: (r.takeWhile isNamePart ++ ['$']), rest)
      else
        none := by
  unfold dollarTag?
  simp only [h]

/-- Dollar-quoted bodies are skipped where a tag is read. -/
theorem skipDollarQuoted_eq (a r : List Char) :
    skipDollarQuoted (a ++ '$' :: r) (utf8Length a) =
      .ok ((dollarTag? r).map fun p =>
        utf8Length a + utf8Length p.1 + utf8Length (through p.1 p.2).1) := by
  have hfront : utf8Length (a ++ ['$']) = utf8Length a + 1 := utf8Length_append a ['$']
  have htext : (a ++ ['$']) ++ r = a ++ '$' :: r := by simp
  have hopens := opensTag_eq (a ++ ['$']) r
  have hname := afterName_eq (a ++ ['$']) r
  have hoctet := octet?_append_zero (a ++ ['$'] ++ r.takeWhile isNamePart) (r.dropWhile isNamePart)
  rw [List.append_assoc, List.takeWhile_append_dropWhile, utf8Length_append] at hoctet
  rw [htext, hfront] at hopens hname hoctet
  simp only [skipDollarQuoted, hopens, hname, bind, Except.bind, pure, Except.pure, hoctet]
  by_cases hdollar : (r.dropWhile isNamePart).head? = some '$'
  · rw [if_pos ((octet?_zero_eq_iff _ (by decide)).2 hdollar)]
    obtain ⟨rest, hrest⟩ := List.head?_eq_some_iff.1 hdollar
    rw [opens_iff hrest, dollarTag?_of_dropWhile hrest]
    by_cases hopen : ((r.takeWhile isNamePart).isEmpty || isName (r.takeWhile isNamePart)) = true
    · -- The tag is a slice of the text, and its body begins where the slice ends.
      let tag := '$' :: (r.takeWhile isNamePart ++ ['$'])
      have hstop : utf8Length a + 1 + utf8Length (r.takeWhile isNamePart) + 1 =
          utf8Length a + utf8Length tag := by
        have hsize : '$'.utf8Size = 1 := rfl
        simp only [tag, utf8Length_cons, utf8Length_append, utf8Length_nil, hsize]
        omega
      have hwhole : a ++ '$' :: r = a ++ (tag ++ rest) := by
        have hcut := List.takeWhile_append_dropWhile (p := isNamePart) (l := r)
        rw [hrest] at hcut
        simp [tag, hcut]
      have hslice := slice_append a tag rest
      have hbody := sliceFrom_append (a ++ tag) rest
      rw [List.append_assoc, utf8Length_append] at hbody
      have hlength : utf8Length (a ++ (tag ++ rest)) =
          utf8Length a + utf8Length tag + utf8Length rest := by
        rw [utf8Length_append, utf8Length_append, Nat.add_assoc]
      rw [if_pos hopen, if_pos hopen, hstop, hwhole, hslice, hbody, hlength]
      change Except.ok (some ((find? tag rest).elim _ fun p => _ + p + utf8Length tag)) = _
      rw [find?_elim (List.cons_ne_nil _ _)]
      rfl
    · rw [if_neg hopen, if_neg hopen]
      rfl
  · rw [if_neg fun heq => hdollar ((octet?_zero_eq_iff _ (by decide)).1 heq),
      dollarTag?_eq_none hdollar]
    split <;> rfl

/-! ## Tokens -/

section Step

variable {front : List Char} {c : Char} {r : List Char} {x : UInt8}

/-- Two ASCII characters are found by their octets. -/
theorem octets_eq_iff (hx : x ∈ String.utf8EncodeChar c) {d e : Char} (hd : d.toNat < 128)
    (he : e.toNat < 128) :
    (x = d.toUInt8 ∧ octet? (front ++ c :: r) (utf8Length front + 1) = some e.toUInt8) ↔
      (c = d ∧ r.head? = some e) := by
  rw [eq_toUInt8_iff hx hd]
  constructor
  · rintro ⟨rfl, hnext⟩
    rw [octet?_append_ascii hd, octet?_zero_eq_iff r he] at hnext
    exact ⟨rfl, hnext⟩
  · rintro ⟨rfl, hnext⟩
    rw [octet?_append_ascii hd, octet?_zero_eq_iff r he]
    exact ⟨rfl, hnext⟩

/-- An ASCII character before the first octet of a name is where the characters are. -/
theorem octets_name_iff (hx : x ∈ String.utf8EncodeChar c) {d : Char} (hd : d.toNat < 128) :
    (x = d.toUInt8 ∧
      (octet? (front ++ c :: r) (utf8Length front + 1)).any isNameStartOctet = true) ↔
      (c = d ∧ r.head?.any isNameStart = true) := by
  have hany := octet?_zero_any (fun _ => toNat_lt_of_isNameStart) r
  rw [eq_toUInt8_iff hx hd]
  constructor
  · rintro ⟨rfl, hnext⟩
    rw [octet?_append_ascii hd] at hnext
    exact ⟨rfl, hany ▸ hnext⟩
  · rintro ⟨rfl, hnext⟩
    rw [octet?_append_ascii hd]
    exact ⟨rfl, hany.trans hnext⟩

/-- What begins at an octet of a character is told by the character. -/
theorem opening_eq (hx : x ∈ String.utf8EncodeChar c) :
    opening x (octet? (front ++ c :: r) (utf8Length front + 1)) =
      if c = '\'' ∨ c = '"' then .quoted
      else if c = '-' ∧ r.head? = some '-' then .lineComment
      else if c = '/' ∧ r.head? = some '*' then .blockComment
      else if c = '$' then .dollar
      else if c = ':' ∧ r.head? = some ':' then .cast
      else if c = ':' ∧ r.head?.any isNameStart = true then .name
      else .other := by
  simp only [opening, eq_toUInt8_iff hx (show '\''.toNat < 128 by decide),
    eq_toUInt8_iff hx (show '"'.toNat < 128 by decide),
    eq_toUInt8_iff hx (show '$'.toNat < 128 by decide),
    octets_eq_iff hx (show '-'.toNat < 128 by decide) (show '-'.toNat < 128 by decide),
    octets_eq_iff hx (show '/'.toNat < 128 by decide) (show '*'.toNat < 128 by decide),
    octets_eq_iff hx (show ':'.toNat < 128 by decide) (show ':'.toNat < 128 by decide),
    octets_name_iff hx (show ':'.toNat < 128 by decide)]

/-- At the first octet of a character the scan passes what begins there. -/
theorem scanStep_eq (front : List Char) (c : Char) (r : List Char) (copied : Nat)
    (written : List Char) (names : List String) :
    let t : Scan := ⟨utf8Length front, copied, written, names⟩
    ∃ x ∈ String.utf8EncodeChar c, scanStep (front ++ c :: r) t =
      passOpening (front ++ c :: r) t x
        (opening x (octet? (front ++ c :: r) (utf8Length front + 1))) := by
  intro t
  obtain ⟨x, hx, hoctet⟩ := exists_octet c r c.utf8Size_pos
  rw [← octet?_append_zero front] at hoctet
  refine ⟨x, hx, ?_⟩
  rw [scanStep, if_pos (lt_utf8Length_append_cons front c r), octetAt_of_octet? hoctet]
  rfl

end Step

/-! ### Tokens that stay as they are -/

section Verbatim

variable (front : List Char) (r : List Char)

/-- A quoted text is passed by a single iteration. -/
theorem passOpening_quoted {q : Char} (ascii : q.toNat < 128) {v rest : List Char} (t : Scan)
    (ht : t.position = utf8Length front)
    (h : (match Quoted.split q r with
      | some (body, rest) => (Token.verbatim (q :: (body ++ [q])), rest)
      | none => (Token.verbatim (q :: r), [])) = (.verbatim v, rest)) :
    passOpening (front ++ q :: r) t q.toUInt8 .quoted = .ok (t.jump (utf8Length (front ++ v))) := by
  have hsize : q.utf8Size = 1 := (utf8Size_eq_one_iff q).2 ascii
  rw [passOpening, ht, skipQuoted_eq ascii]
  cases hsplit : Quoted.split q r with
  | none =>
    rw [hsplit] at h
    cases h
    rfl
  | some p =>
    rw [hsplit] at h
    cases h
    change Except.ok (t.jump _) = _
    simp only [utf8Length_append, utf8Length_cons, utf8Length_nil, hsize]
    congr 2
    omega

/-- A comment up to the end of its line is passed by a single iteration. -/
theorem passOpening_lineComment (x : UInt8) (t : Scan) (ht : t.position = utf8Length front) :
    passOpening (front ++ '-' :: r) t x .lineComment =
      .ok (t.jump (utf8Length (front ++ '-' :: (through ['\n'] r).1))) := by
  have hthrough : (through ['\n'] ('-' :: r)).1 = '-' :: (through ['\n'] r).1 := rfl
  have hfind := find?_elim (List.cons_ne_nil '\n' []) ('-' :: r) (utf8Length front)
  rw [hthrough, ← utf8Length_append, ← utf8Length_append] at hfind
  rw [passOpening, ht, sliceFrom_append]
  exact congrArg (fun stop => Except.ok (t.jump stop)) hfind

/-- A comment up to its end mark is passed by a single iteration. -/
theorem passOpening_blockComment (x : UInt8) (t : Scan) (ht : t.position = utf8Length front) :
    passOpening (front ++ '/' :: '*' :: r) t x .blockComment =
      .ok (t.jump (utf8Length (front ++ '/' :: '*' :: (through ['*', '/'] r).1))) := by
  have hbegin : utf8Length (front ++ ['/', '*']) = utf8Length front + 2 :=
    utf8Length_append front _
  have hslice := sliceFrom_append (front ++ ['/', '*']) r
  have hfind := find?_elim (List.cons_ne_nil '*' ['/']) r (utf8Length (front ++ ['/', '*']))
  rw [← utf8Length_append, ← utf8Length_append, List.append_assoc, List.append_assoc,
    hbegin] at hfind
  rw [List.append_assoc, hbegin] at hslice
  change sliceFrom (front ++ '/' :: '*' :: r) _ = _ at hslice
  rw [passOpening, ht, hslice]
  exact congrArg (fun stop => Except.ok (t.jump stop)) hfind

/-- A dollar-quoted body is passed by a single iteration, and so is a dollar sign that opens
none. -/
theorem passOpening_dollar (x : UInt8) {v rest : List Char} (t : Scan)
    (ht : t.position = utf8Length front)
    (h : (match dollarTag? r with
      | some (tag, rest) => (Token.verbatim (tag ++ (through tag rest).1), (through tag rest).2)
      | none => (Token.verbatim ['$'], r)) = (.verbatim v, rest)) :
    passOpening (front ++ '$' :: r) t x .dollar = .ok (t.jump (utf8Length (front ++ v))) := by
  rw [passOpening, ht, skipDollarQuoted_eq]
  cases htag : dollarTag? r with
  | none =>
    rw [htag] at h
    cases h
    rw [utf8Length_append]
    rfl
  | some p =>
    rw [htag] at h
    cases h
    rw [utf8Length_append, utf8Length_append, ← Nat.add_assoc]
    rfl

end Verbatim

/-- Nothing opens inside of a character beyond ASCII. -/
theorem opening_of_le {x : UInt8} (h : 128 ≤ x.toNat) (after : Option UInt8) :
    opening x after = .other := by
  have hne : ∀ d : Char, d.toNat < 128 → x ≠ d.toUInt8 := by
    intro d hd heq
    rw [heq, toNat_toUInt8 hd] at h
    omega
  have hquote := hne '\'' (by decide)
  have hdouble := hne '"' (by decide)
  have hminus := hne '-' (by decide)
  have hslash := hne '/' (by decide)
  have hdollar := hne '$' (by decide)
  have hcolon := hne ':' (by decide)
  simp only [opening, hquote, hdouble, hminus, hslash, hdollar, hcolon, false_and, or_self,
    if_false]

section From

variable {c : Char} {r : List Char} (front : List Char) (copied : Nat) (written : List Char)
  (names : List String)

/-- A scan goes on where an iteration ended. -/
theorem scanFrom_of_again {t : Scan} {v : List Char} (hv : v ≠ [])
    (hlength : utf8Length (front ++ v) ≤ utf8Length (front ++ c :: r))
    (ht : t.position = utf8Length (front ++ v))
    (h : scanStep (front ++ c :: r) ⟨utf8Length front, copied, written, names⟩ = .ok (.again t)) :
    scanFrom (front ++ c :: r) ⟨utf8Length front, copied, written, names⟩ =
      scanFrom (front ++ c :: r) t := by
  obtain ⟨d, w, rfl⟩ := List.exists_cons_of_ne_nil hv
  have hlt := lt_utf8Length_append_cons front c r
  have hfar := lt_utf8Length_append_cons front d w
  apply loop_of_again h
  simp only [ht]
  omega

/-- A character that opens nothing is passed octet by octet. -/
theorem scan_other
    (h : ∀ x ∈ String.utf8EncodeChar c,
      opening x (octet? (front ++ c :: r) (utf8Length front + 1)) = .other) :
    scanFrom (front ++ c :: r) ⟨utf8Length front, copied, written, names⟩ =
      scanFrom (front ++ c :: r) ⟨utf8Length front + c.utf8Size, copied, written, names⟩ := by
  have hlt := lt_utf8Length_append_cons front c r
  by_cases ascii : c.toNat < 128
  · obtain ⟨x, hx, hstep⟩ := scanStep_eq front c r copied written names
    rw [h x hx] at hstep
    rw [(utf8Size_eq_one_iff c).2 ascii]
    apply loop_of_again hstep
    simp only
    omega
  · -- Every octet of the character is passed for itself, and none of them opens anything.
    refine loop_pass_char (fun i => (⟨i, copied, written, names⟩ : Scan)) rfl (fun i => rfl) ?_
    rintro i bound ⟨x, hx, hoctet⟩
    rw [scanStep, if_pos bound, octetAt_of_octet? hoctet]
    change passOpening _ _ x (opening x _) = _
    rcases mem_utf8EncodeChar hx with ⟨hc, -⟩ | ⟨-, hlarge⟩
    · exact absurd hc ascii
    · rw [opening_of_le hlarge]
      rfl

/-- A token that stays as it is is passed. -/
theorem scan_next {v rest : List Char} (h : next c r = (.verbatim v, rest)) :
    scanFrom (front ++ c :: r) ⟨utf8Length front, copied, written, names⟩ =
      scanFrom (front ++ c :: r) ⟨utf8Length (front ++ v), copied, written, names⟩ := by
  obtain ⟨x, hx, hstep⟩ := scanStep_eq front c r copied written names
  have hopening := @opening_eq front c r
  -- A single iteration passes every token but a character beyond ASCII.
  have hjump : scanStep (front ++ c :: r) ⟨utf8Length front, copied, written, names⟩ =
      .ok (.again ⟨utf8Length (front ++ v), copied, written, names⟩) →
      scanFrom (front ++ c :: r) ⟨utf8Length front, copied, written, names⟩ =
        scanFrom (front ++ c :: r) ⟨utf8Length (front ++ v), copied, written, names⟩ := by
    intro hagain
    have hne := source_next_ne_nil c r
    have hsource := source_next c r
    rw [h] at hne hsource
    change v ++ rest = c :: r at hsource
    refine scanFrom_of_again front copied written names hne ?_ rfl hagain
    change utf8Length (front ++ v) ≤ _
    rw [← hsource, utf8Length_append, utf8Length_append, utf8Length_append]
    omega
  unfold next at h
  by_cases hquote : c = '\'' ∨ c = '"'
  · rw [if_pos hquote] at h
    have ascii : c.toNat < 128 := by rcases hquote with rfl | rfl <;> decide
    obtain rfl := (eq_toUInt8_iff hx ascii).2 rfl
    rw [hopening hx, if_pos hquote] at hstep
    exact hjump (hstep.trans (passOpening_quoted front r ascii _ rfl h))
  rw [if_neg hquote] at h
  by_cases hline : c = '-' ∧ r.head? = some '-'
  · rw [if_pos hline] at h
    rw [hopening hx, if_neg hquote, if_pos hline] at hstep
    obtain ⟨rfl, -⟩ := hline
    cases h
    exact hjump (hstep.trans (passOpening_lineComment front r x _ rfl))
  rw [if_neg hline] at h
  by_cases hblock : c = '/' ∧ r.head? = some '*'
  · rw [if_pos hblock] at h
    rw [hopening hx, if_neg hquote, if_neg hline, if_pos hblock] at hstep
    obtain ⟨rfl, hstar⟩ := hblock
    obtain ⟨r, rfl⟩ := List.head?_eq_some_iff.1 hstar
    cases h
    exact hjump (hstep.trans (passOpening_blockComment front r x _ rfl))
  rw [if_neg hblock] at h
  by_cases hdollar : c = '$'
  · rw [if_pos hdollar] at h
    rw [hopening hx, if_neg hquote, if_neg hline, if_neg hblock, if_pos hdollar] at hstep
    subst hdollar
    exact hjump (hstep.trans (passOpening_dollar front r x _ rfl h))
  rw [if_neg hdollar] at h
  by_cases hcast : c = ':' ∧ r.head? = some ':'
  · rw [if_pos hcast] at h
    rw [hopening hx, if_neg hquote, if_neg hline, if_neg hblock, if_neg hdollar,
      if_pos hcast] at hstep
    obtain ⟨rfl, -⟩ := hcast
    cases h
    apply hjump
    rw [hstep, utf8Length_append]
    rfl
  rw [if_neg hcast] at h
  by_cases hname : c = ':' ∧ r.head?.any isNameStart = true
  · rw [if_pos hname] at h
    cases h
  rw [if_neg hname] at h
  cases h
  rw [utf8Length_append]
  refine scan_other front copied written names fun y hy => ?_
  rw [hopening hy, if_neg hquote, if_neg hline, if_neg hblock, if_neg hdollar, if_neg hcast,
    if_neg hname]

end From

/-- A placeholder begins with a colon before a name. -/
theorem placeholder_of_next {c : Char} {r name rest : List Char}
    (h : next c r = (.placeholder name, rest)) :
    c = ':' ∧ r.head? ≠ some ':' ∧ r.head?.any isNameStart = true ∧
      name = r.takeWhile isNamePart ∧ rest = r.dropWhile isNamePart := by
  unfold next at h
  split at h
  · split at h <;> cases h
  · split at h
    · cases h
    · split at h
      · cases h
      · split at h
        · split at h <;> cases h
        · split at h
          · cases h
          · rename_i hcast
            split at h
            · rename_i hname
              cases h
              exact ⟨hname.1, fun heq => hcast ⟨hname.1, heq⟩, hname.2, rfl, rfl⟩
            · cases h

/-- A placeholder is a slice of the text, and what was passed before it is written again. -/
theorem scanStep_placeholder {c : Char} {r name rest : List Char}
    (h : next c r = (.placeholder name, rest)) (a m written : List Char) (names : List String) :
    let numbered := number names (String.ofList name)
    let stop := utf8Length (a ++ m ++ c :: name)
    scanStep (a ++ m ++ c :: r) ⟨utf8Length (a ++ m), utf8Length a, written, names⟩ =
      .ok (.again ⟨stop, stop, written ++ m ++ Positional.parameterText numbered.1,
        numbered.2⟩) := by
  intro numbered stop
  obtain ⟨rfl, hcast, hname, hpart, -⟩ := placeholder_of_next h
  obtain ⟨x, hx, hstep⟩ := scanStep_eq (a ++ m) ':' r (utf8Length a) written names
  rw [opening_eq hx, if_neg (by decide), if_neg fun hminus => absurd hminus.1 (by decide),
    if_neg fun hslash => absurd hslash.1 (by decide), if_neg (by decide),
    if_neg fun htwice => hcast htwice.2, if_pos ⟨rfl, hname⟩] at hstep
  have hstart : utf8Length (a ++ m ++ [':']) = utf8Length (a ++ m) + 1 := utf8Length_append _ _
  have hstop : utf8Length (a ++ m) + 1 + utf8Length name = stop := by
    rw [← hstart, ← utf8Length_append, List.append_assoc]
    rfl
  have hafter := afterName_eq (a ++ m ++ [':']) r
  have hslice := slice_append (a ++ m ++ [':']) name (r.dropWhile isNamePart)
  have hpassed := slice_append a m (':' :: r)
  rw [hpart, List.takeWhile_append_dropWhile, ← hpart] at hslice
  rw [hstart, List.append_assoc _ [':']] at hafter hslice
  rw [← hpart] at hafter
  rw [← utf8Length_append, ← List.append_assoc] at hpassed
  change afterName (a ++ m ++ ':' :: r) _ = _ at hafter
  change slice (a ++ m ++ ':' :: r) _ _ = _ at hslice
  rw [hstop] at hafter hslice
  simp only [hstep, passOpening, bind, Except.bind, hafter, hslice, hpassed]
  rfl

/-- A placeholder gets its number, and all that follows is numbered after it. -/
theorem place_placeholder (names : List String) (name : List Char) (r : List Token) :
    let numbered := number names (String.ofList name)
    Positional.place names (.placeholder name :: r) =
      (Positional.parameterText numbered.1 ++ (Positional.place numbered.2 r).1,
        (Positional.place numbered.2 r).2) := by
  intro numbered
  simp only [Positional.place, numbered, number]
  cases names.idxOf? (String.ofList name) with
  | none => rfl
  | some position => rfl

/-- What a scan gives from where a token begins. -/
theorem scanFrom_eq (a m r written : List Char) (names : List String) :
    scanFrom (a ++ m ++ r) ⟨utf8Length (a ++ m), utf8Length a, written, names⟩ =
      .ok (written ++ m ++ (Positional.place names (tokens r)).1,
        (Positional.place names (tokens r)).2) := by
  fun_induction tokens r generalizing a m written names with
  | case1 =>
    have hslice := sliceFrom_append a m
    apply loop_of_stop
    rw [List.append_nil, scanStep, if_neg (Nat.lt_irrefl _), hslice, Positional.place]
    simp only [bind, Except.bind, List.append_nil]
    rfl
  | case2 c r p ih =>
    have hsource : p.1.source ++ p.2 = c :: r := source_next c r
    have hnext : next c r = (p.1, p.2) := rfl
    cases htoken : p.1 with
    | verbatim v =>
      rw [htoken] at hsource hnext
      have hrest := ih a (m ++ v) written names
      have htext : a ++ (m ++ v) ++ p.2 = a ++ m ++ c :: r := by
        rw [← hsource]
        simp [Token.source]
      rw [htext, ← List.append_assoc a m v] at hrest
      rw [scan_next _ _ _ _ hnext, hrest, Positional.place]
      simp
    | placeholder name =>
      rw [htoken] at hsource hnext
      obtain ⟨rfl, -⟩ := placeholder_of_next hnext
      have hstep := scanStep_placeholder hnext a m written names
      have hrest := ih (a ++ m ++ ':' :: name) []
        (written ++ m ++ Positional.parameterText (number names (String.ofList name)).1)
        (number names (String.ofList name)).2
      have htext : a ++ m ++ ':' :: name ++ p.2 = a ++ m ++ ':' :: r := by
        rw [← hsource]
        simp [Token.source]
      have hlength : utf8Length (a ++ m ++ ':' :: name) ≤ utf8Length (a ++ m ++ ':' :: r) := by
        rw [← htext, utf8Length_append (a ++ m ++ ':' :: name)]
        exact Nat.le_add_right _ _
      rw [List.append_nil, List.append_nil, htext] at hrest
      rw [scanFrom_of_again _ _ _ _ (List.cons_ne_nil ':' name) hlength rfl hstep, hrest,
        place_placeholder]
      simp

/-- A scan makes no misstep: it numbers the tokens of the text. -/
theorem scan_eq (s : List Char) : scan s = .ok (Positional.place [] (tokens s)) := by
  exact scanFrom_eq [] [] s [] []

end TableAccess.Placeholder
