import TableAccess.Calendar.Reader
import TableAccess.Calendar.Writer
import TableAccess.Proofs.Calendar.Range
import TableAccess.Proofs.Text.Blank
import TableAccess.Proofs.Text.Integer
/-!
# Written dates and times read back

Every part of a written date or time is read back with what follows it left over, so the whole
text is read as what was written.  The loose notation reads years of every width, because those
that do not have four digits are written with a sign; the strict notation reads four digits and
nothing else.

Main results:

- Theorem `readDate_writeDate`: a written date reads back.
- Theorem `readClock_writeClock`: a written time of day reads back.
- Theorem `readMoment_writeMoment`: a written moment reads back.
- Theorem `readOffsetMoment_writeUniversal`: a written moment of universal time reads back exactly
  if its year has four digits.
- Theorem `nonblank_writeUniversal`: nothing that is written has blanks, so it may be trimmed.
-/

namespace TableAccess

open Text

/-- Whether a time of day lies within a day and is no leap second. -/
structure Clock.IsProper (c : Clock) : Prop where
  second : c.second < Clock.daySeconds
  nanosecond : c.nanosecond < 1000000000

/-- Every number of microseconds is a proper time of day. -/
theorem Clock.isProper_ofMicroseconds (n : Int) : (ofMicroseconds n).IsProper where
  second := by
    simp only [ofMicroseconds, daySeconds]
    omega
  nanosecond := by
    simp only [ofMicroseconds]
    omega

/-- Hours, minutes and seconds make up the time of day that they come from. -/
theorem Clock.ofParts_second (c : Clock) :
    ofParts (c.second / 3600) (c.second / 60 % 60) (c.second % 60) c.nanosecond = c := by
  have hleap : c.second % 60 ≠ 60 := by omega
  have hsecond : c.second / 3600 * 3600 + c.second / 60 % 60 * 60 + c.second % 60 = c.second := by
    omega
  rw [ofParts, if_neg hleap, hsecond]

/-- The month and the day of a valid date can be written with two digits. -/
theorem Date.bounds_of_isValid {d : Date} (h : d.isValid = true) :
    (1 ≤ d.month ∧ d.month ≤ 12) ∧ 1 ≤ d.day ∧ d.day ≤ 31 := by
  simp only [isValid, Bool.and_eq_true, decide_eq_true_eq] at h
  have := daysInMonth_le d.year d.month
  omega

namespace Calendar

/-! ## Numbers -/

/-- Before a digit there is no blank to be left out. -/
theorem dropBlanks_digits_append {digits : List Char} (h : ∀ c ∈ digits, isDigit c = true)
    (nonempty : digits ≠ []) (rest : List Char) :
    dropBlanks (digits ++ rest) = digits ++ rest := by
  obtain ⟨c, r, rfl⟩ := List.exists_cons_of_ne_nil nonempty
  exact dropBlanks_cons_of_nonblank (isBlank_of_isDigit (h c List.mem_cons_self)) _

theorem paddedDigits_ne_nil (width n : Nat) : paddedDigits width n ≠ [] := by
  simp [paddedDigits, natDigits_ne_nil]

section Width

variable {width n : Nat} (positive : 0 < width) (fits : n < 10 ^ width) (rest : List Char)
include positive fits

/-- All digits of a written number are taken, whatever follows them. -/
theorem takeDigits_paddedDigits :
    takeDigits width (paddedDigits width n ++ rest) = (paddedDigits width n, rest) :=
  takeDigits_append_of_digits (fun _ => isDigit_of_mem_paddedDigits)
    (Nat.le_of_eq (length_paddedDigits positive fits)) (.inl (length_paddedDigits positive fits))

/-- A number is read back from as many digits as it was written with. -/
theorem readNumber_paddedDigits :
    readNumber width (paddedDigits width n ++ rest) = some (n, rest) := by
  rw [readNumber, dropBlanks_digits_append (fun _ => isDigit_of_mem_paddedDigits)
    (paddedDigits_ne_nil width n), takeDigits_paddedDigits positive fits]
  simp [paddedDigits_ne_nil, digitsValue_paddedDigits]

theorem readBounded_paddedDigits {low high : Nat} (bounds : low ≤ n ∧ n ≤ high) :
    readBounded width low high (paddedDigits width n ++ rest) = some (n, rest) := by
  rw [readBounded, readNumber_paddedDigits positive fits]
  exact if_pos bounds

theorem readExact_paddedDigits :
    readExact width (paddedDigits width n ++ rest) = some (n, rest) := by
  rw [readExact, takeDigits_paddedDigits positive fits]
  simp [length_paddedDigits positive fits, digitsValue_paddedDigits]

end Width

/-! ## Years -/

/-- A year that begins with a digit has four digits. -/
theorem readYear_of_isDigit {c : Char} (h : isDigit c = true) (r : List Char) :
    readYear (c :: r) = (readNumber 4 (c :: r)).map fun p => ((p.1 : Int), p.2) := by
  have hdrop : dropBlanks (c :: r) = c :: r := dropBlanks_cons_of_nonblank (isBlank_of_isDigit h) r
  unfold readYear
  rw [hdrop]
  split
  · rename_i heq
    exact absurd (List.cons.inj heq).1 (ne_of_isDigit h (by decide))
  · rename_i heq
    exact absurd (List.cons.inj heq).1 (ne_of_isDigit h (by decide))
  · rfl

/-- A year with a sign takes all its digits. -/
theorem readYear_signed (negative : Bool) (n : Nat) {rest : List Char}
    (hrest : ∀ c, rest.head? = some c → isDigit c = false) :
    readYear.signed negative (paddedDigits 4 n ++ rest) = some (signedValue negative n, rest) := by
  rw [readYear.signed, spanDigits_append (fun _ => isDigit_of_mem_paddedDigits) hrest]
  simp [paddedDigits_ne_nil, digitsValue_paddedDigits, signedValue]

/-- A written year is read up to what is no digit. -/
theorem readYear_writeYear (year : Int) {rest : List Char}
    (hrest : ∀ c, rest.head? = some c → isDigit c = false) :
    readYear (writeYear year ++ rest) = some (year, rest) := by
  unfold writeYear
  split
  · have hnumber : readNumber 4 (paddedDigits 4 year.natAbs ++ rest) = some (year.natAbs, rest) :=
      readNumber_paddedDigits (by decide) (by omega) rest
    have hyear : (year.natAbs : Int) = year := by omega
    obtain ⟨c, r, hcons⟩ := List.exists_cons_of_ne_nil (paddedDigits_ne_nil 4 year.natAbs)
    have hc : isDigit c = true :=
      isDigit_of_mem_paddedDigits (hcons ▸ List.mem_cons_self : c ∈ paddedDigits 4 year.natAbs)
    rw [hcons, List.cons_append] at hnumber ⊢
    rw [readYear_of_isDigit hc, hnumber, Option.map_some, hyear]
  · have hsigned : ∀ negative, signedValue negative year.natAbs = year →
        readYear.signed negative (paddedDigits 4 year.natAbs ++ rest) = some (year, rest) := by
      intro negative hvalue
      rw [readYear_signed negative _ hrest, hvalue]
    split
    · exact hsigned true (by rw [signedValue_true]; omega)
    · exact hsigned false (by rw [signedValue_false]; omega)

/-! ## Fractions of a second -/

/-- A fraction is read as nanoseconds, by the number of its digits. -/
theorem readFraction_digits {width n : Nat} (positive : 0 < width) (room : width ≤ 9)
    (fits : n < 10 ^ width) {rest : List Char}
    (hrest : ∀ c, rest.head? = some c → isDigit c = false) :
    readFraction ('.' :: (paddedDigits width n ++ rest)) =
      some (n * Nat.pow 10 (9 - width), rest) := by
  have htake : takeDigits 9 (paddedDigits width n ++ rest) = (paddedDigits width n, rest) := by
    refine takeDigits_append_of_digits (fun _ => isDigit_of_mem_paddedDigits) ?_ (.inr hrest)
    rwa [length_paddedDigits positive fits]
  have hdrop : rest.dropWhile isDigit = rest :=
    (takeWhile_append_of_head (List.forall_mem_nil _) hrest).2
  rw [readFraction, htake]
  simp [paddedDigits_ne_nil, digitsValue_paddedDigits, length_paddedDigits positive fits, hdrop]

/-- A written fraction is read up to what is neither a digit nor a point. -/
theorem readFraction_writeFraction {nanosecond : Nat} (h : nanosecond < 1000000000)
    (rest : List Char) (hrest : ∀ c, rest.head? = some c → isDigit c = false)
    (hpoint : rest.head? ≠ some '.') :
    readFraction (writeFraction nanosecond ++ rest) = some (nanosecond, rest) := by
  unfold writeFraction
  split
  · rename_i hzero
    rw [hzero, List.nil_append]
    unfold readFraction
    split
    · exact absurd rfl hpoint
    · rfl
  · split
    · rw [List.cons_append, readFraction_digits (by decide) (by decide) (by omega) hrest]
      have hpow : Nat.pow 10 (9 - 3) = 1000000 := rfl
      rw [hpow, Nat.div_mul_cancel (by omega)]
    · split
      · rw [List.cons_append, readFraction_digits (by decide) (by decide) (by omega) hrest]
        have hpow : Nat.pow 10 (9 - 6) = 1000 := rfl
        rw [hpow, Nat.div_mul_cancel (by omega)]
      · rw [List.cons_append, readFraction_digits (by decide) (by decide) (by omega) hrest]
        have hpow : Nat.pow 10 (9 - 9) = 1 := rfl
        rw [hpow, Nat.mul_one]

/-! ## Dates -/

/-- A written date, part by part. -/
theorem writeDate_append (d : Date) (rest : List Char) :
    writeDate d ++ rest = writeYear d.year ++ '-' ::
      (paddedDigits 2 d.month ++ '-' :: (paddedDigits 2 d.day ++ rest)) := by
  simp [writeDate]

/-- A written date is read in the loose notation, whatever follows it. -/
theorem readDateParts_writeDate (between : Bool) {d : Date} (h : d.isValid = true)
    (rest : List Char) : readDateParts between (writeDate d ++ rest) = some (d, rest) := by
  obtain ⟨hmonth, hday⟩ := d.bounds_of_isValid h
  have hgap : ∀ r, (if between then dropBlanks ('-' :: r) else '-' :: r) = '-' :: r := by
    intro r
    rw [dropBlanks_cons_of_nonblank (by decide), ite_self]
  have hyear := fun r => readYear_writeYear d.year
    (show ∀ c, ('-' :: r).head? = some c → isDigit c = false by simp; decide)
  have hmonthRead := fun r =>
    readBounded_paddedDigits (by decide : 0 < 2) (by omega) r hmonth
  have hdayRead := readBounded_paddedDigits (by decide : 0 < 2) (by omega) rest hday
  rw [writeDate_append]
  simp only [readDateParts, hyear, hmonthRead, hdayRead, hgap, expect_append, existing, h,
    Option.bind_eq_bind, Option.bind_some, if_true]
  rfl

/-- A written date reads back. -/
theorem readDate_writeDate {d : Date} (h : d.isValid = true) :
    readDate (writeDate d) = some d := by
  have hparts := readDateParts_writeDate true h []
  rw [List.append_nil] at hparts
  rw [readDate, hparts]
  rfl

/-! ## Times of day -/

/-- A written time of day, part by part. -/
theorem writeClock_append (c : Clock) (rest : List Char) :
    writeClock c ++ rest = paddedDigits 2 (c.second / 3600) ++ ':' ::
      (paddedDigits 2 (c.second / 60 % 60) ++ ':' :: (paddedDigits 2 (c.second % 60) ++
        (writeFraction c.nanosecond ++ rest))) := by
  simp [writeClock]

section Clock

variable {c : Clock} (h : c.IsProper)
include h

theorem hour_le : c.second / 3600 ≤ 23 := by
  have hsecond := h.second
  simp only [Clock.daySeconds] at hsecond
  omega

theorem readBounded_hour (r : List Char) :
    readBounded 2 0 23 (paddedDigits 2 (c.second / 3600) ++ r) = some (c.second / 3600, r) := by
  have hhour := hour_le h
  exact readBounded_paddedDigits (by decide) (by omega) r ⟨Nat.zero_le _, hhour⟩

omit h in
theorem readBounded_minute (r : List Char) :
    readBounded 2 0 59 (paddedDigits 2 (c.second / 60 % 60) ++ r) =
      some (c.second / 60 % 60, r) :=
  readBounded_paddedDigits (by decide) (by omega) r ⟨Nat.zero_le _, by omega⟩

omit h in
theorem readBounded_second (r : List Char) :
    readBounded 2 0 60 (paddedDigits 2 (c.second % 60) ++ r) = some (c.second % 60, r) :=
  readBounded_paddedDigits (by decide) (by omega) r ⟨Nat.zero_le _, by omega⟩

/-- Written seconds at the end of a text are read. -/
theorem readSeconds_writeClock :
    readSeconds (':' :: (paddedDigits 2 (c.second % 60) ++
      (writeFraction c.nanosecond ++ []))) = some (c.second % 60, c.nanosecond, []) := by
  have hfraction := readFraction_writeFraction h.nanosecond [] (by simp) (by simp)
  rw [readSeconds, expect_append]
  simp only [Option.bind_eq_bind, Option.bind_some, readBounded_second, hfraction]
  rfl

/-- A written time of day reads back. -/
theorem readClock_writeClock : readClock (writeClock c) = some c := by
  have hgap : ∀ r, dropBlanks (':' :: r) = ':' :: r :=
    fun r => dropBlanks_cons_of_nonblank (by decide) r
  rw [← List.append_nil (writeClock c), writeClock_append, readClock, readBounded_hour h]
  simp only [Option.bind_eq_bind, Option.bind_some, hgap, expect_append, readBounded_minute,
    readSeconds_writeClock h, Option.getD_some, dropBlanks_nil, List.isEmpty_nil, if_true,
    Clock.ofParts_second]

end Clock

/-! ## Moments -/

/-- A written moment of universal time, part by part. -/
theorem writeUniversal_eq (m : Moment) : writeUniversal m = writeYear m.date.year ++ '-' ::
    (paddedDigits 2 m.date.month ++ '-' :: (paddedDigits 2 m.date.day ++ 'T' ::
      (paddedDigits 2 (m.clock.second / 3600) ++ ':' ::
        (paddedDigits 2 (m.clock.second / 60 % 60) ++ ':' ::
          (paddedDigits 2 (m.clock.second % 60) ++ (writeFraction m.clock.nanosecond ++
            ['+', '0', '0', ':', '0', '0'])))))) := by
  simp [writeUniversal, writeMoment, writeDate, writeClock]

section Moment

variable {m : Moment}

/-- A written moment reads back. -/
theorem readMoment_writeMoment (date : m.date.isValid = true) (clock : m.clock.IsProper) :
    readMoment (writeMoment m) = some m := by
  have hwith : readMomentWith (expect 'T') (writeMoment m) = some m := by
    rw [writeMoment, readMomentWith, readDateParts_writeDate false date,
      ← List.append_nil (writeClock m.clock), writeClock_append]
    simp only [Option.bind_eq_bind, Option.bind_some, expect_append, readBounded_hour clock,
      readBounded_minute, readSeconds_writeClock clock, List.isEmpty_nil, if_true,
      Clock.ofParts_second]
  rw [readMoment, hwith, Option.some_or]

/-- A written moment of universal time reads back if its year has four digits. -/
theorem readOffsetMoment_of_fourDigits (date : m.date.isValid = true) (clock : m.clock.IsProper)
    (year : 0 ≤ m.date.year ∧ m.date.year ≤ 9999) :
    readOffsetMoment (writeUniversal m) = some (m, 0) := by
  obtain ⟨hmonth, hday⟩ := m.date.bounds_of_isValid date
  have hhour := hour_le clock
  have htwo : ∀ n < 10 ^ 2, ∀ r, readExact 2 (paddedDigits 2 n ++ r) = some (n, r) :=
    fun n hn r => readExact_paddedDigits (by decide) hn r
  have hyear := fun r => readExact_paddedDigits (by decide : 0 < 4)
    (by omega : m.date.year.natAbs < 10 ^ 4) r
  have hdate : existing ⟨(m.date.year.natAbs : Nat), m.date.month, m.date.day⟩ = some m.date := by
    rw [Int.natAbs_of_nonneg year.1, existing, if_pos date]
  have hfraction := readFraction_writeFraction clock.nanosecond ['+', '0', '0', ':', '0', '0']
    (by simp; decide) (by simp)
  have hoffset : readOffset ['+', '0', '0', ':', '0', '0'] = some (0, []) := rfl
  have hbounds : m.clock.second / 3600 ≤ 23 ∧ m.clock.second / 60 % 60 ≤ 59 ∧
      m.clock.second % 60 ≤ 60 ∧ ([] : List Char).isEmpty = true :=
    ⟨hhour, by omega, by omega, rfl⟩
  rw [writeUniversal_eq, writeYear, if_pos year]
  unfold readOffsetMoment
  -- The parts are read one after another, because rewriting under all binds at once is too slow.
  refine Option.bind_eq_some_iff.2 ⟨_, hyear _, ?_⟩
  refine Option.bind_eq_some_iff.2 ⟨_, expect_append _ _, ?_⟩
  refine Option.bind_eq_some_iff.2 ⟨_, htwo m.date.month (by omega) _, ?_⟩
  refine Option.bind_eq_some_iff.2 ⟨_, expect_append _ _, ?_⟩
  refine Option.bind_eq_some_iff.2 ⟨_, htwo m.date.day (by omega) _, ?_⟩
  refine Option.bind_eq_some_iff.2 ⟨_, hdate, ?_⟩
  refine Option.bind_eq_some_iff.2 ⟨_, rfl, ?_⟩
  refine Option.bind_eq_some_iff.2 ⟨_, htwo (m.clock.second / 3600) (by omega) _, ?_⟩
  refine Option.bind_eq_some_iff.2 ⟨_, expect_append _ _, ?_⟩
  refine Option.bind_eq_some_iff.2 ⟨_, htwo (m.clock.second / 60 % 60) (by omega) _, ?_⟩
  refine Option.bind_eq_some_iff.2 ⟨_, expect_append _ _, ?_⟩
  refine Option.bind_eq_some_iff.2 ⟨_, htwo (m.clock.second % 60) (by omega) _, ?_⟩
  refine Option.bind_eq_some_iff.2 ⟨_, hfraction, ?_⟩
  refine Option.bind_eq_some_iff.2 ⟨_, hoffset, ?_⟩
  refine (if_pos hbounds).trans ?_
  rw [Clock.ofParts_second]

/-- A written moment of universal time is refused if its year has a sign. -/
theorem readOffsetMoment_of_signed (year : ¬ (0 ≤ m.date.year ∧ m.date.year ≤ 9999)) :
    readOffsetMoment (writeUniversal m) = none := by
  have hsign : ∀ c, isDigit c = false → ∀ r, readExact 4 (c :: r) = none := by
    intro c hc r
    simp [readExact, takeDigits, hc]
  rw [writeUniversal_eq, writeYear, if_neg year, List.cons_append, readOffsetMoment, hsign]
  · rfl
  · split <;> decide

/-- A written moment of universal time reads back exactly if its year has four digits. -/
theorem readOffsetMoment_writeUniversal (date : m.date.isValid = true)
    (clock : m.clock.IsProper) :
    readOffsetMoment (writeUniversal m) =
      if 0 ≤ m.date.year ∧ m.date.year ≤ 9999 then some (m, 0) else none := by
  split
  · rename_i year
    exact readOffsetMoment_of_fourDigits date clock year
  · rename_i year
    exact readOffsetMoment_of_signed year

end Moment

/-! ## Blanks -/

/-- There is no blank in a written number. -/
theorem nonblank_paddedDigits (width n : Nat) :
    ∀ c ∈ paddedDigits width n, isBlank c = false :=
  fun _ hc => isBlank_of_isDigit (isDigit_of_mem_paddedDigits hc)

theorem nonblank_writeYear (year : Int) : ∀ c ∈ writeYear year, isBlank c = false := by
  unfold writeYear
  split
  · exact nonblank_paddedDigits 4 _
  · refine List.forall_mem_cons.2 ⟨?_, nonblank_paddedDigits 4 _⟩
    split <;> decide

theorem nonblank_writeFraction (nanosecond : Nat) :
    ∀ c ∈ writeFraction nanosecond, isBlank c = false := by
  have hdigits : ∀ width n, ∀ c ∈ '.' :: paddedDigits width n, isBlank c = false :=
    fun width n => List.forall_mem_cons.2 ⟨by decide, nonblank_paddedDigits width n⟩
  unfold writeFraction
  split
  · simp
  · split
    · exact hdigits 3 _
    · split
      · exact hdigits 6 _
      · exact hdigits 9 _

theorem nonblank_writeDate (d : Date) : ∀ c ∈ writeDate d, isBlank c = false := by
  have hmark : isBlank '-' = false := by decide
  simp only [writeDate, List.forall_mem_append, List.forall_mem_cons]
  exact ⟨nonblank_writeYear _, hmark, nonblank_paddedDigits 2 _, hmark, nonblank_paddedDigits 2 _⟩

theorem nonblank_writeClock (c : Clock) : ∀ d ∈ writeClock c, isBlank d = false := by
  have hmark : isBlank ':' = false := by decide
  simp only [writeClock, List.forall_mem_append, List.forall_mem_cons]
  exact ⟨nonblank_paddedDigits 2 _, hmark, nonblank_paddedDigits 2 _, hmark,
    nonblank_paddedDigits 2 _, nonblank_writeFraction _⟩

theorem nonblank_writeMoment (m : Moment) : ∀ c ∈ writeMoment m, isBlank c = false := by
  simp only [writeMoment, List.forall_mem_append, List.forall_mem_cons]
  exact ⟨nonblank_writeDate _, by decide, nonblank_writeClock _⟩

/-- A written moment of universal time has no blanks. -/
theorem nonblank_writeUniversal (m : Moment) : ∀ c ∈ writeUniversal m, isBlank c = false := by
  have hoffset : ['+', '0', '0', ':', '0', '0'].all (fun c => !isBlank c) = true := by decide
  simp only [writeUniversal, List.forall_mem_append]
  exact ⟨nonblank_writeMoment m, by simpa using hoffset⟩

end Calendar

end TableAccess
