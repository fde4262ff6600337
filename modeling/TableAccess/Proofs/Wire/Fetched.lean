import TableAccess.Proofs.Calendar.ReadBack
import TableAccess.Proofs.Wire.BigEndian
import TableAccess.Text.Offset
import TableAccess.Wire.Cell
import TableAccess.Wire.Parameter
/-!
# Texts, dates and times sent back

Dates and times are fetched as texts, and such a text may be sent as a parameter of the type that
it was fetched from.  Dates and moments of the supported range, and times within a day, are sent
back as the octets that were fetched.  A moment of universal time is written in the loose notation
and read in the strict one, so it is sent back only if its year has four digits.  What is fetched
from a type that holds texts is always sent back.

Main results:

- Theorem `decode_other_eq_some_iff`: which octets are fetched from a type known by name only.
- Theorem `texts_sent_back`: texts are sent back.
- Theorem `decode_date_eq_some_iff`: which octets are fetched as a date, and as which text.
- Theorem `decodeMoment_eq_some_iff`: which octets are fetched as a moment, and as which text.
- Theorem `dates_times_sent_back`: dates, times and moments are sent back.
- Theorem `universal_sent_back`: which moments of universal time are.
-/

namespace TableAccess.Wire

open Text

/-- Whether octets are fetched as a text that is sent as the same octets. -/
def SentBack (type : SqlType) (octets : Octets) : Prop :=
  ∃ s, decode type (some octets) = some (.text s) ∧ send type (.text s) = .ok (some octets)

/-! ## Types that hold texts -/

/-- Which octets are read as a text. -/
theorem decodeText_eq_some_iff {octets : Octets} {value : Value} :
    decodeText octets = some value ↔ ∃ s, utf8Encode s = octets ∧ .text s = value := by
  rw [decodeText, Option.map_eq_some_iff]
  simp only [utf8Decode?_eq_some_iff]

/-- Which octets are read as a text after a version. -/
theorem decodeVersionedText_eq_some_iff {octets : Octets} {value : Value} :
    decodeVersionedText octets = some value ↔
      ∃ s, SqlType.textVersion :: utf8Encode s = octets ∧ .text s = value := by
  cases octets with
  | nil => simp [decodeVersionedText]
  | cons version r =>
    rw [decodeVersionedText, Option.ite_none_right_eq_some, decodeText_eq_some_iff]
    constructor
    · rintro ⟨rfl, s, rfl, hvalue⟩
      exact ⟨s, rfl, hvalue⟩
    · rintro ⟨s, hoctets, hvalue⟩
      obtain ⟨rfl, rfl⟩ := List.cons.inj hoctets
      exact ⟨rfl, s, rfl, hvalue⟩

/-- From a type that takes every value as a text the octets of texts are fetched. -/
theorem decode_text_eq_some_iff {type : SqlType} (h : type.isText = true) (octets : Octets)
    (value : Value) :
    decode type (some octets) = some value ↔ ∃ s, utf8Encode s = octets ∧ .text s = value := by
  have hread : decode type (some octets) = decodeText octets := by
    cases type <;> simp [SqlType.isText] at h <;> rfl
  rw [hread, decodeText_eq_some_iff]

/-- From a type that is known by name only the octets are fetched as which a text is sent, if it
is one of the types that hold texts, and nothing otherwise. -/
theorem decode_other_eq_some_iff (typeName : String) (octets : Octets) (value : Value) :
    decode (.other typeName) (some octets) = some value ↔
      (typeName = SqlType.caseless ∨ typeName ∈ SqlType.versioned) ∧
        ∃ s, namedOctets typeName s = octets ∧ .text s = value := by
  have hread : reader? (.other typeName) = namedReader? typeName := rfl
  rw [decode_some, hread, namedReader?]
  by_cases hversioned : typeName ∈ SqlType.versioned
  · have hcased : typeName ≠ SqlType.caseless := by
      rintro rfl
      exact absurd hversioned (by decide)
    rw [if_neg hcased, if_pos hversioned, Option.bind_some, decodeVersionedText_eq_some_iff,
      and_iff_right (.inr hversioned)]
    simp only [namedOctets, if_pos hversioned]
  · by_cases hcaseless : typeName = SqlType.caseless
    · rw [if_pos hcaseless, Option.bind_some, decodeText_eq_some_iff,
        and_iff_right (.inl hcaseless)]
      simp only [namedOctets, if_neg hversioned]
    · simp [hcaseless, hversioned]

/-- Whatever is fetched from a type of texts, or from a type that is known by name only, is a text
that is sent back. -/
theorem texts_sent_back {type : SqlType}
    (texts : type.isText = true ∨ ∃ typeName, type = .other typeName) {octets : Octets}
    (fetched : (decode type (some octets)).isSome = true) : SentBack type octets := by
  obtain ⟨value, hvalue⟩ := Option.isSome_iff_exists.1 fetched
  rcases texts with htext | ⟨typeName, rfl⟩
  · obtain ⟨s, rfl, rfl⟩ := (decode_text_eq_some_iff htext octets value).1 hvalue
    exact ⟨s, hvalue, send_text_of_isText htext s⟩
  · obtain ⟨-, s, rfl, rfl⟩ := (decode_other_eq_some_iff typeName octets value).1 hvalue
    exact ⟨s, hvalue, rfl⟩

/-! ## Fetched dates and times -/

/-- Which octets are fetched as a date, and as which text. -/
theorem decode_date_eq_some_iff (octets : Octets) (value : Value) :
    decode .date (some octets) = some value ↔
      ∃ day, readInt? 4 octets = some day ∧ (Date.ofDayNumber day).isValid = true ∧
        textValue (Calendar.writeDate (Date.ofDayNumber day)) = value := by
  have hread : decode .date (some octets) = decodeDate octets := rfl
  rw [hread, decodeDate, Option.bind_eq_some_iff]
  simp only [Option.ite_none_right_eq_some, Option.some.injEq]

/-- Which octets are fetched as a moment, and as which text. -/
theorem decodeMoment_eq_some_iff (write : Moment → List Char) (octets : Octets) (value : Value) :
    decodeMoment write octets = some value ↔
      ∃ n, readInt? 8 octets = some n ∧ (Moment.ofMicroseconds n).date.isValid = true ∧
        textValue (write (Moment.ofMicroseconds n)) = value := by
  rw [decodeMoment, Option.bind_eq_some_iff]
  simp only [Option.ite_none_right_eq_some, Option.some.injEq]

/-- The moments that can be read are those of the supported dates. -/
theorem decodeMoment_isSome_iff (write : Moment → List Char) (octets : Octets) :
    (decodeMoment write octets).isSome = true ↔
      ∃ n, readInt? 8 octets = some n ∧ Date.firstDay * Moment.dayMicroseconds ≤ n ∧
        n < (Date.lastDay + 1) * Moment.dayMicroseconds := by
  simp [Option.isSome_iff_exists, decodeMoment_eq_some_iff, Moment.isValid_ofMicroseconds_iff]

/-! ## Sent texts -/

/-- A text of a date is sent as the number of its day. -/
theorem send_writeDate {day : Int} (valid : (Date.ofDayNumber day).isValid = true) :
    send .date (textValue (Calendar.writeDate (Date.ofDayNumber day))) =
      .ok (some (intOctets 4 day)) := by
  have hread := Calendar.readDate_writeDate valid
  simp only [send, textValue, sendText, integerRange?, String.toList_ofList,
    trimChars_of_nonblank (Calendar.nonblank_writeDate _), hread, sendRead,
    Date.dayNumber_ofDayNumber]

/-- A text of a time of day is sent as its microseconds. -/
theorem send_writeClock {n : Int} (low : 0 ≤ n) (high : n < Moment.dayMicroseconds) :
    send .time (textValue (Calendar.writeClock (Clock.ofMicroseconds n))) =
      .ok (some (intOctets 8 n)) := by
  have hread := Calendar.readClock_writeClock (Clock.isProper_ofMicroseconds n)
  have hcount : ((Clock.ofMicroseconds n).microseconds : Int) = n := by
    obtain ⟨k, rfl⟩ := Int.eq_ofNat_of_zero_le low
    rw [Clock.microseconds_ofMicroseconds]
    simp only [Moment.dayMicroseconds] at high
    simp only [Clock.daySeconds]
    omega
  simp only [send, textValue, sendText, integerRange?, String.toList_ofList,
    trimChars_of_nonblank (Calendar.nonblank_writeClock _), hread, sendRead, hcount]

/-- A text of a moment is sent as its microseconds. -/
theorem send_writeMoment {n : Int} (valid : (Moment.ofMicroseconds n).date.isValid = true) :
    send .timestamp (textValue (Calendar.writeMoment (Moment.ofMicroseconds n))) =
      .ok (some (intOctets 8 n)) := by
  have hread := Calendar.readMoment_writeMoment valid (Clock.isProper_ofMicroseconds n)
  simp only [send, textValue, sendText, integerRange?, String.toList_ofList,
    trimChars_of_nonblank (Calendar.nonblank_writeMoment _), hread, sendRead,
    Moment.microseconds_ofMicroseconds]

/-- A text of a moment of universal time is sent as its microseconds if its year has four digits,
and is refused otherwise. -/
theorem send_writeUniversal {n : Int} (valid : (Moment.ofMicroseconds n).date.isValid = true) :
    send .timestamptz (textValue (Calendar.writeUniversal (Moment.ofMicroseconds n))) =
      if Date.dayNumber ⟨0, 1, 1⟩ * Moment.dayMicroseconds ≤ n ∧
          n < Date.dayNumber ⟨10000, 1, 1⟩ * Moment.dayMicroseconds then
        .ok (some (intOctets 8 n))
      else
        .error .dateTime := by
  have hread := Calendar.readOffsetMoment_writeUniversal valid (Clock.isProper_ofMicroseconds n)
  have hfirst := Moment.le_year_ofMicroseconds_iff 0 n
  have hafter := Moment.le_year_ofMicroseconds_iff 10000 n
  have hdigits : (0 ≤ (Moment.ofMicroseconds n).date.year ∧
      (Moment.ofMicroseconds n).date.year ≤ 9999) ↔
        Date.dayNumber ⟨0, 1, 1⟩ * Moment.dayMicroseconds ≤ n ∧
          n < Date.dayNumber ⟨10000, 1, 1⟩ * Moment.dayMicroseconds := by
    rw [← hfirst, ← Int.not_le, ← hafter]
    omega
  have hcount : (Moment.ofMicroseconds n).microsecondsAhead 0 = n :=
    Moment.microseconds_ofMicroseconds n
  simp only [send, textValue, sendText, integerRange?, String.toList_ofList,
    trimChars_of_nonblank (Calendar.nonblank_writeUniversal _), hread, hdigits]
  split
  · simp only [sendRead, hcount]
  · rfl

/-! ## Texts sent back -/

/-- A text is sent back if it is sent as the integer that was fetched. -/
theorem SentBack.of_readInt? {type : SqlType} {octets : Octets} {count : Nat} {n : Int}
    {s : List Char} (counts : readInt? count octets = some n)
    (fetched : decode type (some octets) = some (textValue s))
    (sent : send type (textValue s) = .ok (some (intOctets count n))) : SentBack type octets := by
  rw [intOctets_of_readInt? counts] at sent
  exact ⟨String.ofList s, fetched, sent⟩

/-- Dates and times are sent back.  The octets that are fetched as a date or as a moment are those
of the supported range, and all of them are sent back; so are those of a time before the end of
the day. -/
theorem dates_times_sent_back (octets : Octets) :
    ((decode .date (some octets)).isSome = true ↔
      ∃ day, readInt? 4 octets = some day ∧ Date.firstDay ≤ day ∧ day ≤ Date.lastDay) ∧
    ((decode .timestamp (some octets)).isSome = true ↔
      ∃ n, readInt? 8 octets = some n ∧ Date.firstDay * Moment.dayMicroseconds ≤ n ∧
        n < (Date.lastDay + 1) * Moment.dayMicroseconds) ∧
    ((decode .date (some octets)).isSome = true → SentBack .date octets) ∧
    ((decode .timestamp (some octets)).isSome = true → SentBack .timestamp octets) ∧
    ∀ n, readInt? 8 octets = some n → 0 ≤ n → n < Moment.dayMicroseconds →
      SentBack .time octets := by
  refine ⟨?_, decodeMoment_isSome_iff _ octets, fun fetched => ?_, fun fetched => ?_,
    fun n hn low high => ?_⟩
  · simp [Option.isSome_iff_exists, decode_date_eq_some_iff, Date.isValid_ofDayNumber_iff]
  · obtain ⟨value, hvalue⟩ := Option.isSome_iff_exists.1 fetched
    obtain ⟨day, hday, valid, rfl⟩ := (decode_date_eq_some_iff octets value).1 hvalue
    exact .of_readInt? hday hvalue (send_writeDate valid)
  · obtain ⟨value, hvalue⟩ := Option.isSome_iff_exists.1 fetched
    obtain ⟨n, hn, valid, rfl⟩ := (decodeMoment_eq_some_iff _ octets value).1 hvalue
    exact .of_readInt? hn hvalue (send_writeMoment valid)
  · have hvalue : decode .time (some octets) =
        some (textValue (Calendar.writeClock (Clock.ofMicroseconds n))) := by
      have hread : decode .time (some octets) = decodeClock octets := rfl
      rw [hread, decodeClock, hn, Option.map_some]
    exact .of_readInt? hn hvalue (send_writeClock low high)

/-- The first day of the range, its last microsecond and the last microsecond of a day. -/
theorem dates_times_sent_back_ends :
    SentBack .date [0xFA, 0x3F, 0xE3, 0xA7] ∧
      SentBack .timestamp [0x71, 0xED, 0x5D, 0x38, 0x43, 0x99, 0xFF, 0xFF] ∧
      SentBack .time [0x00, 0x00, 0x00, 0x14, 0x1D, 0xD7, 0x5F, 0xFF] :=
  ⟨(dates_times_sent_back _).2.2.1 (by decide), (dates_times_sent_back _).2.2.2.1 (by decide),
    (dates_times_sent_back _).2.2.2.2 86399999999 (by decide) (by decide) (by decide)⟩

/-- Which moments of universal time are sent back.  The octets that are fetched as one are those
of the supported range.  The text is sent as the same octets if the year has four digits, and it
is refused otherwise. -/
theorem universal_sent_back (octets : Octets) :
    ((decode .timestamptz (some octets)).isSome = true ↔
      ∃ n, readInt? 8 octets = some n ∧ Date.firstDay * Moment.dayMicroseconds ≤ n ∧
        n < (Date.lastDay + 1) * Moment.dayMicroseconds) ∧
    ∀ value, decode .timestamptz (some octets) = some value →
      ∃ s n, value = .text s ∧ readInt? 8 octets = some n ∧
        send .timestamptz (.text s) =
          if Date.dayNumber ⟨0, 1, 1⟩ * Moment.dayMicroseconds ≤ n ∧
              n < Date.dayNumber ⟨10000, 1, 1⟩ * Moment.dayMicroseconds then
            .ok (some octets)
          else
            .error .dateTime := by
  refine ⟨decodeMoment_isSome_iff _ octets, fun value fetched => ?_⟩
  obtain ⟨n, hn, valid, rfl⟩ := (decodeMoment_eq_some_iff _ octets value).1 fetched
  have hsent := send_writeUniversal valid
  rw [intOctets_of_readInt? hn] at hsent
  exact ⟨_, n, rfl, hn, hsent⟩

/-- The last microsecond of the year 9999 is sent back. -/
theorem universal_sent_back_last :
    SentBack .timestamptz [0x03, 0x80, 0xE7, 0x0B, 0x91, 0x3B, 0x7F, 0xFF] := by
  obtain ⟨value, hvalue⟩ := Option.isSome_iff_exists.1
    (by decide : (decode .timestamptz
      (some [0x03, 0x80, 0xE7, 0x0B, 0x91, 0x3B, 0x7F, 0xFF])).isSome = true)
  obtain ⟨s, n, rfl, hn, hsent⟩ := (universal_sent_back _).2 value hvalue
  have hcount : n = 252455615999999999 := Option.some.inj (hn.symm.trans (by decide))
  rw [if_pos (by rw [hcount]; decide)] at hsent
  exact ⟨s, hvalue, hsent⟩

/-- The microsecond after it is fetched as a text that is refused. -/
theorem universal_sent_back_refused :
    decode .timestamptz (some [0x03, 0x80, 0xE7, 0x0B, 0x91, 0x3B, 0x80, 0x00]) =
        some (.text "+10000-01-01T00:00:00+00:00") ∧
      send .timestamptz (.text "+10000-01-01T00:00:00+00:00") = .error .dateTime := by
  have hmoment : Moment.ofMicroseconds 252455616000000000 = ⟨⟨10000, 1, 1⟩, ⟨0, 0⟩⟩ := by decide
  have htext : Calendar.writeUniversal ⟨⟨10000, 1, 1⟩, ⟨0, 0⟩⟩ =
      "+10000-01-01T00:00:00+00:00".toList := by
    simp only [Calendar.writeUniversal, Calendar.writeMoment, Calendar.writeDate,
      Calendar.writeYear, Calendar.writeClock, paddedDigits, natDigits_eq_toDigits]
    decide
  have hvalue : textValue (Calendar.writeUniversal (Moment.ofMicroseconds 252455616000000000)) =
      .text "+10000-01-01T00:00:00+00:00" := by
    rw [hmoment, htext, textValue, String.ofList_toList]
  exact ⟨(decodeMoment_eq_some_iff _ _ _).2 ⟨_, by decide, by decide, hvalue⟩, by decide⟩

end TableAccess.Wire
