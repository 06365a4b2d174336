/-
GridFlux/MdtmTime.lean

The modification time of a file from the server's `formatMdtmTime` to the
client's `mdtm`.

Two facts carry it: the calendar counts every day once (`daysFromCivil_civilFromDays`),
and a time whose year has four digits is written in fourteen, two for each of the
other fields (`readMdtm_timeText`).
-/
import GridFlux.ControlClient

namespace GridFlux

open TextCodec

/-! ### The calendar -/

section Calendar

variable (days : Int)

/-- The year of the era and the day of that year are in range.  Century by
century the year is a linear function of the day. -/
theorem dayOfYear_bounds {dayOfEra yearOfEra : Int} (hlow : 0 ≤ dayOfEra) (hhigh : dayOfEra < 146097)
    (hyear : yearOfEra =
      (dayOfEra - dayOfEra / 1460 + dayOfEra / 36524 - dayOfEra / 146096) / 365) :
    (0 ≤ yearOfEra ∧ yearOfEra ≤ 399) ∧
      0 ≤ dayOfEra - (365 * yearOfEra + yearOfEra / 4 - yearOfEra / 100) ∧
      dayOfEra - (365 * yearOfEra + yearOfEra / 4 - yearOfEra / 100) ≤ 365 := by
  have hrange : 0 ≤ yearOfEra ∧ yearOfEra ≤ 399 := by omega
  refine ⟨hrange, ?_⟩
  have hcentury : dayOfEra / 36524 = 0 ∨ dayOfEra / 36524 = 1 ∨ dayOfEra / 36524 = 2 ∨
      dayOfEra / 36524 = 3 ∨ dayOfEra / 36524 = 4 := by omega
  have hcentury' : yearOfEra / 100 = 0 ∨ yearOfEra / 100 = 1 ∨ yearOfEra / 100 = 2 ∨
      yearOfEra / 100 = 3 := by omega
  rcases hcentury with h | h | h | h | h <;> rcases hcentury' with h' | h' | h' | h' <;>
    rw [h] at hyear <;> rw [h'] <;> omega

/-- The quantities of `civilFromDays`, with what is known about each. -/
theorem civilFromDays_eq : ∃ era yearOfEra dayOfYear shiftedMonth : Int,
    (0 ≤ yearOfEra ∧ yearOfEra ≤ 399) ∧ (0 ≤ dayOfYear ∧ dayOfYear ≤ 365) ∧
      shiftedMonth = (5 * dayOfYear + 2) / 153 ∧
      days + 719468 =
        era * 146097 + (yearOfEra * 365 + yearOfEra / 4 - yearOfEra / 100 + dayOfYear) ∧
      civilFromDays days =
        (yearOfEra + era * 400 +
            (if (if shiftedMonth < 10 then shiftedMonth + 3 else shiftedMonth - 9) ≤ 2 then 1 else 0),
          (if shiftedMonth < 10 then shiftedMonth + 3 else shiftedMonth - 9),
          dayOfYear - (153 * shiftedMonth + 2) / 5 + 1) := by
  obtain ⟨hyear, hday⟩ := @dayOfYear_bounds ((days + 719468) % 146097) _
    (Int.emod_nonneg _ (by omega)) (Int.emod_lt_of_pos _ (by omega)) rfl
  exact ⟨(days + 719468) / 146097, _, _, _, hyear, hday, rfl, by omega, rfl⟩

/-- Months and days are in range. -/
theorem civilFromDays_bounds :
    (1 ≤ (civilFromDays days).2.1 ∧ (civilFromDays days).2.1 ≤ 12) ∧
      1 ≤ (civilFromDays days).2.2 ∧ (civilFromDays days).2.2 ≤ 31 := by
  obtain ⟨era, yearOfEra, dayOfYear, shiftedMonth, -, hday, hmonth, -, heq⟩ := civilFromDays_eq days
  rw [heq]
  have hrange : 0 ≤ shiftedMonth ∧ shiftedMonth ≤ 11 := by omega
  refine ⟨?_, by dsimp only; omega, by dsimp only; omega⟩
  dsimp only
  split
  · omega
  · omega

/-- **The calendar counts back**: a day's date is the date of that day. -/
theorem daysFromCivil_civilFromDays :
    daysFromCivil (civilFromDays days).1 (civilFromDays days).2.1 (civilFromDays days).2.2 = days := by
  obtain ⟨era, yearOfEra, dayOfYear, shiftedMonth, hyear, hday, hmonth, hdays, heq⟩ :=
    civilFromDays_eq days
  have hrange : 0 ≤ shiftedMonth ∧ shiftedMonth ≤ 11 := by omega
  have hera : (yearOfEra + era * 400) / 400 = era := by omega
  have hyearOfEra : (yearOfEra + era * 400) % 400 = yearOfEra := by omega
  rw [heq]
  dsimp only [daysFromCivil]
  by_cases hlate : shiftedMonth < 10
  · -- March to December
    have hmarch : ¬shiftedMonth + 3 ≤ 2 := by omega
    simp only [if_pos hlate, if_neg hmarch, Int.add_zero, hera, hyearOfEra, Int.add_sub_cancel]
    omega
  · have hjanuary : shiftedMonth - 9 ≤ 2 := by omega
    simp only [if_neg hlate, if_pos hjanuary, hera, hyearOfEra, Int.add_sub_cancel,
      Int.sub_add_cancel]
    omega

/-- From 1970 to the year 9999. -/
theorem civilFromDays_year (hlow : 0 ≤ days) (hhigh : days < 2932897) :
    1970 ≤ (civilFromDays days).1 ∧ (civilFromDays days).1 ≤ 9999 := by
  obtain ⟨era, yearOfEra, dayOfYear, shiftedMonth, hyear, hday, hmonth, hdays, heq⟩ :=
    civilFromDays_eq days
  have hera : 4 ≤ era ∧ era ≤ 24 := by omega
  rw [heq]
  dsimp only
  by_cases hlate : shiftedMonth < 10
  · have hmarch : ¬shiftedMonth + 3 ≤ 2 := by omega
    rw [if_pos hlate, if_neg hmarch]
    constructor
    · omega
    · omega
  · have hjanuary : shiftedMonth - 9 ≤ 2 := by omega
    rw [if_neg hlate, if_pos hjanuary]
    constructor
    · omega
    · omega

/-- No day before 1970 lies in a later year. -/
theorem civilFromDays_year_lt (hneg : days < 0) : (civilFromDays days).1 < 1970 := by
  obtain ⟨era, yearOfEra, dayOfYear, shiftedMonth, hyear, hday, hmonth, hdays, heq⟩ :=
    civilFromDays_eq days
  rw [heq]
  dsimp only
  by_cases hlate : shiftedMonth < 10
  · have hmarch : ¬shiftedMonth + 3 ≤ 2 := by omega
    rw [if_pos hlate, if_neg hmarch]
    omega
  · have hjanuary : shiftedMonth - 9 ≤ 2 := by omega
    rw [if_neg hlate, if_pos hjanuary]
    omega

end Calendar

/-! ### `gmtime_r` and `timegm` -/

/-- The fields of a time are in range. -/
structure CivilTime.InRange (tm : CivilTime) : Prop where
  month : 1 ≤ tm.month ∧ tm.month ≤ 12
  day : 1 ≤ tm.day ∧ tm.day ≤ 31
  hour : 0 ≤ tm.hour ∧ tm.hour ≤ 23
  minute : 0 ≤ tm.minute ∧ tm.minute ≤ 59
  second : 0 ≤ tm.second ∧ tm.second ≤ 59

/-- The year fits the field of `std::tm`. -/
def Convertible (unixSeconds : Int) : Prop :=
  -2 ^ 31 ≤ (civilFromDays (unixSeconds / 86400)).1 - 1900 ∧
    (civilFromDays (unixSeconds / 86400)).1 - 1900 < 2 ^ 31

section Times

variable {unixSeconds : Int}

theorem gmtime_eq (h : Convertible unixSeconds) :
    gmtime unixSeconds =
      ⟨(civilFromDays (unixSeconds / 86400)).1, (civilFromDays (unixSeconds / 86400)).2.1,
        (civilFromDays (unixSeconds / 86400)).2.2, unixSeconds % 86400 / 3600,
        unixSeconds % 86400 % 3600 / 60, unixSeconds % 86400 % 60⟩ := by
  unfold gmtime
  exact if_pos h

theorem gmtime_inRange (h : Convertible unixSeconds) : (gmtime unixSeconds).InRange := by
  obtain ⟨hmonth, hday⟩ := civilFromDays_bounds (unixSeconds / 86400)
  rw [gmtime_eq h]
  refine ⟨hmonth, hday, ?_, ?_, ?_⟩
  · dsimp only
    omega
  · dsimp only
    omega
  · dsimp only
    omega

/-- **`timegm` undoes `gmtime_r`.** -/
theorem timegm_gmtime (h : Convertible unixSeconds) : timegm (gmtime unixSeconds) = unixSeconds := by
  obtain ⟨⟨hlow, hhigh⟩, -⟩ := civilFromDays_bounds (unixSeconds / 86400)
  have hback := daysFromCivil_civilFromDays (unixSeconds / 86400)
  rw [gmtime_eq h]
  dsimp only [timegm]
  have hyear : ((civilFromDays (unixSeconds / 86400)).2.1 - 1) / 12 = 0 := by omega
  have hmonth : ((civilFromDays (unixSeconds / 86400)).2.1 - 1) % 12 + 1 =
      (civilFromDays (unixSeconds / 86400)).2.1 := by omega
  rw [hyear, hmonth, Int.add_zero, hback]
  omega

end Times

/-! ### The text and what the client reads in it -/

theorem twoDigits_length (value : Int) : (twoDigits value).length = 2 := rfl

section Digits

variable {value : Int} (hlow : 0 ≤ value) (hhigh : value ≤ 99)

include hlow hhigh

theorem twoDigits_digits : (twoDigits value).all isDigit = true := by
  have htens : value.toNat / 10 ≤ 9 := by omega
  have hones : value.toNat % 10 ≤ 9 := by omega
  have hdigit : ∀ n ≤ 9, isDigit (UInt8.ofNat (48 + n)) = true := by decide
  simp only [twoDigits, List.all_cons, List.all_nil, Bool.and_true, hdigit _ htens, hdigit _ hones]

theorem decimalValue_twoDigits : (decimalValue (twoDigits value) : Int) = value := by
  have htens : value.toNat / 10 ≤ 9 := by omega
  have hones : value.toNat % 10 ≤ 9 := by omega
  have hdigit : ∀ n ≤ 9, (UInt8.ofNat (48 + n)).toNat - 48 = n := by decide
  simp only [twoDigits, decimalValue, List.foldl_cons, List.foldl_nil, hdigit _ htens, hdigit _ hones]
  omega

end Digits

theorem decimal_length_le {n k : Nat} (hk : 0 < k) : (decimal n).length ≤ k ↔ n < 10 ^ k := by
  rw [decimal, List.length_map]
  exact Nat.length_toDigits_le_iff (by decide) hk

/-- A field of a text by its place. -/
theorem field_eq {text field : Bytes} {start length : Nat} (before after : Bytes)
    (htext : text = before ++ (field ++ after)) (hstart : before.length = start)
    (hlength : field.length = length) : (text.drop start).take length = field := by
  subst hstart hlength htext
  rw [List.drop_left, List.take_left]

section Read

variable {tm : CivilTime} (hrange : tm.InRange) (hlow : 1000 ≤ tm.year) (hhigh : tm.year ≤ 9999)

include hlow hhigh

theorem year_digits : signedDecimal tm.year = decimal tm.year.toNat ∧
    (decimal tm.year.toNat).length = 4 := by
  have hnonneg : ¬tm.year < 0 := by omega
  have hle : (decimal tm.year.toNat).length ≤ 4 := (decimal_length_le (by decide)).mpr (by omega)
  have hge : ¬(decimal tm.year.toNat).length ≤ 3 := by
    rw [decimal_length_le (by decide)]
    omega
  exact ⟨if_neg hnonneg, by omega⟩

theorem timeText_length : (timeText tm).length = 14 := by
  obtain ⟨hyear, hlength⟩ := year_digits hlow hhigh
  simp only [timeText, List.length_append, twoDigits_length, hyear, hlength]

include hrange

theorem timeText_digits : (timeText tm).all isDigit = true := by
  obtain ⟨hmonth, hday, hhour, hminute, hsecond⟩ := hrange
  have hyear : (signedDecimal tm.year).all isDigit = true := by
    rw [(year_digits hlow hhigh).1]
    exact List.all_eq_true.mpr fun _ hb => isDigit_of_mem_decimal hb
  simp only [timeText, List.all_append, hyear,
    twoDigits_digits (show 0 ≤ tm.month by omega) (show tm.month ≤ 99 by omega),
    twoDigits_digits (show 0 ≤ tm.day by omega) (show tm.day ≤ 99 by omega),
    twoDigits_digits hhour.1 (show tm.hour ≤ 99 by omega),
    twoDigits_digits hminute.1 (show tm.minute ≤ 99 by omega),
    twoDigits_digits hsecond.1 (show tm.second ≤ 99 by omega), Bool.and_self]

/-- **The fourteen digits** are read as the fields they were written from. -/
theorem readTimestamp_timeText : ControlClient.readTimestamp (timeText tm) =
    if timegm tm < 0 then .error (.runtimeError (ascii "MDTM timestamp is out of range"))
    else .ok (timegm tm) := by
  have hdigits := timeText_digits hrange hlow hhigh
  obtain ⟨hmonth, hday, hhour, hminute, hsecond⟩ := hrange
  obtain ⟨hyear, hlength⟩ := year_digits hlow hhigh
  have htext : timeText tm = decimal tm.year.toNat ++ (twoDigits tm.month ++ (twoDigits tm.day ++
      (twoDigits tm.hour ++ (twoDigits tm.minute ++ twoDigits tm.second)))) := by
    rw [timeText, hyear]
    simp only [List.append_assoc]
  -- each field in its place
  have hyearField : ((timeText tm).drop 0).take 4 = decimal tm.year.toNat :=
    field_eq [] _ htext rfl hlength
  have hmonthField : ((timeText tm).drop 4).take 2 = twoDigits tm.month :=
    field_eq _ _ htext hlength rfl
  have hdayField : ((timeText tm).drop 6).take 2 = twoDigits tm.day := by
    apply field_eq (decimal tm.year.toNat ++ twoDigits tm.month)
    · rw [htext, List.append_assoc]
    · rw [List.length_append, hlength]
      rfl
    · rfl
  have hhourField : ((timeText tm).drop 8).take 2 = twoDigits tm.hour := by
    apply field_eq (decimal tm.year.toNat ++ (twoDigits tm.month ++ twoDigits tm.day))
    · rw [htext, List.append_assoc, List.append_assoc]
    · rw [List.length_append, hlength]
      rfl
    · rfl
  have hminuteField : ((timeText tm).drop 10).take 2 = twoDigits tm.minute := by
    apply field_eq (decimal tm.year.toNat ++
      (twoDigits tm.month ++ (twoDigits tm.day ++ twoDigits tm.hour)))
    · rw [htext, List.append_assoc, List.append_assoc, List.append_assoc]
    · rw [List.length_append, hlength]
      rfl
    · rfl
  have hsecondField : ((timeText tm).drop 12).take 2 = twoDigits tm.second := by
    apply field_eq (decimal tm.year.toNat ++
      (twoDigits tm.month ++ (twoDigits tm.day ++ (twoDigits tm.hour ++ twoDigits tm.minute)))) []
    · rw [htext, List.append_nil, List.append_assoc, List.append_assoc, List.append_assoc,
        List.append_assoc]
    · rw [List.length_append, hlength]
      rfl
    · rfl
  rw [ControlClient.readTimestamp, hdigits, if_neg (by decide)]
  simp only [hyearField, hmonthField, hdayField, hhourField, hminuteField, hsecondField,
    decimalValue_decimal, Int.toNat_of_nonneg (show 0 ≤ tm.year by omega),
    decimalValue_twoDigits (show 0 ≤ tm.month by omega) (show tm.month ≤ 99 by omega),
    decimalValue_twoDigits (show 0 ≤ tm.day by omega) (show tm.day ≤ 99 by omega),
    decimalValue_twoDigits hhour.1 (show tm.hour ≤ 99 by omega),
    decimalValue_twoDigits hminute.1 (show tm.minute ≤ 99 by omega),
    decimalValue_twoDigits hsecond.1 (show tm.second ≤ 99 by omega)]

end Read

/-! ### From the server to the client -/

/-- What the client makes of the server's reply about a file with this time. -/
def servedMdtm (unspecified : Bytes) (unixSeconds : Int) : Except Status Int :=
  ControlClient.readMdtm ⟨213, [formatReply 213 (formatMdtmTime unspecified unixSeconds)]⟩

section Served

variable {unixSeconds : Int} (unspecified : Bytes)

theorem servedMdtm_eq (unixSeconds : Int) : servedMdtm unspecified unixSeconds =
    if (formatMdtmTime unspecified unixSeconds).length < 14 then
      .error (.runtimeError (ascii "MDTM response missing timestamp"))
    else ControlClient.readTimestamp ((formatMdtmTime unspecified unixSeconds).take 14) := by
  rw [servedMdtm, ControlClient.readMdtm, if_neg fun h => h rfl]
  dsimp only [List.head?_cons]
  rw [ControlClient.replyValue_formatReply]

/-- The year of a time that `gmtime_r` converts. -/
theorem gmtime_year (h : Convertible unixSeconds) :
    (gmtime unixSeconds).year = (civilFromDays (unixSeconds / 86400)).1 := by
  rw [gmtime_eq h]

/-- A year of four digits: the client has the time, and refuses it if it lies
before 1970. -/
theorem servedMdtm_fourDigits (h : Convertible unixSeconds)
    (hlow : 1000 ≤ (gmtime unixSeconds).year) (hhigh : (gmtime unixSeconds).year ≤ 9999) :
    servedMdtm unspecified unixSeconds =
      if unixSeconds < 0 then .error (.runtimeError (ascii "MDTM timestamp is out of range"))
      else .ok unixSeconds := by
  have hlength := timeText_length hlow hhigh
  have htext : formatMdtmTime unspecified unixSeconds = timeText (gmtime unixSeconds) := by
    rw [formatMdtmTime, if_pos (by omega)]
  rw [servedMdtm_eq, htext, if_neg (by omega), List.take_of_length_le hlength.le,
    readTimestamp_timeText (gmtime_inRange h) hlow hhigh, timegm_gmtime h]

/-- A year of fewer digits, or one before the year 0: the text is too short or
begins with a sign. -/
theorem servedMdtm_early (hlow : -9999 ≤ (gmtime unixSeconds).year)
    (hhigh : (gmtime unixSeconds).year < 1000) :
    isOk (servedMdtm unspecified unixSeconds) = false := by
  have hlength : (timeText (gmtime unixSeconds)).length =
      (signedDecimal (gmtime unixSeconds).year).length + 10 := by
    simp only [timeText, List.length_append, twoDigits_length]
  rw [servedMdtm_eq]
  by_cases hsign : (gmtime unixSeconds).year < 0
  · have hyear : signedDecimal (gmtime unixSeconds).year =
        dash :: decimal (gmtime unixSeconds).year.natAbs := if_pos hsign
    have hdigits : (decimal (gmtime unixSeconds).year.natAbs).length ≤ 4 :=
      (decimal_length_le (by decide)).mpr (by omega)
    have htext : formatMdtmTime unspecified unixSeconds = timeText (gmtime unixSeconds) := by
      rw [formatMdtmTime, if_pos]
      rw [hlength, hyear, List.length_cons]
      omega
    split
    · rfl
    · have hall : ((formatMdtmTime unspecified unixSeconds).take 14).all isDigit = false := by
        rw [htext, timeText, hyear]
        rfl
      rw [ControlClient.readTimestamp, if_pos hall]
      rfl
  · have hyear : signedDecimal (gmtime unixSeconds).year =
        decimal (gmtime unixSeconds).year.toNat := if_neg hsign
    have hdigits : (decimal (gmtime unixSeconds).year.toNat).length ≤ 3 :=
      (decimal_length_le (by decide)).mpr (by omega)
    rw [hyear] at hlength
    have htext : formatMdtmTime unspecified unixSeconds = timeText (gmtime unixSeconds) := by
      rw [formatMdtmTime, if_pos (by omega)]
    rw [htext, if_pos (by omega)]
    rfl

end Served

/-- **The time of a file** comes to the client as it is from 1970 to the year
9999; an earlier one is refused, not mistaken for another. -/
theorem mdtm_roundTrip (unspecified : Bytes) (unixSeconds : Int) :
    (0 ≤ unixSeconds → unixSeconds < 253402300800 →
        servedMdtm unspecified unixSeconds = .ok unixSeconds) ∧
      (unixSeconds < 0 → -9999 ≤ (civilFromDays (unixSeconds / 86400)).1 →
        isOk (servedMdtm unspecified unixSeconds) = false) := by
  constructor
  · intro hlow hhigh
    obtain ⟨hyear, hyear'⟩ := civilFromDays_year (unixSeconds / 86400) (by omega) (by omega)
    have hconvertible : Convertible unixSeconds := ⟨by omega, by omega⟩
    rw [← gmtime_year hconvertible] at hyear hyear'
    rw [servedMdtm_fourDigits unspecified hconvertible (by omega) hyear', if_neg (by omega)]
  · intro hneg hlow
    have hyear := civilFromDays_year_lt (unixSeconds / 86400) (by omega)
    have hconvertible : Convertible unixSeconds := ⟨by omega, by omega⟩
    rw [← gmtime_year hconvertible] at hyear hlow
    by_cases hfour : 1000 ≤ (gmtime unixSeconds).year
    · rw [servedMdtm_fourDigits unspecified hconvertible hfour (by omega), if_pos hneg]
      rfl
    · exact servedMdtm_early unspecified hlow (by omega)

theorem mdtm_roundTrip_2020 : servedMdtm [] 1577836800 = .ok 1577836800 :=
  (mdtm_roundTrip [] 1577836800).1 (by decide) (by decide)

/-- The last second of 1969 can be converted and does not come back. -/
theorem mdtm_roundTrip_beforeEpoch : Convertible (-1) ∧ servedMdtm [] (-1) ≠ .ok (-1) := by
  have hconvertible : Convertible (-1) := by
    unfold Convertible
    decide
  refine ⟨hconvertible, ?_⟩
  have hyear : (gmtime (-1)).year = 1969 := by decide
  rw [servedMdtm_fourDigits [] hconvertible (by omega) (by omega), if_pos (by decide)]
  intro h
  cases h

end GridFlux
