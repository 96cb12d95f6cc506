import Dcp.Library.Calendar
import Dcp.Library.Digits
import Dcp.Library.Outcome

/-!
The timestamps of log lines. Days are turned into a date by taking off whole years and then whole
months; the date is the calendar's as long as its year is an `i32`. The years and days are integers,
and a year beyond the range of `i32` is a panic.
-/

namespace Dcp.Observability
open Library Calendar

/-- The largest `i32`. -/
def i32Max : Int := 2147483647

def isLeapYear (year : Int) : Bool :=
  (year.tmod 4 == 0 && year.tmod 100 != 0) || year.tmod 400 == 0

theorem isLeapYear_iff (year : Int) : isLeapYear year = true ↔ IsLeap year := by
  simp only [isLeapYear, Bool.or_eq_true, Bool.and_eq_true, beq_iff_eq, bne_iff_ne, ne_eq,
    ← Int.dvd_iff_tmod_eq_zero, IsLeap]
  omega

def daysInYear (year : Int) : Int := if isLeapYear year then 366 else 365

theorem daysInYear_eq (year : Int) : daysInYear year = yearLength year := by
  simp only [daysInYear, isLeapYear_iff, yearLength]

def yearLoop (remaining year : Int) : Outcome Empty (Int × Int) :=
  if remaining < daysInYear year then .ok (remaining, year)
  else if year = i32Max then .panic
  else yearLoop (remaining - daysInYear year) (year + 1)
termination_by remaining.toNat
decreasing_by
  have hpos := yearLength_pos year
  rw [← daysInYear_eq] at hpos
  omega

def monthLoop : List Int → Int → Nat → Int × Nat
  | [], remaining, month => (remaining, month)
  | daysInMonth :: rest, remaining, month =>
      if remaining < daysInMonth then (remaining, month)
      else monthLoop rest (remaining - daysInMonth) (month + 1)

def daysInMonths (year : Int) : List Int :=
  if isLeapYear year then [31, 29, 31, 30, 31, 30, 31, 31, 30, 31, 30, 31]
  else [31, 28, 31, 30, 31, 30, 31, 31, 30, 31, 30, 31]

/-- Convert days since epoch to year, month, day. The day is cast to a `u32`. -/
def daysToYmd (days : Int) : Outcome Empty (Int × Nat × Nat) := do
  let (remaining, year) ← yearLoop days 1970
  let (remaining, month) := monthLoop (daysInMonths year) remaining 1
  .ok (year, month, ((remaining + 1) % 4294967296).toNat)

/-- Format timestamp as ISO 8601. -/
def formatTimestamp (millis : UInt64) : Outcome Empty String := do
  let secs := millis / 1000
  let ms := millis % 1000
  let daysSinceEpoch := secs / 86400
  let timeOfDay := secs % 86400
  let hours := timeOfDay / 3600
  let minutes := timeOfDay % 3600 / 60
  let seconds := timeOfDay % 60
  let (year, month, day) ← daysToYmd daysSinceEpoch.toNat
  let two := fun n => paddedDigits 2 10 n
  .ok (String.ofList (paddedDigits 4 10 year.toNat ++ '-' :: two month ++ '-' :: two day ++
    'T' :: two hours.toNat ++ ':' :: two minutes.toNat ++ ':' :: two seconds.toNat ++
    '.' :: paddedDigits 3 10 ms.toNat ++ ['Z']))

theorem daysInMonths_eq (year : Int) :
    daysInMonths year = (List.range 12).map fun months => monthLength year (months + 1) := by
  by_cases hleap : IsLeap year
  · simp [daysInMonths, (isLeapYear_iff year).mpr hleap, monthLength, hleap, List.range_succ]
  · have hfalse : isLeapYear year = false := by
      rw [← Bool.not_eq_true, isLeapYear_iff]
      exact hleap
    simp [daysInMonths, hfalse, monthLength, hleap, List.range_succ]

/-- The loop ends in the year that the remaining day lies in. The induction is on the years that
are taken off. -/
theorem yearLoop_eq {remaining year : Int} (hremaining : 0 ≤ remaining)
    (hfits : daysBeforeYear year + remaining < daysBeforeYear (i32Max + 1)) :
    ∃ rest last, yearLoop remaining year = .ok (rest, last) ∧ 0 ≤ rest ∧ rest < yearLength last ∧
      daysBeforeYear last + rest = daysBeforeYear year + remaining := by
  induction remaining, year using yearLoop.induct with
  | case1 remaining year hlt =>
      refine ⟨remaining, year, ?_, hremaining, (daysInYear_eq year).symm ▸ hlt, rfl⟩
      rw [yearLoop, if_pos hlt]
  | case2 remaining hge =>
      rw [daysBeforeYear_succ, ← daysInYear_eq] at hfits
      omega
  | case3 remaining year hge hyear ih =>
      have hnext : daysBeforeYear (year + 1) = daysBeforeYear year + daysInYear year := by
        rw [daysBeforeYear_succ, daysInYear_eq]
      obtain ⟨rest, last, hloop, hrest, hlast, hsum⟩ := ih (by omega) (by omega)
      refine ⟨rest, last, ?_, hrest, hlast, by omega⟩
      rw [yearLoop, if_neg hge, if_neg hyear]
      exact hloop

/-- The loop ends in the month that the remaining day lies in. -/
theorem monthLoop_eq (year : Int) (count months : Nat) {remaining : Int}
    (hremaining : 0 ≤ remaining)
    (hfits : daysOfMonths year months + remaining < daysOfMonths year (months + count)) :
    ∃ rest last, monthLoop ((List.range' months count).map fun m => monthLength year (m + 1))
        remaining (months + 1) = (rest, last + 1) ∧ last < months + count ∧ 0 ≤ rest ∧
      rest < monthLength year (last + 1) ∧
      daysOfMonths year last + rest = daysOfMonths year months + remaining := by
  induction count generalizing months remaining with
  | zero =>
      rw [Nat.add_zero] at hfits
      omega
  | succ count ih =>
      rw [List.range'_succ, List.map_cons, monthLoop]
      split
      · next hlt => exact ⟨remaining, months, rfl, by omega, hremaining, hlt, rfl⟩
      · next hge =>
          have hnext : daysOfMonths year (months + 1) =
              daysOfMonths year months + monthLength year (months + 1) := rfl
          have hend : months + (count + 1) = months + 1 + count := by omega
          rw [hend] at hfits
          have hrest : 0 ≤ remaining - monthLength year (months + 1) := by omega
          obtain ⟨rest, last, hloop, hlast, hpos, hmonth, hsum⟩ :=
            ih (months + 1) hrest (by omega)
          exact ⟨rest, last, hloop, by omega, hpos, hmonth, by omega⟩

/-- Days before the first year that is no `i32` are turned into the date that has their number. -/
theorem daysToYmd_finds {days : Int} (hdays : 0 ≤ days)
    (hfits : daysBeforeYear 1970 + days < daysBeforeYear (i32Max + 1)) :
    ∃ date : Date, daysToYmd days = .ok (date.year, date.month, date.day) ∧
      date.dayNumber = days := by
  obtain ⟨rest, year, hyears, hrest, hyear, hsum⟩ := yearLoop_eq hdays hfits
  have htwelve : daysOfMonths year 0 + rest < daysOfMonths year (0 + 12) := by
    rw [Nat.zero_add, daysOfMonths_twelve]
    exact (Int.zero_add rest).trans_lt hyear
  obtain ⟨rest', months, hmonths, hlast, hpos, hmonth, hsum'⟩ :=
    monthLoop_eq year 12 0 hrest htwelve
  rw [← List.range_eq_range', ← daysInMonths_eq, Nat.zero_add] at hmonths
  have hday : ((rest' + 1).toNat : Int) = rest' + 1 := Int.toNat_of_nonneg (by omega)
  have hsmall := monthLength_le year (months + 1)
  have hcast : (rest' + 1) % 4294967296 = rest' + 1 := Int.emod_eq_of_lt (by omega) (by omega)
  refine ⟨⟨year, months + 1, (rest' + 1).toNat, Nat.succ_pos _, by omega, by omega, by omega⟩,
    ?_, ?_⟩
  · rw [daysToYmd, hyears, Outcome.ok_bind]
    simp only [hmonths, hcast]
  · have hzero : daysOfMonths year 0 = 0 := rfl
    simp only [Date.dayNumber, Date.dayOfYear, Nat.add_sub_cancel, hday]
    omega

/-- The date of a day after the epoch is the one that has its number, and the next day has the next
date, as long as the years are `i32`. -/
theorem daysToYmd_calendar {days : Int} (hdays : 0 ≤ days)
    (hyear : ∀ date : Date, date.dayNumber = days → date.year ≤ i32Max) :
    ∃ date : Date, daysToYmd days = .ok (date.year, date.month, date.day) ∧
      date.dayNumber = days ∧ (∀ other : Date, other.dayNumber = days → other = date) ∧
      (date.next.year ≤ i32Max →
        daysToYmd (days + 1) = .ok (date.next.year, date.next.month, date.next.day)) := by
  have hnumber : (Date.afterEpoch days.toNat).dayNumber = days := by
    rw [Date.dayNumber_afterEpoch, Int.toNat_of_nonneg hdays]
  have hfits := (Date.afterEpoch days.toNat).year_le_iff.mp (hyear _ hnumber)
  rw [hnumber] at hfits
  obtain ⟨date, hresult, hdate⟩ := daysToYmd_finds hdays hfits
  have hnext : date.next.dayNumber = days + 1 := by rw [Date.dayNumber_next, hdate]
  refine ⟨date, hresult, hdate, fun other hother => ?_, fun hnextYear => ?_⟩
  · exact Date.dayNumber_injective (hother.trans hdate.symm)
  · have hnextFits := date.next.year_le_iff.mp hnextYear
    rw [hnext] at hnextFits
    have hnextDays : 0 ≤ days + 1 := by omega
    obtain ⟨found, hfound, hfoundNumber⟩ := daysToYmd_finds hnextDays hnextFits
    rw [hfound, Date.dayNumber_injective (hfoundNumber.trans hnext.symm)]

/-- The last day of February 2024. -/
theorem daysToYmd_leapDay :
    ∃ date : Date, daysToYmd 19782 = .ok (date.year, date.month, date.day) ∧
      date.dayNumber = 19782 ∧ (∀ other : Date, other.dayNumber = 19782 → other = date) ∧
      (date.next.year ≤ i32Max →
        daysToYmd (19782 + 1) = .ok (date.next.year, date.next.month, date.next.day)) := by
  refine daysToYmd_calendar (by decide) fun date hdate => ?_
  rw [date.year_le_iff, hdate]
  decide

/-- A timestamp of any milliseconds is that of a date of the calendar. -/
theorem formatTimestamp_eq (millis : UInt64) :
    ∃ date : Date, date.dayNumber = millis.toNat / 86400000 ∧
      formatTimestamp millis = .ok (String.ofList
        (paddedDigits 4 10 date.year.toNat ++ '-' :: paddedDigits 2 10 date.month ++
          '-' :: paddedDigits 2 10 date.day ++
          'T' :: paddedDigits 2 10 (millis.toNat / 3600000 % 24) ++
          ':' :: paddedDigits 2 10 (millis.toNat / 60000 % 60) ++
          ':' :: paddedDigits 2 10 (millis.toNat / 1000 % 60) ++
          '.' :: paddedDigits 3 10 (millis.toNat % 1000) ++ ['Z'])) := by
  have hlt := millis.toNat_lt
  have hyears : 213503982335 < daysBeforeYear (i32Max + 1) - daysBeforeYear 1970 := by decide
  obtain ⟨date, hresult, hnumber⟩ := daysToYmd_finds
    (Int.natCast_nonneg (millis.toNat / 86400000)) (by omega)
  have hdays : (millis / 1000 / 86400).toNat = millis.toNat / 86400000 := by
    simp only [UInt64.toNat_div, UInt64.reduceToNat, Nat.div_div_eq_div_mul]
  have hhours : (millis / 1000 % 86400 / 3600).toNat = millis.toNat / 3600000 % 24 := by
    simp only [UInt64.toNat_div, UInt64.toNat_mod, UInt64.reduceToNat]
    omega
  have hminutes : (millis / 1000 % 86400 % 3600 / 60).toNat = millis.toNat / 60000 % 60 := by
    simp only [UInt64.toNat_div, UInt64.toNat_mod, UInt64.reduceToNat]
    omega
  have hseconds : (millis / 1000 % 86400 % 60).toNat = millis.toNat / 1000 % 60 := by
    simp only [UInt64.toNat_div, UInt64.toNat_mod, UInt64.reduceToNat]
    omega
  refine ⟨date, hnumber, ?_⟩
  rw [formatTimestamp]
  simp only [hdays, hresult, hhours, hminutes, hseconds, Outcome.ok_bind, UInt64.toNat_mod,
    UInt64.reduceToNat]

end Dcp.Observability
