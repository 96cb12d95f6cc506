import Mathlib.Algebra.Order.Group.Basic
import Mathlib.Tactic

/-!
The proleptic Gregorian calendar. A date carries the proof that its day exists. Dates are numbered
from 1970-01-01 on, the date after a date has the next number, and no two dates have one number.
-/

namespace Library.Calendar

/-- Every fourth year is a leap year, but of the hundreds only every fourth is. -/
def IsLeap (year : Int) : Prop := 4 ∣ year ∧ (100 ∣ year → 400 ∣ year)

instance (year : Int) : Decidable (IsLeap year) :=
  inferInstanceAs (Decidable (4 ∣ year ∧ (100 ∣ year → 400 ∣ year)))

def yearLength (year : Int) : Int := if IsLeap year then 366 else 365

def monthLength (year : Int) (month : Nat) : Int :=
  if month = 2 then if IsLeap year then 29 else 28
  else if month = 4 ∨ month = 6 ∨ month = 9 ∨ month = 11 then 30
  else 31

/-- The days before a year, counted from the first day of the year one. -/
def daysBeforeYear (year : Int) : Int :=
  365 * (year - 1) + (year - 1) / 4 - (year - 1) / 100 + (year - 1) / 400

/-- The days of the first months of a year. -/
def daysOfMonths (year : Int) : Nat → Int
  | 0 => 0
  | months + 1 => daysOfMonths year months + monthLength year (months + 1)

theorem yearLength_pos (year : Int) : 0 < yearLength year := by
  rw [yearLength]
  split <;> decide

theorem monthLength_pos (year : Int) (month : Nat) : 0 < monthLength year month := by
  rw [monthLength]
  split_ifs <;> decide

theorem monthLength_le (year : Int) (month : Nat) : monthLength year month ≤ 31 := by
  rw [monthLength]
  split_ifs <;> decide

theorem daysBeforeYear_succ (year : Int) :
    daysBeforeYear (year + 1) = daysBeforeYear year + yearLength year := by
  rw [daysBeforeYear, daysBeforeYear, yearLength]
  split <;> next hleap => rw [IsLeap] at hleap; omega

theorem strictMono_daysBeforeYear : StrictMono daysBeforeYear := by
  refine strictMono_int_of_lt_succ fun year => ?_
  have hpos := yearLength_pos year
  rw [daysBeforeYear_succ]
  omega

theorem strictMono_daysOfMonths (year : Int) : StrictMono (daysOfMonths year) := by
  refine strictMono_nat_of_lt_succ fun months => ?_
  have hpos := monthLength_pos year (months + 1)
  rw [daysOfMonths]
  omega

theorem daysOfMonths_twelve (year : Int) : daysOfMonths year 12 = yearLength year := by
  by_cases hleap : IsLeap year <;> simp [daysOfMonths, monthLength, yearLength, hleap]

/-- A date of the calendar, with its month and day counted from one. -/
@[ext]
structure Date where
  year : Int
  month : Nat
  day : Nat
  month_pos : 1 ≤ month
  month_le : month ≤ 12
  day_pos : 1 ≤ day
  day_le : day ≤ monthLength year month

namespace Date

/-- The first of January 1970. -/
def epoch : Date := ⟨1970, 1, 1, by decide, by decide, by decide, by decide⟩

/-- The day of the year, counted from zero. -/
def dayOfYear (date : Date) : Int := daysOfMonths date.year (date.month - 1) + (date.day - 1)

/-- The days from 1970-01-01 to a date. -/
def dayNumber (date : Date) : Int :=
  daysBeforeYear date.year - daysBeforeYear 1970 + date.dayOfYear

/-- The day after. -/
def next (date : Date) : Date :=
  if hday : date.day + 1 ≤ monthLength date.year date.month then
    ⟨date.year, date.month, date.day + 1, date.month_pos, date.month_le, Nat.succ_pos _,
      by exact_mod_cast hday⟩
  else if hmonth : date.month + 1 ≤ 12 then
    ⟨date.year, date.month + 1, 1, Nat.succ_pos _, hmonth, Nat.le_refl 1, monthLength_pos _ _⟩
  else ⟨date.year + 1, 1, 1, Nat.le_refl 1, by decide, Nat.le_refl 1, monthLength_pos _ _⟩

theorem dayNumber_epoch : epoch.dayNumber = 0 := by decide

theorem daysOfMonths_month (date : Date) :
    daysOfMonths date.year (date.month - 1) + monthLength date.year date.month =
      daysOfMonths date.year date.month := by
  obtain ⟨months, hmonths⟩ : ∃ months, date.month = months + 1 :=
    ⟨date.month - 1, (Nat.sub_add_cancel date.month_pos).symm⟩
  rw [hmonths]
  rfl

theorem month_bounds (date : Date) :
    daysOfMonths date.year (date.month - 1) ≤ date.dayOfYear ∧
      date.dayOfYear < daysOfMonths date.year (Order.succ (date.month - 1)) := by
  have hmonth := date.daysOfMonths_month
  have hday := date.day_pos
  have hday' := date.day_le
  rw [Nat.succ_eq_succ, Nat.succ_eq_add_one, Nat.sub_add_cancel date.month_pos, dayOfYear]
  omega

theorem dayOfYear_bounds (date : Date) :
    0 ≤ date.dayOfYear ∧ date.dayOfYear < yearLength date.year := by
  have hmono := (strictMono_daysOfMonths date.year).monotone
  obtain ⟨hstart, hend⟩ := date.month_bounds
  have hfirst : 0 ≤ daysOfMonths date.year (date.month - 1) := hmono (Nat.zero_le _)
  have hlast := hmono date.month_le
  rw [daysOfMonths_twelve] at hlast
  rw [Nat.succ_eq_succ, Nat.succ_eq_add_one, Nat.sub_add_cancel date.month_pos] at hend
  omega

theorem dayNumber_next (date : Date) : date.next.dayNumber = date.dayNumber + 1 := by
  have hmonth := date.daysOfMonths_month
  have hday := date.day_le
  rw [next]
  split_ifs with hsameMonth hsameYear
  · simp only [dayNumber, dayOfYear, Nat.cast_add, Nat.cast_one]
    omega
  · simp only [dayNumber, dayOfYear, Nat.add_sub_cancel, Nat.cast_one]
    omega
  · have hlast : date.month = 12 := Nat.le_antisymm date.month_le (by omega)
    have hfirst : daysOfMonths (date.year + 1) 0 = 0 := rfl
    rw [hlast, daysOfMonths_twelve] at hmonth
    rw [hlast] at hday hsameMonth
    simp only [dayNumber, dayOfYear, daysBeforeYear_succ, hlast, Nat.sub_self, hfirst,
      Nat.cast_one]
    omega

/-- Dates are numbered year by year. -/
theorem year_bounds (date : Date) :
    daysBeforeYear date.year ≤ date.dayNumber + daysBeforeYear 1970 ∧
      date.dayNumber + daysBeforeYear 1970 < daysBeforeYear (date.year + 1) := by
  obtain ⟨hstart, hend⟩ := date.dayOfYear_bounds
  rw [dayNumber, daysBeforeYear_succ]
  omega

/-- The year of a date, told from its number. -/
theorem year_le_iff (date : Date) {year : Int} :
    date.year ≤ year ↔ daysBeforeYear 1970 + date.dayNumber < daysBeforeYear (year + 1) := by
  obtain ⟨hstart, hend⟩ := date.year_bounds
  constructor
  · intro hle
    have hbefore := strictMono_daysBeforeYear.monotone (Int.add_le_add_right hle 1)
    omega
  · intro hlt
    have hyear : date.year < year + 1 := by
      rw [← strictMono_daysBeforeYear.lt_iff_lt]
      omega
    omega

end Date

/-- A number lies between two neighbours of a sequence in one place only. -/
theorem place_unique {α : Type*} [LinearOrder α] [SuccOrder α] {f : α → Int} (hf : StrictMono f)
    {m n : α} {x : Int} (hm : f m ≤ x ∧ x < f (Order.succ m))
    (hn : f n ≤ x ∧ x < f (Order.succ n)) : m = n := by
  refine le_antisymm (not_lt.mp fun hlt => ?_) (not_lt.mp fun hlt => ?_)
  · have hle := hf.monotone (Order.succ_le_of_lt hlt)
    omega
  · have hle := hf.monotone (Order.succ_le_of_lt hlt)
    omega

namespace Date

theorem dayNumber_injective : Function.Injective dayNumber := by
  intro date other heq
  have hyear : date.year = other.year :=
    place_unique strictMono_daysBeforeYear date.year_bounds (heq ▸ other.year_bounds)
  have hdayOfYear : date.dayOfYear = other.dayOfYear := by
    rw [dayNumber, dayNumber, hyear] at heq
    omega
  have hmonths : date.month - 1 = other.month - 1 := by
    refine place_unique (strictMono_daysOfMonths date.year) date.month_bounds ?_
    rw [hyear, hdayOfYear]
    exact other.month_bounds
  have hmonth : date.month = other.month :=
    Nat.sub_one_cancel date.month_pos other.month_pos hmonths
  have hday : date.day = other.day := by
    rw [dayOfYear, dayOfYear, hyear, hmonths] at hdayOfYear
    omega
  exact Date.ext hyear hmonth hday

/-- The date of a day after the epoch. -/
def afterEpoch (days : Nat) : Date := next^[days] epoch

theorem dayNumber_afterEpoch (days : Nat) : (afterEpoch days).dayNumber = days := by
  induction days with
  | zero => exact dayNumber_epoch
  | succ days ih =>
      rw [afterEpoch, Function.iterate_succ_apply', dayNumber_next, Nat.cast_add, Nat.cast_one]
      exact congrArg (· + 1) ih

end Date
end Library.Calendar
