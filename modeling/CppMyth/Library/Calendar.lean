import Mathlib.Tactic

/-! The proleptic Gregorian calendar, with days counted from 1 January 1970. Years and
months are integers: a date whose month or day is out of its range counts as the day it
normalises to, and every day has exactly one date that exists. -/
namespace CppMyth.Library.Calendar

/-- Whether February has a 29th, as a number of days. -/
def leapDay (year : Int) : Int :=
  if year % 4 = 0 ∧ (year % 100 ≠ 0 ∨ year % 400 = 0) then 1 else 0

/-- The length of a month from 0 (January) to 11 (December). -/
def monthLength (leap month : Int) : Int :=
  if month = 1 then 28 + leap
  else if month = 3 ∨ month = 5 ∨ month = 8 ∨ month = 10 then 30 else 31

/-- The days before 1 January of a year. -/
def yearStart (year : Int) : Int :=
  365 * (year - 1970) + ((year - 1) / 4 - (year - 1) / 100 + (year - 1) / 400) - 477

/-- The days of a year before the first of a month; March starts a pattern of its own. -/
def monthStart (leap month : Int) : Int :=
  if month < 2 then 31 * month else (153 * month - 304) / 5 + 59 + leap

structure Date where
  year : Int
  month : Int
  day : Int
  deriving DecidableEq, Repr

/-- The date stands in the calendar; months count from 0 and days from 1. -/
structure Date.Exists (d : Date) : Prop where
  month_low : 0 ≤ d.month
  month_high : d.month < 12
  day_low : 1 ≤ d.day
  day_high : d.day ≤ monthLength (leapDay d.year) d.month

instance (d : Date) : Decidable d.Exists :=
  decidable_of_iff (0 ≤ d.month ∧ d.month < 12 ∧ 1 ≤ d.day ∧
      d.day ≤ monthLength (leapDay d.year) d.month)
    ⟨fun h => ⟨h.1, h.2.1, h.2.2.1, h.2.2.2⟩, fun h => ⟨h.1, h.2, h.3, h.4⟩⟩

/-- The number of the day a date stands for, after normalising its month. -/
def Date.number (d : Date) : Int :=
  let year := d.year + d.month / 12
  yearStart year + monthStart (leapDay year) (d.month % 12) + (d.day - 1)

/-- The year of a day: the mean length of a year gives it, up to one. -/
def yearOf (number : Int) : Int :=
  let guess := 1970 + number * 400 / 146097
  if number < yearStart guess then guess - 1
  else if number < yearStart (guess + 1) then guess else guess + 1

def monthOf (leap dayOfYear : Int) : Int :=
  if dayOfYear < 59 + leap then dayOfYear / 31
  else (5 * (dayOfYear - 59 - leap) + 2) / 153 + 2

def dateOf (number : Int) : Date :=
  let year := yearOf number
  let dayOfYear := number - yearStart year
  let month := monthOf (leapDay year) dayOfYear
  ⟨year, month, dayOfYear - monthStart (leapDay year) month + 1⟩

theorem leapDay_bounds (year : Int) : 0 ≤ leapDay year ∧ leapDay year ≤ 1 := by
  rw [leapDay]
  split <;> decide

theorem monthLength_le {leap : Int} (bound : leap ≤ 1) (month : Int) :
    monthLength leap month ≤ 31 := by
  simp only [monthLength]
  split
  · omega
  · split <;> omega

theorem yearStart_succ (year : Int) :
    yearStart (year + 1) = yearStart year + (365 + leapDay year) := by
  simp only [yearStart, leapDay]
  split <;> omega

theorem yearStart_mono {y z : Int} (h : y ≤ z) : yearStart y ≤ yearStart z := by
  simp only [yearStart]
  omega

theorem monthStart_succ (leap : Int) {month : Int} (low : 0 ≤ month) (high : month < 12) :
    monthStart leap (month + 1) = monthStart leap month + monthLength leap month := by
  simp only [monthStart, monthLength]
  interval_cases month <;> simp <;> omega

theorem monthStart_mono {leap m k : Int} (low : 0 ≤ m) (h : m ≤ k)
    (bounds : 0 ≤ leap ∧ leap ≤ 1) : monthStart leap m ≤ monthStart leap k := by
  simp only [monthStart]
  split <;> split <;> omega

/-- The months of a year fill it. -/
theorem monthStart_end (leap : Int) : monthStart leap 12 = 365 + leap := by
  simp only [monthStart]
  omega

/-- A multiple of the mean length of a year is less than two years off. -/
theorem yearStart_guess (number : Int) :
    yearStart (1970 + number * 400 / 146097 - 1) ≤ number ∧
      number < yearStart (1970 + number * 400 / 146097 + 1 + 1) := by
  have low := Int.mul_ediv_self_le (x := number * 400) (k := 146097) (by decide)
  have high := Int.lt_mul_ediv_self_add (x := number * 400) (k := 146097) (by decide)
  generalize number * 400 / 146097 = years at low high
  simp only [yearStart]
  constructor <;> omega

theorem yearOf_bounds (number : Int) :
    yearStart (yearOf number) ≤ number ∧ number < yearStart (yearOf number + 1) := by
  obtain ⟨low, high⟩ := yearStart_guess number
  simp only [yearOf]
  split
  · have next : 1970 + number * 400 / 146097 - 1 + 1 = 1970 + number * 400 / 146097 := by omega
    rw [next]
    exact ⟨low, ‹_›⟩
  · split
    · exact ⟨Int.not_lt.mp ‹_›, ‹_›⟩
    · exact ⟨Int.not_lt.mp ‹_›, high⟩

theorem yearOf_unique {number year : Int} (low : yearStart year ≤ number)
    (high : number < yearStart (year + 1)) : yearOf number = year := by
  have found := yearOf_bounds number
  rcases Int.lt_trichotomy (yearOf number) year with before | same | behind
  · have order := yearStart_mono (Int.add_one_le_of_lt before)
    omega
  · exact same
  · have order := yearStart_mono (Int.add_one_le_of_lt behind)
    omega

theorem monthOf_bounds {leap day : Int} (bounds : 0 ≤ leap ∧ leap ≤ 1) (low : 0 ≤ day)
    (high : day < 365 + leap) :
    (0 ≤ monthOf leap day ∧ monthOf leap day < 12) ∧
      monthStart leap (monthOf leap day) ≤ day ∧
      day < monthStart leap (monthOf leap day + 1) := by
  simp only [monthOf, monthStart]
  split
  · split <;> split <;> omega
  · split <;> split <;> omega

theorem monthOf_unique {leap day month : Int} (bounds : 0 ≤ leap ∧ leap ≤ 1)
    (month_low : 0 ≤ month) (month_high : month < 12) (low : monthStart leap month ≤ day)
    (high : day < monthStart leap (month + 1)) : monthOf leap day = month := by
  have start := monthStart_mono (Int.le_refl 0) month_low bounds
  have stop := monthStart_mono (by omega) (Int.add_one_le_of_lt month_high) bounds
  have first : monthStart leap 0 = 0 := rfl
  have last := monthStart_end leap
  obtain ⟨found_range, found⟩ := monthOf_bounds bounds (by omega) (by omega : day < 365 + leap)
  rcases Int.lt_trichotomy (monthOf leap day) month with before | same | behind
  · have order := monthStart_mono (by omega) (Int.add_one_le_of_lt before) bounds
    omega
  · exact same
  · have order := monthStart_mono (by omega) (Int.add_one_le_of_lt behind) bounds
    omega

theorem dateOf_exists (number : Int) : (dateOf number).Exists := by
  have year := yearOf_bounds number
  have leap := leapDay_bounds (yearOf number)
  rw [yearStart_succ] at year
  obtain ⟨range, found⟩ := monthOf_bounds leap
    (by omega : 0 ≤ number - yearStart (yearOf number)) (by omega)
  rw [monthStart_succ _ range.1 range.2] at found
  constructor
  · exact range.1
  · exact range.2
  · simp only [dateOf]
    omega
  · simp only [dateOf]
    omega

theorem Date.Exists.number_eq {d : Date} (h : d.Exists) :
    d.number = yearStart d.year + monthStart (leapDay d.year) d.month + (d.day - 1) := by
  have low := h.month_low
  have high := h.month_high
  have whole : d.month / 12 = 0 := by omega
  have part : d.month % 12 = d.month := by omega
  rw [Date.number, whole, part, Int.add_zero]

theorem number_dateOf (number : Int) : (dateOf number).number = number := by
  rw [(dateOf_exists number).number_eq]
  simp only [dateOf]
  omega

theorem dateOf_number {d : Date} (h : d.Exists) : dateOf d.number = d := by
  have leap := leapDay_bounds d.year
  have number := h.number_eq
  have next := monthStart_succ (leapDay d.year) h.month_low h.month_high
  have low := h.day_low
  have high := h.day_high
  have start := monthStart_mono (Int.le_refl 0) h.month_low leap
  have stop := monthStart_mono (by have := h.month_low; omega)
    (Int.add_one_le_of_lt h.month_high) leap
  have first : monthStart (leapDay d.year) 0 = 0 := rfl
  have last := monthStart_end (leapDay d.year)
  have year : yearOf d.number = d.year := by
    apply yearOf_unique
    · omega
    · rw [yearStart_succ]
      omega
  have month : monthOf (leapDay d.year) (d.number - yearStart d.year) = d.month := by
    apply monthOf_unique leap h.month_low h.month_high
    · omega
    · omega
  have day : d.number - yearStart d.year - monthStart (leapDay d.year) d.month + 1 =
      d.day := by omega
  simp only [dateOf, year, month, day]

end CppMyth.Library.Calendar
