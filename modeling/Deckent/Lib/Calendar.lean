import Mathlib.Algebra.Order.Ring.Int

/-!
# The Gregorian calendar

Days are counted from the first of January 1970, and months from 0. The year of a day is the only one whose first
day is no later and whose last day is no earlier, and the calendar repeats every 400 years.
-/

namespace Deckent.Calendar

/-! ### Years -/

def isLeapYear (year : Int) : Bool := year % 4 = 0 && (year % 100 ≠ 0 || year % 400 = 0)

/-- The first day of a year. -/
def dayFromYear (year : Int) : Int :=
  365 * (year - 1970) + (year - 1969) / 4 - (year - 1901) / 100 + (year - 1601) / 400

def yearFromDay (day : Int) : Int :=
  let guess := 1970 + 400 * day / 146097
  if day < dayFromYear guess then guess - 1
  else if dayFromYear (guess + 1) ≤ day then guess + 1
  else guess

/-- The length of February above 28. -/
def leapDay (year : Int) : Int := if isLeapYear year then 1 else 0

theorem leapDay_eq (year : Int) : leapDay year = 0 ∨ leapDay year = 1 := by
  unfold leapDay
  split <;> simp

theorem dayFromYear_succ (year : Int) : dayFromYear (year + 1) = dayFromYear year + 365 + leapDay year := by
  unfold dayFromYear leapDay isLeapYear
  by_cases hleap : year % 4 = 0 ∧ (year % 100 ≠ 0 ∨ year % 400 = 0)
  · rw [if_pos (by simpa using hleap)]
    omega
  · rw [if_neg (by simpa using hleap)]
    omega

theorem dayFromYear_add (year : Int) : dayFromYear (year + 400) = dayFromYear year + 146097 := by
  unfold dayFromYear
  omega

theorem isLeapYear_add (year : Int) : isLeapYear (year + 400) = isLeapYear year := by
  unfold isLeapYear
  have hfour : (year + 400) % 4 = year % 4 := by omega
  have hhundred : (year + 400) % 100 = year % 100 := by omega
  have hall : (year + 400) % 400 = year % 400 := by omega
  rw [hfour, hhundred, hall]

theorem dayFromYear_lt {year other : Int} (hlt : year < other) : dayFromYear year < dayFromYear other := by
  unfold dayFromYear
  omega

theorem yearFromDay_spec (day : Int) :
    dayFromYear (yearFromDay day) ≤ day ∧ day < dayFromYear (yearFromDay day + 1) := by
  have hlow : dayFromYear (1970 + 400 * day / 146097 - 1) ≤ day := by
    unfold dayFromYear
    omega
  have hhigh : day < dayFromYear (1970 + 400 * day / 146097 + 1 + 1) := by
    unfold dayFromYear
    omega
  unfold yearFromDay
  dsimp only
  split
  · next hbefore => exact ⟨hlow, by rwa [Int.sub_add_cancel]⟩
  · next hbefore =>
      split
      · next hafter => exact ⟨hafter, hhigh⟩
      · next hafter => exact ⟨not_lt.mp hbefore, not_le.mp hafter⟩

theorem yearFromDay_eq {day year : Int} (hlow : dayFromYear year ≤ day) (hhigh : day < dayFromYear (year + 1)) :
    yearFromDay day = year := by
  obtain ⟨hfirst, hlast⟩ := yearFromDay_spec day
  by_contra hne
  obtain hlt | hlt := lt_or_gt_of_ne hne
  · obtain hsame | hbelow := eq_or_lt_of_le (Int.add_one_le_of_lt hlt)
    · rw [hsame] at hlast
      omega
    · have := dayFromYear_lt hbelow
      omega
  · obtain hsame | hbelow := eq_or_lt_of_le (Int.add_one_le_of_lt hlt)
    · rw [hsame] at hhigh
      omega
    · have := dayFromYear_lt hbelow
      omega

/-! ### Months and days -/

/-- The days of a year before a month, where `leap` is the leap day. February is short of the pattern of the other
months by two days, or by one. -/
def daysBefore (leap month : Int) : Int :=
  (367 * (month + 1) - 362) / 12 - if month ≤ 1 then 0 else 2 - leap

def monthWithinYear (leap day : Int) : Int :=
  (12 * (day + if day < 59 + leap then 0 else 2 - leap) + 373) / 367 - 1

example : (List.range 13).map (fun (month : Nat) => daysBefore 0 month)
    = [0, 31, 59, 90, 120, 151, 181, 212, 243, 273, 304, 334, 365] := by decide

def dayWithinYear (day : Int) : Int := day - dayFromYear (yearFromDay day)

def monthFromDay (day : Int) : Int := monthWithinYear (leapDay (yearFromDay day)) (dayWithinYear day)

def dateFromDay (day : Int) : Int :=
  dayWithinYear day - daysBefore (leapDay (yearFromDay day)) (monthFromDay day) + 1

def weekDay (day : Int) : Int := (day + 4) % 7

def makeDay (year month date : Int) : Int :=
  dayFromYear (year + month / 12) + daysBefore (leapDay (year + month / 12)) (month % 12) + date - 1

theorem monthWithinYear_bounds {leap day : Int} (hleap : leap = 0 ∨ leap = 1) (hlow : 0 ≤ day)
    (hhigh : day < 365 + leap) : 0 ≤ monthWithinYear leap day ∧ monthWithinYear leap day ≤ 11 := by
  unfold monthWithinYear
  split <;> omega

theorem monthWithinYear_spec {leap day : Int} (hleap : leap = 0 ∨ leap = 1) (hhigh : day < 365 + leap) :
    daysBefore leap (monthWithinYear leap day) ≤ day
      ∧ day < daysBefore leap (monthWithinYear leap day + 1) := by
  unfold monthWithinYear daysBefore
  split <;> split <;> split <;> omega

theorem monthWithinYear_eq {leap day month : Int} (hleap : leap = 0 ∨ leap = 1) (hmonth : 0 ≤ month ∧ month ≤ 11)
    (hlow : daysBefore leap month ≤ day) (hhigh : day < daysBefore leap (month + 1)) :
    monthWithinYear leap day = month := by
  unfold daysBefore at hlow hhigh
  unfold monthWithinYear
  split at hlow <;> split at hhigh <;> split <;> omega

variable {day other : Int}

theorem dayWithinYear_bounds (day : Int) :
    0 ≤ dayWithinYear day ∧ dayWithinYear day < 365 + leapDay (yearFromDay day) := by
  obtain ⟨hfirst, hlast⟩ := yearFromDay_spec day
  rw [dayFromYear_succ] at hlast
  unfold dayWithinYear
  omega

theorem monthFromDay_bounds (day : Int) : 0 ≤ monthFromDay day ∧ monthFromDay day ≤ 11 :=
  monthWithinYear_bounds (leapDay_eq _) (dayWithinYear_bounds day).1 (dayWithinYear_bounds day).2

theorem monthFromDay_spec (day : Int) :
    daysBefore (leapDay (yearFromDay day)) (monthFromDay day) ≤ dayWithinYear day
      ∧ dayWithinYear day < daysBefore (leapDay (yearFromDay day)) (monthFromDay day + 1) :=
  monthWithinYear_spec (leapDay_eq _) (dayWithinYear_bounds day).2

theorem makeDay_fields (date : Int) :
    makeDay (yearFromDay day) (monthFromDay day) date = day + date - dateFromDay day := by
  obtain ⟨hlow, hhigh⟩ := monthFromDay_bounds day
  have hyear : yearFromDay day + monthFromDay day / 12 = yearFromDay day := by omega
  have hmonth : monthFromDay day % 12 = monthFromDay day := by omega
  unfold makeDay dateFromDay dayWithinYear
  rw [hyear, hmonth]
  omega

theorem daysBefore_zero {leap : Int} : daysBefore leap 0 = 0 := rfl

theorem daysBefore_twelve {leap : Int} : daysBefore leap 12 = 365 + leap := by
  unfold daysBefore
  rw [if_neg (by decide)]
  omega

/-- The first day of the month after that of a day. -/
def nextMonth (day : Int) : Int := makeDay (yearFromDay day) (monthFromDay day + 1) 1

theorem nextMonth_eq (day : Int) : nextMonth day
    = dayFromYear (yearFromDay day) + daysBefore (leapDay (yearFromDay day)) (monthFromDay day + 1) := by
  obtain ⟨hlow, hhigh⟩ := monthFromDay_bounds day
  unfold nextMonth makeDay
  obtain hlast | hlast := eq_or_lt_of_le hhigh
  · have hyear : yearFromDay day + (monthFromDay day + 1) / 12 = yearFromDay day + 1 := by omega
    have hmonth : (monthFromDay day + 1) % 12 = 0 := by omega
    rw [hyear, hmonth, daysBefore_zero, hlast, show (11 : Int) + 1 = 12 from rfl, daysBefore_twelve,
      dayFromYear_succ]
    omega
  · have hyear : yearFromDay day + (monthFromDay day + 1) / 12 = yearFromDay day := by omega
    have hmonth : (monthFromDay day + 1) % 12 = monthFromDay day + 1 := by omega
    rw [hyear, hmonth]
    omega

theorem lt_nextMonth (day : Int) : day < nextMonth day := by
  have hspec := (monthFromDay_spec day).2
  rw [nextMonth_eq]
  unfold dayWithinYear at hspec
  omega

/-- The days before the next month have the month of the day. -/
theorem monthFromDay_of_lt_nextMonth (hle : day ≤ other) (hlt : other < nextMonth day) :
    monthFromDay other = monthFromDay day := by
  obtain ⟨hfirst, -⟩ := yearFromDay_spec day
  obtain ⟨hlow, hhigh⟩ := monthFromDay_bounds day
  have hspec := (monthFromDay_spec day).1
  rw [nextMonth_eq] at hlt
  have hend : daysBefore (leapDay (yearFromDay day)) (monthFromDay day + 1) ≤ 365 + leapDay (yearFromDay day) := by
    have hleap := leapDay_eq (yearFromDay day)
    unfold daysBefore
    split <;> omega
  have hyear : yearFromDay other = yearFromDay day := by
    refine yearFromDay_eq (hfirst.trans hle) ?_
    rw [dayFromYear_succ]
    omega
  unfold dayWithinYear at hspec
  rw [monthFromDay, hyear]
  refine monthWithinYear_eq (leapDay_eq _) ⟨hlow, hhigh⟩ ?_ ?_
  · unfold dayWithinYear
    rw [hyear]
    omega
  · unfold dayWithinYear
    rw [hyear]
    omega

/-- The next month begins on its first day. -/
theorem dateFromDay_nextMonth (day : Int) : dateFromDay (nextMonth day) = 1 := by
  obtain ⟨hlow, hhigh⟩ := monthFromDay_bounds day
  obtain ⟨hfirst, -⟩ := yearFromDay_spec day
  have heq := nextMonth_eq day
  obtain hlast | hlast := eq_or_lt_of_le hhigh
  · rw [hlast, show (11 : Int) + 1 = 12 from rfl, daysBefore_twelve] at heq
    have hstart : nextMonth day = dayFromYear (yearFromDay day + 1) := by
      rw [dayFromYear_succ]
      omega
    have hyear : yearFromDay (nextMonth day) = yearFromDay day + 1 := by
      refine yearFromDay_eq hstart.ge ?_
      rw [hstart]
      exact dayFromYear_lt (by omega)
    have hwithin : dayWithinYear (nextMonth day) = 0 := by
      unfold dayWithinYear
      rw [hyear]
      omega
    have hmonth : monthFromDay (nextMonth day) = 0 := by
      unfold monthFromDay
      rw [hwithin]
      exact monthWithinYear_eq (leapDay_eq _) (by decide) (by rw [daysBefore_zero]) (by unfold daysBefore; split <;> omega)
    unfold dateFromDay
    rw [hwithin, hmonth, daysBefore_zero]
    rfl
  · have hleap := leapDay_eq (yearFromDay day)
    have hbefore : 0 ≤ daysBefore (leapDay (yearFromDay day)) (monthFromDay day + 1)
        ∧ daysBefore (leapDay (yearFromDay day)) (monthFromDay day + 1)
          < daysBefore (leapDay (yearFromDay day)) (monthFromDay day + 1 + 1)
        ∧ daysBefore (leapDay (yearFromDay day)) (monthFromDay day + 1 + 1) ≤ 365 + leapDay (yearFromDay day) := by
      unfold daysBefore
      split <;> split <;> omega
    have hyear : yearFromDay (nextMonth day) = yearFromDay day := by
      refine yearFromDay_eq (by omega) ?_
      rw [dayFromYear_succ]
      omega
    have hwithin : dayWithinYear (nextMonth day)
        = daysBefore (leapDay (yearFromDay day)) (monthFromDay day + 1) := by
      unfold dayWithinYear
      rw [hyear]
      omega
    have hmonth : monthFromDay (nextMonth day) = monthFromDay day + 1 := by
      rw [monthFromDay, hyear, hwithin]
      exact monthWithinYear_eq hleap (by omega) (le_refl _) hbefore.2.1
    unfold dateFromDay
    rw [hyear, hwithin, hmonth]
    omega

/-! ### Four hundred years -/

/-- The days of 400 years. -/
def cycle : Int := 146097

theorem yearFromDay_add_cycle (day : Int) : yearFromDay (day + cycle) = yearFromDay day + 400 := by
  obtain ⟨hfirst, hlast⟩ := yearFromDay_spec day
  refine yearFromDay_eq ?_ ?_
  · rw [dayFromYear_add]
    unfold cycle
    omega
  · rw [show yearFromDay day + 400 + 1 = yearFromDay day + 1 + 400 by omega, dayFromYear_add]
    unfold cycle
    omega

theorem dayWithinYear_add_cycle (day : Int) : dayWithinYear (day + cycle) = dayWithinYear day := by
  unfold dayWithinYear
  rw [yearFromDay_add_cycle, dayFromYear_add]
  unfold cycle
  omega

theorem leapDay_add (year : Int) : leapDay (year + 400) = leapDay year := by
  unfold leapDay
  rw [isLeapYear_add]

theorem monthFromDay_add_cycle (day : Int) : monthFromDay (day + cycle) = monthFromDay day := by
  unfold monthFromDay
  rw [dayWithinYear_add_cycle, yearFromDay_add_cycle, leapDay_add]

theorem dateFromDay_add_cycle (day : Int) : dateFromDay (day + cycle) = dateFromDay day := by
  unfold dateFromDay
  rw [monthFromDay_add_cycle, dayWithinYear_add_cycle, yearFromDay_add_cycle, leapDay_add]

theorem weekDay_add_cycle (day : Int) : weekDay (day + cycle) = weekDay day := by
  unfold weekDay cycle
  omega

end Deckent.Calendar
