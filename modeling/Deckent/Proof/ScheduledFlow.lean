import Mathlib.Data.List.TakeWhile
import Deckent.Lib.Fallible
import Deckent.Model.ScheduledFlow

/-!
# The next run is the first one

A jump of the search passes over minutes none of which matches. The calendar repeats after 400 years and a day that
matches has a match for each hour and minute that do, so the search finds a match wherever there is one; the search
in a time zone finds those of a year.
-/

namespace Deckent.ScheduledFlow

open Calendar

variable {parsed : ParsedCronExpr} {t m now : Int}

/-! ### What the fields say -/

def PartHolds (part : List Char) (fieldMin value : Int) : Prop :=
  ∃ step lo, stepOf part = some step ∧ (boundsOf (beforeFirst '/' part) fieldMin).1 = some lo ∧ lo ≤ value
    ∧ (∀ hi, (boundsOf (beforeFirst '/' part) fieldMin).2 = some hi → value ≤ hi) ∧ step ∣ value - lo

def FieldHolds (field : List Char) (fieldMin value : Int) : Prop :=
  field = ['*'] ∨ ∃ part ∈ field.splitOn ',', PartHolds part fieldMin value

def DayOfWeekHolds (field : List Char) (jsDay : Int) : Prop :=
  field = ['*'] ∨ ∃ part ∈ field.splitOn ',', PartHolds part 0 jsDay ∨ jsDay = 0 ∧ PartHolds part 0 7

def DayHolds (parsed : ParsedCronExpr) (dom dow : Int) : Prop :=
  if parsed.dayOfMonth = ['*'] then DayOfWeekHolds parsed.dayOfWeek dow
  else if parsed.dayOfWeek = ['*'] then FieldHolds parsed.dayOfMonth 1 dom
  else FieldHolds parsed.dayOfMonth 1 dom ∨ DayOfWeekHolds parsed.dayOfWeek dow

structure Satisfies (parsed : ParsedCronExpr) (m : Int) : Prop where
  month : FieldHolds parsed.month 1 (getUTCMonth m + 1)
  day : DayHolds parsed (getUTCDate m) (getUTCDay m)
  hour : FieldHolds parsed.hour 0 (getUTCHours m)
  minute : FieldHolds parsed.minute 0 (getUTCMinutes m)

theorem matchesPart_iff {part : List Char} {fieldMin value : Int} :
    matchesPart part (some value) fieldMin = true ↔ PartHolds part fieldMin value := by
  unfold matchesPart PartHolds
  dsimp only
  cases hstep : stepOf part with
  | none => simp
  | some step =>
      cases hlo : (boundsOf (beforeFirst '/' part) fieldMin).1 with
      | none => simp
      | some lo =>
          simp only [Int.dvd_iff_emod_eq_zero]
          cases hhi : (boundsOf (beforeFirst '/' part) fieldMin).2 with
          | none => simp
          | some hi => simp [and_assoc]

theorem matchesPart_nan (part : List Char) (fieldMin : Int) : matchesPart part none fieldMin = false := by
  unfold matchesPart
  dsimp only
  cases stepOf part <;> rfl

theorem matchesField_iff {field : List Char} {fieldMin value : Int} :
    matchesField field (some value) fieldMin = true ↔ FieldHolds field fieldMin value := by
  unfold matchesField FieldHolds
  simp [matchesPart_iff]

theorem matchesDayOfWeek_iff {field : List Char} {jsDay : Int} :
    matchesDayOfWeek field (some jsDay) = true ↔ DayOfWeekHolds field jsDay := by
  unfold matchesDayOfWeek DayOfWeekHolds
  simp [matchesPart_iff]

theorem dayOk_iff {dom dow : Int} : parsed.dayOk (some dom) (some dow) = true ↔ DayHolds parsed dom dow := by
  unfold ParsedCronExpr.dayOk DayHolds
  by_cases hdom : parsed.dayOfMonth = ['*']
  · by_cases hdow : parsed.dayOfWeek = ['*']
    · simp [hdom, hdow, DayOfWeekHolds]
    · simp [hdom, hdow, matchesDayOfWeek_iff]
  · by_cases hdow : parsed.dayOfWeek = ['*']
    · simp [hdom, hdow, matchesField_iff]
    · simp [hdom, hdow, matchesField_iff, matchesDayOfWeek_iff]

/-! ### Checks at a minute -/

def monthOk (parsed : ParsedCronExpr) (t : Int) : Bool := matchesField parsed.month (some (getUTCMonth t + 1)) 1

def dayOkAt (parsed : ParsedCronExpr) (t : Int) : Bool := parsed.dayOk (some (getUTCDate t)) (some (getUTCDay t))

def hourOk (parsed : ParsedCronExpr) (t : Int) : Bool := matchesField parsed.hour (some (getUTCHours t)) 0

def minuteOk (parsed : ParsedCronExpr) (t : Int) : Bool := matchesField parsed.minute (some (getUTCMinutes t)) 0

def matchesUtc (parsed : ParsedCronExpr) (t : Int) : Bool :=
  monthOk parsed t && dayOkAt parsed t && hourOk parsed t && minuteOk parsed t

theorem matchesUtc_iff : matchesUtc parsed m = true ↔ Satisfies parsed m := by
  unfold matchesUtc monthOk dayOkAt hourOk minuteOk
  rw [Bool.and_eq_true, Bool.and_eq_true, Bool.and_eq_true, matchesField_iff, matchesField_iff, matchesField_iff,
    dayOk_iff]
  exact ⟨fun ⟨⟨⟨hmonth, hday⟩, hhour⟩, hminute⟩ => ⟨hmonth, hday, hhour, hminute⟩,
    fun ⟨hmonth, hday, hhour, hminute⟩ => ⟨⟨⟨hmonth, hday⟩, hhour⟩, hminute⟩⟩

def IsMinute (t : Int) : Prop := t % msPerMinute = 0

def IsDate (t : Int) : Prop := -maxTime ≤ t ∧ t ≤ maxTime

theorem dayOkAt_congr (hday : dayOf m = dayOf t) : dayOkAt parsed m = dayOkAt parsed t := by
  unfold dayOkAt getUTCDate getUTCDay
  rw [hday]

theorem monthOk_congr (hday : dayOf m = dayOf t) : monthOk parsed m = monthOk parsed t := by
  unfold monthOk getUTCMonth
  rw [hday]

/-! ### Jumps -/

def jump (parsed : ParsedCronExpr) (t : Int) : Int :=
  if !monthOk parsed t then nextMonth (dayOf t) * msPerDay
  else if !dayOkAt parsed t then (dayOf t + 1) * msPerDay
  else if !hourOk parsed t then dayOf t * msPerDay + (getUTCHours t + 1) * msPerHour
  else t + msPerMinute

theorem jump_cases (parsed : ParsedCronExpr) (t : Int) :
    (monthOk parsed t = false ∧ jump parsed t = nextMonth (dayOf t) * msPerDay)
      ∨ (monthOk parsed t = true ∧ dayOkAt parsed t = false ∧ jump parsed t = (dayOf t + 1) * msPerDay)
      ∨ (monthOk parsed t = true ∧ dayOkAt parsed t = true ∧ hourOk parsed t = false
        ∧ jump parsed t = dayOf t * msPerDay + (getUTCHours t + 1) * msPerHour)
      ∨ (monthOk parsed t = true ∧ dayOkAt parsed t = true ∧ hourOk parsed t = true
        ∧ jump parsed t = t + msPerMinute) := by
  unfold jump
  cases monthOk parsed t with
  | false => exact .inl ⟨rfl, rfl⟩
  | true =>
      cases dayOkAt parsed t with
      | false => exact .inr (.inl ⟨rfl, rfl, rfl⟩)
      | true =>
          cases hourOk parsed t with
          | false => exact .inr (.inr (.inl ⟨rfl, rfl, rfl, rfl⟩))
          | true => exact .inr (.inr (.inr ⟨rfl, rfl, rfl, rfl⟩))

theorem lt_jump (parsed : ParsedCronExpr) (t : Int) : t < jump parsed t := by
  have hmonth := lt_nextMonth (dayOf t)
  obtain ⟨-, hjump⟩ | ⟨-, -, hjump⟩ | ⟨-, -, -, hjump⟩ | ⟨-, -, -, hjump⟩ := jump_cases parsed t <;> rw [hjump] <;>
    simp only [dayOf, getUTCHours, msPerDay, msPerHour, msPerMinute] at * <;> omega

theorem isMinute_jump (ht : IsMinute t) : IsMinute (jump parsed t) := by
  unfold IsMinute at *
  obtain ⟨-, hjump⟩ | ⟨-, -, hjump⟩ | ⟨-, -, -, hjump⟩ | ⟨-, -, -, hjump⟩ := jump_cases parsed t <;> rw [hjump] <;>
    simp only [dayOf, getUTCHours, msPerDay, msPerHour, msPerMinute] at * <;> omega

theorem not_matchesUtc_of_lt_jump (ht : IsMinute t) (hmatches : matchesUtc parsed t = false) (hm : IsMinute m)
    (hle : t ≤ m) (hlt : m < jump parsed t) : matchesUtc parsed m = false := by
  unfold matchesUtc
  obtain ⟨hmonth, hjump⟩ | ⟨-, hday, hjump⟩ | ⟨-, -, hhour, hjump⟩ | ⟨-, -, -, hjump⟩ := jump_cases parsed t <;>
    rw [hjump] at hlt
  · have hsame : getUTCMonth m = getUTCMonth t := by
      refine monthFromDay_of_lt_nextMonth ?_ ?_ <;> simp only [dayOf, msPerDay] at * <;> omega
    have hmonth' : monthOk parsed m = false := by
      unfold monthOk at *
      rw [hsame, hmonth]
    rw [hmonth']
    rfl
  · have hsame : dayOf m = dayOf t := by
      simp only [dayOf, msPerDay] at *
      omega
    rw [dayOkAt_congr hsame, hday, Bool.and_false]
    rfl
  · have hsame : getUTCHours m = getUTCHours t := by
      simp only [dayOf, getUTCHours, msPerDay, msPerHour] at *
      omega
    have hhour' : hourOk parsed m = false := by
      unfold hourOk at *
      rw [hsame, hhour]
    rw [hhour', Bool.and_false]
    rfl
  · have hsame : m = t := by
      simp only [IsMinute, msPerMinute] at *
      omega
    rw [hsame]
    exact hmatches

/-! ### The clock of the search -/

theorem timeClip_of_isDate (hdate : IsDate t) : timeClip t = some t := if_pos hdate

theorem timeClip_of_lt (hlt : maxTime < t) : timeClip t = none := by
  unfold timeClip
  rw [if_neg]
  omega

/-- The next whole minute. -/
def nextMinute (now : Int) : Int := now / msPerMinute * msPerMinute + msPerMinute

theorem setUTCMinutes_succ (hminute : IsMinute t) : setUTCMinutes t (getUTCMinutes t + 1) = timeClip (t + msPerMinute) := by
  unfold setUTCMinutes makeDate
  congr 1
  simp only [IsMinute, dayOf, getUTCHours, getUTCMinutes, msPerDay, msPerHour, msPerMinute] at *
  omega

theorem firstMinute_eq (hnow : IsDate now) : firstMinute (some now) = timeClip (nextMinute now) := by
  have hzero : setUTCSecondsZero now = some (now / msPerMinute * msPerMinute) := by
    have heq : dayOf now * msPerDay + (getUTCHours now * msPerHour + getUTCMinutes now * msPerMinute + 0)
        = now / msPerMinute * msPerMinute := by
      simp only [dayOf, getUTCHours, getUTCMinutes, msPerDay, msPerHour, msPerMinute]
      omega
    unfold setUTCSecondsZero makeDate
    rw [heq]
    refine timeClip_of_isDate ?_
    simp only [IsDate, maxTime, msPerMinute] at *
    omega
  have hminute : IsMinute (now / msPerMinute * msPerMinute) := by
    simp only [IsMinute, msPerMinute]
    omega
  unfold firstMinute
  rw [Option.bind_some, hzero, Option.bind_some, setUTCMinutes_succ hminute]
  rfl

theorem isMinute_nextMinute (now : Int) : IsMinute (nextMinute now) := by
  simp only [IsMinute, nextMinute, msPerMinute]
  omega

theorem nextMinute_le_iff (hm : IsMinute m) : nextMinute now ≤ m ↔ now < m := by
  simp only [IsMinute, nextMinute, msPerMinute] at *
  omega

theorem neg_maxTime_le_nextMinute (hnow : IsDate now) : -maxTime ≤ nextMinute now := by
  simp only [IsDate, nextMinute, maxTime, msPerMinute] at *
  omega

/-! ### One turn -/

def LeavesRange (parsed : ParsedCronExpr) (t : Int) : Prop :=
  dayOf t = dayOf maxTime - 1 ∧ t % msPerDay ≠ 0 ∧ monthOk parsed t = true ∧ dayOkAt parsed t = false

theorem setUTCHoursZero_zero (t : Int) : setUTCHoursZero t 0 = timeClip (dayOf t * msPerDay) := by
  unfold setUTCHoursZero makeDate
  congr 1
  omega

theorem month_turn (hdate : IsDate t) :
    (setUTCMonthFirst t (getUTCMonth t + 1)).bind (setUTCHoursZero · 0) = timeClip (nextMonth (dayOf t) * msPerDay) := by
  have hset : setUTCMonthFirst t (getUTCMonth t + 1) = timeClip (nextMonth (dayOf t) * msPerDay + t % msPerDay) := by
    unfold setUTCMonthFirst makeDate
    congr 1
    unfold nextMonth getUTCFullYear getUTCMonth
    omega
  have hlt := lt_nextMonth (dayOf t)
  rw [hset]
  by_cases hrange : nextMonth (dayOf t) * msPerDay + t % msPerDay ≤ maxTime
  · have hin : IsDate (nextMonth (dayOf t) * msPerDay + t % msPerDay) := by
      simp only [IsDate, dayOf, maxTime, msPerDay] at *
      omega
    have hday : dayOf (nextMonth (dayOf t) * msPerDay + t % msPerDay) = nextMonth (dayOf t) := by
      simp only [dayOf, msPerDay]
      omega
    rw [timeClip_of_isDate hin, Option.bind_some, setUTCHoursZero_zero, hday]
  · have hout : maxTime < nextMonth (dayOf t) * msPerDay := by
      have hfirst := dateFromDay_nextMonth (dayOf t)
      have hlast : dateFromDay 100000000 = 13 := by decide
      have hne : nextMonth (dayOf t) ≠ 100000000 := by
        intro heq
        rw [heq, hlast] at hfirst
        omega
      simp only [maxTime, msPerDay] at *
      omega
    rw [timeClip_of_lt (not_le.mp hrange), timeClip_of_lt hout]
    rfl

theorem setUTCDate_succ (t : Int) :
    setUTCDate t (getUTCDate t + 1) = timeClip ((dayOf t + 1) * msPerDay + t % msPerDay) := by
  unfold setUTCDate makeDate getUTCFullYear getUTCMonth getUTCDate
  rw [makeDay_fields]
  congr 1
  simp only [msPerDay]
  omega

theorem day_turn (hdate : IsDate t) (hrange : dayOf t ≠ dayOf maxTime - 1 ∨ t % msPerDay = 0) :
    (setUTCDate t (getUTCDate t + 1)).bind (setUTCHoursZero · 0) = timeClip ((dayOf t + 1) * msPerDay) := by
  rw [setUTCDate_succ]
  by_cases hin : (dayOf t + 1) * msPerDay + t % msPerDay ≤ maxTime
  · have hin : IsDate ((dayOf t + 1) * msPerDay + t % msPerDay) := by
      simp only [IsDate, dayOf, maxTime, msPerDay] at *
      omega
    have hday : dayOf ((dayOf t + 1) * msPerDay + t % msPerDay) = dayOf t + 1 := by
      simp only [dayOf, msPerDay]
      omega
    rw [timeClip_of_isDate hin, Option.bind_some, setUTCHoursZero_zero, hday]
  · have hout : maxTime < (dayOf t + 1) * msPerDay := by
      simp only [IsDate, dayOf, maxTime, msPerDay] at *
      omega
    rw [timeClip_of_lt (not_le.mp hin), timeClip_of_lt hout]
    rfl

theorem leavesRange_turn (hleaves : LeavesRange parsed t) :
    (setUTCDate t (getUTCDate t + 1)).bind (setUTCHoursZero · 0) = none := by
  have hout : maxTime < (dayOf t + 1) * msPerDay + t % msPerDay := by
    obtain ⟨hday, hmidnight, -⟩ := hleaves
    simp only [dayOf, maxTime, msPerDay] at *
    omega
  rw [setUTCDate_succ, timeClip_of_lt hout]
  rfl

theorem hour_turn : setUTCHoursZero t (getUTCHours t + 1)
    = timeClip (dayOf t * msPerDay + (getUTCHours t + 1) * msPerHour) := by
  unfold setUTCHoursZero makeDate
  congr 1
  omega

theorem minute_turn (hminute : IsMinute t) : setUTCMinutesZero t (getUTCMinutes t + 1) = timeClip (t + msPerMinute) := by
  unfold setUTCMinutesZero makeDate
  congr 1
  simp only [IsMinute, dayOf, getUTCHours, getUTCMinutes, msPerDay, msPerHour, msPerMinute] at *
  omega

def AllStar (parsed : ParsedCronExpr) : Prop :=
  parsed.month = ['*'] ∧ parsed.dayOfMonth = ['*'] ∧ parsed.dayOfWeek = ['*'] ∧ parsed.hour = ['*']
    ∧ parsed.minute = ['*']

theorem matchesUtc_of_allStar (hall : AllStar parsed) (t : Int) : matchesUtc parsed t = true := by
  obtain ⟨hmonth, hdom, hdow, hhour, hminute⟩ := hall
  simp [matchesUtc, monthOk, dayOkAt, hourOk, minuteOk, matchesField, ParsedCronExpr.dayOk, hmonth, hdom, hdow, hhour,
    hminute]

theorem matchesField_nan {field : List Char} {fieldMin : Int} :
    matchesField field none fieldMin = decide (field = ['*']) := by
  unfold matchesField
  simp [matchesPart_nan]

theorem dayOk_nan : parsed.dayOk none none = decide (parsed.dayOfMonth = ['*'] ∧ parsed.dayOfWeek = ['*']) := by
  have hdow : matchesDayOfWeek parsed.dayOfWeek none = decide (parsed.dayOfWeek = ['*']) := by
    unfold matchesDayOfWeek
    simp [matchesPart_nan]
  unfold ParsedCronExpr.dayOk
  rw [hdow, matchesField_nan]
  by_cases hdom : parsed.dayOfMonth = ['*'] <;> by_cases hstar : parsed.dayOfWeek = ['*'] <;> simp [hdom, hstar]

variable (parsed) in
theorem searchUtc_none (fuel : Nat) : searchUtc parsed fuel none = none ∨ AllStar parsed := by
  induction fuel with
  | zero => exact .inl rfl
  | succ fuel ih =>
      unfold searchUtc
      simp only [Option.map_none, Option.bind_none, matchesField_nan, dayOk_nan]
      by_cases hmonth : parsed.month = ['*']
      · by_cases hday : parsed.dayOfMonth = ['*'] ∧ parsed.dayOfWeek = ['*']
        · by_cases hhour : parsed.hour = ['*']
          · by_cases hminute : parsed.minute = ['*']
            · exact .inr ⟨hmonth, hday.1, hday.2, hhour, hminute⟩
            · simpa [hmonth, hday, hhour, hminute] using ih
          · simpa [hmonth, hday, hhour] using ih
        · simpa [hmonth, hday] using ih
      · simpa [hmonth] using ih

theorem searchUtc_succ_none_of_allStar (hall : AllStar parsed) (fuel : Nat) :
    searchUtc parsed (fuel + 1) none = some none := by
  obtain ⟨hmonth, hdom, hdow, hhour, hminute⟩ := hall
  unfold searchUtc
  simp [matchesField_nan, dayOk_nan, hmonth, hdom, hdow, hhour, hminute]

theorem searchUtc_of_matches (hmatches : matchesUtc parsed t = true) (fuel : Nat) :
    searchUtc parsed (fuel + 1) (some t) = some (some t) := by
  simp only [matchesUtc, Bool.and_eq_true] at hmatches
  obtain ⟨⟨⟨hmonth, hday⟩, hhour⟩, hminute⟩ := hmatches
  unfold monthOk at hmonth
  unfold dayOkAt at hday
  unfold hourOk at hhour
  unfold minuteOk at hminute
  unfold searchUtc
  simp [hmonth, hday, hhour, hminute]

theorem searchUtc_jump (hdate : IsDate t) (hminute : IsMinute t) (hmatches : matchesUtc parsed t = false)
    (hrange : ¬ LeavesRange parsed t) (fuel : Nat) :
    searchUtc parsed (fuel + 1) (some t) = searchUtc parsed fuel (timeClip (jump parsed t)) := by
  rw [searchUtc]
  simp only [Option.map_some, Option.bind_some]
  obtain ⟨hmonth, hjump⟩ | ⟨hmonth, hday, hjump⟩ | ⟨hmonth, hday, hhour, hjump⟩ | ⟨hmonth, hday, hhour, hjump⟩ :=
    jump_cases parsed t
  · rw [hjump, ← month_turn hdate]
    unfold monthOk at hmonth
    simp [hmonth]
  · have hin : dayOf t ≠ dayOf maxTime - 1 ∨ t % msPerDay = 0 := by
      by_contra hout
      rw [not_or, not_not] at hout
      exact hrange ⟨hout.1, hout.2, hmonth, hday⟩
    rw [hjump, ← day_turn hdate hin]
    unfold monthOk at hmonth
    unfold dayOkAt at hday
    simp [hmonth, hday]
  · rw [hjump, ← hour_turn]
    unfold monthOk at hmonth
    unfold dayOkAt at hday
    unfold hourOk at hhour
    simp [hmonth, hday, hhour]
  · have hminuteOk : minuteOk parsed t = false := by
      unfold matchesUtc at hmatches
      rwa [hmonth, hday, hhour, Bool.and_self, Bool.and_self, Bool.true_and] at hmatches
    rw [hjump, ← minute_turn hminute]
    unfold monthOk at hmonth
    unfold dayOkAt at hday
    unfold hourOk at hhour
    unfold minuteOk at hminuteOk
    simp [hmonth, hday, hhour, hminuteOk]

theorem searchUtc_leavesRange (hleaves : LeavesRange parsed t) (fuel : Nat) :
    searchUtc parsed (fuel + 1) (some t) = searchUtc parsed fuel none := by
  rw [searchUtc]
  simp only [Option.map_some, Option.bind_some]
  rw [leavesRange_turn hleaves]
  obtain ⟨-, -, hmonth, hday⟩ := hleaves
  unfold monthOk at hmonth
  unfold dayOkAt at hday
  simp [hmonth, hday]

/-! ### The first match -/

/-- The first whole minute from `t` on that matches, no later than `last`. -/
structure IsFirst (check : Int → Bool) (t last m : Int) : Prop where
  le : t ≤ m
  le_last : m ≤ last
  isMinute : IsMinute m
  holds : check m = true
  first : ∀ earlier, t ≤ earlier → earlier < m → IsMinute earlier → check earlier = false

theorem IsFirst.unique {check : Int → Bool} {last last' m' : Int} (hm : IsFirst check t last m)
    (hm' : IsFirst check t last' m') : m = m' := by
  obtain hlt | rfl | hlt := lt_trichotomy m m'
  · have hnot := hm'.first m hm.le hlt hm.isMinute
    rw [hm.holds] at hnot
    cases hnot
  · rfl
  · have hnot := hm.first m' hm'.le hlt hm'.isMinute
    rw [hm'.holds] at hnot
    cases hnot

theorem exists_isFirst (check : Int → Bool) {last : Int} (ht : IsMinute t) (hle : t ≤ m) (hlast : m ≤ last)
    (hm : IsMinute m) (hcheck : check m = true) : ∃ e, IsFirst check t last e ∧ e ≤ m := by
  have hplaces {m : Int} (hle : t ≤ m) (hm : IsMinute m) : ∃ k : Nat, m = t + msPerMinute * k := by
    refine ⟨((m - t) / msPerMinute).toNat, ?_⟩
    simp only [IsMinute, msPerMinute] at *
    omega
  obtain ⟨k, rfl⟩ := hplaces hle hm
  have hexists : ∃ k : Nat, check (t + msPerMinute * k) = true := ⟨k, hcheck⟩
  obtain ⟨n, hn, hleast, hmin⟩ : ∃ n : Nat, check (t + msPerMinute * n) = true ∧ n ≤ k
      ∧ ∀ j < n, ¬ check (t + msPerMinute * (j : Nat)) = true :=
    ⟨Nat.find hexists, Nat.find_spec hexists, Nat.find_min' hexists hcheck, fun j hj => Nat.find_min hexists hj⟩
  have hmono : t + msPerMinute * (n : Int) ≤ t + msPerMinute * k := by
    simp only [msPerMinute]
    omega
  refine ⟨t + msPerMinute * (n : Int), ⟨?_, hmono.trans hlast, ?_, hn, ?_⟩, hmono⟩
  · simp only [msPerMinute]
    omega
  · simp only [IsMinute, msPerMinute] at *
    omega
  · intro earlier hearlier hlt hminute
    obtain ⟨j, rfl⟩ := hplaces hearlier hminute
    have hj : j < n := by
      simp only [msPerMinute] at hlt
      omega
    simpa using hmin j hj

theorem isFirst_of_searchUtc {fuel : Nat} {found : Option Int} (hdate : IsDate t) (hminute : IsMinute t)
    (hfound : searchUtc parsed fuel (some t) = some found) :
    ∃ m, found = some m ∧ IsFirst (matchesUtc parsed) t maxTime m := by
  induction fuel generalizing t with
  | zero => cases hfound
  | succ fuel ih =>
      by_cases hmatches : matchesUtc parsed t = true
      · rw [searchUtc_of_matches hmatches] at hfound
        refine ⟨t, (Option.some.inj hfound).symm, le_refl t, hdate.2, hminute, hmatches, fun earlier hle hlt => ?_⟩
        omega
      · have hnotStar : ¬ AllStar parsed := fun hall => hmatches (matchesUtc_of_allStar hall t)
        have hnone {fuel : Nat} : searchUtc parsed fuel none ≠ some found := by
          rw [(searchUtc_none parsed fuel).resolve_right hnotStar]
          exact fun hnone => by cases hnone
        rw [Bool.not_eq_true] at hmatches
        by_cases hleaves : LeavesRange parsed t
        · rw [searchUtc_leavesRange hleaves] at hfound
          exact absurd hfound hnone
        · rw [searchUtc_jump hdate hminute hmatches hleaves] at hfound
          have hjump := lt_jump parsed t
          by_cases hin : jump parsed t ≤ maxTime
          · have hnext : IsDate (jump parsed t) := ⟨hdate.1.trans hjump.le, hin⟩
            rw [timeClip_of_isDate hnext] at hfound
            obtain ⟨m, hm, hfirst⟩ := ih hnext (isMinute_jump hminute) hfound
            refine ⟨m, hm, hjump.le.trans hfirst.le, hfirst.le_last, hfirst.isMinute, hfirst.holds, ?_⟩
            intro earlier hle hlt hearlier
            obtain hbefore | hafter := lt_or_ge earlier (jump parsed t)
            · exact not_matchesUtc_of_lt_jump hminute hmatches hearlier hle hbefore
            · exact hfirst.first earlier hafter hlt hearlier
          · rw [timeClip_of_lt (not_le.mp hin)] at hfound
            exact absurd hfound hnone

/-! ### Enough turns -/

variable (parsed) in
theorem jump_spec (ht : IsMinute t) : (dayOf t < dayOf (jump parsed t) → jump parsed t % msPerDay = 0)
    ∧ (dayOf (jump parsed t) = dayOf t → monthOk parsed t = true ∧ dayOkAt parsed t = true) := by
  have hnext := lt_nextMonth (dayOf t)
  obtain ⟨hmonth, hjump⟩ | ⟨hmonth, hday, hjump⟩ | ⟨hmonth, hday, hhour, hjump⟩ | ⟨hmonth, hday, hhour, hjump⟩ :=
    jump_cases parsed t <;> rw [hjump] <;> refine ⟨fun hlt => ?_, fun heq => ?_⟩
  · simp only [msPerDay]
    omega
  · simp only [dayOf, msPerDay] at *
    omega
  · simp only [msPerDay]
    omega
  · simp only [dayOf, msPerDay] at *
    omega
  · simp only [IsMinute, dayOf, getUTCHours, msPerDay, msPerHour, msPerMinute] at *
    omega
  · exact ⟨hmonth, hday⟩
  · simp only [IsMinute, dayOf, msPerDay, msPerMinute] at *
    omega
  · exact ⟨hmonth, hday⟩

theorem not_leavesRange_jump (ht : IsMinute t) : ¬ LeavesRange parsed (jump parsed t) := by
  rintro ⟨-, hmidnight, -, hday⟩
  have hlt := lt_jump parsed t
  obtain ⟨hcross, hsame⟩ := jump_spec parsed ht
  have hstays : dayOf (jump parsed t) = dayOf t := by
    by_contra hne
    refine hmidnight (hcross ?_)
    simp only [dayOf, msPerDay] at *
    omega
  rw [dayOkAt_congr hstays, (hsame hstays).2] at hday
  cases hday

theorem IsFirst.midnight {last e : Int} (hfirst : IsFirst (matchesUtc parsed) t last e) (hlt : dayOf t < dayOf e)
    (hmonth : monthOk parsed t = true) (hday : dayOkAt parsed t = true) : t % msPerDay ≠ 0 := by
  intro hmidnight
  have hdayOf : dayOf (t + e % msPerDay) = dayOf t := by
    simp only [dayOf, msPerDay] at *
    omega
  have hhours : getUTCHours (t + e % msPerDay) = getUTCHours e := by
    simp only [getUTCHours, msPerDay, msPerHour] at *
    omega
  have hminutes : getUTCMinutes (t + e % msPerDay) = getUTCMinutes e := by
    simp only [getUTCMinutes, msPerDay, msPerMinute] at *
    omega
  have hcheck : matchesUtc parsed (t + e % msPerDay) = true := by
    have he := hfirst.holds
    simp only [matchesUtc, Bool.and_eq_true] at he ⊢
    refine ⟨⟨⟨?_, ?_⟩, ?_⟩, ?_⟩
    · rw [monthOk_congr hdayOf, hmonth]
    · rw [dayOkAt_congr hdayOf, hday]
    · unfold hourOk
      rw [hhours]
      exact he.1.2
    · unfold minuteOk
      rw [hminutes]
      exact he.2
  have hnot := hfirst.first (t + e % msPerDay) ?_ ?_ ?_
  · rw [hcheck] at hnot
    cases hnot
  · simp only [msPerDay]
    omega
  · simp only [dayOf, msPerDay] at *
    omega
  · have he := hfirst.isMinute
    simp only [IsMinute, msPerDay, msPerMinute] at *
    omega

def cost (e t : Int) : Nat :=
  if dayOf t = dayOf e then ((e - t) / msPerMinute).toNat
  else (dayOf e - dayOf t).toNat + 1440
    + if t % msPerDay = 0 then 0 else ((msPerDay - t % msPerDay) / msPerMinute).toNat

theorem IsFirst.jump_le {last e : Int} (hfirst : IsFirst (matchesUtc parsed) t last e) (ht : IsMinute t)
    (hmatches : matchesUtc parsed t = false) : jump parsed t ≤ e := by
  by_contra hlt
  have hnot := not_matchesUtc_of_lt_jump ht hmatches hfirst.isMinute hfirst.le (not_le.mp hlt)
  rw [hfirst.holds] at hnot
  cases hnot

theorem IsFirst.cost_jump_lt {last e : Int} (hfirst : IsFirst (matchesUtc parsed) t last e) (ht : IsMinute t)
    (hmatches : matchesUtc parsed t = false) : cost e (jump parsed t) < cost e t := by
  have hlt := lt_jump parsed t
  have hle := hfirst.jump_le ht hmatches
  have hminute : IsMinute (jump parsed t) := isMinute_jump ht
  have he := hfirst.isMinute
  obtain ⟨hcross, hsame⟩ := jump_spec parsed ht
  have hentered : dayOf t < dayOf e → dayOf (jump parsed t) = dayOf t → t % msPerDay ≠ 0 := fun hbefore hstays =>
    hfirst.midnight hbefore (hsame hstays).1 (hsame hstays).2
  generalize jump parsed t = u at *
  unfold cost
  split <;> split <;> try split
  all_goals try split
  all_goals
    simp only [IsMinute, dayOf, msPerDay, msPerMinute] at *
    omega

theorem searchUtc_of_isFirst {e : Int} {fuel : Nat} (hdate : IsDate t) (ht : IsMinute t)
    (hrange : ¬ LeavesRange parsed t) (hfirst : IsFirst (matchesUtc parsed) t maxTime e) (hfuel : cost e t < fuel) :
    searchUtc parsed fuel (some t) = some (some e) := by
  induction fuel generalizing t with
  | zero => exact absurd hfuel (Nat.not_lt_zero _)
  | succ fuel ih =>
      by_cases hmatches : matchesUtc parsed t = true
      · have hself : IsFirst (matchesUtc parsed) t t t := ⟨le_refl t, le_refl t, ht, hmatches, fun _ hle hlt => by omega⟩
        rw [searchUtc_of_matches hmatches, hself.unique hfirst]
      · rw [Bool.not_eq_true] at hmatches
        have hjump := lt_jump parsed t
        have hle := hfirst.jump_le ht hmatches
        have hnext : IsDate (jump parsed t) := ⟨hdate.1.trans hjump.le, hle.trans hfirst.le_last⟩
        rw [searchUtc_jump hdate ht hmatches hrange, timeClip_of_isDate hnext]
        refine ih hnext (isMinute_jump ht) (not_leavesRange_jump ht) ?_ ?_
        · exact ⟨hle, hfirst.le_last, hfirst.isMinute, hfirst.holds, fun earlier hearlier hlt hminute =>
            hfirst.first earlier (hjump.le.trans hearlier) hlt hminute⟩
        · have hcost := hfirst.cost_jump_lt ht hmatches
          omega

theorem matchesUtc_add_cycle (parsed : ParsedCronExpr) (m : Int) :
    matchesUtc parsed (m + cycle * msPerDay) = matchesUtc parsed m := by
  have hday : dayOf (m + cycle * msPerDay) = dayOf m + cycle := by
    simp only [dayOf, cycle, msPerDay]
    omega
  have hhours : getUTCHours (m + cycle * msPerDay) = getUTCHours m := by
    simp only [getUTCHours, cycle, msPerDay, msPerHour]
    omega
  have hminutes : getUTCMinutes (m + cycle * msPerDay) = getUTCMinutes m := by
    simp only [getUTCMinutes, cycle, msPerDay, msPerMinute]
    omega
  unfold matchesUtc monthOk dayOkAt hourOk minuteOk getUTCMonth getUTCDate getUTCDay
  rw [hday, hhours, hminutes, monthFromDay_add_cycle, dateFromDay_add_cycle, weekDay_add_cycle]

theorem IsFirst.lt_cycle {last e : Int} (hfirst : IsFirst (matchesUtc parsed) t last e) :
    e < t + cycle * msPerDay := by
  by_contra hle
  have hback := matchesUtc_add_cycle parsed (e - cycle * msPerDay)
  rw [sub_add_cancel, hfirst.holds] at hback
  have hnot := hfirst.first (e - cycle * msPerDay) (by omega) ?_ ?_
  · rw [← hback] at hnot
    cases hnot
  · simp only [cycle, msPerDay]
    omega
  · have he := hfirst.isMinute
    simp only [IsMinute, cycle, msPerDay, msPerMinute] at *
    omega

theorem searchUtc_maxIter {e : Int} (hdate : IsDate t) (ht : IsMinute t) (hrange : ¬ LeavesRange parsed t)
    (hfirst : IsFirst (matchesUtc parsed) t maxTime e) : searchUtc parsed maxIter (some t) = some (some e) := by
  refine searchUtc_of_isFirst hdate ht hrange hfirst ?_
  have hle := hfirst.le
  have hlt := hfirst.lt_cycle
  unfold cost maxIter
  split <;> try split
  all_goals
    simp only [IsMinute, dayOf, cycle, msPerDay, msPerMinute] at *
    omega

/-! ### The search in a time zone -/

theorem searchLocal_none {localDateTime : Int → LocalDateTime} (fuel : Nat) :
    searchLocal parsed localDateTime fuel none ≠ .ok (some m) := by
  cases fuel <;> simp [searchLocal]

/-- The search in a time zone finds the first match among its minutes. -/
theorem searchLocal_eq_ok_iff {localDateTime : Int → LocalDateTime} {fuel : Nat} (hdate : IsDate t) (ht : IsMinute t) :
    searchLocal parsed localDateTime fuel (some t) = .ok (some m)
      ↔ IsFirst (fun m => parsed.matchesLocal (localDateTime m)) t maxTime m ∧ m < t + msPerMinute * fuel := by
  induction fuel generalizing t with
  | zero =>
      constructor
      · intro hnone
        cases hnone
      · rintro ⟨hfirst, hlt⟩
        have hle := hfirst.le
        simp only [msPerMinute] at hlt
        omega
  | succ fuel ih =>
      rw [searchLocal]
      by_cases hmatches : parsed.matchesLocal (localDateTime t) = true
      · have hself : IsFirst (fun m => parsed.matchesLocal (localDateTime m)) t maxTime t :=
          ⟨le_refl t, hdate.2, ht, hmatches, fun _ hle hlt => by omega⟩
        rw [if_pos hmatches]
        constructor
        · intro hfound
          obtain rfl := Option.some.inj (Except.ok.inj hfound)
          refine ⟨hself, ?_⟩
          simp only [msPerMinute]
          omega
        · rintro ⟨hfirst, -⟩
          rw [hself.unique hfirst]
      · rw [if_neg hmatches, setUTCMinutes_succ ht]
        rw [Bool.not_eq_true] at hmatches
        have hafter {m : Int} (hfirst : IsFirst (fun m => parsed.matchesLocal (localDateTime m)) t maxTime m) :
            t + msPerMinute ≤ m := by
          have hle := hfirst.le
          have hne : m ≠ t := by
            rintro rfl
            rw [hfirst.holds] at hmatches
            cases hmatches
          have hminute := hfirst.isMinute
          simp only [IsMinute, msPerMinute] at *
          omega
        by_cases hin : t + msPerMinute ≤ maxTime
        · have hnext : IsDate (t + msPerMinute) := by
            simp only [IsDate, maxTime, msPerMinute] at *
            omega
          have hminute : IsMinute (t + msPerMinute) := by
            simp only [IsMinute, msPerMinute] at *
            omega
          rw [timeClip_of_isDate hnext, ih hnext hminute]
          refine and_congr ?_ ?_
          · constructor
            · intro hfirst
              refine ⟨?_, hfirst.le_last, hfirst.isMinute, hfirst.holds, fun earlier hle hlt hearlier => ?_⟩
              · have hle := hfirst.le
                simp only [msPerMinute] at hle
                omega
              · obtain rfl | hne := eq_or_ne earlier t
                · exact hmatches
                · refine hfirst.first earlier ?_ hlt hearlier
                  simp only [IsMinute, msPerMinute] at *
                  omega
            · intro hfirst
              refine ⟨hafter hfirst, hfirst.le_last, hfirst.isMinute, hfirst.holds, fun earlier hle hlt hearlier => ?_⟩
              refine hfirst.first earlier ?_ hlt hearlier
              simp only [msPerMinute] at hle
              omega
          · simp only [msPerMinute]
            omega
        · rw [timeClip_of_lt (not_le.mp hin)]
          constructor
          · intro hfound
            exact absurd hfound (searchLocal_none fuel)
          · rintro ⟨hfirst, -⟩
            exact absurd ((hafter hfirst).trans hfirst.le_last) hin

def utcFields (m : Int) : LocalDateTime :=
  ⟨getUTCFullYear m, getUTCMonth m + 1, getUTCDate m, getUTCHours m, getUTCMinutes m⟩

def HasTwoDigitYear (m : Int) : Prop := 0 ≤ getUTCFullYear m ∧ getUTCFullYear m ≤ 99

theorem dateUTC_fields (hdate : IsDate m) (hyear : ¬ HasTwoDigitYear m) :
    dateUTC (getUTCFullYear m) (getUTCMonth m + 1 - 1) (getUTCDate m) = some (dayOf m * msPerDay) := by
  have hmonth : getUTCMonth m + 1 - 1 = getUTCMonth m := by omega
  have hday : makeDay (getUTCFullYear m) (getUTCMonth m) (getUTCDate m) = dayOf m := by
    unfold getUTCFullYear getUTCMonth getUTCDate
    rw [makeDay_fields]
    omega
  have hmidnight : IsDate (dayOf m * msPerDay) := by
    simp only [IsDate, dayOf, maxTime, msPerDay] at *
    omega
  have hcentury : ¬ (0 ≤ getUTCFullYear m ∧ getUTCFullYear m ≤ 99) := hyear
  unfold dateUTC makeDate
  rw [if_neg hcentury, hmonth, hday, ← timeClip_of_isDate hmidnight]
  congr 1
  omega

theorem matchesLocal_utcFields (hdate : IsDate m) (hyear : ¬ HasTwoDigitYear m) :
    parsed.matchesLocal (utcFields m) = matchesUtc parsed m := by
  have hdow : getUTCDay (dayOf m * msPerDay) = getUTCDay m := by
    simp only [getUTCDay, dayOf, weekDay, msPerDay]
    omega
  unfold ParsedCronExpr.matchesLocal matchesUtc monthOk dayOkAt hourOk minuteOk utcFields
  dsimp only
  rw [dateUTC_fields hdate hyear, Option.map_some, hdow]

/-! ### The next run -/

section NextRun

variable {formatter : String → Except String (Int → LocalDateTime)} {expr : String}

theorem nextRun_eq_ok_iff (hparse : parseCronExpr expr = .ok parsed) {start found : Option Int} :
    nextRun formatter expr start none = .ok found ↔ searchUtc parsed maxIter (firstMinute start) = some found := by
  unfold nextRun
  rw [hparse]
  change (searchUtc parsed maxIter (firstMinute start)).elim _ _ = _ ↔ _
  cases searchUtc parsed maxIter (firstMinute start) with
  | none => simp
  | some result => simp

theorem nextRun_timezone_eq_ok_iff (hparse : parseCronExpr expr = .ok parsed) {timezone : String}
    {localDateTime : Int → LocalDateTime} (hformatter : formatter timezone = .ok localDateTime)
    {start found : Option Int} :
    nextRun formatter expr start (some timezone) = .ok found
      ↔ ∃ m, found = some m ∧ searchLocal parsed localDateTime maxIter (firstMinute start) = .ok (some m) := by
  unfold nextRun
  rw [hparse]
  change nextRunInTimezone formatter parsed expr start timezone = _ ↔ _
  unfold nextRunInTimezone
  rw [hformatter]
  change (searchLocal parsed localDateTime maxIter (firstMinute start)).bind _ = _ ↔ _
  cases searchLocal parsed localDateTime maxIter (firstMinute start) with
  | error error => simp [Except.bind]
  | ok result =>
      cases result with
      | none => simp [Except.bind]
      | some m => simp [Except.bind, eq_comm]

/-- What the next run is for. -/
structure NextRunCorrect (formatter : String → Except String (Int → LocalDateTime)) (expr : String)
    (parsed : ParsedCronExpr) (now : Int) : Prop where
  earliest : ∀ found, nextRun formatter expr (some now) none = .ok found → ∃ t, found = some t ∧ now < t
    ∧ IsMinute t ∧ Satisfies parsed t ∧ ∀ m, now < m → m < t → IsMinute m → ¬ Satisfies parsed m
  returns : ∀ m, now < m → m ≤ now + 366 * msPerDay → IsDate m → IsMinute m → Satisfies parsed m →
    ∃ found, nextRun formatter expr (some now) none = .ok found
  agrees : ∀ found, nextRun formatter expr (some now) (some "UTC") = .ok found
    ↔ nextRun formatter expr (some now) none = .ok found

def InWindow (now m : Int) : Prop :=
  now < m ∧ m < nextMinute now + msPerMinute * maxIter ∧ m ≤ maxTime ∧ IsMinute m

/-- There is a date left to search or a field to fail, the jump to the last midnight stays in the range of dates
where that midnight matches, no match lies past those that the search in a time zone looks at unless one of these
matches, and none of these up to the first match has its day of the week taken from another century. -/
structure Searchable (parsed : ParsedCronExpr) (now : Int) : Prop where
  dated : AllStar parsed → nextMinute now ≤ maxTime
  midnight : LeavesRange parsed (nextMinute now) → ¬ Satisfies parsed maxTime
  near : ∀ m, now < m → m ≤ maxTime → IsMinute m → Satisfies parsed m → ∃ m', InWindow now m' ∧ Satisfies parsed m'
  weekday : ∀ m, InWindow now m → HasTwoDigitYear m →
    (∀ earlier, now < earlier → earlier < m → IsMinute earlier → ¬ Satisfies parsed earlier) →
    (parsed.matchesLocal (utcFields m) = true ↔ Satisfies parsed m)

section Condition

variable (hnow : IsDate now)
include hnow

theorem firstMinute_of_le (hle : nextMinute now ≤ maxTime) :
    firstMinute (some now) = some (nextMinute now) ∧ IsDate (nextMinute now) := by
  have hdate : IsDate (nextMinute now) := ⟨neg_maxTime_le_nextMinute hnow, hle⟩
  exact ⟨(firstMinute_eq hnow).trans (timeClip_of_isDate hdate), hdate⟩

theorem firstMinute_of_lt (hlt : maxTime < nextMinute now) : firstMinute (some now) = none :=
  (firstMinute_eq hnow).trans (timeClip_of_lt hlt)

theorem isFirst_of_nextRun (hparse : parseCronExpr expr = .ok parsed) (hle : nextMinute now ≤ maxTime)
    {found : Option Int} (hfound : nextRun formatter expr (some now) none = .ok found) :
    ∃ t, found = some t ∧ IsFirst (matchesUtc parsed) (nextMinute now) maxTime t := by
  obtain ⟨hfirst, hdate⟩ := firstMinute_of_le hnow hle
  rw [nextRun_eq_ok_iff hparse, hfirst] at hfound
  exact isFirst_of_searchUtc hdate (isMinute_nextMinute now) hfound

theorem nextRun_of_isFirst (hparse : parseCronExpr expr = .ok parsed)
    (hmidnight : LeavesRange parsed (nextMinute now) → ¬ Satisfies parsed maxTime)
    (hfirst : IsFirst (matchesUtc parsed) (nextMinute now) maxTime t) :
    nextRun formatter expr (some now) none = .ok (some t) := by
  obtain ⟨hminute, hdate⟩ := firstMinute_of_le hnow (hfirst.le.trans hfirst.le_last)
  rw [nextRun_eq_ok_iff hparse, hminute]
  refine searchUtc_maxIter hdate (isMinute_nextMinute now) (fun hleaves => ?_) hfirst
  -- No minute of the day before the last instant matches, and the next one is the last instant.
  have hlast : t = maxTime := by
    by_contra hne
    have hsame : dayOf t = dayOf (nextMinute now) := by
      have hday := hleaves.1
      have hle := hfirst.le
      have hle_last := hfirst.le_last
      simp only [dayOf, maxTime, msPerDay] at *
      omega
    have hcheck := hfirst.holds
    unfold matchesUtc at hcheck
    rw [dayOkAt_congr hsame, hleaves.2.2.2, Bool.and_false] at hcheck
    cases hcheck
  rw [hlast] at hfirst
  exact hmidnight hleaves (matchesUtc_iff.mp hfirst.holds)

theorem nextRun_timezone_iff (hparse : parseCronExpr expr = .ok parsed) {timezone : String}
    {localDateTime : Int → LocalDateTime} (hformatter : formatter timezone = .ok localDateTime)
    {found : Option Int} :
    nextRun formatter expr (some now) (some timezone) = .ok found ↔ ∃ t, found = some t ∧ InWindow now t
      ∧ IsFirst (fun m => parsed.matchesLocal (localDateTime m)) (nextMinute now) maxTime t := by
  rw [nextRun_timezone_eq_ok_iff hparse hformatter]
  obtain hle | hlt := le_or_gt (nextMinute now) maxTime
  · obtain ⟨hfirst, hdate⟩ := firstMinute_of_le hnow hle
    rw [hfirst]
    refine exists_congr fun t => and_congr_right fun _ => ?_
    rw [searchLocal_eq_ok_iff hdate (isMinute_nextMinute now)]
    constructor
    · rintro ⟨hfirst, hlt⟩
      exact ⟨⟨(nextMinute_le_iff hfirst.isMinute).mp hfirst.le, hlt, hfirst.le_last, hfirst.isMinute⟩, hfirst⟩
    · rintro ⟨hwindow, hfirst⟩
      exact ⟨hfirst, hwindow.2.1⟩
  · rw [firstMinute_of_lt hnow hlt]
    constructor
    · rintro ⟨t, -, hfound⟩
      exact absurd hfound (searchLocal_none _)
    · rintro ⟨t, -, -, hfirst⟩
      exact absurd (hfirst.le.trans hfirst.le_last) (not_le.mpr hlt)

end Condition

theorem isFirst_iff : IsFirst (matchesUtc parsed) (nextMinute now) maxTime t ↔ now < t ∧ t ≤ maxTime ∧ IsMinute t
    ∧ Satisfies parsed t ∧ ∀ m, now < m → m < t → IsMinute m → ¬ Satisfies parsed m := by
  constructor
  · intro hfirst
    refine ⟨(nextMinute_le_iff hfirst.isMinute).mp hfirst.le, hfirst.le_last, hfirst.isMinute,
      matchesUtc_iff.mp hfirst.holds, fun m hlt hbefore hminute hsatisfies => ?_⟩
    have hnot := hfirst.first m ((nextMinute_le_iff hminute).mpr hlt) hbefore hminute
    rw [matchesUtc_iff.mpr hsatisfies] at hnot
    cases hnot
  · rintro ⟨hlt, hle, hminute, hsatisfies, hfirst⟩
    refine ⟨(nextMinute_le_iff hminute).mpr hlt, hle, hminute, matchesUtc_iff.mpr hsatisfies,
      fun m hle hbefore hminute => ?_⟩
    rw [← Bool.not_eq_true, matchesUtc_iff]
    exact hfirst m ((nextMinute_le_iff hminute).mp hle) hbefore hminute

theorem Searchable.matchesLocal_iff (hsearch : Searchable parsed now) (hnow : IsDate now) (hwindow : InWindow now m)
    (hearlier : ∀ earlier, now < earlier → earlier < m → IsMinute earlier → ¬ Satisfies parsed earlier) :
    parsed.matchesLocal (utcFields m) = true ↔ Satisfies parsed m := by
  by_cases hyear : HasTwoDigitYear m
  · exact hsearch.weekday m hwindow hyear hearlier
  · have hdate : IsDate m := ⟨hnow.1.trans hwindow.1.le, hwindow.2.2.1⟩
    rw [matchesLocal_utcFields hdate hyear, matchesUtc_iff]

theorem Searchable.isFirst_local_iff (hsearch : Searchable parsed now) (hnow : IsDate now) (hwindow : InWindow now t) :
    IsFirst (fun m => parsed.matchesLocal (utcFields m)) (nextMinute now) maxTime t
      ↔ IsFirst (matchesUtc parsed) (nextMinute now) maxTime t := by
  have hinside {m : Int} (hlt : now < m) (hle : m ≤ t) (hminute : IsMinute m) : InWindow now m :=
    ⟨hlt, hle.trans_lt hwindow.2.1, hle.trans hwindow.2.2.1, hminute⟩
  constructor
  · intro hlocal
    have hnone : ∀ m, now < m → m < t → IsMinute m → ¬ Satisfies parsed m := by
      intro m hlt hbefore hminute hsatisfies
      obtain ⟨e, he, hle⟩ := exists_isFirst _ (isMinute_nextMinute now) ((nextMinute_le_iff hminute).mpr hlt)
        (hbefore.le.trans hlocal.le_last) hminute (matchesUtc_iff.mpr hsatisfies)
      obtain ⟨hafter, -, heMinute, heSatisfies, hearlier⟩ := isFirst_iff.mp he
      have hcheck := (hsearch.matchesLocal_iff hnow (hinside hafter (hle.trans hbefore.le) heMinute) hearlier).mpr
        heSatisfies
      have hnot := hlocal.first e he.le (hle.trans_lt hbefore) heMinute
      rw [hcheck] at hnot
      cases hnot
    exact isFirst_iff.mpr ⟨hwindow.1, hwindow.2.2.1, hwindow.2.2.2,
      (hsearch.matchesLocal_iff hnow hwindow hnone).mp hlocal.holds, hnone⟩
  · intro hfirst
    obtain ⟨hlt, hle, hminute, hsatisfies, hnone⟩ := isFirst_iff.mp hfirst
    refine ⟨hfirst.le, hle, hminute, (hsearch.matchesLocal_iff hnow hwindow hnone).mpr hsatisfies,
      fun m hle hbefore hminute => ?_⟩
    have hafter := (nextMinute_le_iff hminute).mp hle
    rw [← Bool.not_eq_true, hsearch.matchesLocal_iff hnow (hinside hafter hbefore.le hminute)
      fun earlier hlt hbefore' => hnone earlier hlt (hbefore'.trans hbefore)]
    exact hnone m hafter hbefore hminute

theorem Searchable.nextRunCorrect (hsearch : Searchable parsed now) (hparse : parseCronExpr expr = .ok parsed)
    (hnow : IsDate now) (hformatter : formatter "UTC" = .ok utcFields) :
    NextRunCorrect formatter expr parsed now := by
  have hfirst {found : Option Int} (hfound : nextRun formatter expr (some now) none = .ok found) :
      ∃ t, found = some t ∧ IsFirst (matchesUtc parsed) (nextMinute now) maxTime t := by
    refine isFirst_of_nextRun hnow hparse ?_ hfound
    by_contra hlt
    rw [nextRun_eq_ok_iff hparse, firstMinute_of_lt hnow (not_le.mp hlt)] at hfound
    obtain hnone | hall := searchUtc_none parsed maxIter
    · rw [hnone] at hfound
      cases hfound
    · exact hlt (hsearch.dated hall)
  refine ⟨fun found hfound => ?_, fun m hlt _ hdate hminute hsatisfies => ?_, fun found => ?_⟩
  · obtain ⟨t, rfl, hfirst⟩ := hfirst hfound
    obtain ⟨hlt, -, hminute, hsatisfies, hnone⟩ := isFirst_iff.mp hfirst
    exact ⟨t, rfl, hlt, hminute, hsatisfies, hnone⟩
  · obtain ⟨e, he, -⟩ := exists_isFirst _ (isMinute_nextMinute now) ((nextMinute_le_iff hminute).mpr hlt)
      hdate.2 hminute (matchesUtc_iff.mpr hsatisfies)
    exact ⟨some e, nextRun_of_isFirst hnow hparse hsearch.midnight he⟩
  · rw [nextRun_timezone_iff hnow hparse hformatter]
    constructor
    · rintro ⟨t, rfl, hwindow, hlocal⟩
      exact nextRun_of_isFirst hnow hparse hsearch.midnight ((hsearch.isFirst_local_iff hnow hwindow).mp hlocal)
    · intro hfound
      obtain ⟨t, rfl, hfirst⟩ := hfirst hfound
      obtain ⟨hlt, hle, hminute, hsatisfies, hnone⟩ := isFirst_iff.mp hfirst
      obtain ⟨m, hwindow, hm⟩ := hsearch.near t hlt hle hminute hsatisfies
      have hbefore : t ≤ m := by
        by_contra hafter
        exact hnone m hwindow.1 (not_le.mp hafter) hwindow.2.2.2 hm
      have hwindow : InWindow now t := ⟨hlt, hbefore.trans_lt hwindow.2.1, hle, hminute⟩
      exact ⟨t, rfl, hwindow, (hsearch.isFirst_local_iff hnow hwindow).mpr hfirst⟩

theorem NextRunCorrect.searchable (hcorrect : NextRunCorrect formatter expr parsed now)
    (hparse : parseCronExpr expr = .ok parsed) (hnow : IsDate now) (hformatter : formatter "UTC" = .ok utcFields) :
    Searchable parsed now := by
  have hmidnight : LeavesRange parsed (nextMinute now) → ¬ Satisfies parsed maxTime := by
    intro hleaves hsatisfies
    have hle : nextMinute now ≤ maxTime ∧ now < maxTime ∧ maxTime ≤ now + 366 * msPerDay := by
      have hday := hleaves.1
      simp only [nextMinute, dayOf, maxTime, msPerDay, msPerMinute] at *
      omega
    obtain ⟨found, hfound⟩ := hcorrect.returns maxTime hle.2.1 hle.2.2
      ⟨by decide, le_refl maxTime⟩ (by unfold IsMinute; decide) hsatisfies
    have hnotStar : ¬ AllStar parsed := by
      intro hall
      have hmatches := matchesUtc_of_allStar hall (nextMinute now)
      unfold matchesUtc at hmatches
      rw [hleaves.2.2.2, Bool.and_false] at hmatches
      cases hmatches
    obtain ⟨hfirst, -⟩ := firstMinute_of_le hnow hle.1
    rw [nextRun_eq_ok_iff hparse, hfirst, show maxIter = 527039 + 1 from rfl, searchUtc_leavesRange hleaves,
      (searchUtc_none parsed _).resolve_right hnotStar] at hfound
    cases hfound
  refine ⟨fun hall => ?_, hmidnight, fun m hlt hle hminute hsatisfies => ?_, fun m hwindow _ hearlier => ?_⟩
  · by_contra hlt
    have hfound : nextRun formatter expr (some now) none = .ok none := by
      rw [nextRun_eq_ok_iff hparse, firstMinute_of_lt hnow (not_le.mp hlt)]
      exact searchUtc_succ_none_of_allStar hall 527039
    obtain ⟨t, hnone, -⟩ := hcorrect.earliest none hfound
    cases hnone
  · obtain ⟨e, he, -⟩ := exists_isFirst _ (isMinute_nextMinute now) ((nextMinute_le_iff hminute).mpr hlt) hle hminute
      (matchesUtc_iff.mpr hsatisfies)
    have hfound := (hcorrect.agrees _).mpr (nextRun_of_isFirst hnow hparse hmidnight he)
    obtain ⟨t, heq, hwindow, -⟩ := (nextRun_timezone_iff hnow hparse hformatter).mp hfound
    obtain rfl := Option.some.inj heq
    exact ⟨e, hwindow, matchesUtc_iff.mp he.holds⟩
  · constructor
    · intro hmatches
      obtain ⟨e, he, hle⟩ := exists_isFirst (fun m => parsed.matchesLocal (utcFields m)) (isMinute_nextMinute now)
        ((nextMinute_le_iff hwindow.2.2.2).mpr hwindow.1) hwindow.2.2.1 hwindow.2.2.2 hmatches
      have hbefore : now < e := (nextMinute_le_iff he.isMinute).mp he.le
      have hinside : InWindow now e := ⟨hbefore, hle.trans_lt hwindow.2.1, he.le_last, he.isMinute⟩
      have hfound := (hcorrect.agrees _).mp ((nextRun_timezone_iff hnow hparse hformatter).mpr ⟨e, rfl, hinside, he⟩)
      obtain ⟨t, heq, -, -, hsatisfies, -⟩ := hcorrect.earliest _ hfound
      obtain rfl := Option.some.inj heq
      obtain hlt | rfl := lt_or_eq_of_le hle
      · exact absurd hsatisfies (hearlier e hbefore hlt he.isMinute)
      · exact hsatisfies
    · intro hsatisfies
      have hfirst := isFirst_iff.mpr ⟨hwindow.1, hwindow.2.2.1, hwindow.2.2.2, hsatisfies, hearlier⟩
      have hfound := (hcorrect.agrees _).mpr (nextRun_of_isFirst hnow hparse hmidnight hfirst)
      obtain ⟨t, heq, -, hlocal⟩ := (nextRun_timezone_iff hnow hparse hformatter).mp hfound
      obtain rfl := Option.some.inj heq
      exact hlocal.holds

/-- The next run is the earliest match, with and without the time zone UTC, exactly where the searches stay within the
range of dates and a match within reach of both decides. -/
theorem nextRunCorrect_iff (hparse : parseCronExpr expr = .ok parsed) (hnow : IsDate now)
    (hformatter : formatter "UTC" = .ok utcFields) :
    NextRunCorrect formatter expr parsed now ↔ Searchable parsed now :=
  ⟨fun hcorrect => hcorrect.searchable hparse hnow hformatter,
    fun hsearch => hsearch.nextRunCorrect hparse hnow hformatter⟩

def utcOnly (timezone : String) : Except String (Int → LocalDateTime) :=
  if timezone = "UTC" then .ok utcFields else .error "Invalid time zone specified"

def weekdayMornings : ParsedCronExpr :=
  ⟨"*/15".toList, "8-11/2".toList, "*".toList, "*".toList, "1-5".toList⟩

theorem parseCronExpr_weekdayMornings : parseCronExpr "*/15 8-11/2 * * 1-5" = .ok weekdayMornings := by
  decide +kernel

theorem not_hasTwoDigitYear (hpositive : 0 ≤ m) : ¬ HasTwoDigitYear m := by
  rintro ⟨-, hyear⟩
  obtain ⟨-, hlast⟩ := yearFromDay_spec (dayOf m)
  have hbefore : dayFromYear (yearFromDay (dayOf m) + 1) ≤ dayFromYear 100 := by
    obtain heq | hlt := eq_or_lt_of_le (Int.add_le_add_right hyear 1)
    · exact le_of_eq (congrArg dayFromYear heq)
    · exact (dayFromYear_lt hlt).le
  have hepoch : dayFromYear 100 < 0 := by decide
  have hday : 0 ≤ dayOf m := by
    simp only [dayOf, msPerDay]
    omega
  omega

theorem searchable_weekdayMornings : Searchable weekdayMornings 1740787200000 := by
  refine ⟨fun _ => by decide, fun hleaves => ?_, fun m _ _ _ _ => ?_, fun m hwindow hyear => ?_⟩
  · exact absurd hleaves.1 (by decide)
  · refine ⟨1740988800000, ⟨by decide, by decide, by decide, by unfold IsMinute; decide⟩, ?_⟩
    exact matchesUtc_iff.mp (by decide +kernel)
  · have hlt := hwindow.1
    exact absurd hyear (not_hasTwoDigitYear (by omega))

theorem nextRunCorrect_iff_weekdayMornings :
    NextRunCorrect utcOnly "*/15 8-11/2 * * 1-5" weekdayMornings 1740787200000 :=
  (nextRunCorrect_iff parseCronExpr_weekdayMornings ⟨by decide, by decide⟩ rfl).mpr searchable_weekdayMornings

def leapDays : ParsedCronExpr := ⟨"0".toList, "0".toList, "29".toList, "2".toList, "*".toList⟩

theorem parseCronExpr_leapDays : parseCronExpr "0 0 29 2 *" = .ok leapDays := by
  decide +kernel

theorem not_leapDays_of_window (hwindow : InWindow 1740787200000 m) : ¬ Satisfies leapDays m := by
  have hnone : (List.range 367).all (fun days => !(monthOk leapDays ((20148 + days) * msPerDay)
      && dayOkAt leapDays ((20148 + days) * msPerDay))) = true := by decide +kernel
  intro hsatisfies
  obtain ⟨hlow, hhigh, -, -⟩ := hwindow
  have hday : ∃ days : Nat, days < 367 ∧ dayOf m = 20148 + days := by
    refine ⟨(dayOf m - 20148).toNat, ?_⟩
    simp only [nextMinute, maxIter, dayOf, msPerDay, msPerMinute] at *
    omega
  obtain ⟨days, hdays, hday⟩ := hday
  have hsame : dayOf m = dayOf ((20148 + days) * msPerDay) := by
    rw [hday]
    simp only [dayOf, msPerDay]
    omega
  have hmatches := matchesUtc_iff.mpr hsatisfies
  have hnot := List.all_eq_true.mp hnone days (List.mem_range.mpr hdays)
  simp only [matchesUtc, Bool.and_eq_true] at hmatches
  rw [← monthOk_congr hsame, ← dayOkAt_congr hsame, hmatches.1.1.1, hmatches.1.1.2] at hnot
  cases hnot

/-- From March 2025 the next leap day is found in UTC and not in the time zone UTC. -/
theorem not_nextRunCorrect : ¬ NextRunCorrect utcOnly "0 0 29 2 *" leapDays 1740787200000 := by
  intro hcorrect
  have hsearch := hcorrect.searchable parseCronExpr_leapDays ⟨by decide, by decide⟩ rfl
  have hleapDay : Satisfies leapDays 1835395200000 := matchesUtc_iff.mp (by decide +kernel)
  obtain ⟨m, hwindow, hm⟩ := hsearch.near 1835395200000 (by decide) (by decide) (by unfold IsMinute; decide) hleapDay
  exact not_leapDays_of_window hwindow hm

end NextRun

end Deckent.ScheduledFlow
