import Deckent.Lib.Calendar
import Deckent.Model.Js

/-!
# Runs of a scheduled flow

A schedule has five fields, each a list of numbers, ranges and steps. The next run is searched in UTC by jumps of a
month, a day, an hour or a minute, and in a time zone minute by minute. Either search has the same number of turns.

A date is its time value, and `none` is an invalid date; a number that is not one is `none` too. The formatter of a
time zone is a parameter.
-/

namespace Deckent.ScheduledFlow

open Calendar

structure ParsedCronExpr where
  minute : List Char
  hour : List Char
  dayOfMonth : List Char
  month : List Char
  dayOfWeek : List Char
  deriving DecidableEq

/-! ### Numbers in a field -/

def digitsValue (digits : List Char) : Nat := digits.foldl (fun value c => value * 10 + (c.toNat - 48)) 0

/-- `parseInt(text, 10)`. -/
def parseInt (text : List Char) : Option Int :=
  let isNegative := text.head? = some '-'
  let digits := (if isNegative then text.drop 1 else text).takeWhile Char.isDigit
  if digits = [] then none
  else if isNegative then some (-(digitsValue digits : Int))
  else some (digitsValue digits)

def maxNumber : Nat := 2 ^ 1024 - 2 ^ 970

/-- The integer that `Number(text)` is, if it is one, for a text of the characters of a field. -/
def toInteger (text : List Char) : Option Int :=
  if text = [] then some 0
  else
    let isNegative := text.head? = some '-'
    let digits := if isNegative then text.drop 1 else text
    if digits ≠ [] ∧ digits.all Char.isDigit ∧ digitsValue digits < maxNumber then
      some (if isNegative then -(digitsValue digits : Int) else digitsValue digits)
    else none

/-! ### Parsing -/

def isCronField (field : List Char) : Bool :=
  field ≠ [] && field.all fun c => c.isDigit || [',', '-', '*', '/'].contains c

def validatePart (part : List Char) (min max : Int) : Bool :=
  let step := part.splitOn '/'
  ((step.headD []).splitOn '-').all (fun val => val = ['*'] || (toInteger val).any fun n => min ≤ n && n ≤ max)
    && step[1]?.all fun text => (toInteger text).any fun s => 1 ≤ s

def validateField (field : List Char) (min max : Int) : Bool :=
  field = ['*'] || (field.splitOn ',').all fun part => validatePart part min max

def splitSpaces (trimmed : List Char) : List (List Char) :=
  if trimmed = [] then [[]] else (trimmed.splitOnP isJsSpace).filter (· ≠ [])

def requireField (condition : Bool) (message : String) : Except String Unit :=
  if condition then .ok () else .error message

def parseCronExpr (expr : String) : Except String ParsedCronExpr :=
  match splitSpaces (trimChars expr.toList) with
  | [minute, hour, dayOfMonth, month, dayOfWeek] => do
      for field in [minute, hour, dayOfMonth, month, dayOfWeek] do
        requireField (isCronField field)
          ("Invalid cron field \"" ++ String.ofList field ++ "\" in expression \"" ++ expr ++ "\"")
      requireField (validateField minute 0 59) ("Invalid minute field \"" ++ String.ofList minute ++ "\"")
      requireField (validateField hour 0 23) ("Invalid hour field \"" ++ String.ofList hour ++ "\"")
      requireField (validateField dayOfMonth 1 31)
        ("Invalid day-of-month field \"" ++ String.ofList dayOfMonth ++ "\"")
      requireField (validateField month 1 12) ("Invalid month field \"" ++ String.ofList month ++ "\"")
      requireField (validateField dayOfWeek 0 7)
        ("Invalid day-of-week field \"" ++ String.ofList dayOfWeek ++ "\"")
      return ⟨minute, hour, dayOfMonth, month, dayOfWeek⟩
  | fields => .error ("Invalid cron expression \"" ++ expr ++ "\": expected 5 fields, got " ++ toString fields.length)

/-! ### Matching -/

def beforeFirst (sep : Char) (text : List Char) : List Char := text.takeWhile (· ≠ sep)

def afterFirst (sep : Char) (text : List Char) : Option (List Char) :=
  match text.dropWhile (· ≠ sep) with
  | [] => none
  | _ :: rest => some rest

/-- The step of a part, where `none` is one that matches nothing. -/
def stepOf (part : List Char) : Option Int :=
  match afterFirst '/' part with
  | none => some 1
  | some rest => (parseInt rest).filter (1 ≤ ·)

/-- The bounds of a part. The upper one is `none` where it is infinite or no number, so that nothing exceeds it. -/
def boundsOf (base : List Char) (fieldMin : Int) : Option Int × Option Int :=
  if base = ['*'] then (some fieldMin, none)
  else match afterFirst '-' base with
    | some rest => (parseInt (beforeFirst '-' base), parseInt rest)
    | none => (parseInt base, parseInt base)

def matchesPart (part : List Char) (value : Option Int) (fieldMin : Int) : Bool :=
  let bounds := boundsOf (beforeFirst '/' part) fieldMin
  match stepOf part, value, bounds.1 with
  | some step, some value, some lo =>
      !(value < lo) && !bounds.2.any (fun hi => hi < value) && (value - lo) % step = 0
  | _, _, _ => false

def matchesField (field : List Char) (value : Option Int) (fieldMin : Int) : Bool :=
  field = ['*'] || (field.splitOn ',').any fun part => matchesPart part value fieldMin

def matchesDayOfWeek (field : List Char) (jsDay : Option Int) : Bool :=
  field = ['*'] || (field.splitOn ',').any fun part =>
    matchesPart part jsDay 0 || (jsDay = some 0 && matchesPart part (some 7) 0)

def ParsedCronExpr.dayOk (parsed : ParsedCronExpr) (dom dow : Option Int) : Bool :=
  let domWild := parsed.dayOfMonth = ['*']
  let dowWild := parsed.dayOfWeek = ['*']
  if domWild && dowWild then true
  else if domWild then matchesDayOfWeek parsed.dayOfWeek dow
  else if dowWild then matchesField parsed.dayOfMonth dom 1
  else matchesField parsed.dayOfMonth dom 1 || matchesDayOfWeek parsed.dayOfWeek dow

/-! ### Dates -/

def msPerDay : Int := 86400000

def msPerHour : Int := 3600000

def msPerMinute : Int := 60000

def maxTime : Int := 8640000000000000

def timeClip (ms : Int) : Option Int := if -maxTime ≤ ms ∧ ms ≤ maxTime then some ms else none

def dayOf (t : Int) : Int := t / msPerDay

def getUTCHours (t : Int) : Int := t / msPerHour % 24

def getUTCMinutes (t : Int) : Int := t / msPerMinute % 60

def getUTCFullYear (t : Int) : Int := yearFromDay (dayOf t)

def getUTCMonth (t : Int) : Int := monthFromDay (dayOf t)

def getUTCDate (t : Int) : Int := dateFromDay (dayOf t)

def getUTCDay (t : Int) : Int := weekDay (dayOf t)

def makeDate (day hours minutes rest : Int) : Option Int :=
  timeClip (day * msPerDay + (hours * msPerHour + minutes * msPerMinute + rest))

def setUTCSecondsZero (t : Int) : Option Int := makeDate (dayOf t) (getUTCHours t) (getUTCMinutes t) 0

def setUTCMinutes (t minutes : Int) : Option Int := makeDate (dayOf t) (getUTCHours t) minutes (t % msPerMinute)

def setUTCMinutesZero (t minutes : Int) : Option Int := makeDate (dayOf t) (getUTCHours t) minutes 0

def setUTCHoursZero (t hours : Int) : Option Int := makeDate (dayOf t) hours 0 0

def setUTCDate (t date : Int) : Option Int :=
  makeDate (makeDay (getUTCFullYear t) (getUTCMonth t) date) 0 0 (t % msPerDay)

def setUTCMonthFirst (t month : Int) : Option Int :=
  makeDate (makeDay (getUTCFullYear t) month 1) 0 0 (t % msPerDay)

def dateUTC (year month day : Int) : Option Int :=
  makeDate (makeDay (if 0 ≤ year ∧ year ≤ 99 then 1900 + year else year) month day) 0 0 0

/-! ### The searches -/

def maxIter : Nat := 366 * 24 * 60

def firstMinute (start : Option Int) : Option Int :=
  (start.bind setUTCSecondsZero).bind fun t => setUTCMinutes t (getUTCMinutes t + 1)

/-- The loop of `nextRun`. An invalid date stays one. -/
def searchUtc (parsed : ParsedCronExpr) : Nat → Option Int → Option (Option Int)
  | 0, _ => none
  | i + 1, t =>
      if !matchesField parsed.month (t.map fun t => getUTCMonth t + 1) 1 then
        searchUtc parsed i ((t.bind fun t => setUTCMonthFirst t (getUTCMonth t + 1)).bind (setUTCHoursZero · 0))
      else if !parsed.dayOk (t.map getUTCDate) (t.map getUTCDay) then
        searchUtc parsed i ((t.bind fun t => setUTCDate t (getUTCDate t + 1)).bind (setUTCHoursZero · 0))
      else if !matchesField parsed.hour (t.map getUTCHours) 0 then
        searchUtc parsed i (t.bind fun t => setUTCHoursZero t (getUTCHours t + 1))
      else if !matchesField parsed.minute (t.map getUTCMinutes) 0 then
        searchUtc parsed i (t.bind fun t => setUTCMinutesZero t (getUTCMinutes t + 1))
      else some t

structure LocalDateTime where
  year : Int
  month : Int
  day : Int
  hour : Int
  minute : Int
  deriving DecidableEq

def ParsedCronExpr.matchesLocal (parsed : ParsedCronExpr) (localTime : LocalDateTime) : Bool :=
  matchesField parsed.month (some localTime.month) 1
    && parsed.dayOk (some localTime.day)
      ((dateUTC localTime.year (localTime.month - 1) localTime.day).map getUTCDay)
    && matchesField parsed.hour (some localTime.hour) 0 && matchesField parsed.minute (some localTime.minute) 0

/-- The loop of `nextRunInTimezone`. `formatToParts` throws at an invalid date. -/
def searchLocal (parsed : ParsedCronExpr) (localDateTime : Int → LocalDateTime) :
    Nat → Option Int → Except String (Option Int)
  | 0, _ => .ok none
  | _ + 1, none => .error "Invalid time value"
  | i + 1, some candidate =>
      if parsed.matchesLocal (localDateTime candidate) then .ok (some candidate)
      else searchLocal parsed localDateTime i (setUTCMinutes candidate (getUTCMinutes candidate + 1))

section NextRun

-- `new Intl.DateTimeFormat(..)` of a time zone, which throws where there is no such zone.
variable (formatter : String → Except String (Int → LocalDateTime))

def nextRunInTimezone (parsed : ParsedCronExpr) (cronExpr : String) (start : Option Int) (timezone : String) :
    Except String (Option Int) := do
  let localDateTime ← (formatter timezone).mapError fun error =>
    "Invalid timezone \"" ++ timezone ++ "\": " ++ error
  let found ← searchLocal parsed localDateTime maxIter (firstMinute start)
  found.elim
    (.error ("nextRun: no match found within 1 year for cron expression \"" ++ cronExpr ++ "\" in timezone \""
      ++ timezone ++ "\""))
    fun candidate => .ok (some candidate)

def nextRun (cronExpr : String) (start : Option Int) (timezone : Option String) : Except String (Option Int) :=
  (parseCronExpr cronExpr).bind fun parsed =>
    match timezone with
    | some timezone => nextRunInTimezone formatter parsed cronExpr start timezone
    | none => (searchUtc parsed maxIter (firstMinute start)).elim
        (.error ("nextRun: no match found within 1 year for cron expression \"" ++ cronExpr ++ "\"")) .ok

end NextRun

end Deckent.ScheduledFlow
