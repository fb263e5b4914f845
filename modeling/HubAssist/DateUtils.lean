import HubAssist.JsText
import HubAssist.IsoDate

/-! The date helpers of the frontend. What `Date` makes of a text, and the time of day in English,
are open; the clock and the offset of the local time zone come with each call. -/
namespace HubAssist.DateUtils
open JsText IsoDate UtcClock

structure AttendanceRecord where
  memberName : Option JsString
  clockIn : JsString
  clockOut : Option JsString
  date : JsString
  isAnomaly : Option Bool
  anomalyReason : Option JsString
  autoCompleted : Option Bool
  autoCompletedReason : Option JsString

/-- `getTime` of a `Date` made of a text, where nothing stands for `NaN`, and its
`toLocaleTimeString`. -/
structure Dates where
  getTime : JsString → Option ℤ
  toLocaleTimeString : ℤ → JsString

/-- What a row reads of the clock: the time of `new Date()` and that of `Date.now()`. -/
structure Clock where
  today : ℤ
  now : ℤ

structure Duration where
  minutes : ℕ
  formatted : JsString
  isCompleted : Bool

structure Anomaly where
  isAnomaly : Bool
  reason : Option JsString

/-- The text of a literal. -/
def lit (text : String) : JsString := utf16 text.toList

def numberText (n : ℕ) : JsString := lit (toString n)

/-- A string is false when it is missing or empty. -/
def present (s : Option JsString) : Option JsString := s.filter (· ≠ [])

/-- `Math.round(n / d)`. -/
def roundQuotient (n d : ℤ) : ℤ := (2*n+d)/(2*d)

section
variable (dates : Dates) (clock : Clock)

def calculateDuration (clockIn : JsString) (clockOut : Option JsString) : Duration :=
  match dates.getTime clockIn with
  | none => { minutes := 0, formatted := lit "—", isCompleted := false }
  | some start =>
    match present clockOut with
    | none =>
      { minutes := (max 0 (roundQuotient (clock.now-start) 60000)).toNat
        formatted := lit "Active", isCompleted := false }
    | some clockOut =>
      match dates.getTime clockOut with
      | none => { minutes := 0, formatted := lit "Invalid", isCompleted := false }
      | some finish =>
        if finish < start then { minutes := 0, formatted := lit "Invalid", isCompleted := false }
        else
          let mins := (roundQuotient (finish-start) 60000).toNat
          let hours := mins/60
          let remainingMins := mins%60
          { minutes := mins
            formatted :=
              if 0 < hours then
                numberText hours ++ lit "h " ++ numberText remainingMins ++ lit "m"
              else numberText remainingMins ++ lit "m"
            isCompleted := true }

/-- The bounds on the length of a session that has been ended. -/
def lengthAnomaly (record : AttendanceRecord) : Anomaly :=
  if record.clockIn ≠ [] ∧ (present record.clockOut).isSome = true then
    let minutes := (calculateDuration dates clock record.clockIn record.clockOut).minutes
    if 720 < minutes then
      { isAnomaly := true
        reason := some (lit "Excessive session length (" ++
          numberText (roundQuotient minutes 60).toNat ++ lit "h)") }
    else if minutes < 1 then
      { isAnomaly := true, reason := some (lit "Sub-minute session duration") }
    else { isAnomaly := false, reason := none }
  else { isAnomaly := false, reason := none }

def isAnomalyRecord (record : AttendanceRecord) : Anomaly :=
  if record.isAnomaly = some true then
    { isAnomaly := true, reason := some (record.anomalyReason.getD (lit "Flagged anomaly")) }
  else if record.autoCompleted = some true then
    { isAnomaly := true
      reason := some (record.autoCompletedReason.getD
        (lit "Auto-completed due to inactivity")) }
  else if present record.clockOut = none then
    let today := (utf16 (toISOString clock.today)).take 10
    let recordDate := if record.date = [] then record.clockIn.take 10 else record.date
    if recordDate < today then
      { isAnomaly := true, reason := some (lit "Missing clock-out for past date") }
    else lengthAnomaly dates clock record
  else lengthAnomaly dates clock record

def formatTimeLabel (isoStr : Option JsString) : JsString :=
  match (present isoStr).bind dates.getTime with
  | none => lit "—"
  | some d => dates.toLocaleTimeString d

end

/-- `new Date(year, month, day)` in local time, which is ahead of UTC by the offset. Two digits are
a year of the twentieth century, and the month counts from 0. -/
def newLocalDate (offset year month day : ℤ) : ℤ :=
  let year := if 0 ≤ year ∧ year ≤ 99 then 1900+year else year
  dayNumber ⟨year, month+1, day⟩*millisPerDay-offset

/-- `getISOWeek`, on a `Date` that is nothing when it is invalid. -/
def getISOWeek (offset : ℤ) (date : Option ℤ) : ℤ :=
  match date with
  | none => 1
  | some date =>
    let dayNumber := (getUTCDay date+6)%7
    let target := setUTCDate date (getUTCDate date-dayNumber+3)
    let firstThursday := newLocalDate offset (getUTCFullYear target) 0 4
    let firstThursdayDay := (getUTCDay firstThursday+6)%7
    let firstThursday := setUTCDate firstThursday (getUTCDate firstThursday-firstThursdayDay+3)
    1+roundQuotient (target-firstThursday) (86400000*7)

/-- The year of an invalid date is that of the clock. -/
def getISOWeekYear (now : ℤ) (date : Option ℤ) : ℤ :=
  match date with
  | none => getUTCFullYear now
  | some date =>
    let dayNumber := (getUTCDay date+6)%7
    let target := setUTCDate date (getUTCDate date-dayNumber+3)
    getUTCFullYear target

def padStart (length : ℕ) (c : Char) (text : List Char) : List Char :=
  List.replicate (length-text.length) c ++ text

def getISOWeekKey (now offset : ℤ) (date : Option ℤ) : List Char :=
  let year := getISOWeekYear now date
  let week := getISOWeek offset date
  (toString year).toList ++ '-' :: 'W' :: padStart 2 '0' (toString week).toList

structure Bounds where
  start : ℤ
  finish : ℤ
  deriving DecidableEq, Repr

def getISOWeekBounds (date : Option ℤ) : Option Bounds := do
  let date ← date
  let day := (getUTCDay date+6)%7
  let start := setUTCDate date (getUTCDate date-day)
  let start := setUTCTime start 0 0 0 0
  let finish := setUTCDate start (getUTCDate start+6)
  let finish := setUTCTime finish 23 59 59 999
  return { start, finish }

end HubAssist.DateUtils
