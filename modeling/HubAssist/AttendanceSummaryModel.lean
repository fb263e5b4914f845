import HubAssist.AttendanceModel
import HubAssist.Checks
import HubAssist.GroupTable

/-! `AttendanceService.getAttendanceSummary`: the records are paired into sessions, these are
filtered by a window and counted in buckets of local time. -/
namespace HubAssist.Attendances
open Checks KeyedTable GroupTable

variable {Id : Type}

inductive Period where
  | daily
  | weekly
  | monthly
  deriving DecidableEq, Repr

inductive AnomalyFlag where
  | short
  | long
  deriving DecidableEq, Repr

structure SessionSummary where
  sessionId : String
  userId : String
  clockInUtc : ℤ
  clockOutUtc : ℤ
  durationSeconds : ℤ
  anomaly : Option AnomalyFlag
  deriving DecidableEq

structure Anomalies where
  short : ℕ
  long : ℕ
  deriving DecidableEq

structure BucketEntry where
  bucket : String
  sessions : ℕ
  totalDurationSeconds : ℤ
  avgDurationSeconds : ℤ
  anomalies : Anomalies
  deriving DecidableEq

structure AttendanceSummaryQuery where
  timezone : Option String
  period : Option Period
  startDate : Option String
  endDate : Option String

structure AttendanceSummaryResult where
  timezone : String
  period : Period
  startDate : Option String
  endDate : Option String
  totalSessions : ℕ
  totalDurationSeconds : ℤ
  avgDurationSeconds : ℤ
  peakArrivalHour : Option ℤ
  peakDepartureHour : Option ℤ
  buckets : List BucketEntry
  anomalies : List SessionSummary

/-- The date library and the comparison of texts. A date is its instant in milliseconds, or `none`
where it is not valid; its parts are those in a zone. -/
structure Luxon where
  isValidIANAZone : String → Bool
  fromISO : String → String → Option ℤ
  now : ℤ
  minusDays : String → ℤ → ℕ → ℤ
  toISO : String → ℤ → String
  toISODate : String → ℤ → String
  weekYear : String → ℤ → ℤ
  weekNumber : String → ℤ → ℤ
  year : String → ℤ → ℤ
  month : String → ℤ → ℤ
  hour : String → ℤ → ℤ
  localeCompare : String → String → ℤ

def anomalyShortSeconds : ℤ := 5*60

def anomalyLongSeconds : ℤ := 14*60*60

/-- What the map of sessions has under a session's identifier. -/
structure SessionPair (Id : Type) where
  sessionId : String
  clockIn : Attendance Id
  clockOut : Option (Attendance Id)

/-- The session that a record belongs to; an empty identifier counts as none. -/
def sessionOf (record : Attendance Id) : Option String := record.sessionId.filter (· ≠ "")

/-- One turn of the loop that pairs the records. -/
def pairRecord (sessionMap : List (SessionPair Id)) (record : Attendance Id) :
    List (SessionPair Id) :=
  match sessionOf record with
  | none => sessionMap
  | some id =>
    match record.action, findRow SessionPair.sessionId sessionMap id with
    | .clockIn, none => save SessionPair.sessionId sessionMap ⟨id, record, none⟩
    | .clockIn, some _ => sessionMap
    | .clockOut, some session =>
      save SessionPair.sessionId sessionMap { session with clockOut := some record }
    | .clockOut, none => sessionMap

def pairRecords (records : List (Attendance Id)) : List (SessionPair Id) :=
  records.foldl pairRecord []

/-- Neither before the start of the window nor after its end; a date that is not valid compares
with nothing. -/
def InWindow (windowStart windowEnd : Option ℤ) (t : ℤ) : Prop :=
  (∀ start ∈ windowStart, ¬t < start) ∧ ∀ stop ∈ windowEnd, ¬stop < t

instance (windowStart windowEnd : Option ℤ) (t : ℤ) :
    Decidable (InWindow windowStart windowEnd t) :=
  inferInstanceAs (Decidable (_ ∧ _))

def anomalyOf (durationSeconds : ℤ) : Option AnomalyFlag :=
  if durationSeconds < anomalyShortSeconds then some .short
  else if anomalyLongSeconds < durationSeconds then some .long
  else none

/-- One turn of the loop over the sessions: the incomplete ones and those outside the window are
skipped. -/
def summarize (windowStart windowEnd : Option ℤ) (pair : SessionPair Id) : Option SessionSummary :=
  match pair.clockOut with
  | none => none
  | some clockOut =>
    if InWindow windowStart windowEnd pair.clockIn.date then
      let durationSeconds := (clockOut.date-pair.clockIn.date)/1000
      some {
        sessionId := pair.sessionId
        userId := pair.clockIn.userId
        clockInUtc := pair.clockIn.date
        clockOutUtc := clockOut.date
        durationSeconds := durationSeconds
        anomaly := anomalyOf durationSeconds }
    else none

def sessionsOf (windowStart windowEnd : Option ℤ) (records : List (Attendance Id)) :
    List SessionSummary :=
  (pairRecords records).filterMap (summarize windowStart windowEnd)

/-- `padStart(2, '0')`. -/
def padStart2 (n : ℤ) : String :=
  if (toString n).length < 2 then "0" ++ toString n else toString n

def toBucketKey (luxon : Luxon) (timezone : String) (period : Period) (t : ℤ) : String :=
  match period with
  | .daily => luxon.toISODate timezone t
  | .weekly => toString (luxon.weekYear timezone t) ++ "-W" ++
      padStart2 (luxon.weekNumber timezone t)
  | .monthly => toString (luxon.year timezone t) ++ "-" ++ padStart2 (luxon.month timezone t)

def newBucket (bucket : String) : BucketEntry := ⟨bucket, 0, 0, 0, ⟨0, 0⟩⟩

/-- What a session adds to the entry of its bucket. -/
def BucketEntry.add (entry : BucketEntry) (session : SessionSummary) : BucketEntry :=
  { entry with
    sessions := entry.sessions+1
    totalDurationSeconds := entry.totalDurationSeconds+session.durationSeconds
    anomalies :=
      { short := if session.anomaly = some .short then entry.anomalies.short+1
          else entry.anomalies.short
        long := if session.anomaly = some .long then entry.anomalies.long+1
          else entry.anomalies.long } }

def BucketEntry.withAverage (entry : BucketEntry) : BucketEntry :=
  { entry with
    avgDurationSeconds := if 0 < entry.sessions then
      entry.totalDurationSeconds/entry.sessions else 0 }

/-- The map of buckets, the averages and the sort. -/
def bucketsOf (luxon : Luxon) (timezone : String) (period : Period)
    (sessions : List SessionSummary) : List BucketEntry :=
  let bucketMap := group BucketEntry.bucket newBucket BucketEntry.add
    (fun session => toBucketKey luxon timezone period session.clockInUtc) sessions
  (bucketMap.map BucketEntry.withAverage).insertionSort
    fun a b => luxon.localeCompare a.bucket b.bucket ≤ 0

/-- The numbers of sessions by hour, in the order in which the hours come. -/
def hoursOf (hours : List ℤ) : List (ℤ × ℕ) :=
  group Prod.fst (fun hour => (hour, 0)) (fun entry _ => (entry.1, entry.2+1)) id hours

/-- The loop of `peakHour`, with the hour and the count of the highest entry so far. -/
def peakFrom : List (ℤ × ℕ) → ℤ → ℤ → ℤ
  | [], peak, _ => peak
  | (hour, count) :: rest, peak, max =>
    if max < count then peakFrom rest hour count else peakFrom rest peak max

def peakHour (hourMap : List (ℤ × ℕ)) : Option ℤ :=
  if hourMap = [] then none else some (peakFrom hourMap (-1) (-1))

def windowEnd (luxon : Luxon) (timezone : String) (query : AttendanceSummaryQuery) : Option ℤ :=
  match query.endDate.filter (· ≠ "") with
  | some endDate => luxon.fromISO endDate timezone
  | none => some luxon.now

def windowStart (luxon : Luxon) (timezone : String) (query : AttendanceSummaryQuery) : Option ℤ :=
  match query.startDate.filter (· ≠ "") with
  | some startDate => luxon.fromISO startDate timezone
  | none => (windowEnd luxon timezone query).map fun stop => luxon.minusDays timezone stop 30

/-- The records are those that are not deleted, in the order of their times. -/
def getAttendanceSummary (luxon : Luxon) (query : AttendanceSummaryQuery)
    (records : List (Attendance Id)) : Except AttendanceError AttendanceSummaryResult := do
  let timezone := query.timezone.getD "UTC"
  let period := query.period.getD .daily
  failIf (luxon.isValidIANAZone timezone = false) (.badRequest
    ("Invalid timezone \"" ++ timezone ++ "\". Must be a valid IANA timezone name (e.g. " ++
      "\"America/New_York\")."))
  let windowEnd := windowEnd luxon timezone query
  let windowStart := windowStart luxon timezone query
  let sessions := sessionsOf windowStart windowEnd records
  let totalDurationSeconds := (sessions.map SessionSummary.durationSeconds).sum
  return {
    timezone := timezone
    period := period
    startDate := windowStart.map (luxon.toISO timezone)
    endDate := windowEnd.map (luxon.toISO timezone)
    totalSessions := sessions.length
    totalDurationSeconds := totalDurationSeconds
    avgDurationSeconds := if 0 < sessions.length then
      totalDurationSeconds/sessions.length else 0
    peakArrivalHour := peakHour (hoursOf (sessions.map fun session =>
      luxon.hour timezone session.clockInUtc))
    peakDepartureHour := peakHour (hoursOf (sessions.map fun session =>
      luxon.hour timezone session.clockOutUtc))
    buckets := bucketsOf luxon timezone period sessions
    anomalies := sessions.filter fun session => session.anomaly ≠ none }

end HubAssist.Attendances
