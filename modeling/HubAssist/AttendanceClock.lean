import HubAssist.AttendanceModel
import HubAssist.Interleaving
import Mathlib.Data.List.Sort

/-! Clocking in and out, and the hourly job that completes abandoned sessions, as processes over
the attendance table. A step of a process is one read, save or update; between two of its steps any
other process may take its own. -/
namespace HubAssist.Attendances
open IsoDate

variable {I Id : Type} [DecidableEq I] [DecidableEq Id]

/-- What a save takes from outside: the identifiers it draws, the time of the database and that of
the service. -/
structure Drawn (Id : Type) where
  id : Id
  sessionId : String
  now : ℤ
  clock : ℤ
  inRange : InRange (now/1000)

structure ClockReply where
  sessionId : Option String
  message : String
  timestamp : ℤ
  sessionDuration : Option ℤ

/-- How far a process has come: it has answered, or it goes on with what it has read. The job works
off the sessions it has found, saving a clock-out for each and then marking the session. -/
inductive Phase (Id : Type) where
  | free (reply : Option (Except AttendanceError ClockReply))
  | checkingIn (userId : String) (details : Option JsonValue.Json) (openSession : Attendance Id)
  | clockingIn (userId : String) (details : Option JsonValue.Json)
  | checkingOut (userId : String) (details : Option JsonValue.Json) (openSession : Attendance Id)
  | clockingOut (userId : String) (details : Option JsonValue.Json) (openSession : Attendance Id)
  | completing (maxSessionHours : ℕ) (openSessions : List (Attendance Id))
  | marking (maxSessionHours : ℕ) (session : Attendance Id) (openSessions : List (Attendance Id))

/-- The first read of a call, its next step, or a failure of that. Among rows of one time the
database is free to choose, and rows that no order is asked for come in any. -/
inductive Move (Id : Type) where
  | clockIn (userId : String) (details : Option JsonValue.Json) (choice : ℕ)
  | clockOut (userId : String) (details : Option JsonValue.Json) (choice : ℕ)
  | autoComplete (now : ℤ) (maxSessionHours : ℕ) (order : Id → ℕ)
  | proceed (drawn : Drawn Id)
  | fail

/-- The last clock-in of a user. -/
def latestClockIn (rows : List (Attendance Id)) (userId : String) (choice : ℕ) :
    Option (Attendance Id) :=
  let clockIns := rows.filter fun r =>
    r.deletedAt = none ∧ r.userId = userId ∧ r.action = .clockIn
  let latest := clockIns.filter fun r => clockIns.all fun r' => r'.timestamp ≤ r.timestamp
  latest[choice%latest.length]?

/-- A clock-out of a session by its user; without an identifier any session is meant. -/
def hasClockOut (rows : List (Attendance Id)) (userId : String) (session : Attendance Id) : Bool :=
  rows.any fun r => r.deletedAt = none ∧ r.userId = userId ∧ r.action = .clockOut ∧
    (session.sessionId = none ∨ r.sessionId = session.sessionId)

def clockInRow (userId : String) (details : Option JsonValue.Json) (drawn : Drawn Id) :
    Attendance Id where
  id := drawn.id
  userId := userId
  action := .clockIn
  timestamp := drawn.now
  sessionId := some drawn.sessionId
  details := details
  hubId := none
  autoCompleted := false
  autoCompletedReason := none
  deletedAt := none
  inRange := drawn.inRange

def clockOutRow (userId : String) (details : Option JsonValue.Json) (session : Attendance Id)
    (drawn : Drawn Id) : Attendance Id :=
  { clockInRow userId details drawn with action := .clockOut, sessionId := session.sessionId }

def clockInReply (row : Attendance Id) : ClockReply :=
  ⟨row.sessionId, "Clocked in successfully", row.date, none⟩

def clockOutReply (session row : Attendance Id) : ClockReply :=
  ⟨row.sessionId, "Clocked out successfully", row.date, some ((row.date-session.date)/1000)⟩

def sessionMs (maxSessionHours : ℕ) : ℤ := maxSessionHours*60*60*1000

/-- The sessions that the job takes up: all older clock-ins that it has not marked itself. -/
def abandonedSessions (rows : List (Attendance Id)) (now : ℤ) (maxSessionHours : ℕ)
    (order : Id → ℕ) : List (Attendance Id) :=
  let openSessions := rows.filter fun r => r.deletedAt = none ∧ r.action = .clockIn ∧
    r.timestamp < 1000*(now-sessionMs maxSessionHours) ∧ r.autoCompleted = false
  openSessions.insertionSort fun r r' => order r.id ≤ order r'.id

def completionReason (maxSessionHours : ℕ) : String :=
  "Auto-completed after " ++ toString maxSessionHours ++ " hours of inactivity"

/-- The clock-out that the job creates for a session; its time has to be a date. -/
def completionRow (maxSessionHours : ℕ) (session : Attendance Id) (drawn : Drawn Id) :
    Option (Attendance Id) :=
  let clockOutTime := session.date+sessionMs maxSessionHours
  if h : InRange clockOutTime then some
    { id := drawn.id
      userId := session.userId
      action := .clockOut
      timestamp := 1000*clockOutTime
      sessionId := session.sessionId
      details := some (.object
        [("originalClockInTime", .string (String.ofList (toISOString session.date))),
          ("autoCompletedAt", .string (String.ofList (toISOString drawn.clock)))])
      hubId := session.hubId
      autoCompleted := true
      autoCompletedReason := some (completionReason maxSessionHours)
      deletedAt := none
      inRange := by rwa [Int.mul_ediv_cancel_left _ (by decide)] }
  else none

def markCompleted (maxSessionHours : ℕ) (session row : Attendance Id) : Attendance Id :=
  if row.id = session.id then
    { row with
      autoCompleted := true
      autoCompletedReason := some (completionReason maxSessionHours) }
  else row

/-- One step of a process. A step that the process has not come to does nothing. -/
def act (rows : List (Attendance Id)) (phase : Phase Id) (move : Move Id) :
    List (Attendance Id) × Phase Id :=
  match phase, move with
  | .free _, .clockIn userId details choice =>
    match latestClockIn rows userId choice with
    | some openSession => (rows, .checkingIn userId details openSession)
    | none => (rows, .clockingIn userId details)
  -- what has been read is acted on in a later step, when the rows may be others
  | .checkingIn userId details openSession, .proceed _ =>
    if hasClockOut rows userId openSession then (rows, .clockingIn userId details)
    else (rows, .free (some (.error
      (.badRequest "User already clocked in. Please clock out first."))))
  | .clockingIn userId details, .proceed drawn =>
    let attendance := clockInRow userId details drawn
    (rows ++ [attendance], .free (some (.ok (clockInReply attendance))))
  | .free _, .clockOut userId details choice =>
    match latestClockIn rows userId choice with
    | some openSession => (rows, .checkingOut userId details openSession)
    | none => (rows, .free (some (.error
      (.badRequest "No active session. Please clock in first."))))
  | .checkingOut userId details openSession, .proceed _ =>
    if hasClockOut rows userId openSession then
      (rows, .free (some (.error (.badRequest "Already clocked out for this session."))))
    else (rows, .clockingOut userId details openSession)
  | .clockingOut userId details openSession, .proceed drawn =>
    let attendance := clockOutRow userId details openSession drawn
    (rows ++ [attendance], .free (some (.ok (clockOutReply openSession attendance))))
  | .free _, .autoComplete now maxSessionHours order =>
    (rows, .completing maxSessionHours (abandonedSessions rows now maxSessionHours order))
  -- the job does not look for a clock-out of the session
  | .completing maxSessionHours (session :: openSessions), .proceed drawn =>
    match completionRow maxSessionHours session drawn with
    | some clockOutRecord =>
      (rows ++ [clockOutRecord], .marking maxSessionHours session openSessions)
    | none => (rows, .completing maxSessionHours openSessions)
  | .completing _ [], .proceed _ => (rows, .free none)
  | .marking maxSessionHours session openSessions, .proceed _ =>
    (rows.map (markCompleted maxSessionHours session), .completing maxSessionHours openSessions)
  -- the job logs an error and goes on with the next session, a request ends with it
  | .completing maxSessionHours (_ :: openSessions), .fail =>
    (rows, .completing maxSessionHours openSessions)
  | .marking maxSessionHours _ openSessions, .fail =>
    (rows, .completing maxSessionHours openSessions)
  | .checkingIn .., .fail | .clockingIn .., .fail | .checkingOut .., .fail
  | .clockingOut .., .fail => (rows, .free none)
  | _, _ => (rows, phase)

abbrev System (I Id : Type) := Interleaving.Global I (List (Attendance Id)) (Phase Id)

/-- An empty table, and no call under way. -/
def initial : System I Id := ⟨[], fun _ => .free none⟩

end HubAssist.Attendances
