import HubAssist.CursorUtil
import HubAssist.JsonValue
import HubAssist.QueryBuilder
import Mathlib.Data.Prod.Lex

/-! The attendance records of the backend, and `AttendanceService.getMyAttendance`, which pages
through those of one user by a cursor. -/
namespace HubAssist.Attendances
open QueryBuilder NodeRuntime CursorUtil JsText

inductive AttendanceAction where
  | clockIn
  | clockOut
  deriving DecidableEq, Repr

/-- A row of the table. The time is that of the database, in microseconds; the `Date` it is read
as holds whole milliseconds of it. -/
structure Attendance (Id : Type) where
  id : Id
  userId : String
  action : AttendanceAction
  timestamp : ℤ
  sessionId : Option String
  details : Option JsonValue.Json
  hubId : Option String
  autoCompleted : Bool
  autoCompletedReason : Option String
  deletedAt : Option ℤ
  inRange : IsoDate.InRange (timestamp/1000)

def Attendance.date {Id : Type} (record : Attendance Id) : ℤ := record.timestamp/1000

structure CursorPaginationQuery where
  cursor : Option String
  limit : Option ℤ

structure AttendancePage (Id : Type) where
  data : List (Attendance Id)
  nextCursor : Option String
  hasMore : Bool

inductive AttendanceError where
  | badRequest (message : String)
  | database (error : QueryError)
  deriving DecidableEq

variable {Id : Type} [LinearOrder Id] (uuid : UuidType Id) (runtime : Runtime)

/-- `a.userId = :userId`. -/
def userEquals : Condition ParamValue (Attendance Id) where
  accepts parameter := match parameter "userId" with
    | some (.text _) => true
    | _ => false
  holds parameter record := match parameter "userId" with
    | some (.text value) => record.userId = value
    | _ => false

/-- The condition that the deletion column adds to every query. -/
def notDeleted : Condition ParamValue (Attendance Id) where
  accepts _ := true
  holds _ record := record.deletedAt.isNone

/-- `a.timestamp < :ts OR (a.timestamp = :ts AND a.id < :id)`. -/
def beforeCursor : Condition ParamValue (Attendance Id) where
  accepts parameter := match parameter "ts", parameter "id" with
    | some (.date (some _)), some (.text id) => (uuid.read id).isSome
    | _, _ => false
  holds parameter record := match parameter "ts", parameter "id" with
    | some (.date (some t)), some (.text id) =>
      match uuid.read id with
      | some id => record.timestamp < 1000*t ∨ record.timestamp = 1000*t ∧ record.id < id
      | none => false
    | _, _ => false

def ownQuery (userId : String) : SelectQuery ParamValue (Attendance Id) :=
  (SelectQuery.empty.andWhere notDeleted []).andWhere userEquals [("userId", .text userId)]

def cursorParameters (cursorPayload : CursorPayload) : List (String × ParamValue) :=
  [("ts", .date (newDate runtime (wellFormed cursorPayload.timestamp))),
    ("id", .text (String.ofList (wellFormed cursorPayload.id)))]

def cursorQuery (userId : String) (cursorPayload : CursorPayload) :
    SelectQuery ParamValue (Attendance Id) :=
  (ownQuery userId).andWhere (beforeCursor uuid) (cursorParameters runtime cursorPayload)

/-- `timestamp` and then `id`. -/
def sortKey (record : Attendance Id) : ℤ ×ₗ Id := toLex (record.timestamp, record.id)

def cursorOf (record : Attendance Id) : String :=
  encodeCursor ⟨utf16 (IsoDate.toISOString record.date), utf16 (uuid.write record.id).toList⟩

/-- The page of the records that were fetched, one more than the limit where there are more. -/
def attendancePage (limit : ℤ) (records : List (Attendance Id)) : AttendancePage Id :=
  let hasMore : Bool := limit < records.length
  let data := if hasMore then sliceTo limit records else records
  { data := data
    nextCursor := if hasMore then data.getLast?.map (cursorOf uuid) else none
    hasMore := hasMore }

def getMyAttendance (userId : String) (query : CursorPaginationQuery)
    (rows : List (Attendance Id)) : Except AttendanceError (AttendancePage Id) := do
  let limit := query.limit.getD 20
  match truthy query.cursor with
  -- an empty cursor counts as none
  | some cursor =>
    match decodeCursor runtime cursor with
    | .error _ => .error (.badRequest "Invalid cursor token")
    | .ok cursorPayload =>
      let records ← (getMany sortKey (cursorQuery uuid runtime userId cursorPayload) (limit+1)
        rows).mapError .database
      return attendancePage uuid limit records
  | none =>
    let records ← (getMany sortKey (ownQuery userId) (limit+1) rows).mapError .database
    return attendancePage uuid limit records

end HubAssist.Attendances
