import HubAssist.Base64
import HubAssist.NodeRuntime
import HubAssist.QueryBuilder
import Mathlib.Data.Prod.Lex

/-! The activity feed of the dashboard: `getActivity`, which assembles one query from the role of
the caller and the filters it is given, and pages through its rows by a cursor. -/
namespace HubAssist.Dashboard
open QueryBuilder NodeRuntime

inductive UserRole where
  | admin
  | member
  | staff
  deriving DecidableEq, Repr

inductive EventCategory where
  | booking
  | user
  | workspace
  | auth
  | system
  deriving DecidableEq, Repr

def EventCategory.text : EventCategory → String
  | .booking => "BOOKING"
  | .user => "USER"
  | .workspace => "WORKSPACE"
  | .auth => "AUTH"
  | .system => "SYSTEM"

/-- The enum of the database takes the texts of its members alone. -/
def EventCategory.ofText (text : String) : Option EventCategory :=
  [EventCategory.booking, .user, .workspace, .auth, .system].find? fun c => c.text = text

theorem EventCategory.ofText_text (c : EventCategory) : ofText c.text = some c := by
  cases c <;> decide

/-- The columns of a row of the audit log that the feed reads. The time is that of the database,
in microseconds. -/
structure AuditLog (Id : Type) where
  id : Id
  actorId : Option String
  eventType : String
  eventCategory : Option EventCategory
  resourceType : String
  resourceId : String
  createdAt : ℤ
  deriving DecidableEq

/-- The `Date` that a column is read as. -/
def AuditLog.date {Id : Type} (log : AuditLog Id) : ℤ := log.createdAt/1000

structure ActivityFeedQuery where
  eventCategory : Option String
  actorId : Option String
  resourceId : Option String
  cursor : Option String
  limit : Option ℤ
  deriving DecidableEq

structure ActivityItem where
  id : String
  eventType : String
  eventCategory : Option EventCategory
  actorId : Option String
  resourceType : String
  resourceId : String
  timestamp : ℤ
  deriving DecidableEq

structure ActivityFeedResponse where
  items : List ActivityItem
  nextCursor : Option String
  hasMore : Bool
  deriving DecidableEq

variable {Id : Type} [LinearOrder Id] (uuid : UuidType Id) (runtime : Runtime)

abbrev AuditQuery (Id : Type) := SelectQuery ParamValue (AuditLog Id)

/-- `audit.<column> = :<name>` for a column of text. -/
def textEquals (name : String) (column : AuditLog Id → Option String) :
    Condition ParamValue (AuditLog Id) where
  accepts parameter := match parameter name with
    | some (.text _) => true
    | _ => false
  holds parameter log := match parameter name with
    | some (.text value) => column log = some value
    | _ => false

/-- `audit.eventCategory = :eventCategory`. -/
def categoryEquals : Condition ParamValue (AuditLog Id) where
  accepts parameter := match parameter "eventCategory" with
    | some (.text value) => (EventCategory.ofText value).isSome
    | _ => false
  holds parameter log := match parameter "eventCategory" with
    | some (.text value) => log.eventCategory.isSome ∧ log.eventCategory = EventCategory.ofText value
    | _ => false

/-- `audit.createdAt < :createdAt OR (audit.createdAt = :createdAt AND audit.id < :id)`. -/
def beforeCursor : Condition ParamValue (AuditLog Id) where
  accepts parameter := match parameter "createdAt", parameter "id" with
    | some (.date (some _)), some (.text id) => (uuid.read id).isSome
    | some (.date (some _)), some .undefined => true
    | _, _ => false
  holds parameter log := match parameter "createdAt", parameter "id" with
    | some (.date (some t)), some (.text id) =>
      match uuid.read id with
      | some id => log.createdAt < 1000*t ∨ log.createdAt = 1000*t ∧ log.id < id
      | none => false
    | some (.date (some t)), some .undefined => log.createdAt < 1000*t
    | _, _ => false

/-- The role filter and the optional filters, before the cursor. -/
def filteredQuery (query : ActivityFeedQuery) (currentUserId : Option String)
    (currentUserRole : Option UserRole) : AuditQuery Id :=
  -- an admin sees all actors; a caller without an id is not restricted either
  let own := if currentUserRole = some .admin then none else truthy currentUserId
  (((SelectQuery.empty.andWhereIf (own.map fun id =>
      (textEquals "actorId" AuditLog.actorId, [("actorId", .text id)]))).andWhereIf
    ((truthy query.eventCategory).map fun category =>
      (categoryEquals, [("eventCategory", .text category)]))).andWhereIf
    ((truthy query.actorId).map fun id =>
      (textEquals "actorId" AuditLog.actorId, [("actorId", .text id)]))).andWhereIf
    ((truthy query.resourceId).map fun id =>
      (textEquals "resourceId" fun log => some log.resourceId, [("resourceId", .text id)]))

/-- The two parts that the cursor is split into; a second one that is missing is undefined. -/
def splitCursor (text : List Char) : List Char × Option (List Char) :=
  match text.splitOn ':' with
  | createdAt :: id :: _ => (createdAt, some id)
  | [createdAt] => (createdAt, none)
  | [] => ([], none)

def cursorParameters (cursor : String) : List (String × ParamValue) :=
  let decodedCursor := Base64.utf8Text runtime.lossy (Base64.decode cursor.toList)
  let (createdAt, id) := splitCursor decodedCursor
  [("createdAt", .date (newDate runtime createdAt)),
    ("id", match id with
      | some id => .text (String.ofList id)
      | none => .undefined)]

/-- `createdAt` and then `id`, the order of the feed. -/
def sortKey (log : AuditLog Id) : ℤ ×ₗ Id := toLex (log.createdAt, log.id)

def nextCursorOf (log : AuditLog Id) : String :=
  let cursorStr := IsoDate.toISOString log.date ++ ':' :: (uuid.write log.id).toList
  String.ofList (Base64.encode (Base64.utf8Bytes cursorStr))

def activityItem (log : AuditLog Id) : ActivityItem where
  id := uuid.write log.id
  eventType := log.eventType
  eventCategory := log.eventCategory
  actorId := log.actorId
  resourceType := log.resourceType
  resourceId := log.resourceId
  timestamp := log.date

def pageLimit (query : ActivityFeedQuery) : ℤ :=
  min (match query.limit with
    | some limit => if limit = 0 then 20 else limit
    | none => 20) 50

/-- The whole query of the feed. -/
def activityQuery (query : ActivityFeedQuery) (currentUserId : Option String)
    (currentUserRole : Option UserRole) : AuditQuery Id :=
  (filteredQuery query currentUserId currentUserRole).andWhereIf
    ((truthy query.cursor).map fun cursor =>
      (beforeCursor uuid, cursorParameters runtime cursor))

/-- The page of the rows that were fetched, one more than the limit where there are more. -/
def feedPage (limit : ℤ) (items : List (AuditLog Id)) : ActivityFeedResponse :=
  let hasMore : Bool := limit < items.length
  let results := sliceTo limit items
  { items := results.map (activityItem uuid)
    nextCursor := if hasMore then results.getLast?.map (nextCursorOf uuid) else none
    hasMore := hasMore }

def getActivity (query : ActivityFeedQuery) (currentUserId : Option String)
    (currentUserRole : Option UserRole) (logs : List (AuditLog Id)) :
    Except QueryError ActivityFeedResponse := do
  let limit := pageLimit query
  let items ← getMany sortKey (activityQuery uuid runtime query currentUserId currentUserRole)
    -- one row too many tells whether there is a next page
    (limit+1) logs
  return feedPage uuid limit items

end HubAssist.Dashboard
