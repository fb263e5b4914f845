import HubAssist.Checks
import HubAssist.IntervalSweep
import HubAssist.KeyedTable
import Mathlib.Algebra.Order.Ring.Rat

/-! The bookings service of the backend, with the conflict detection and the recurrence service
it calls. A call is one transaction over the tables. Amounts are rational numbers. Left out are
notifications, webhooks and caches, and the columns that no call reads or sets. -/
namespace HubAssist.Bookings
open Checks IntervalSweep KeyedTable

inductive BookingStatus where
  | pending
  | confirmed
  | cancelled
  | completed
  deriving DecidableEq, Repr

/-- A `Date`: milliseconds, or the invalid date. -/
abbrev Date := Option ℤ

structure RateSnapshot where
  totalAmount : ℚ
  deriving DecidableEq

structure Booking where
  id : ℕ
  workspaceId : String
  userId : String
  startTime : ℤ
  endTime : ℤ
  status : BookingStatus
  totalAmount : ℚ
  stellarTxHash : Option String
  recurrenceRule : Option String
  seriesId : Option ℕ
  instanceIndex : Option ℕ
  refundAmount : Option ℚ
  appliedRateSnapshot : Option RateSnapshot
  deriving DecidableEq

structure Workspace where
  capacity : ℤ
  pricePerHour : ℚ

structure MaintenanceWindow where
  workspaceId : String
  startTime : ℤ
  endTime : ℤ

inductive OutboxEventType where
  | stellarEscrowCreate
  | stellarBookingConfirmed
  deriving DecidableEq, Repr

structure OutboxEvent where
  type : OutboxEventType
  bookingId : ℕ
  userId : String
  workspaceId : String
  totalAmount : ℚ
  stellarTxHash : Option String
  deriving DecidableEq

/-- The tables, and the next identifier: generated ones are never the same twice. -/
structure Database where
  workspaces : String → Option Workspace
  maintenanceWindows : List MaintenanceWindow
  bookings : List Booking
  outbox : List OutboxEvent
  nextId : ℕ

structure ConflictDetail where
  reason : String
  conflictingBookingId : Option ℕ
  overlappingWindow : Option (ℤ × ℤ)
  available : Option ℤ
  deriving DecidableEq

inductive ServiceError where
  | notFound (message : String)
  | badRequest (message : String)
  | forbidden (message : String)
  | conflict (message : String) (conflictDetail : ConflictDetail)
  /-- `Recurring series conflict detected on instance starting` this time. -/
  | seriesConflict (startTime : ℤ) (conflictDetail : ConflictDetail)
  /-- An error that is no HTTP exception. -/
  | failed (message : String)
  deriving DecidableEq

/-- What the rest of the system answers during a call: the clock, the recurrence library, the
formatting of amounts, the pricing engine with its active rules, the payment network, the
cancellation policies and the users' roles. -/
structure Services where
  now : ℤ
  occurrences : String → Date → Option (List ℤ)
  toFixed : ℚ → ℚ
  calculatePrice : String → ℤ → ℤ → String → ℚ → Except ServiceError RateSnapshot
  verifyTransaction : String → Except String String
  evaluateRefund : Booking → ℤ → Except ServiceError ℚ
  userRole : String → Option String

structure CreateBookingDto where
  workspaceId : String
  startTime : Date
  endTime : Date
  stellarTxHash : Option String
  recurrenceRule : Option String

/-- An optional field of a patch. -/
inductive Patch (α : Type) where
  | absent
  | null
  | value (a : α)

structure UpdateBookingDto where
  status : Patch BookingStatus
  stellarTxHash : Patch String
  startTime : Patch Date
  endTime : Patch Date

/-- A string that a condition of the source takes for true. -/
def truthy (s : Option String) : Option String := s.filter (· ≠ "")

/-- A date as a query parameter or a column value. -/
def timestamp (date : Date) : Except ServiceError ℤ :=
  getOr date (.failed "invalid input syntax for type timestamp")

def findBooking (db : Database) (id : ℕ) : Except ServiceError Booking :=
  getOr (findRow Booking.id db.bookings id) (.notFound "Booking not found")

/-- The query for the bookings that hold a place in some part of an interval. -/
def overlappingBookings (bookings : List Booking) (workspaceId : String) (startTime endTime : ℤ)
    (excludeBookingId : Option ℕ) : List Booking :=
  bookings.filter fun b => b.workspaceId = workspaceId ∧
    (b.status = .confirmed ∨ b.status = .pending) ∧
    (b.startTime < endTime ∧ startTime < b.endTime) ∧ excludeBookingId ≠ some b.id

/-- The end points of the requested interval and of the parts of the bookings inside it. -/
def conflictEvents (startTime endTime : ℤ) (overlapping : List Booking) : List (Event ℤ) :=
  span (startTime, endTime) ++ overlapping.flatMap fun b =>
    let overlapStart := max startTime b.startTime
    let overlapEnd := min endTime b.endTime
    if overlapStart < overlapEnd then span (overlapStart, overlapEnd) else []

def compareEvents (a b : Event ℤ) : ℤ :=
  if a.time ≠ b.time then a.time-b.time
  else if a.edge = b.edge then 0
  else if a.edge = .stop then -1 else 1

/-- The loop over the sorted events. -/
def sweepEvents : List (Event ℤ) → ℤ → ℤ → ℤ
  | [], _, maxConcurrent => maxConcurrent
  | event :: events, currentConcurrent, maxConcurrent =>
    match event.edge with
    | .start => sweepEvents events (currentConcurrent+1)
      (if maxConcurrent < currentConcurrent+1 then currentConcurrent+1 else maxConcurrent)
    | .stop => sweepEvents events (currentConcurrent-1) maxConcurrent

def maxConcurrent (startTime endTime : ℤ) (overlapping : List Booking) : ℤ :=
  sweepEvents ((conflictEvents startTime endTime overlapping).insertionSort
    fun a b => compareEvents a b ≤ 0) 0 0

def hasConflict (db : Database) (workspaceId : String) (startTime endTime : Date)
    (excludeBookingId : Option ℕ) : Except ServiceError (Option ConflictDetail) := do
  let workspace ← getOr (db.workspaces workspaceId) (.failed "Workspace not found")
  let startTime ← timestamp startTime
  let endTime ← timestamp endTime
  match db.maintenanceWindows.find? fun mw => mw.workspaceId = workspaceId ∧
    mw.startTime < endTime ∧ startTime < mw.endTime with
  | some mw => return some ⟨"Maintenance Window", none, some (mw.startTime, mw.endTime), none⟩
  | none =>
    match overlappingBookings db.bookings workspaceId startTime endTime excludeBookingId with
    | [] => return none
    | firstConflict :: rest =>
      let concurrent := maxConcurrent startTime endTime (firstConflict :: rest)
      if workspace.capacity < concurrent then
        return some ⟨"capacity_exceeded", some firstConflict.id,
          some (firstConflict.startTime, firstConflict.endTime),
          some (max 0 (workspace.capacity-(concurrent-1)))⟩
      else return none

def maxRecurrenceInstances : ℕ := 52

structure RecurrenceInstance where
  startTime : ℤ
  endTime : ℤ

/-- The library lists at most one occurrence more than the limit. -/
def expandInstances (env : Services) (rule : String) (dtstart : Date) (durationMs : Option ℤ) :
    Except ServiceError (List RecurrenceInstance) := do
  let occurrences ← getOr (env.occurrences rule dtstart) (.badRequest
    ("Invalid RRULE string: \"" ++ rule ++ "\". Must be a valid RFC 5545 RRULE."))
  failIf (occurrences.length = 0) (.badRequest "The provided RRULE produces no occurrences.")
  failIf (maxRecurrenceInstances < occurrences.length) (.badRequest
    ("Recurring series exceeds the maximum of 52 instances. " ++
      "Use COUNT or UNTIL to limit the series."))
  -- Without a duration the instances have no valid end, and the first query with one fails.
  let durationMs ← timestamp durationMs
  return occurrences.map fun startTime => ⟨startTime, startTime+durationMs⟩

/-- The loop over the instances, none of which is stored before all are checked. -/
def checkInstances (db : Database) (workspaceId : String) :
    List RecurrenceInstance → Except ServiceError Unit
  | [] => return ()
  | i :: instances => do
    match ← hasConflict db workspaceId (some i.startTime) (some i.endTime) none with
    | some detail => .error (.seriesConflict i.startTime detail)
    | none => checkInstances db workspaceId instances

/-- The row of one instance of a series. -/
def seriesBooking (env : Services) (userId : String) (dto : CreateBookingDto)
    (workspace : Workspace) (seriesId : ℕ) (i : RecurrenceInstance) (index : ℕ) : Booking where
  id := seriesId+1+index
  workspaceId := dto.workspaceId
  userId := userId
  startTime := i.startTime
  endTime := i.endTime
  status := .pending
  totalAmount := env.toFixed ((i.endTime-i.startTime : ℤ)/(1000*60*60)*workspace.pricePerHour)
  stellarTxHash := dto.stellarTxHash
  recurrenceRule := if index = 0 then dto.recurrenceRule else none
  seriesId := some seriesId
  instanceIndex := some index
  refundAmount := none
  appliedRateSnapshot := none

def seriesBookings (env : Services) (userId : String) (dto : CreateBookingDto)
    (workspace : Workspace) (seriesId : ℕ) (instances : List RecurrenceInstance) :
    List Booking :=
  instances.mapIdx fun index i => seriesBooking env userId dto workspace seriesId i index

/-- The row of a single booking. -/
def singleBooking (userId : String) (dto : CreateBookingDto) (id : ℕ)
    (startTime endTime : ℤ) (rateSnapshot : RateSnapshot) : Booking where
  id := id
  workspaceId := dto.workspaceId
  userId := userId
  startTime := startTime
  endTime := endTime
  status := .pending
  totalAmount := rateSnapshot.totalAmount
  stellarTxHash := dto.stellarTxHash
  recurrenceRule := none
  seriesId := none
  instanceIndex := none
  refundAmount := none
  appliedRateSnapshot := some rateSnapshot

def bookingEvent (type : OutboxEventType) (b : Booking) : OutboxEvent :=
  ⟨type, b.id, b.userId, b.workspaceId, b.totalAmount, b.stellarTxHash⟩

def createSeries (env : Services) (userId : String) (dto : CreateBookingDto)
    (workspace : Workspace) (rule : String) (durationMs : Option ℤ) (db : Database) :
    Except ServiceError (List Booking × Database) := do
  let instances ← expandInstances env rule dto.startTime durationMs
  checkInstances db dto.workspaceId instances
  let bookings := seriesBookings env userId dto workspace db.nextId instances
  return (bookings, { db with
    bookings := saveAll Booking.id db.bookings bookings
    nextId := db.nextId+1+bookings.length })

def createSingle (env : Services) (userId : String) (dto : CreateBookingDto) (userTier : String)
    (workspace : Workspace) (db : Database) : Except ServiceError (List Booking × Database) := do
  match ← hasConflict db dto.workspaceId dto.startTime dto.endTime none with
  | some detail => .error (.conflict "Workspace booking conflict detected" detail)
  | none =>
    let startTime ← timestamp dto.startTime
    let endTime ← timestamp dto.endTime
    let rateSnapshot ← env.calculatePrice dto.workspaceId startTime endTime userTier
      workspace.pricePerHour
    let booking := singleBooking userId dto db.nextId startTime endTime rateSnapshot
    return ([booking], { db with
      bookings := save Booking.id db.bookings booking
      outbox := db.outbox ++ [bookingEvent .stellarEscrowCreate booking]
      nextId := db.nextId+1 })

def create (env : Services) (userId : String) (dto : CreateBookingDto) (userTier : String)
    (db : Database) : Except ServiceError (List Booking × Database) := do
  let workspace ← getOr (db.workspaces dto.workspaceId) (.notFound "Workspace not found")
  let durationMs := dto.endTime.bind fun endTime => dto.startTime.map fun startTime =>
    endTime-startTime
  -- The difference with an invalid date is not a number, and no comparison with it holds.
  failIf (durationMs.any (· ≤ 0) = true) (.badRequest "endTime must be after startTime")
  match truthy dto.recurrenceRule with
  | some rule => createSeries env userId dto workspace rule durationMs db
  | none => createSingle env userId dto userTier workspace db

/-- The check of a payment that the booking refers to. -/
def verifyPayment (env : Services) (booking : Booking) : Except ServiceError Unit :=
  match (truthy booking.stellarTxHash).map env.verifyTransaction with
  | some (.ok status) =>
    failIf (status ≠ "SUCCESS") (.badRequest "Transaction verification failed")
  | some (.error message) => .error (.badRequest ("Payment verification failed: " ++ message))
  | none => return ()

def confirm (env : Services) (id : ℕ) (db : Database) :
    Except ServiceError (Booking × Database) := do
  let booking ← findBooking db id
  verifyPayment env booking
  failIf (booking.status ≠ .pending) (.badRequest "Only pending bookings can be confirmed")
  let saved : Booking := { booking with status := .confirmed }
  return (saved, { db with
    bookings := save Booking.id db.bookings saved
    outbox := db.outbox ++ [bookingEvent .stellarBookingConfirmed saved] })

def cancel (env : Services) (id : ℕ) (userId : String) (db : Database) :
    Except ServiceError (Booking × Database) := do
  let booking ← findBooking db id
  failIf (booking.userId ≠ userId) (.forbidden "Not authorized to cancel this booking")
  let refundAmount ← env.evaluateRefund booking env.now
  let saved : Booking := { booking with status := .cancelled, refundAmount := some refundAmount }
  return (saved, { db with bookings := save Booking.id db.bookings saved })

/-- The refund of an instance, which is read again with its workspace. -/
def instanceRefund (env : Services) (db : Database) (i : Booking) :
    Except ServiceError (Option ℚ) :=
  match findRow Booking.id db.bookings i.id with
  | some booking => (env.evaluateRefund booking env.now).map some
  | none => return i.refundAmount

/-- The loop of `cancelSeries` over the instances to cancel. -/
def cancelInstances (env : Services) (db : Database) :
    List Booking → Except ServiceError (List Booking)
  | [] => return []
  | i :: instances => do
    let refundAmount ← instanceRefund env db i
    let rest ← cancelInstances env db instances
    return { i with status := .cancelled, refundAmount := refundAmount } :: rest

/-- The counts of cancelled and preserved instances are returned with the tables. -/
def cancelSeries (env : Services) (seriesId : ℕ) (userId : String) (db : Database) :
    Except ServiceError ((ℕ × ℕ) × Database) := do
  let allInstances := db.bookings.filter fun b => b.seriesId = some seriesId
  match allInstances with
  | [] => .error (.notFound ("No bookings found for series \"" ++ toString seriesId ++ "\""))
  | owner :: _ =>
    failIf (owner.userId ≠ userId) (.forbidden "Not authorized to cancel this booking series")
    let futureInstances := allInstances.filter fun b => env.now < b.startTime ∧
      b.status ≠ .cancelled
    let cancelled ← cancelInstances env db futureInstances
    return ((futureInstances.length, allInstances.length-futureInstances.length),
      { db with bookings := saveAll Booking.id db.bookings cancelled })

/-- What a patch makes of a column that is not nullable. -/
def Patch.column {α : Type} (patch : Patch α) (old : α) : Except ServiceError α :=
  match patch with
  | .absent => return old
  | .null => .error (.failed "null value violates not-null constraint")
  | .value a => return a

def Patch.nullable {α : Type} (patch : Patch α) (old : Option α) : Option α :=
  match patch with
  | .absent => old
  | .null => none
  | .value a => some a

/-- The date that the service goes on with: the one given, or the one stored. -/
def Patch.date (patch : Patch Date) (old : ℤ) : Date :=
  match patch with
  | .value date => date
  | .absent | .null => some old

def Patch.given {α : Type} : Patch α → Bool
  | .value _ => true
  | .absent | .null => false

/-- `Object.assign(booking, dto)` and the save. -/
def assign (booking : Booking) (dto : UpdateBookingDto) (db : Database) :
    Except ServiceError (Booking × Database) := do
  let status ← dto.status.column booking.status
  let startTime ← timestamp (← dto.startTime.column (some booking.startTime))
  let endTime ← timestamp (← dto.endTime.column (some booking.endTime))
  let saved : Booking := { booking with
    status := status
    stellarTxHash := dto.stellarTxHash.nullable booking.stellarTxHash
    startTime := startTime
    endTime := endTime }
  return (saved, { db with bookings := save Booking.id db.bookings saved })

def update (env : Services) (id : ℕ) (dto : UpdateBookingDto) (userTier : Option String)
    (db : Database) : Except ServiceError (Booking × Database) := do
  let booking ← findBooking db id
  let startTime := dto.startTime.date booking.startTime
  let endTime := dto.endTime.date booking.endTime
  if dto.startTime.given || dto.endTime.given then
    match ← hasConflict db booking.workspaceId startTime endTime (some id) with
    | some detail => .error (.conflict "Workspace booking conflict detected" detail)
    | none =>
      let workspace ← getOr (db.workspaces booking.workspaceId) (.failed "Workspace not found")
      let tier := (userTier <|> env.userRole booking.userId).getD "member"
      let rateSnapshot ← env.calculatePrice booking.workspaceId (← timestamp startTime)
        (← timestamp endTime) tier workspace.pricePerHour
      assign { booking with
        totalAmount := rateSnapshot.totalAmount
        appliedRateSnapshot := some rateSnapshot } dto db
  else assign booking dto db

/-- The calls that write. -/
inductive Call where
  | create (userId : String) (dto : CreateBookingDto) (userTier : String)
  | update (id : ℕ) (dto : UpdateBookingDto) (userTier : Option String)
  | confirm (id : ℕ)
  | cancel (id : ℕ) (userId : String)
  | cancelSeries (seriesId : ℕ) (userId : String)

def exec (env : Services) : Call → Database → Except ServiceError Database
  | .create userId dto userTier, db => (create env userId dto userTier db).map Prod.snd
  | .update id dto userTier, db => (update env id dto userTier db).map Prod.snd
  | .confirm id, db => (confirm env id db).map Prod.snd
  | .cancel id userId, db => (cancel env id userId db).map Prod.snd
  | .cancelSeries seriesId userId, db => (cancelSeries env seriesId userId db).map Prod.snd

/-- A call with the answers it gets. -/
structure Action where
  env : Services
  call : Call

def step (db : Database) (a : Action) : Database := orRollback db (exec a.env a.call db)

end HubAssist.Bookings
