import HubAssist.SorobanHost

/-! The workspace_booking contract: workspaces with their types and states, and bookings of
them. Entries are taken not to expire; the events it publishes and the replacement of its own
code are left out. -/
namespace HubAssist.WorkspaceBooking
open SorobanHost CheckedArith

structure TierDiscounts where
  guest : ℕ
  member : ℕ
  gold : ℕ
  platinum : ℕ
  deriving DecidableEq, Repr

structure WorkspaceTypeInfo where
  name : String
  description : String
  maxCapacityDefault : ℕ
  deriving DecidableEq, Repr

inductive WorkspaceState where
  | available
  | unavailable (reason : String)
  | maintenance (scheduledReturn : ℕ)
  deriving DecidableEq, Repr

inductive UnavailabilityReason where
  | underMaintenance
  | fullyBooked
  | closed
  deriving DecidableEq, Repr

inductive WorkspaceAvailability where
  | available
  | unavailable (reason : UnavailabilityReason)
  deriving DecidableEq, Repr

structure Workspace where
  id : ℕ
  name : String
  typeId : ℕ
  capacity : ℕ
  pricePerHour : ℤ
  availability : WorkspaceAvailability
  state : WorkspaceState
  deriving DecidableEq, Repr

inductive BookingStatus where
  | pending
  | confirmed
  | cancelled
  | completed
  | waitlisted
  deriving DecidableEq, Repr

structure Booking (Address : Type) where
  id : ℕ
  member : Address
  workspaceId : ℕ
  startTime : ℕ
  endTime : ℕ
  amount : ℤ
  status : BookingStatus
  stellarTxHash : BitVec 256
  escrowId : ℕ
  deriving DecidableEq

structure WaitlistEntry (Address : Type) where
  member : Address
  workspaceId : ℕ
  amount : ℤ
  addedAt : ℕ
  deriving DecidableEq

inductive ContractError where
  | adminNotSet
  | notAdmin
  | unauthorized
  | workspaceNotFound
  | workspaceUnavailable
  | bookingNotFound
  | bookingAlreadyConfirmed
  | invalidTimeRange
  | overlappingBooking
  | insufficientPayment
  | timeConflict
  | capacityExceeded
  | waitlistFull
  | notInWaitlist
  | waitlistExpired
  | tokenNotFound
  | invalidExpiryDate
  | insufficientAllowance
  | overflow
  | invalidInput
  | paymentTokenNotSet
  | alreadyCancelled
  | batchTooLarge
  | unknownWorkspaceType
  | workspaceTypeAlreadyExists
  deriving DecidableEq, Repr

/-- The contract's storage, one field for each `DataKey` that an entry point uses. -/
structure Storage (Address : Type) where
  admin : Option Address
  paymentToken : Option Address
  tierDiscounts : Option TierDiscounts
  workspaceTypeRegistry : Option (ℕ → Option WorkspaceTypeInfo)
  workspaceCount : Option ℕ
  workspace : ℕ → Option Workspace
  bookingCount : Option ℕ
  booking : ℕ → Option (Booking Address)
  memberBookings : Address → Option (List ℕ)
  workspaceBookings : ℕ → Option (List ℕ)
  waitlist : ℕ → Option (List (WaitlistEntry Address))
  paused : Option Bool

def Storage.empty {Address : Type} : Storage Address where
  admin := none
  paymentToken := none
  tierDiscounts := none
  workspaceTypeRegistry := none
  workspaceCount := none
  workspace _ := none
  bookingCount := none
  booking _ := none
  memberBookings _ := none
  workspaceBookings _ := none
  waitlist _ := none
  paused := none

def maxBatchSize : ℕ := 20

/-- The registry that `initializeContract` seeds. -/
def canonicalTypes : ℕ → Option WorkspaceTypeInfo
  | 1 => some ⟨"HotDesk", "Open coworking desk available on a first-come, first-served basis", 1⟩
  | 2 => some ⟨"DedicatedDesk", "Reserved desk assigned exclusively to a member", 1⟩
  | 3 => some ⟨"PrivateOffice", "Enclosed private office for teams or individuals", 10⟩
  | 4 => some ⟨"MeetingRoom", "Bookable conference or meeting room", 20⟩
  | _ => none

variable {Address : Type} [DecidableEq Address] {C : Chain Address}

abbrev BookingWorld (C : Chain Address) := World C (Storage Address)

abbrev Outcome (C : Chain Address) := Except (Fault ContractError) (BookingWorld C)

def setWorkspace (w : BookingWorld C) (id : ℕ) (workspace : Workspace) : BookingWorld C :=
  w.setStore { w.store with workspace := Function.update w.store.workspace id (some workspace) }

def setBooking (w : BookingWorld C) (id : ℕ) (b : Booking Address) : BookingWorld C :=
  w.setStore { w.store with booking := Function.update w.store.booking id (some b) }

def requireNotPaused (w : BookingWorld C) : Except (Fault ContractError) Unit :=
  failIf (w.store.paused.getD false = true) (.panic "contract is paused")

def requireAdmin (env : Env C) (w : BookingWorld C) (caller : Address) :
    Except (Fault ContractError) Unit := do
  let admin ← getOr w.store.admin (.panic "admin not set")
  requireAuth env caller
  failIf (caller ≠ admin) (.panic "unauthorized")

def getWorkspace (w : BookingWorld C) (id : ℕ) : Except (Fault ContractError) Workspace :=
  getOr (w.store.workspace id) (.error .workspaceNotFound)

def getBooking (w : BookingWorld C) (id : ℕ) :
    Except (Fault ContractError) (Booking Address) :=
  getOr (w.store.booking id) (.error .bookingNotFound)

def getWorkspaceTypes (w : BookingWorld C) : ℕ → Option WorkspaceTypeInfo :=
  w.store.workspaceTypeRegistry.getD fun _ => none

def listWorkspaces (w : BookingWorld C) : List Workspace :=
  ((List.range' 1 (w.store.workspaceCount.getD 0)).filterMap w.store.workspace).filter
    fun workspace => workspace.availability = .available

def listMemberBookings (w : BookingWorld C) (member : Address) : List (Booking Address) :=
  ((w.store.memberBookings member).getD []).filterMap w.store.booking

def getWaitlist (w : BookingWorld C) (workspaceId : ℕ) : List (WaitlistEntry Address) :=
  (w.store.waitlist workspaceId).getD []

def getTierDiscounts (w : BookingWorld C) : TierDiscounts :=
  w.store.tierDiscounts.getD ⟨0, 500, 1000, 1500⟩

def initializeContract (env : Env C) (admin paymentToken : Address) (w : BookingWorld C) :
    Outcome C := do
  requireAuth env admin
  return w.setStore { w.store with
    admin := some admin
    paymentToken := some paymentToken
    workspaceTypeRegistry := some canonicalTypes }

def registerWorkspaceType (env : Env C) (caller : Address) (typeId : ℕ)
    (info : WorkspaceTypeInfo) (w : BookingWorld C) : Outcome C := do
  failIf (typeId = 0) (.error .invalidInput)
  requireAdmin env w caller
  failIf ((getWorkspaceTypes w typeId).isSome = true) (.error .workspaceTypeAlreadyExists)
  return w.setStore { w.store with
    workspaceTypeRegistry := some (Function.update (getWorkspaceTypes w) typeId (some info)) }

def registerWorkspace (env : Env C) (caller : Address) (name : String) (typeId capacity : ℕ)
    (pricePerHour : ℤ) (w : BookingWorld C) :
    Except (Fault ContractError) (ℕ × BookingWorld C) := do
  requireNotPaused w
  requireAdmin env w caller
  failIf (getWorkspaceTypes w typeId = none) (.error .unknownWorkspaceType)
  let id ← checked (u32Add (w.store.workspaceCount.getD 0) 1)
  let workspace : Workspace := ⟨id, name, typeId, capacity, pricePerHour, .available, .available⟩
  return (id, w.setStore { w.store with
    workspace := Function.update w.store.workspace id (some workspace)
    workspaceCount := some id })

def updateWorkspaceAvailability (env : Env C) (caller : Address) (workspaceId : ℕ)
    (availability : WorkspaceAvailability) (w : BookingWorld C) : Outcome C := do
  requireNotPaused w
  requireAdmin env w caller
  let workspace ← getWorkspace w workspaceId
  return setWorkspace w workspaceId { workspace with availability := availability }

/-- The overlap loop of `book`: some booking on the list is not cancelled and meets the
time asked for. -/
def overlapsAny (s : Storage Address) (ids : List ℕ) (startTime endTime : ℕ) : Bool :=
  ids.any fun id =>
    match s.booking id with
    | none => false
    | some b =>
      decide (b.status ≠ .cancelled) && !(decide (endTime ≤ b.startTime) || decide (b.endTime ≤ startTime))

def book (env : Env C) (member : Address) (workspaceId startTime endTime : ℕ) (amount : ℤ)
    (stellarTxHash : BitVec 256) (w : BookingWorld C) :
    Except (Fault ContractError) (ℕ × BookingWorld C) := do
  requireNotPaused w
  requireAuth env member
  failIf (endTime ≤ startTime) (.error .invalidTimeRange)
  let workspace ← getWorkspace w workspaceId
  failIf (workspace.state ≠ .available) (.error .workspaceUnavailable)
  failIf (workspace.availability ≠ .available) (.error .workspaceUnavailable)
  let rounded ← checked (u64Add (endTime-startTime) 3599)
  let price ← checked (i128Mul workspace.pricePerHour (rounded/3600 : ℕ))
  failIf (amount < price) (.error .insufficientPayment)
  let booked := (w.store.workspaceBookings workspaceId).getD []
  failIf (overlapsAny w.store booked startTime endTime = true) (.error .overlappingBooking)
  let id ← checked (u64Add (w.store.bookingCount.getD 0) 1)
  let b : Booking Address :=
    ⟨id, member, workspaceId, startTime, endTime, amount, .pending, stellarTxHash, 0⟩
  return (id, w.setStore { w.store with
    booking := Function.update w.store.booking id (some b)
    bookingCount := some id
    workspaceBookings := Function.update w.store.workspaceBookings workspaceId (some (booked ++ [id]))
    memberBookings := Function.update w.store.memberBookings member
      (some ((w.store.memberBookings member).getD [] ++ [id])) })

def confirmBooking (env : Env C) (bookingId : ℕ) (w : BookingWorld C) : Outcome C := do
  requireNotPaused w
  let admin ← getOr w.store.admin (.error .adminNotSet)
  requireAuth env admin
  let b ← getBooking w bookingId
  -- a cancelled booking passes too, and no overlap is looked for
  failIf (b.status = .confirmed) (.error .bookingAlreadyConfirmed)
  return setBooking w bookingId { b with status := .confirmed }

/-- The validation loop of `batchConfirm`. -/
def preValidate (w : BookingWorld C) : List ℕ → Except (Fault ContractError) Unit
  | [] => .ok ()
  | bookingId :: bookingIds => do
    let b ← getBooking w bookingId
    failIf (b.status = .confirmed) (.error .bookingAlreadyConfirmed)
    let workspace ← getWorkspace w b.workspaceId
    failIf (workspace.availability ≠ .available) (.error .workspaceUnavailable)
    preValidate w bookingIds

/-- The writing loop of `batchConfirm`; the validated ids all have a booking. -/
def confirmAll (bookings : ℕ → Option (Booking Address)) (bookingIds : List ℕ) :
    ℕ → Option (Booking Address) :=
  bookingIds.foldl (fun bookings id =>
    Function.update bookings id ((bookings id).map fun b => { b with status := .confirmed })) bookings

def batchConfirm (env : Env C) (admin : Address) (bookingIds : List ℕ) (w : BookingWorld C) :
    Outcome C := do
  requireNotPaused w
  requireAdmin env w admin
  failIf (maxBatchSize < bookingIds.length) (.error .batchTooLarge)
  preValidate w bookingIds
  return w.setStore { w.store with booking := confirmAll w.store.booking bookingIds }

def cancel (env : Env C) (caller : Address) (bookingId : ℕ) (w : BookingWorld C) :
    Outcome C := do
  requireNotPaused w
  requireAuth env caller
  let b ← getBooking w bookingId
  failIf (b.status = .cancelled) (.error .alreadyCancelled)
  let admin ← getOr w.store.admin (.error .adminNotSet)
  failIf (caller ≠ b.member ∧ caller ≠ admin) (.error .unauthorized)
  return setBooking w bookingId { b with status := .cancelled }

def setBookingEscrow (env : Env C) (caller : Address) (bookingId escrowId : ℕ)
    (w : BookingWorld C) : Outcome C := do
  requireAuth env caller
  let b ← getBooking w bookingId
  let admin ← getOr w.store.admin (.error .adminNotSet)
  failIf (caller ≠ admin) (.error .unauthorized)
  return setBooking w bookingId { b with escrowId := escrowId }

/-- The arms of the match in `transitionWorkspaceState`: `some true` where the new state is
stored, `some false` where it is the old one. -/
def allowedTransition (now : ℕ) : WorkspaceState → WorkspaceState →
    Except (Fault ContractError) Bool
  | .available, .unavailable _ => .ok true
  | .available, .maintenance _ => .ok true
  | .unavailable _, .available => .ok true
  | .maintenance scheduledReturn, .available => do
    failIf (now < scheduledReturn) (.panic "MaintenanceNotComplete")
    return true
  | .maintenance _, .unavailable _ => .ok true
  | oldState, newState => do
    failIf (oldState ≠ newState) (.panic "InvalidStateTransition")
    return false

def transitionWorkspaceState (env : Env C) (admin : Address) (workspaceId : ℕ)
    (newState : WorkspaceState) (w : BookingWorld C) : Outcome C := do
  requireAdmin env w admin
  let workspace ← getWorkspace w workspaceId
  let changed ← allowedTransition w.now workspace.state newState
  return if changed then setWorkspace w workspaceId { workspace with state := newState } else w

def leaveWaitlist (env : Env C) (member : Address) (workspaceId : ℕ) (w : BookingWorld C) :
    Outcome C := do
  requireAuth env member
  let waitlist := getWaitlist w workspaceId
  failIf (∀ entry ∈ waitlist, entry.member ≠ member) (.error .notInWaitlist)
  return w.setStore { w.store with
    waitlist := Function.update w.store.waitlist workspaceId
      (some (waitlist.eraseP fun entry => entry.member = member)) }

def updateTierDiscounts (env : Env C) (caller : Address) (discounts : TierDiscounts)
    (w : BookingWorld C) : Outcome C := do
  requireAdmin env w caller
  return w.setStore { w.store with tierDiscounts := some discounts }

/-- The entry points that write. -/
inductive Call (Address : Type) where
  | initializeContract (admin paymentToken : Address)
  | registerWorkspaceType (caller : Address) (typeId : ℕ) (info : WorkspaceTypeInfo)
  | registerWorkspace (caller : Address) (name : String) (typeId capacity : ℕ) (pricePerHour : ℤ)
  | updateWorkspaceAvailability (caller : Address) (workspaceId : ℕ)
      (availability : WorkspaceAvailability)
  | book (member : Address) (workspaceId startTime endTime : ℕ) (amount : ℤ)
      (stellarTxHash : BitVec 256)
  | confirmBooking (bookingId : ℕ)
  | batchConfirm (admin : Address) (bookingIds : List ℕ)
  | cancel (caller : Address) (bookingId : ℕ)
  | setBookingEscrow (caller : Address) (bookingId escrowId : ℕ)
  | transitionWorkspaceState (admin : Address) (workspaceId : ℕ) (newState : WorkspaceState)
  | leaveWaitlist (member : Address) (workspaceId : ℕ)
  | updateTierDiscounts (caller : Address) (discounts : TierDiscounts)

def exec (env : Env C) : Call Address → BookingWorld C → Outcome C
  | .initializeContract admin token, w => initializeContract env admin token w
  | .registerWorkspaceType caller typeId info, w => registerWorkspaceType env caller typeId info w
  | .registerWorkspace caller name typeId capacity price, w =>
    (registerWorkspace env caller name typeId capacity price w).map Prod.snd
  | .updateWorkspaceAvailability caller id availability, w =>
    updateWorkspaceAvailability env caller id availability w
  | .book member id startTime endTime amount hash, w =>
    (book env member id startTime endTime amount hash w).map Prod.snd
  | .confirmBooking id, w => confirmBooking env id w
  | .batchConfirm admin ids, w => batchConfirm env admin ids w
  | .cancel caller id, w => cancel env caller id w
  | .setBookingEscrow caller id escrowId, w => setBookingEscrow env caller id escrowId w
  | .transitionWorkspaceState admin id state, w => transitionWorkspaceState env admin id state w
  | .leaveWaitlist member id, w => leaveWaitlist env member id w
  | .updateTierDiscounts caller discounts, w => updateTierDiscounts env caller discounts w

end HubAssist.WorkspaceBooking
