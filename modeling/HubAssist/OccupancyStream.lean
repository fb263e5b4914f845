import HubAssist.BookingsCapacity
import HubAssist.ClosedRanges

/-! The occupancy that a workspace streams, next to the places that its bookings take. The stream
counts with ranges that are closed at both ends. -/
namespace HubAssist.OccupancyStream
open Bookings Checks ClosedRanges

structure OccupancyUpdate where
  workspaceId : String
  currentOccupancy : ℕ
  capacity : ℤ
  remainingCapacity : ℤ
  timestamp : ℤ
  eventId : String

/-- The last instant of a `Date`. -/
def lastInstant : ℤ := 8640000000000000

/-- The clock is read three times: for the query, the timestamp and the event. -/
structure Clock where
  now : ℤ
  timestamp : ℤ
  event : ℤ

def Confirmed (workspaceId : String) (b : Booking) : Prop :=
  b.workspaceId = workspaceId ∧ b.status = .confirmed

instance (workspaceId : String) (b : Booking) : Decidable (Confirmed workspaceId b) :=
  inferInstanceAs (Decidable (_ ∧ _))

def getOccupancyUpdate (db : Database) (clock : Clock) (workspaceId : String) :
    Except ServiceError OccupancyUpdate := do
  let workspace ← getOr (db.workspaces workspaceId) (.failed "Workspace not found")
  let currentOccupancy := db.bookings.countP fun b => Confirmed workspaceId b ∧
    Between 0 clock.now b.startTime ∧ Between clock.now lastInstant b.endTime
  return {
    workspaceId := workspaceId
    currentOccupancy := currentOccupancy
    capacity := workspace.capacity
    remainingCapacity := workspace.capacity-currentOccupancy
    timestamp := clock.timestamp
    eventId := workspaceId ++ "-" ++ toString clock.event }

/-- The Confirmed bookings of a workspace that are running. -/
def running (bookings : List Booking) (workspaceId : String) (now : ℤ) : ℕ :=
  bookings.countP fun b => Confirmed workspaceId b ∧
    Running Booking.startTime Booking.endTime now b

/-- The Confirmed bookings that end at the very instant, after a start that is not before 1970. -/
def ending (bookings : List Booking) (workspaceId : String) (now : ℤ) : ℕ :=
  bookings.countP fun b => Confirmed workspaceId b ∧
    EndsNow Booking.startTime Booking.endTime 0 lastInstant now b

/-- The Confirmed bookings that are running since before 1970, or until after the last `Date`. -/
def outside (bookings : List Booking) (workspaceId : String) (now : ℤ) : ℕ :=
  bookings.countP fun b => Confirmed workspaceId b ∧
    RunsOut Booking.startTime Booking.endTime 0 lastInstant now b

/-- The stream counts the running bookings, and leaves what remains of the capacity. -/
def Reports (db : Database) (clock : Clock) (workspaceId : String) (capacity : ℤ) : Prop :=
  ∃ update, getOccupancyUpdate db clock workspaceId = .ok update ∧
    update.currentOccupancy = running db.bookings workspaceId clock.now ∧
    0 ≤ update.remainingCapacity ∧ update.remainingCapacity ≤ capacity

variable {db : Database} {clock : Clock} {workspaceId : String} {workspace : Workspace}

/-- What the query of the stream finds. -/
def counted (bookings : List Booking) (workspaceId : String) (now : ℤ) : ℕ :=
  bookings.countP fun b => Confirmed workspaceId b ∧
    Between 0 now b.startTime ∧ Between now lastInstant b.endTime

theorem counted_add_outside (bookings : List Booking) (workspaceId : String) (now : ℤ) :
    counted bookings workspaceId now+outside bookings workspaceId now =
      running bookings workspaceId now+ending bookings workspaceId now :=
  countP_between Booking.startTime Booking.endTime 0 lastInstant now (Confirmed workspaceId)
    bookings

theorem getOccupancyUpdate_eq_ok {update : OccupancyUpdate}
    (hworkspace : db.workspaces workspaceId = some workspace) :
    getOccupancyUpdate db clock workspaceId = .ok update ↔
      update = ⟨workspaceId, counted db.bookings workspaceId clock.now, workspace.capacity,
        workspace.capacity-counted db.bookings workspaceId clock.now, clock.timestamp,
        workspaceId ++ "-" ++ toString clock.event⟩ := by
  simp only [getOccupancyUpdate, hworkspace, getOr, bind, Except.bind, pure, Except.pure,
    Except.ok.injEq]
  exact eq_comm

/-- The stream is right exactly when as many bookings end now as are running out of the range of
the query; when all lie inside of it, exactly when none ends now. -/
theorem reports_iff (clock : Clock) (hworkspace : db.workspaces workspaceId = some workspace)
    (hcapacity : ∀ t, (running db.bookings workspaceId t : ℤ) ≤ workspace.capacity) :
    Reports db clock workspaceId workspace.capacity ↔
      ending db.bookings workspaceId clock.now = outside db.bookings workspaceId clock.now := by
  have hcount := counted_add_outside db.bookings workspaceId clock.now
  have hroom := hcapacity clock.now
  constructor
  · rintro ⟨update, hok, hcurrent, _⟩
    rw [(getOccupancyUpdate_eq_ok hworkspace).mp hok] at hcurrent
    dsimp only at hcurrent
    omega
  · intro hsame
    refine ⟨_, (getOccupancyUpdate_eq_ok hworkspace).mpr rfl, ?_⟩
    dsimp only
    omega

/-- A room for one, and two bookings of it of which the second begins when the first ends. -/
def confirmedHour (id : ℕ) (startTime endTime : ℤ) : Booking :=
  ⟨id, "room-1", "user-1", startTime, endTime, .confirmed, 10, none, none, none, none, none, none⟩

def handedOver : Database where
  workspaces workspaceId := if workspaceId = "room-1" then some ⟨1, 10⟩ else none
  maintenanceWindows := []
  bookings := [confirmedHour 1 0 3600000, confirmedHour 2 3600000 7200000]
  outbox := []
  nextId := 3

theorem running_handedOver (t : ℤ) : (running handedOver.bookings "room-1" t : ℤ) ≤ 1 := by
  have hcount : running handedOver.bookings "room-1" t =
      (if 0 ≤ t ∧ t < 3600000 then 1 else 0)+(if 3600000 ≤ t ∧ t < 7200000 then 1 else 0) := by
    simp only [running, handedOver, confirmedHour, List.countP_cons, List.countP_nil, Confirmed,
      Running, decide_eq_true_eq, true_and, and_self, zero_add]
    rw [add_comm]
  rw [hcount]
  split_ifs <;> omega

/-- At the hand-over both are counted, and -1 place remains. -/
theorem hand_over_counted_twice :
    ¬∀ (db : Database) (clock : Clock) (workspaceId : String) (workspace : Workspace),
      db.workspaces workspaceId = some workspace →
      (∀ t, (running db.bookings workspaceId t : ℤ) ≤ workspace.capacity) →
        Reports db clock workspaceId workspace.capacity := by
  intro hall
  obtain ⟨update, hok, _, hremains, _⟩ := hall handedOver ⟨3600000, 3600001, 3600002⟩ "room-1"
    ⟨1, 10⟩ rfl running_handedOver
  have hworkspace : handedOver.workspaces "room-1" = some ⟨1, 10⟩ := rfl
  rw [(getOccupancyUpdate_eq_ok hworkspace).mp hok] at hremains
  revert hremains
  decide

theorem reports_before_hand_over : Reports handedOver ⟨3599999, 3600001, 3600002⟩ "room-1" 1 := by
  have hworkspace : handedOver.workspaces "room-1" = some ⟨1, 10⟩ := rfl
  apply (reports_iff ⟨3599999, 3600001, 3600002⟩ hworkspace running_handedOver).mpr
  decide

/-- The bookings that hold a place are no fewer than the Confirmed ones. -/
theorem running_le_occupancy (bookings : List Booking) (workspaceId : String) (now : ℤ) :
    running bookings workspaceId now ≤ occupancy bookings workspaceId now := by
  apply List.countP_mono_left
  intro b _ hb
  obtain ⟨⟨hworkspace, hstatus⟩, hrunning⟩ := of_decide_eq_true hb
  exact decide_eq_true ⟨hworkspace, .inl hstatus, hrunning⟩

/-- Where the conflict detection keeps to the capacities, the stream is right at all moments at
which no booking ends. -/
theorem reports_of_withinCapacity (h : WithinCapacity db) (clock : Clock)
    (hworkspace : db.workspaces workspaceId = some workspace) (hcapacity : 1 ≤ workspace.capacity)
    (hdates : ∀ b ∈ db.bookings, 0 ≤ b.startTime ∧ b.endTime ≤ lastInstant)
    (hend : ∀ b ∈ db.bookings, b.endTime ≠ clock.now) :
    Reports db clock workspaceId workspace.capacity := by
  have hbound : ∀ t, (running db.bookings workspaceId t : ℤ) ≤ workspace.capacity := by
    intro t
    have hle := running_le_occupancy db.bookings workspaceId t
    have hwithin := h workspaceId workspace hworkspace hcapacity t
    omega
  apply (reports_iff clock hworkspace hbound).mpr
  have hnone : ending db.bookings workspaceId clock.now = 0 := by
    rw [ending, List.countP_eq_zero]
    intro b hb hends
    exact hend b hb (of_decide_eq_true hends).2.2.1
  have hinside : outside db.bookings workspaceId clock.now = 0 := by
    rw [outside, List.countP_eq_zero]
    intro b hb hout
    obtain ⟨hstart, hstop⟩ := hdates b hb
    rcases (of_decide_eq_true hout).2.2 with hearly | hlate
    · omega
    · omega
  rw [hnone, hinside]

end HubAssist.OccupancyStream
