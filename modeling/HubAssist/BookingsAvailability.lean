import HubAssist.BookingsConflict
import Mathlib.Data.Set.Defs
import Mathlib.Order.Bounds.Defs

/-! The conflict detection against the instants of the requested interval: when it finds nothing,
and how many places it says are left when it finds the capacity exceeded. -/
namespace HubAssist.Bookings
open Checks IntervalSweep

variable {startTime endTime : ℤ} {workspaceId : String} {excludeBookingId : Option ℕ}
variable {db : Database} {workspace : Workspace} {detail : ConflictDetail}

/-- The window and the requested interval have an instant in common. -/
def MaintenanceWindow.Meets (mw : MaintenanceWindow) (startTime endTime : ℤ) : Prop :=
  ∃ t, (startTime ≤ t ∧ t < endTime) ∧ mw.startTime ≤ t ∧ t < mw.endTime

/-- The places that the bookings take at the instants of the requested interval. -/
def placesTaken (bookings : List Booking) (workspaceId : String) (startTime endTime : ℤ) : Set ℤ :=
  { n | ∃ t, (startTime ≤ t ∧ t < endTime) ∧ occupancy bookings workspaceId t = n }

/-- Of two intervals that are not empty, each begins before the other ends exactly when they have
an instant in common. -/
theorem meets_iff {mw : MaintenanceWindow} (hmw : mw.startTime < mw.endTime)
    (hlt : startTime < endTime) :
    mw.Meets startTime endTime ↔ mw.startTime < endTime ∧ startTime < mw.endTime := by
  constructor
  · rintro ⟨t, ⟨hstart, hend⟩, hfrom, hto⟩
    exact ⟨hfrom.trans_lt hend, hstart.trans_lt hto⟩
  · rintro ⟨hbefore, hafter⟩
    -- the later of the two beginnings is in both
    exact ⟨max startTime mw.startTime, ⟨le_max_left _ _, max_lt hlt hbefore⟩, le_max_right _ _,
      max_lt hafter hmw⟩

/-- The sweep counts the requested booking itself; the rest is the most places taken at once. -/
theorem maxConcurrent_isGreatest (bookings : List Booking) (hlt : startTime < endTime) :
    IsGreatest (placesTaken (leaving bookings excludeBookingId) workspaceId startTime endTime)
      (maxConcurrent startTime endTime
        (overlappingBookings bookings workspaceId startTime endTime excludeBookingId)-1) := by
  have hiff {k : ℤ} (hk : 0 ≤ k) : k < maxConcurrent startTime endTime
      (overlappingBookings bookings workspaceId startTime endTime excludeBookingId) ↔
        Overfull (leaving bookings excludeBookingId) workspaceId k startTime endTime :=
    capacity_lt_maxConcurrent_iff hk
  generalize maxConcurrent startTime endTime
    (overlappingBookings bookings workspaceId startTime endTime excludeBookingId) = most at *
  have hmost : 0 < most := (hiff le_rfl).mpr ⟨startTime, ⟨le_rfl, hlt⟩, by omega⟩
  have hupper (t : ℤ) (hin : startTime ≤ t ∧ t < endTime) :
      (occupancy (leaving bookings excludeBookingId) workspaceId t : ℤ) ≤ most-1 := by
    by_contra hover
    exact absurd ((hiff hmost.le).mpr ⟨t, hin, by omega⟩) (lt_irrefl most)
  constructor
  · obtain ⟨t, hin, hreached⟩ := (hiff (by omega : 0 ≤ most-1)).mp (by omega)
    have hle := hupper t hin
    exact ⟨t, hin, by omega⟩
  · rintro _ ⟨t, hin, rfl⟩
    exact hupper t hin

/-- A report that the capacity is exceeded gives what the sweep has left of it. -/
theorem available_of_exceeded (hworkspace : db.workspaces workspaceId = some workspace)
    (h : hasConflict db workspaceId (some startTime) (some endTime) excludeBookingId =
      .ok (some detail)) (hreason : detail.reason = "capacity_exceeded") :
    detail.available = some (max 0 (workspace.capacity-(maxConcurrent startTime endTime
      (overlappingBookings db.bookings workspaceId startTime endTime excludeBookingId)-1))) := by
  simp only [hasConflict, hworkspace, timestamp, getOr, ok_bind] at h
  split at h
  · -- a maintenance window is reported for another reason
    obtain rfl := Option.some.inj (pure_eq_ok.mp h)
    simp at hreason
  · split at h
    · exact absurd (pure_eq_ok.mp h) (by simp)
    · rename_i firstConflict rest hlist
      split_ifs at h with hmax
      · obtain rfl := Option.some.inj (pure_eq_ok.mp h)
        rw [hlist]
      · exact absurd (pure_eq_ok.mp h) (by simp)

/-- No conflict is reported exactly when no maintenance window has an instant of the interval and
the booking fits at every one of them; and when the capacity is exceeded, the report says how many
places are left where the most are taken. -/
theorem hasConflict_exact (hworkspace : db.workspaces workspaceId = some workspace)
    (hcapacity : 1 ≤ workspace.capacity) (hlt : startTime < endTime)
    (hwindows : ∀ mw ∈ db.maintenanceWindows, mw.workspaceId = workspaceId →
      mw.startTime < mw.endTime) :
    (hasConflict db workspaceId (some startTime) (some endTime) excludeBookingId = .ok none ↔
      (∀ mw ∈ db.maintenanceWindows, mw.workspaceId = workspaceId →
        ¬mw.Meets startTime endTime) ∧
      ∀ t, startTime ≤ t → t < endTime →
        1+occupancy (leaving db.bookings excludeBookingId) workspaceId t ≤ workspace.capacity) ∧
    ∀ detail, hasConflict db workspaceId (some startTime) (some endTime) excludeBookingId =
        .ok (some detail) → detail.reason = "capacity_exceeded" →
      ∃ most, IsGreatest (placesTaken (leaving db.bookings excludeBookingId) workspaceId startTime
          endTime) most ∧ detail.available = some (max 0 (workspace.capacity-most)) := by
  constructor
  · rw [hasConflict_eq_none hworkspace hcapacity]
    apply and_congr
    · constructor
      · intro h mw hmem hid hmeets
        exact h mw hmem ⟨hid, (meets_iff (hwindows mw hmem hid) hlt).mp hmeets⟩
      · rintro h mw hmem ⟨hid, hoverlap⟩
        exact h mw hmem hid ((meets_iff (hwindows mw hmem hid) hlt).mpr hoverlap)
    · constructor
      · intro h t hstart hend
        exact not_lt.mp fun hover => h ⟨t, ⟨hstart, hend⟩, hover⟩
      · rintro h ⟨t, ⟨hstart, hend⟩, hover⟩
        exact absurd (h t hstart hend) (not_le.mpr hover)
  · intro detail hfound hreason
    exact ⟨_, maxConcurrent_isGreatest db.bookings hlt,
      available_of_exceeded hworkspace hfound hreason⟩

/-- A pending booking of a room. -/
def roomBooking (id : ℕ) (startTime endTime : ℤ) : Booking where
  id := id
  workspaceId := "room-1"
  userId := "user-1"
  startTime := startTime
  endTime := endTime
  status := .pending
  totalAmount := 0
  stellarTxHash := none
  recurrenceRule := none
  seriesId := none
  instanceIndex := none
  refundAmount := none
  appliedRateSnapshot := none

/-- A room for two with three bookings, of which the first two overlap and the last two touch, and
a maintenance window later on. -/
def bookedRoom : Database where
  workspaces id := if id = "room-1" then some ⟨2, 10⟩ else none
  maintenanceWindows := [⟨"room-1", 30, 40⟩]
  bookings := [roomBooking 1 0 10, roomBooking 2 5 15, roomBooking 3 15 20]
  outbox := []
  nextId := 4

/-- Two places are taken at once, so none is left. -/
theorem hasConflict_bookedRoom :
    ∃ most, IsGreatest (placesTaken (leaving bookedRoom.bookings none) "room-1" 0 20) most ∧
      some 0 = some (max 0 (2-most)) := by
  have hworkspace : bookedRoom.workspaces "room-1" = some ⟨2, 10⟩ := rfl
  have hfound : hasConflict bookedRoom "room-1" (some 0) (some 20) none =
      .ok (some ⟨"capacity_exceeded", some 1, some (0, 10), some 0⟩) := rfl
  have hwindows : ∀ mw ∈ bookedRoom.maintenanceWindows, mw.workspaceId = "room-1" →
      mw.startTime < mw.endTime := by
    simp [bookedRoom]
  exact (hasConflict_exact hworkspace (by decide) (by decide) hwindows).2 _ hfound rfl

end HubAssist.Bookings
