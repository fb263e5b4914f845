import HubAssist.BookingsAvailability
import HubAssist.BookingsOccupancy
import HubAssist.IsoDate

/-! The capacity check: the places that it says are left in an interval and in the hours of a day,
against those that the conflict detection still gives away. -/
namespace HubAssist.Bookings
open Checks UtcClock

structure Capacity where
  available : ℤ
  capacity : ℤ

structure AvailabilitySlot where
  hour : List Char
  available : ℤ
  capacity : ℤ

/-- The count of the bookings that hold a place in some part of an interval. -/
def concurrentCount (bookings : List Booking) (workspaceId : String) (startTime endTime : ℤ) : ℕ :=
  (overlappingBookings bookings workspaceId startTime endTime none).length

def hasCapacity (db : Database) (workspaceId : String) (startTime endTime : Date) :
    Except ServiceError Capacity := do
  let workspace ← getOr (db.workspaces workspaceId) (.failed "Workspace not found")
  let startTime ← timestamp startTime
  let endTime ← timestamp endTime
  let concurrent := concurrentCount db.bookings workspaceId startTime endTime
  return ⟨max 0 (workspace.capacity-concurrent), workspace.capacity⟩

/-- One turn of the loop over the hours of a day. -/
def hourlySlot (db : Database) (workspaceId : String) (workspace : Workspace) (startOfDay : ℤ)
    (hour : ℕ) : AvailabilitySlot :=
  let slotStart := setUTCHours startOfDay hour
  let slotEnd := setUTCHours slotStart (hour+1)
  let concurrent := concurrentCount db.bookings workspaceId slotStart slotEnd
  ⟨IsoDate.toISOString slotStart, max 0 (workspace.capacity-concurrent), workspace.capacity⟩

def getHourlyAvailability (db : Database) (workspaceId : String) (date : Date) :
    Except ServiceError (List AvailabilitySlot) := do
  let workspace ← getOr (db.workspaces workspaceId) (.failed "Workspace not found")
  let date ← timestamp date
  let startOfDay := setUTCHours date 0
  return (List.range 24).map (hourlySlot db workspaceId workspace startOfDay)

variable {startTime endTime : ℤ} {workspaceId : String} {db : Database} {workspace : Workspace}
variable {bookings : List Booking}

/-- What is shown for an interval is what the most bookings at once leave of the capacity, and it
is positive exactly when the interval can be booked. -/
def ShowsPlacesLeft (db : Database) (workspaceId : String) (capacity startTime endTime : ℤ) :
    Prop :=
  ∃ shown most, hasCapacity db workspaceId (some startTime) (some endTime) = .ok shown ∧
    IsGreatest (placesTaken db.bookings workspaceId startTime endTime) most ∧
    shown.available = max 0 (capacity-most) ∧
    (0 < shown.available ↔
      hasConflict db workspaceId (some startTime) (some endTime) none = .ok none)

/-- The hours of a day that are shown as free are those that can be booked. -/
def ShowsFreeHours (db : Database) (workspaceId : String) (date : ℤ) : Prop :=
  ∃ slots, getHourlyAvailability db workspaceId (some date) = .ok slots ∧ slots.length = 24 ∧
    ∀ (hour : ℕ) slot, slots[hour]? = some slot →
      (0 < slot.available ↔ hasConflict db workspaceId (some (setUTCHours date hour))
        (some (setUTCHours date (hour+1))) none = .ok none)

/-- At some instant of the interval the bookings take all places. -/
def Full (bookings : List Booking) (workspaceId : String) (capacity startTime endTime : ℤ) : Prop :=
  ∃ t, (startTime ≤ t ∧ t < endTime) ∧ capacity ≤ occupancy bookings workspaceId t

/-- The bookings that hold a place in the interval all hold it at one instant. -/
def Coincide (bookings : List Booking) (workspaceId : String) (startTime endTime : ℤ) : Prop :=
  ∃ t, (startTime ≤ t ∧ t < endTime) ∧
    ∀ b ∈ overlappingBookings bookings workspaceId startTime endTime none,
      b.startTime ≤ t ∧ t < b.endTime

theorem hasCapacity_eq (hworkspace : db.workspaces workspaceId = some workspace) :
    hasCapacity db workspaceId (some startTime) (some endTime) =
      .ok ⟨max 0 (workspace.capacity-concurrentCount db.bookings workspaceId startTime endTime),
        workspace.capacity⟩ := by
  simp only [hasCapacity, hworkspace, timestamp, getOr, ok_bind]
  rfl

theorem getHourlyAvailability_eq (hworkspace : db.workspaces workspaceId = some workspace)
    (date : ℤ) : getHourlyAvailability db workspaceId (some date) =
      .ok ((List.range 24).map (hourlySlot db workspaceId workspace (setUTCHours date 0))) := by
  simp only [getHourlyAvailability, hworkspace, timestamp, getOr, ok_bind]
  rfl

/-- The bookings of an instant are among those of the interval. -/
theorem occupancy_le_count {t : ℤ} (hin : startTime ≤ t ∧ t < endTime) :
    occupancy bookings workspaceId t ≤ concurrentCount bookings workspaceId startTime endTime := by
  have hcount : (overlappingBookings bookings workspaceId startTime endTime none).countP _ = _ :=
    countP_overlapping hin
  rw [leaving_none] at hcount
  rw [← hcount]
  exact List.countP_le_length

/-- They are all of those exactly when each of the interval is one of the instant. -/
theorem occupancy_eq_count_iff {t : ℤ} (hin : startTime ≤ t ∧ t < endTime) :
    occupancy bookings workspaceId t = concurrentCount bookings workspaceId startTime endTime ↔
      ∀ b ∈ overlappingBookings bookings workspaceId startTime endTime none,
        b.startTime ≤ t ∧ t < b.endTime := by
  have hcount : (overlappingBookings bookings workspaceId startTime endTime none).countP _ = _ :=
    countP_overlapping hin
  rw [leaving_none] at hcount
  rw [← hcount, concurrentCount, List.countP_eq_length]
  simp [hin]

theorem coincide_iff_exists : Coincide bookings workspaceId startTime endTime ↔
    ∃ t, (startTime ≤ t ∧ t < endTime) ∧
      occupancy bookings workspaceId t =
        concurrentCount bookings workspaceId startTime endTime := by
  apply exists_congr
  intro t
  apply and_congr_right
  intro hin
  exact (occupancy_eq_count_iff hin).symm

/-- With no maintenance window an interval can be booked unless it is full somewhere. -/
theorem bookable_iff (hworkspace : db.workspaces workspaceId = some workspace)
    (hcapacity : 1 ≤ workspace.capacity)
    (hwindows : ∀ mw ∈ db.maintenanceWindows, mw.workspaceId ≠ workspaceId) :
    hasConflict db workspaceId (some startTime) (some endTime) none = .ok none ↔
      ¬Full db.bookings workspaceId workspace.capacity startTime endTime := by
  rw [hasConflict_eq_none hworkspace hcapacity, leaving_none]
  have hclear : ∀ mw ∈ db.maintenanceWindows, ¬(mw.workspaceId = workspaceId ∧
      mw.startTime < endTime ∧ startTime < mw.endTime) :=
    fun mw hmem h => hwindows mw hmem h.1
  rw [and_iff_right hclear, not_iff_not]
  apply exists_congr
  intro t
  apply and_congr_right
  intro _
  omega

theorem full_iff {capacity most : ℤ}
    (hmost : IsGreatest (placesTaken bookings workspaceId startTime endTime) most) :
    Full bookings workspaceId capacity startTime endTime ↔ capacity ≤ most := by
  constructor
  · rintro ⟨t, hin, hfull⟩
    exact hfull.trans (hmost.2 ⟨t, hin, rfl⟩)
  · intro hle
    obtain ⟨t, hin, hreached⟩ := hmost.1
    exact ⟨t, hin, by omega⟩

theorem coincide_iff {most : ℤ}
    (hmost : IsGreatest (placesTaken bookings workspaceId startTime endTime) most) :
    Coincide bookings workspaceId startTime endTime ↔
      (concurrentCount bookings workspaceId startTime endTime : ℤ) = most := by
  rw [coincide_iff_exists]
  constructor
  · rintro ⟨t, hin, hall⟩
    have hle : (occupancy bookings workspaceId t : ℤ) ≤ most := hmost.2 ⟨t, hin, rfl⟩
    obtain ⟨t', hin', hreached⟩ := hmost.1
    have hcount : occupancy bookings workspaceId t' ≤ _ := occupancy_le_count hin'
    omega
  · intro heq
    obtain ⟨t, hin, hreached⟩ := hmost.1
    exact ⟨t, hin, by omega⟩

theorem showsPlacesLeft_iff (hworkspace : db.workspaces workspaceId = some workspace)
    (hcapacity : 1 ≤ workspace.capacity)
    (hwindows : ∀ mw ∈ db.maintenanceWindows, mw.workspaceId ≠ workspaceId)
    (hlt : startTime < endTime) :
    ShowsPlacesLeft db workspaceId workspace.capacity startTime endTime ↔
      Full db.bookings workspaceId workspace.capacity startTime endTime ∨
        Coincide db.bookings workspaceId startTime endTime := by
  have hmost :
      IsGreatest (placesTaken (leaving db.bookings none) workspaceId startTime endTime) _ :=
    maxConcurrent_isGreatest db.bookings hlt
  rw [leaving_none] at hmost
  generalize maxConcurrent startTime endTime
    (overlappingBookings db.bookings workspaceId startTime endTime none)-1 = most at hmost
  have hle : most ≤ concurrentCount db.bookings workspaceId startTime endTime := by
    obtain ⟨t, hin, hreached⟩ := hmost.1
    rw [← hreached]
    exact_mod_cast occupancy_le_count hin
  rw [ShowsPlacesLeft, full_iff hmost, coincide_iff hmost]
  simp only [hasCapacity_eq hworkspace, bookable_iff hworkspace hcapacity hwindows]
  constructor
  · rintro ⟨shown, most', hshown, hmost', havailable, _⟩
    obtain rfl := hmost'.unique hmost
    obtain rfl := Except.ok.inj hshown
    dsimp only at havailable
    omega
  · intro hcond
    refine ⟨_, most, rfl, hmost, ?_, ?_⟩
    · dsimp only
      omega
    · rw [full_iff hmost]
      dsimp only
      omega

/-- A place is shown exactly where one is left, unless there are bookings for all places that do
not meet. -/
theorem shown_iff_not_full {capacity : ℤ} :
    (0 < max 0 (capacity-concurrentCount bookings workspaceId startTime endTime) ↔
      ¬Full bookings workspaceId capacity startTime endTime) ↔
    Full bookings workspaceId capacity startTime endTime ∨
      (concurrentCount bookings workspaceId startTime endTime : ℤ) < capacity := by
  by_cases hfull : Full bookings workspaceId capacity startTime endTime
  · obtain ⟨t, hin, htaken⟩ := hfull
    have hcount : occupancy bookings workspaceId t ≤ _ := occupancy_le_count hin
    have hfull : Full bookings workspaceId capacity startTime endTime := ⟨t, hin, htaken⟩
    simp only [hfull, not_true_eq_false, iff_false, true_or, iff_true]
    omega
  · simp only [hfull, not_false_eq_true, iff_true, false_or]
    omega

theorem hourlySlot_available (db : Database) (workspaceId : String) (workspace : Workspace)
    (date : ℤ) {hour : ℕ} (h : hour < 24) :
    (hourlySlot db workspaceId workspace (setUTCHours date 0) hour).available =
      max 0 (workspace.capacity-concurrentCount db.bookings workspaceId (setUTCHours date hour)
        (setUTCHours date (hour+1))) := by
  have hhour : (0 : ℤ) ≤ hour ∧ (hour : ℤ) < 24 := by omega
  simp only [hourlySlot, setUTCHours_setUTCHours (by decide : (0 : ℤ) ≤ 0 ∧ (0 : ℤ) < 24),
    setUTCHours_setUTCHours hhour]

/-- The hours shown are right when in each that is not full somewhere the bookings that meet it
are fewer than the places. -/
theorem showsFreeHours_iff (hworkspace : db.workspaces workspaceId = some workspace)
    (hcapacity : 1 ≤ workspace.capacity)
    (hwindows : ∀ mw ∈ db.maintenanceWindows, mw.workspaceId ≠ workspaceId) (date : ℤ) :
    ShowsFreeHours db workspaceId date ↔ ∀ hour : ℕ, hour < 24 →
      Full db.bookings workspaceId workspace.capacity (setUTCHours date hour)
          (setUTCHours date (hour+1)) ∨
        (concurrentCount db.bookings workspaceId (setUTCHours date hour)
          (setUTCHours date (hour+1)) : ℤ) < workspace.capacity := by
  simp only [ShowsFreeHours, getHourlyAvailability_eq hworkspace,
    bookable_iff hworkspace hcapacity hwindows, ← shown_iff_not_full]
  constructor
  · rintro ⟨slots, hslots, _, h⟩ hour hlt
    obtain rfl := Except.ok.inj hslots
    rw [← hourlySlot_available db workspaceId workspace date hlt]
    exact h hour _ (by simp [hlt])
  · intro h
    refine ⟨_, rfl, by simp, ?_⟩
    intro hour slot hslot
    rw [List.getElem?_map, Option.map_eq_some_iff] at hslot
    obtain ⟨hour', hhour, rfl⟩ := hslot
    obtain ⟨hlt, rfl⟩ := List.getElem?_eq_some_iff.mp hhour
    rw [List.length_range] at hlt
    rw [List.getElem_range, hourlySlot_available db workspaceId workspace date hlt]
    exact h hour hlt

/-- What is shown agrees with what can be booked exactly when, in the interval, all places are
taken at some instant or the bookings all meet at one; and, in each hour of the day, all places
are taken at some instant or the bookings are fewer than the places. -/
theorem availability_agrees_iff (hworkspace : db.workspaces workspaceId = some workspace)
    (hcapacity : 1 ≤ workspace.capacity)
    (hwindows : ∀ mw ∈ db.maintenanceWindows, mw.workspaceId ≠ workspaceId)
    (hlt : startTime < endTime) (date : ℤ) :
    (ShowsPlacesLeft db workspaceId workspace.capacity startTime endTime ↔
      Full db.bookings workspaceId workspace.capacity startTime endTime ∨
        Coincide db.bookings workspaceId startTime endTime) ∧
    (ShowsFreeHours db workspaceId date ↔ ∀ hour : ℕ, hour < 24 →
      Full db.bookings workspaceId workspace.capacity (setUTCHours date hour)
          (setUTCHours date (hour+1)) ∨
        ((overlappingBookings db.bookings workspaceId (setUTCHours date hour)
          (setUTCHours date (hour+1)) none).length : ℤ) < workspace.capacity) :=
  ⟨showsPlacesLeft_iff hworkspace hcapacity hwindows hlt,
    showsFreeHours_iff hworkspace hcapacity hwindows date⟩

/-- A room for two with two bookings of half an hour, one after the other. -/
def halfHours : Database where
  workspaces id := if id = "room-1" then some ⟨2, 12⟩ else none
  maintenanceWindows := []
  bookings := [roomBooking 11 0 1800000, roomBooking 12 1800000 3600000]
  outbox := []
  nextId := 13

/-- No place of the hour is shown as free, though at each instant one is, and one more booking of
the hour is not in conflict. -/
theorem availability_halfHours :
    ¬ShowsPlacesLeft halfHours "room-1" 2 0 3600000 ∧ ¬ShowsFreeHours halfHours "room-1" 0 := by
  have hbookable : hasConflict halfHours "room-1" (some 0) (some 3600000) none = .ok none := rfl
  constructor
  · rintro ⟨shown, _, hshown, _, _, hpositive⟩
    obtain rfl := Except.ok.inj hshown
    exact absurd (hpositive.mpr hbookable) (by decide)
  · rintro ⟨slots, hslots, _, h⟩
    obtain rfl := Except.ok.inj hslots
    exact absurd ((h 0 _ rfl).mpr hbookable) (by decide)

/-- With a third place the hour is shown as free. -/
theorem availability_agrees_spare :
    let spare : Database :=
      { halfHours with workspaces := fun id => if id = "room-1" then some ⟨3, 12⟩ else none }
    ShowsPlacesLeft spare "room-1" 3 0 1800000 ∧ ShowsFreeHours spare "room-1" 0 := by
  intro spare
  have hworkspace : spare.workspaces "room-1" = some ⟨3, 12⟩ := rfl
  have hagrees := availability_agrees_iff hworkspace (by decide) (by simp [spare, halfHours])
    (by decide : (0 : ℤ) < 1800000) 0
  refine ⟨hagrees.1.mpr (Or.inr ⟨0, by decide, by decide⟩), hagrees.2.mpr ?_⟩
  intro hour _
  right
  have hcount : (overlappingBookings spare.bookings "room-1" (setUTCHours 0 hour)
      (setUTCHours 0 (hour+1)) none).length ≤ spare.bookings.length := List.length_filter_le _ _
  have htwo : spare.bookings.length = 2 := rfl
  have hthree : (⟨3, 12⟩ : Workspace).capacity = 3 := rfl
  omega

end HubAssist.Bookings
