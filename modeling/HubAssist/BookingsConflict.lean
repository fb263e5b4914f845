import HubAssist.BookingsModel
import Mathlib.Data.List.Count

/-! What the conflict detection finds: the sweep over the stored bookings against the number of
places taken at every instant of the requested interval. -/
namespace HubAssist.Bookings
open Checks IntervalSweep KeyedTable

/-- A booking that holds a place. -/
def BookingStatus.Holds (status : BookingStatus) : Prop := status = .confirmed ∨ status = .pending

instance (status : BookingStatus) : Decidable status.Holds :=
  inferInstanceAs (Decidable (_ ∨ _))

/-- The booking takes a place of the workspace at the instant `t`. -/
def Booking.Takes (b : Booking) (workspaceId : String) (t : ℤ) : Prop :=
  b.workspaceId = workspaceId ∧ b.status.Holds ∧ b.startTime ≤ t ∧ t < b.endTime

instance (b : Booking) (workspaceId : String) (t : ℤ) : Decidable (b.Takes workspaceId t) :=
  inferInstanceAs (Decidable (_ ∧ _))

/-- The places of a workspace that are taken at the instant `t`. -/
def occupancy (bookings : List Booking) (workspaceId : String) (t : ℤ) : ℕ :=
  bookings.countP fun b => b.Takes workspaceId t

/-- The rows a query is about that leaves one booking out. -/
def leaving (bookings : List Booking) (excludeBookingId : Option ℕ) : List Booking :=
  bookings.filter fun b => excludeBookingId ≠ some b.id

/-- One more booking of the interval exceeds the capacity at some instant. -/
def Overfull (bookings : List Booking) (workspaceId : String) (capacity startTime endTime : ℤ) :
    Prop :=
  ∃ t, (startTime ≤ t ∧ t < endTime) ∧ capacity < 1+occupancy bookings workspaceId t

variable {startTime endTime capacity : ℤ} {workspaceId : String} {bookings : List Booking}
variable {excludeBookingId : Option ℕ} {db : Database}

theorem compareEvents_nonpos (a b : Event ℤ) : compareEvents a b ≤ 0 ↔ a.Le b := by
  rw [compareEvents, Event.Le]
  split_ifs with htime hedge hstop
  · constructor
    · intro h
      left
      omega
    · rintro (h | ⟨h, _⟩)
      · omega
      · exact absurd h htime
  -- two starts or two ends at one instant, in either order
  · refine iff_of_true le_rfl (Or.inr ⟨not_not.mp htime, ?_⟩)
    rw [← hedge]
    cases a.edge
    · exact Or.inr rfl
    · exact Or.inl rfl
  · exact iff_of_true (by decide) (Or.inr ⟨not_not.mp htime, Or.inl hstop⟩)
  · refine iff_of_false (by decide) ?_
    rintro (hlt | ⟨_, ha | hb⟩)
    · exact absurd hlt (by omega)
    · exact hstop ha
    · cases ha : a.edge with
      | start => exact hedge (ha.trans hb.symm)
      | stop => exact hstop ha

theorem sweepEvents_eq (events : List (Event ℤ)) {current best : ℤ} (h : current ≤ best) :
    sweepEvents events current best = peak events current best := by
  induction events generalizing current best with
  | nil => rfl
  | cons event events ih =>
    rw [sweepEvents, peak]
    cases event.edge with
    | start =>
      dsimp only [Edge.step]
      rw [ih (by split_ifs <;> omega)]
      congr 1
      split_ifs <;> omega
    | stop =>
      dsimp only [Edge.step]
      rw [ih (by omega)]
      congr 1
      omega

/-- Inside the requested interval a clipped booking counts where the booking does. -/
theorem level_clip (b : Booking) (t : ℤ) :
    level (if max startTime b.startTime < min endTime b.endTime then
      span (max startTime b.startTime, min endTime b.endTime) else []) t =
      if (startTime ≤ t ∧ t < endTime) ∧ b.startTime ≤ t ∧ t < b.endTime then 1 else 0 := by
  by_cases h : max startTime b.startTime < min endTime b.endTime
  · rw [if_pos h, level_span_of_lt h]
    congr 1
    simp only [max_le_iff, lt_min_iff, eq_iff_iff]
    tauto
  · rw [if_neg h, if_neg (by omega), level_nil]

theorem level_clips (overlapping : List Booking) (t : ℤ) :
    level (overlapping.flatMap fun b =>
      if max startTime b.startTime < min endTime b.endTime then
        span (max startTime b.startTime, min endTime b.endTime) else []) t =
      overlapping.countP fun b =>
        (startTime ≤ t ∧ t < endTime) ∧ b.startTime ≤ t ∧ t < b.endTime := by
  induction overlapping with
  | nil => rfl
  | cons b overlapping ih =>
    rw [List.flatMap_cons, level_append, level_clip, ih, List.countP_cons]
    by_cases hin : (startTime ≤ t ∧ t < endTime) ∧ b.startTime ≤ t ∧ t < b.endTime
    · simp [hin, add_comm]
    · simp [hin]

/-- At an instant of the interval the query misses no booking that takes a place there. -/
theorem countP_overlapping {t : ℤ} (h : startTime ≤ t ∧ t < endTime) :
    (overlappingBookings bookings workspaceId startTime endTime excludeBookingId).countP
        (fun b => (startTime ≤ t ∧ t < endTime) ∧ b.startTime ≤ t ∧ t < b.endTime) =
      occupancy (leaving bookings excludeBookingId) workspaceId t := by
  rw [overlappingBookings, occupancy, leaving, List.countP_filter, List.countP_filter]
  apply List.countP_congr
  intro b _
  simp only [Bool.and_eq_true, decide_eq_true_eq]
  constructor
  · rintro ⟨⟨_, hin⟩, hws, hstatus, _, hid⟩
    exact ⟨⟨hws, hstatus, hin⟩, hid⟩
  · rintro ⟨⟨hws, hstatus, hin⟩, hid⟩
    exact ⟨⟨h, hin⟩, hws, hstatus, ⟨by omega, by omega⟩, hid⟩

/-- The sweep finds more than the capacity exactly when one more booking exceeds it. -/
theorem capacity_lt_maxConcurrent_iff (hcapacity : 0 ≤ capacity) :
    capacity < maxConcurrent startTime endTime
        (overlappingBookings bookings workspaceId startTime endTime excludeBookingId) ↔
      Overfull (leaving bookings excludeBookingId) workspaceId capacity startTime endTime := by
  rw [maxConcurrent, sweepEvents_eq _ le_rfl, lt_peak_sorted_iff compareEvents_nonpos _ hcapacity]
  apply exists_congr
  intro t
  rw [conflictEvents, level_append, level_clips]
  by_cases hin : startTime ≤ t ∧ t < endTime
  · rw [level_span_of_lt (hin.1.trans_lt hin.2), if_pos hin, countP_overlapping hin]
    exact (and_iff_right hin).symm
  · -- Outside the interval nothing is clipped, and its own end points never count for one.
    have hnone : (overlappingBookings bookings workspaceId startTime endTime
        excludeBookingId).countP (fun b => (startTime ≤ t ∧ t < endTime) ∧ b.startTime ≤ t ∧
          t < b.endTime) = 0 := by
      simp [hin]
    have hspan : level (span (startTime, endTime)) t ≤ 0 := by
      rcases lt_or_ge startTime endTime with hlt | hge
      · rw [level_span_of_lt hlt, if_neg hin]
      · exact level_span_nonpos hge t
    rw [hnone]
    refine iff_of_false ?_ fun h => hin h.1
    omega

theorem timestamp_eq_ok {date : Date} {time : ℤ} : timestamp date = .ok time ↔ date = some time :=
  getOr_eq_ok

/-- Where the query finds nothing, a place is free. -/
theorem not_overfull_of_nil (hcapacity : 1 ≤ capacity)
    (hnil : overlappingBookings bookings workspaceId startTime endTime excludeBookingId = []) :
    ¬Overfull (leaving bookings excludeBookingId) workspaceId capacity startTime endTime := by
  rintro ⟨t, hin, hover⟩
  rw [← countP_overlapping hin, hnil, List.countP_nil] at hover
  omega

/-- No conflict is found exactly when no maintenance window meets the interval and one more
booking fits in all of it. -/
theorem hasConflict_eq_none {workspace : Workspace}
    (hworkspace : db.workspaces workspaceId = some workspace) (hcapacity : 1 ≤ workspace.capacity) :
    hasConflict db workspaceId (some startTime) (some endTime) excludeBookingId = .ok none ↔
      (∀ mw ∈ db.maintenanceWindows, ¬(mw.workspaceId = workspaceId ∧ mw.startTime < endTime ∧
        startTime < mw.endTime)) ∧
      ¬Overfull (leaving db.bookings excludeBookingId) workspaceId workspace.capacity startTime
        endTime := by
  have hover : workspace.capacity < maxConcurrent startTime endTime (overlappingBookings db.bookings
      workspaceId startTime endTime excludeBookingId) ↔ _ :=
    capacity_lt_maxConcurrent_iff (zero_le_one.trans hcapacity)
  simp only [hasConflict, hworkspace, timestamp, getOr, bind, Except.bind]
  cases hwindow : db.maintenanceWindows.find? fun mw => mw.workspaceId = workspaceId ∧
      mw.startTime < endTime ∧ startTime < mw.endTime with
  | some mw =>
    refine iff_of_false (by simp [pure, Except.pure]) fun h => ?_
    have hfound := List.find?_some hwindow
    exact h.1 mw (List.mem_of_find?_eq_some hwindow) (of_decide_eq_true hfound)
  | none =>
    have hclear := List.find?_eq_none.mp hwindow
    simp only [decide_eq_true_eq] at hclear
    rw [and_iff_right hclear]
    cases hlist : overlappingBookings db.bookings workspaceId startTime endTime
        excludeBookingId with
    -- with nothing found there is no sweep, and one booking alone needs only one place
    | nil => exact iff_of_true rfl (not_overfull_of_nil hcapacity hlist)
    | cons firstConflict rest =>
      rw [hlist] at hover
      rw [← hover]
      by_cases hmax : workspace.capacity < maxConcurrent startTime endTime (firstConflict :: rest)
      · simp [hmax, pure, Except.pure]
      · simp [hmax, pure, Except.pure]

end HubAssist.Bookings
