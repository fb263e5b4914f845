import HubAssist.BookingsSteps

/-! The places taken of a workspace as bookings are saved, and the identifiers of bookings. -/
namespace HubAssist.Bookings
open Checks KeyedTable

variable {db db' : Database} {env : Services} {call : Call} {a : Action}
variable {bookings news : List Booking} {b booking : Booking} {workspaceId : String}
variable {capacity : ℤ}

/-- At every instant the places taken of a workspace are at most `capacity`. -/
def Bounded (bookings : List Booking) (workspaceId : String) (capacity : ℤ) : Prop :=
  ∀ t, (occupancy bookings workspaceId t : ℤ) ≤ capacity

/-- Identifiers are unique and given out in order. -/
structure Numbered (db : Database) : Prop where
  keyed : Keyed Booking.id db.bookings
  fresh : ∀ id ∈ db.bookings.map Booking.id, id < db.nextId

theorem leaving_none (bookings : List Booking) : leaving bookings none = bookings := by
  simp [leaving]

theorem leaving_some (bookings : List Booking) (id : ℕ) :
    leaving bookings (some id) = others Booking.id bookings id := by
  simp [leaving, others, eq_comm]

theorem occupancy_append (bookings news : List Booking) (workspaceId : String) (t : ℤ) :
    occupancy (bookings ++ news) workspaceId t =
      occupancy bookings workspaceId t+occupancy news workspaceId t :=
  List.countP_append

theorem occupancy_others_le (bookings : List Booking) (id : ℕ) (workspaceId : String) (t : ℤ) :
    occupancy (others Booking.id bookings id) workspaceId t ≤ occupancy bookings workspaceId t :=
  List.filter_sublist.countP_le

theorem occupancy_save (h : Keyed Booking.id bookings) (b : Booking) (workspaceId : String) (t : ℤ) :
    occupancy (save Booking.id bookings b) workspaceId t =
      occupancy (others Booking.id bookings b.id) workspaceId t+
        if b.Takes workspaceId t then 1 else 0 := by
  simp only [occupancy, h.countP_save, decide_eq_true_eq]

/-- Saving a booking that takes a place only where its stored row did takes no more places. -/
theorem occupancy_save_le (h : Keyed Booking.id bookings) (hstored : booking ∈ bookings)
    (hid : b.id = booking.id) {t : ℤ}
    (htakes : b.Takes workspaceId t → booking.Takes workspaceId t) :
    occupancy (save Booking.id bookings b) workspaceId t ≤ occupancy bookings workspaceId t := by
  -- both tables have the same other rows, so only the saved row counts
  have hbefore : occupancy bookings workspaceId t =
      occupancy (others Booking.id bookings b.id) workspaceId t+
        if booking.Takes workspaceId t then 1 else 0 := by
    simp only [occupancy, hid, h.countP_others _ hstored, decide_eq_true_eq]
  rw [occupancy_save h, hbefore]
  by_cases hb : b.Takes workspaceId t
  · rw [if_pos hb, if_pos (htakes hb)]
  · rw [if_neg hb]
    omega

/-- A booking for which there is room can be saved. -/
theorem Bounded.save (h : Bounded bookings workspaceId capacity) (hkeyed : Keyed Booking.id bookings)
    (hfits : b.workspaceId = workspaceId →
      ¬Overfull (others Booking.id bookings b.id) workspaceId capacity b.startTime b.endTime) :
    Bounded (save Booking.id bookings b) workspaceId capacity := by
  intro t
  rw [occupancy_save hkeyed]
  by_cases htakes : b.Takes workspaceId t
  · rw [if_pos htakes]
    obtain ⟨hworkspace, _, hin⟩ := htakes
    by_contra hover
    refine hfits hworkspace ⟨t, hin, ?_⟩
    push_cast at hover
    omega
  · rw [if_neg htakes]
    have hle := occupancy_others_le bookings b.id workspaceId t
    have hbound := h t
    omega

/-- Bookings that take places of a workspace fit together exactly when each fits beside those
stored before it. -/
theorem Bounded.append_iff (h : Bounded bookings workspaceId capacity)
    (hnews : ∀ b ∈ news, b.workspaceId = workspaceId ∧ b.status.Holds) :
    Bounded (bookings ++ news) workspaceId capacity ↔ ∀ pre b post, news = pre ++ b :: post →
      ¬Overfull (bookings ++ pre) workspaceId capacity b.startTime b.endTime := by
  constructor
  · rintro hbound pre b post rfl ⟨t, hin, hover⟩
    obtain ⟨hworkspace, hholds⟩ := hnews b (by simp)
    have htakes : b.Takes workspaceId t := ⟨hworkspace, hholds, hin⟩
    -- where `b` does not fit, `b` and those before it exceed the capacity already
    have hone : occupancy (b :: post) workspaceId t = occupancy post workspaceId t+1 := by
      simp [occupancy, htakes]
    have htotal := hbound t
    rw [← List.append_assoc, occupancy_append, hone] at htotal
    omega
  · intro hfits
    induction news generalizing bookings with
    | nil => rwa [List.append_nil]
    | cons b news ih =>
      -- the first of them fits, and the others fit beside it by induction
      have hfirst : Bounded (bookings ++ [b]) workspaceId capacity := by
        intro t
        rw [occupancy_append]
        by_cases htakes : b.Takes workspaceId t
        · have hroom := hfits [] b news rfl
          rw [List.append_nil] at hroom
          by_contra hover
          refine hroom ⟨t, htakes.2.2, ?_⟩
          simp only [occupancy, List.countP_singleton, htakes, decide_true, if_true] at hover ⊢
          omega
        · have hbound := h t
          simpa [occupancy, htakes] using hbound
      rw [List.append_cons]
      apply ih hfirst fun b' hb' => hnews b' (List.mem_cons_of_mem b hb')
      rintro pre b' post rfl
      rw [List.append_assoc]
      exact hfits (b :: pre) b' post rfl

theorem Numbered.fresh_key (h : Numbered db) {id : ℕ} (hid : db.nextId ≤ id) :
    id ∉ db.bookings.map Booking.id :=
  fun hmem => absurd (h.fresh id hmem) (not_lt.mpr hid)

theorem seriesBookings_ids {userId : String} {dto : CreateBookingDto} {workspace : Workspace}
    (seriesId : ℕ) (instances : List RecurrenceInstance) :
    (seriesBookings env userId dto workspace seriesId instances).map Booking.id =
      List.range' (seriesId+1) instances.length := by
  apply List.ext_getElem
  · simp [seriesBookings]
  · intro n _ _
    simp [seriesBookings, seriesBooking]

theorem mem_seriesBookings {userId : String} {dto : CreateBookingDto} {workspace : Workspace}
    {seriesId : ℕ} {instances : List RecurrenceInstance}
    (hb : b ∈ seriesBookings env userId dto workspace seriesId instances) :
    b.workspaceId = dto.workspaceId ∧ b.status.Holds := by
  obtain ⟨n, hn, rfl⟩ := List.mem_mapIdx.mp hb
  exact ⟨rfl, Or.inr rfl⟩

/-- The rows of a series are appended. -/
theorem Numbered.saveSeries (h : Numbered db) {userId : String} {dto : CreateBookingDto}
    {workspace : Workspace} (instances : List RecurrenceInstance) :
    saveAll Booking.id db.bookings (seriesBookings env userId dto workspace db.nextId instances) =
      db.bookings ++ seriesBookings env userId dto workspace db.nextId instances := by
  apply saveAll_fresh
  rw [List.map_append, seriesBookings_ids, List.nodup_append]
  refine ⟨h.keyed, List.nodup_range', ?_⟩
  rintro id hid other hother rfl
  exact h.fresh_key (Nat.le_of_succ_le (List.mem_range'_1.mp hother).1) hid

/-- Where the identifiers stay, they stay unique. -/
theorem Numbered.of_ids (h : Numbered db) (hnext : db'.nextId = db.nextId)
    (hids : db'.bookings.map Booking.id = db.bookings.map Booking.id) : Numbered db' := by
  refine ⟨?_, ?_⟩
  · rw [Keyed, hids]
    exact h.keyed
  · rw [hids, hnext]
    exact h.fresh

theorem Numbered.save (h : Numbered db) (hstored : booking ∈ db.bookings)
    (hbookings : db'.bookings = save Booking.id db.bookings b) (hid : b.id = booking.id)
    (hnext : db'.nextId = db.nextId) : Numbered db' := by
  have hmem : b.id ∈ db.bookings.map Booking.id := hid ▸ List.mem_map_of_mem hstored
  apply h.of_ids hnext
  rw [hbookings]
  exact map_save_of_mem hmem

/-- Every call keeps the identifiers unique. -/
theorem Effect.numbered (heffect : Effect env db call db') (h : Numbered db) : Numbered db' := by
  cases heffect with
  | inserts userId dto userTier workspace startTime endTime rateSnapshot event _ _ _ =>
    refine ⟨h.keyed.save _, ?_⟩
    rw [save_fresh (h.fresh_key le_rfl), List.map_append]
    intro id hid
    rcases List.mem_append.mp hid with hold | hnew
    · exact (h.fresh id hold).trans (Nat.lt_succ_self _)
    · rw [List.mem_singleton.mp hnew]
      exact Nat.lt_succ_self _
  | insertsSeries userId dto userTier workspace instances _ =>
    refine ⟨h.keyed.saveAll _, ?_⟩
    dsimp only [withSeries]
    rw [h.saveSeries, List.map_append, seriesBookings_ids]
    intro id hid
    rw [seriesBookings, List.length_mapIdx]
    rcases List.mem_append.mp hid with hold | hnew
    · have hlt := h.fresh id hold
      omega
    · exact (List.mem_range'_1.mp hnew).2
  | confirms id booking event hbooking _ =>
    exact h.save (findRow_eq_some hbooking).1 rfl rfl rfl
  | cancels id userId booking refundAmount hbooking =>
    exact h.save (findRow_eq_some hbooking).1 rfl rfl rfl
  | cancelsSeries seriesId userId cancelled hcancelled =>
    exact h.of_ids rfl (map_saveAll_of_mem fun b hb => (hcancelled b hb).2)
  | moves id dto userTier booking saved _ hbooking hid _ _ =>
    exact h.save (findRow_eq_some hbooking).1 rfl hid rfl
  | patches id dto userTier booking status hbooking _ _ _ =>
    exact h.save (findRow_eq_some hbooking).1 rfl rfl rfl

theorem Numbered.step (h : Numbered db) (a : Action) : Numbered (step db a) :=
  orRollback_keeps h fun _ hcall => (exec_effect hcall).numbered h

/-- Saving bookings that hold no place takes no more places. -/
theorem Bounded.saveAll (h : Bounded bookings workspaceId capacity)
    (hkeyed : Keyed Booking.id bookings) (hnews : ∀ b ∈ news, ¬b.status.Holds) :
    Bounded (saveAll Booking.id bookings news) workspaceId capacity := by
  induction news generalizing bookings with
  | nil => exact h
  | cons b news ih =>
    obtain ⟨hb, hrest⟩ := List.forall_mem_cons.mp hnews
    apply ih (fun t => ?_) (hkeyed.save b) hrest
    have hle := occupancy_others_le bookings b.id workspaceId t
    have hbound := h t
    rw [occupancy_save hkeyed, if_neg fun htakes => hb htakes.2.1]
    omega

/-- Saving a booking that holds a place only if its stored row did, in the same interval, takes
no more places. -/
theorem Bounded.save_kept (h : Bounded bookings workspaceId capacity)
    (hkeyed : Keyed Booking.id bookings) (hstored : booking ∈ bookings) (hid : b.id = booking.id)
    (htakes : ∀ t, b.Takes workspaceId t → booking.Takes workspaceId t) :
    Bounded (KeyedTable.save Booking.id bookings b) workspaceId capacity := by
  intro t
  have hle := occupancy_save_le hkeyed hstored hid (htakes t)
  have hbound := h t
  omega

end HubAssist.Bookings
