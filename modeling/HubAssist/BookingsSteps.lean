import HubAssist.BookingsConflict

/-! What an accepted call of the bookings service requires and writes. -/
namespace HubAssist.Bookings
open Checks KeyedTable

variable {env : Services} {db db' : Database} {call : Call}

/-- The conditions under which a series is inserted, with the instances it is made of. -/
structure SeriesAccepted (env : Services) (db : Database) (dto : CreateBookingDto)
    (workspace : Workspace) (instances : List RecurrenceInstance) : Prop where
  workspace_eq : db.workspaces dto.workspaceId = some workspace
  expanded : ∃ rule startTime endTime, truthy dto.recurrenceRule = some rule ∧
    dto.startTime = some startTime ∧ dto.endTime = some endTime ∧ startTime < endTime ∧
      expandInstances env rule (some startTime) (some (endTime-startTime)) = .ok instances
  free : ∀ i ∈ instances,
    hasConflict db dto.workspaceId (some i.startTime) (some i.endTime) none = .ok none

/-- The tables after a series is inserted. -/
def withSeries (env : Services) (userId : String) (dto : CreateBookingDto)
    (workspace : Workspace) (db : Database) (instances : List RecurrenceInstance) : Database :=
  let bookings := seriesBookings env userId dto workspace db.nextId instances
  { db with
    bookings := saveAll Booking.id db.bookings bookings
    nextId := db.nextId+1+bookings.length }

theorem checkInstances_eq_ok {workspaceId : String} {instances : List RecurrenceInstance}
    {u : Unit} : checkInstances db workspaceId instances = .ok u ↔ ∀ i ∈ instances,
      hasConflict db workspaceId (some i.startTime) (some i.endTime) none = .ok none := by
  induction instances with
  | nil => simp [checkInstances, pure_eq_ok]
  | cons i instances ih =>
    rw [checkInstances, bind_eq_ok, List.forall_mem_cons]
    constructor
    · rintro ⟨conflict, hconflict, hrest⟩
      cases conflict with
      | none => exact ⟨hconflict, ih.mp hrest⟩
      | some detail => exact nomatch hrest
    · rintro ⟨hconflict, hrest⟩
      exact ⟨none, hconflict, ih.mpr hrest⟩

theorem expandInstances_timed {rule : String} {dtstart : Date} {durationMs : Option ℤ}
    {instances : List RecurrenceInstance}
    (h : expandInstances env rule dtstart durationMs = .ok instances) :
    ∃ duration, durationMs = some duration := by
  simp only [expandInstances, bind_eq_ok, timestamp_eq_ok] at h
  obtain ⟨_, _, _, _, _, _, duration, hduration, _⟩ := h
  exact ⟨duration, hduration⟩

/-- A series is inserted exactly under its conditions. -/
theorem create_series_eq_ok {userId rule userTier : String} {dto : CreateBookingDto}
    (hrule : truthy dto.recurrenceRule = some rule) :
    exec env (.create userId dto userTier) db = .ok db' ↔ ∃ workspace instances,
      SeriesAccepted env db dto workspace instances ∧
        withSeries env userId dto workspace db instances = db' := by
  simp only [exec, map_eq_ok, create, hrule, createSeries, bind_eq_ok, getOr_eq_ok, failIf_eq_ok,
    checkInstances_eq_ok, pure_eq_ok, exists_const]
  constructor
  · rintro ⟨_, ⟨workspace, hworkspace, hduration, instances, hexpand, hfree, rfl⟩, rfl⟩
    -- an invalid date passes the first check and fails in the first query
    obtain ⟨duration, htimed⟩ := expandInstances_timed hexpand
    simp only [Option.bind_eq_some_iff, Option.map_eq_some_iff] at htimed
    obtain ⟨endTime, hend, startTime, hstart, rfl⟩ := htimed
    rw [hstart, hend] at hduration hexpand
    have hpos : ¬endTime-startTime ≤ 0 := by simpa using hduration
    exact ⟨workspace, instances, ⟨hworkspace,
      ⟨rule, startTime, endTime, hrule, hstart, hend, by omega, hexpand⟩, hfree⟩, rfl⟩
  · rintro ⟨workspace, instances, ⟨hworkspace, hexpanded, hfree⟩, rfl⟩
    obtain ⟨rule', startTime, endTime, hrule', hstart, hend, hlt, hexpand⟩ := hexpanded
    obtain rfl := Option.some.inj (hrule.symm.trans hrule')
    refine ⟨_, ⟨workspace, hworkspace, ?_, instances, ?_, hfree, rfl⟩, rfl⟩
    · rw [hstart, hend]
      have hpos : ¬endTime-startTime ≤ 0 := by omega
      simpa using hpos
    · rw [hstart, hend]
      exact hexpand

/-- What an accepted call writes, with the guards that bear on the places taken. -/
inductive Effect (env : Services) (db : Database) : Call → Database → Prop where
  | inserts (userId : String) (dto : CreateBookingDto) (userTier : String) (workspace : Workspace)
      (startTime endTime : ℤ) (rateSnapshot : RateSnapshot) (event : OutboxEvent)
      (hrule : truthy dto.recurrenceRule = none)
      (hworkspace : db.workspaces dto.workspaceId = some workspace)
      (hfree : hasConflict db dto.workspaceId (some startTime) (some endTime) none = .ok none) :
      Effect env db (.create userId dto userTier) { db with
        bookings := save Booking.id db.bookings
          (singleBooking userId dto db.nextId startTime endTime rateSnapshot)
        outbox := db.outbox ++ [event]
        nextId := db.nextId+1 }
  | insertsSeries (userId : String) (dto : CreateBookingDto) (userTier : String)
      (workspace : Workspace) (instances : List RecurrenceInstance)
      (haccepted : SeriesAccepted env db dto workspace instances) :
      Effect env db (.create userId dto userTier) (withSeries env userId dto workspace db instances)
  | confirms (id : ℕ) (booking : Booking) (event : OutboxEvent)
      (hbooking : findRow Booking.id db.bookings id = some booking)
      (hstatus : booking.status = .pending) : Effect env db (.confirm id) { db with
        bookings := save Booking.id db.bookings { booking with status := .confirmed }
        outbox := db.outbox ++ [event] }
  | cancels (id : ℕ) (userId : String) (booking : Booking) (refundAmount : ℚ)
      (hbooking : findRow Booking.id db.bookings id = some booking) :
      Effect env db (.cancel id userId) { db with
        bookings := save Booking.id db.bookings
          { booking with status := .cancelled, refundAmount := some refundAmount } }
  | cancelsSeries (seriesId : ℕ) (userId : String) (cancelled : List Booking)
      (hcancelled : ∀ b ∈ cancelled, b.status = .cancelled ∧ b.id ∈ db.bookings.map Booking.id) :
      Effect env db (.cancelSeries seriesId userId)
        { db with bookings := saveAll Booking.id db.bookings cancelled }
  | moves (id : ℕ) (dto : UpdateBookingDto) (userTier : Option String) (booking saved : Booking)
      (hgiven : (dto.startTime.given || dto.endTime.given) = true)
      (hbooking : findRow Booking.id db.bookings id = some booking) (hid : saved.id = booking.id)
      (hworkspace : saved.workspaceId = booking.workspaceId)
      (hfree : hasConflict db saved.workspaceId (some saved.startTime) (some saved.endTime)
        (some id) = .ok none) : Effect env db (.update id dto userTier)
          { db with bookings := save Booking.id db.bookings saved }
  | patches (id : ℕ) (dto : UpdateBookingDto) (userTier : Option String) (booking : Booking)
      (status : BookingStatus) (hbooking : findRow Booking.id db.bookings id = some booking)
      (hstart : dto.startTime = .absent) (hend : dto.endTime = .absent)
      (hstatus : dto.status.column booking.status = .ok status) :
      Effect env db (.update id dto userTier) { db with
        bookings := save Booking.id db.bookings { booking with
          status := status
          stellarTxHash := dto.stellarTxHash.nullable booking.stellarTxHash } }

theorem Patch.date_of_column {patch : Patch Date} {old time : ℤ}
    (h : patch.column (some old) = .ok (some time)) : patch.date old = some time := by
  cases patch with
  | absent => exact Except.ok.inj h
  | null => exact nomatch h
  | value date => exact Except.ok.inj h

theorem assign_eq_ok {booking : Booking} {dto : UpdateBookingDto} {r : Booking × Database} :
    assign booking dto db = .ok r ↔ ∃ status, dto.status.column booking.status = .ok status ∧
      ∃ startTime, dto.startTime.column (some booking.startTime) = .ok (some startTime) ∧
        ∃ endTime, dto.endTime.column (some booking.endTime) = .ok (some endTime) ∧
          (let saved : Booking := { booking with
            status := status
            stellarTxHash := dto.stellarTxHash.nullable booking.stellarTxHash
            startTime := startTime
            endTime := endTime }
          (saved, { db with bookings := save Booking.id db.bookings saved }) = r) := by
  simp only [assign, bind_eq_ok, timestamp_eq_ok, pure_eq_ok]
  constructor
  · rintro ⟨status, hstatus, _, hstart, startTime, rfl, _, hend, endTime, rfl, rfl⟩
    exact ⟨status, hstatus, startTime, hstart, endTime, hend, rfl⟩
  · rintro ⟨status, hstatus, startTime, hstart, endTime, hend, rfl⟩
    exact ⟨status, hstatus, _, hstart, startTime, rfl, _, hend, endTime, rfl, rfl⟩

/-- A patch without times is saved whatever it makes of the status. -/
theorem update_untimed_eq_ok {id : ℕ} {dto : UpdateBookingDto} {userTier : Option String}
    (hstart : dto.startTime = .absent) (hend : dto.endTime = .absent) :
    exec env (.update id dto userTier) db = .ok db' ↔ ∃ booking status,
      findRow Booking.id db.bookings id = some booking ∧
        dto.status.column booking.status = .ok status ∧ { db with
          bookings := save Booking.id db.bookings { booking with
            status := status
            stellarTxHash := dto.stellarTxHash.nullable booking.stellarTxHash } } = db' := by
  simp only [exec, map_eq_ok, update, findBooking, bind_eq_ok, getOr_eq_ok, hstart, hend,
    Patch.given, Bool.or_self, Bool.false_eq_true, if_false, assign_eq_ok]
  constructor
  · rintro ⟨_, ⟨booking, hbooking, status, hstatus, startTime, hs, endTime, he, rfl⟩, rfl⟩
    obtain rfl := Option.some.inj (Except.ok.inj hs)
    obtain rfl := Option.some.inj (Except.ok.inj he)
    exact ⟨booking, status, hbooking, hstatus, rfl⟩
  · rintro ⟨booking, status, hbooking, hstatus, rfl⟩
    exact ⟨_, ⟨booking, hbooking, status, hstatus, _, rfl, _, rfl, rfl⟩, rfl⟩

theorem cancelInstances_status {instances cancelled : List Booking}
    (h : cancelInstances env db instances = .ok cancelled) :
    ∀ b ∈ cancelled, b.status = .cancelled ∧ ∃ i ∈ instances, b.id = i.id := by
  induction instances generalizing cancelled with
  | nil =>
    obtain rfl := pure_eq_ok.mp h
    intro b hb
    exact absurd hb List.not_mem_nil
  | cons i instances ih =>
    simp only [cancelInstances, bind_eq_ok, pure_eq_ok] at h
    obtain ⟨refundAmount, _, rest, hrest, rfl⟩ := h
    intro b hb
    rcases List.mem_cons.mp hb with rfl | hmem
    · exact ⟨rfl, i, List.mem_cons_self, rfl⟩
    · obtain ⟨hstatus, j, hj, hid⟩ := ih hrest b hmem
      exact ⟨hstatus, j, List.mem_cons_of_mem i hj, hid⟩

theorem create_single_effect {userId userTier : String} {dto : CreateBookingDto}
    (hrule : truthy dto.recurrenceRule = none)
    (h : exec env (.create userId dto userTier) db = .ok db') :
    Effect env db (.create userId dto userTier) db' := by
  simp only [exec, map_eq_ok, create, hrule, createSingle, bind_eq_ok, getOr_eq_ok] at h
  obtain ⟨_, ⟨workspace, hworkspace, _, _, conflict, hconflict, hrest⟩, rfl⟩ := h
  cases conflict with
  | some detail => exact nomatch hrest
  | none =>
    simp only [bind_eq_ok, timestamp_eq_ok, pure_eq_ok] at hrest
    obtain ⟨startTime, hstart, endTime, hend, rateSnapshot, _, rfl⟩ := hrest
    rw [hstart, hend] at hconflict
    exact .inserts userId dto userTier workspace startTime endTime rateSnapshot _ hrule
      hworkspace hconflict

theorem confirm_effect {id : ℕ} (h : exec env (.confirm id) db = .ok db') :
    Effect env db (.confirm id) db' := by
  simp only [exec, map_eq_ok, confirm, findBooking, bind_eq_ok, getOr_eq_ok, failIf_eq_ok,
    pure_eq_ok, exists_const, not_not] at h
  obtain ⟨_, ⟨booking, hbooking, _, _, hstatus, rfl⟩, rfl⟩ := h
  exact .confirms id booking _ hbooking hstatus

theorem cancel_effect {id : ℕ} {userId : String}
    (h : exec env (.cancel id userId) db = .ok db') : Effect env db (.cancel id userId) db' := by
  simp only [exec, map_eq_ok, cancel, findBooking, bind_eq_ok, getOr_eq_ok, pure_eq_ok] at h
  obtain ⟨_, ⟨booking, hbooking, _, _, refundAmount, _, rfl⟩, rfl⟩ := h
  exact .cancels id userId booking refundAmount hbooking

theorem cancelSeries_effect {seriesId : ℕ} {userId : String}
    (h : exec env (.cancelSeries seriesId userId) db = .ok db') :
    Effect env db (.cancelSeries seriesId userId) db' := by
  simp only [exec, map_eq_ok, cancelSeries] at h
  obtain ⟨_, hrest, rfl⟩ := h
  cases hall : db.bookings.filter fun b => b.seriesId = some seriesId with
  | nil =>
    rw [hall] at hrest
    exact nomatch hrest
  | cons owner rest =>
    rw [hall] at hrest
    simp only [bind_eq_ok, pure_eq_ok] at hrest
    obtain ⟨_, _, cancelled, hcancelled, rfl⟩ := hrest
    refine .cancelsSeries seriesId userId cancelled fun b hb => ?_
    obtain ⟨hstatus, i, hi, hid⟩ := cancelInstances_status hcancelled b hb
    have hstored : i ∈ db.bookings := by
      have hmem := List.mem_of_mem_filter hi
      rw [← hall] at hmem
      exact List.mem_of_mem_filter hmem
    exact ⟨hstatus, hid ▸ List.mem_map_of_mem hstored⟩

theorem update_effect {id : ℕ} {dto : UpdateBookingDto} {userTier : Option String}
    (h : exec env (.update id dto userTier) db = .ok db') :
    Effect env db (.update id dto userTier) db' := by
  by_cases hgiven : (dto.startTime.given || dto.endTime.given) = true
  · simp only [exec, map_eq_ok, update, findBooking, bind_eq_ok, getOr_eq_ok, if_pos hgiven] at h
    obtain ⟨_, ⟨booking, hbooking, conflict, hconflict, hrest⟩, rfl⟩ := h
    cases conflict with
    | some detail => exact nomatch hrest
    | none =>
      simp only [bind_eq_ok, getOr_eq_ok, assign_eq_ok] at hrest
      obtain ⟨_, _, _, _, _, _, rateSnapshot, _, status, _, startTime, hstart, endTime, hend, rfl⟩ :=
        hrest
      rw [Patch.date_of_column hstart, Patch.date_of_column hend] at hconflict
      exact .moves id dto userTier booking _ hgiven hbooking rfl rfl hconflict
  · -- Without a time given, both are absent: a null time is refused by the save.
    have hkept := h
    simp only [exec, map_eq_ok, update, findBooking, bind_eq_ok, getOr_eq_ok, if_neg hgiven,
      assign_eq_ok] at hkept
    obtain ⟨_, ⟨booking, _, _, _, startTime, hstart, endTime, hend, _⟩, _⟩ := hkept
    have habsent {patch : Patch Date} {old time : ℤ} (hnone : patch.given = false)
        (hcolumn : patch.column (some old) = .ok (some time)) : patch = .absent := by
      cases patch with
      | absent => rfl
      | null => exact nomatch hcolumn
      | value => exact nomatch hnone
    simp only [Bool.or_eq_true, not_or, Bool.not_eq_true] at hgiven
    have hstart' := habsent hgiven.1 hstart
    have hend' := habsent hgiven.2 hend
    obtain ⟨booking, status, hbooking, hstatus, rfl⟩ := (update_untimed_eq_ok hstart' hend').mp h
    exact .patches id dto userTier booking status hbooking hstart' hend' hstatus

/-- Every accepted call is one of the effects. -/
theorem exec_effect (h : exec env call db = .ok db') : Effect env db call db' := by
  cases call with
  | create userId dto userTier =>
    cases hrule : truthy dto.recurrenceRule with
    | none => exact create_single_effect hrule h
    | some rule =>
      obtain ⟨workspace, instances, haccepted, rfl⟩ := (create_series_eq_ok hrule).mp h
      exact .insertsSeries userId dto userTier workspace instances haccepted
  | update => exact update_effect h
  | confirm => exact confirm_effect h
  | cancel => exact cancel_effect h
  | cancelSeries => exact cancelSeries_effect h

end HubAssist.Bookings
