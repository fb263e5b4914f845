import HubAssist.BookingsCapacity

/-! The status of bookings along runs of the bookings service: whether finished bookings stay as
they are, and which bookings have been announced as confirmed. -/
namespace HubAssist.Bookings
open Checks KeyedTable RunSystem

variable {db db' : Database} {env : Services} {call : Call}

def BookingStatus.Final (status : BookingStatus) : Prop := status = .cancelled ∨ status = .completed

/-- The booking of an id. -/
def Database.row (db : Database) (id : ℕ) : Option Booking := findRow Booking.id db.bookings id

/-- Finished bookings keep their status, and cancelled ones their refund. -/
def Settled (db db' : Database) : Prop :=
  ∀ id b, db.row id = some b → b.status.Final → ∃ b', db'.row id = some b' ∧
    b'.status = b.status ∧ (b.status = .cancelled → b'.refundAmount = b.refundAmount)

def Settles (db : Database) (a : Action) : Prop := Settled db (step db a)

/-- The outbox holds the event that a booking has been confirmed. -/
def Announced (db : Database) (id : ℕ) : Prop :=
  ∃ event ∈ db.outbox, event.type = .stellarBookingConfirmed ∧ event.bookingId = id

/-- A pending booking has become a confirmed one. -/
def Confirmed (db db' : Database) (id : ℕ) : Prop :=
  ∃ b b', db.row id = some b ∧ b.status = .pending ∧ db'.row id = some b' ∧ b'.status = .confirmed

/-- The bookings that some call has moved from pending to confirmed. -/
def record (db : Database) (a : Action) (moved : Set ℕ) : Set ℕ :=
  {id | id ∈ moved ∨ Confirmed db (step db a) id}

/-- The announced bookings are those that some call has confirmed. -/
def Truthful (dm : Database × Set ℕ) : Prop := ∀ id, Announced dm.1 id ↔ id ∈ dm.2

/-- The future instances of a series that `cancelSeries` cancels. -/
def Booking.CancelledWith (b : Booking) (env : Services) (seriesId : ℕ) : Prop :=
  b.seriesId = some seriesId ∧ env.now < b.startTime ∧ b.status ≠ .cancelled

/-- What keeps the law of a booking's life: a patch leaves a final status as it is, and confirms no
pending booking that has not been announced; no completed booking is cancelled, alone or with its
series; and a booking that is cancelled again is refunded what it was. -/
def Law (env : Services) (db : Database) : Call → Prop
  | .update id dto _ => ∀ b status, db.row id = some b → dto.status = .value status →
      (b.status.Final → status = b.status) ∧
      (b.status = .pending → status = .confirmed → Announced db id)
  | .cancel id _ => ∀ b, db.row id = some b → b.status ≠ .completed ∧
      (b.status = .cancelled → ∀ refund, env.evaluateRefund b env.now = .ok refund →
        b.refundAmount = some refund)
  | .cancelSeries seriesId _ => ∀ id b, db.row id = some b → b.CancelledWith env seriesId →
      b.status ≠ .completed
  | .create .. | .confirm _ => True

/-- Every accepted call keeps the law. -/
def Lawful (db : Database) (a : Action) : Prop :=
  (∃ db', exec a.env a.call db = .ok db') → Law a.env db a.call

/-- What an accepted call does to the rows and the announcements. -/
inductive Change (env : Services) (db : Database) : Call → Database → Prop
  | creates {db' : Database} {userId userTier : String} {dto : CreateBookingDto}
    (hrows : ∀ id b, db.row id = some b → db'.row id = some b)
    (hannounced : ∀ id, Announced db' id ↔ Announced db id) :
    Change env db (.create userId dto userTier) db'
  | confirms {db' : Database} {id : ℕ} {b : Booking} (hb : db.row id = some b)
    (hpending : b.status = .pending)
    (hself : db'.row id = some { b with status := .confirmed })
    (hrows : ∀ other, other ≠ id → db'.row other = db.row other)
    (hannounced : ∀ other, Announced db' other ↔ Announced db other ∨ other = id) :
    Change env db (.confirm id) db'
  | cancels {db' : Database} {id : ℕ} {userId : String} {b : Booking} {refund : ℚ}
    (hb : db.row id = some b) (hrefund : env.evaluateRefund b env.now = .ok refund)
    (hself : db'.row id = some { b with status := .cancelled, refundAmount := some refund })
    (hrows : ∀ other, other ≠ id → db'.row other = db.row other)
    (hannounced : ∀ other, Announced db' other ↔ Announced db other) :
    Change env db (.cancel id userId) db'
  | cancelsSeries {db' : Database} {seriesId : ℕ} {userId : String}
    (hcancelled : ∀ id b, db.row id = some b → b.CancelledWith env seriesId →
      ∃ b', db'.row id = some b' ∧ b'.status = .cancelled)
    (hrows : ∀ id b, db.row id = some b → ¬b.CancelledWith env seriesId → db'.row id = some b)
    (hannounced : ∀ id, Announced db' id ↔ Announced db id) :
    Change env db (.cancelSeries seriesId userId) db'
  | updates {db' : Database} {id : ℕ} {dto : UpdateBookingDto} {userTier : Option String}
    {b saved : Booking} (hb : db.row id = some b)
    (hstatus : dto.status.column b.status = .ok saved.status)
    (hrefund : saved.refundAmount = b.refundAmount) (hself : db'.row id = some saved)
    (hrows : ∀ other, other ≠ id → db'.row other = db.row other)
    (hannounced : ∀ other, Announced db' other ↔ Announced db other) :
    Change env db (.update id dto userTier) db'

theorem announced_congr (h : db'.outbox = db.outbox) (id : ℕ) :
    Announced db' id ↔ Announced db id := by
  rw [Announced, h, Announced]

theorem announced_append {event : OutboxEvent} (h : db'.outbox = db.outbox ++ [event]) (id : ℕ) :
    Announced db' id ↔
      Announced db id ∨ event.type = .stellarBookingConfirmed ∧ event.bookingId = id := by
  simp only [Announced, h, List.mem_append, List.mem_singleton]
  constructor
  · rintro ⟨e, he | rfl, hevent⟩
    · exact .inl ⟨e, he, hevent⟩
    · exact .inr hevent
  · rintro (⟨e, he, hevent⟩ | hevent)
    · exact ⟨e, .inl he, hevent⟩
    · exact ⟨event, .inr rfl, hevent⟩

theorem row_save_self {b : Booking} {id : ℕ} (h : db'.bookings = save Booking.id db.bookings b)
    (hid : b.id = id) : db'.row id = some b := by
  rw [Database.row, h, ← hid]
  exact findRow_save_self

theorem row_save_of_ne {b : Booking} {id other : ℕ}
    (h : db'.bookings = save Booking.id db.bookings b) (hid : b.id = id) (hne : other ≠ id) :
    db'.row other = db.row other := by
  rw [Database.row, h]
  exact findRow_save_of_ne (hid ▸ hne)

theorem row_id {id : ℕ} {b : Booking} (h : db.row id = some b) : b.id = id := (findRow_eq_some h).2

theorem confirm_change {id : ℕ} (h : exec env (.confirm id) db = .ok db') :
    Change env db (.confirm id) db' := by
  simp only [exec, map_eq_ok, confirm, findBooking, bind_eq_ok, getOr_eq_ok, failIf_eq_ok,
    pure_eq_ok, exists_const, not_not] at h
  obtain ⟨_, ⟨booking, hbooking, _, _, hstatus, rfl⟩, rfl⟩ := h
  have hid := row_id hbooking
  refine .confirms hbooking hstatus ?_ (fun other hother => ?_) fun other => ?_
  · exact row_save_self rfl hid
  · exact row_save_of_ne rfl hid hother
  · rw [announced_append rfl]
    simp [bookingEvent, hid, eq_comm]

theorem cancel_change {id : ℕ} {userId : String} (h : exec env (.cancel id userId) db = .ok db') :
    Change env db (.cancel id userId) db' := by
  simp only [exec, map_eq_ok, cancel, findBooking, bind_eq_ok, getOr_eq_ok, pure_eq_ok] at h
  obtain ⟨_, ⟨booking, hbooking, _, _, refund, hrefund, rfl⟩, rfl⟩ := h
  have hid := row_id hbooking
  refine .cancels hbooking hrefund ?_ (fun other hother => ?_) (announced_congr rfl)
  · exact row_save_self rfl hid
  · exact row_save_of_ne rfl hid hother

theorem assign_change {booking : Booking} {dto : UpdateBookingDto} {r : Booking × Database}
    (h : assign booking dto db = .ok r) : ∃ saved, saved.id = booking.id ∧
      dto.status.column booking.status = .ok saved.status ∧
      saved.refundAmount = booking.refundAmount ∧
      r.2 = { db with bookings := save Booking.id db.bookings saved } := by
  obtain ⟨status, hstatus, startTime, _, endTime, _, rfl⟩ := assign_eq_ok.mp h
  exact ⟨{ booking with
    status := status
    stellarTxHash := dto.stellarTxHash.nullable booking.stellarTxHash
    startTime := startTime
    endTime := endTime }, rfl, hstatus, rfl, rfl⟩

theorem update_change {id : ℕ} {dto : UpdateBookingDto} {userTier : Option String}
    (h : exec env (.update id dto userTier) db = .ok db') :
    Change env db (.update id dto userTier) db' := by
  simp only [exec, map_eq_ok, update, findBooking, bind_eq_ok, getOr_eq_ok] at h
  obtain ⟨r, ⟨booking, hbooking, hrest⟩, rfl⟩ := h
  have hassigned : ∃ saved, saved.id = booking.id ∧
      dto.status.column booking.status = .ok saved.status ∧
      saved.refundAmount = booking.refundAmount ∧
      r.2 = { db with bookings := save Booking.id db.bookings saved } := by
    split_ifs at hrest
    · obtain ⟨conflict, _, hrest⟩ := bind_eq_ok.mp hrest
      cases conflict with
      | some detail => cases hrest
      | none =>
        simp only [bind_eq_ok] at hrest
        obtain ⟨_, _, _, _, _, _, _, _, hassign⟩ := hrest
        -- a new time has re-priced the booking that the patch is assigned to
        obtain ⟨saved, hid, hstatus, hrefund, hdb⟩ := assign_change hassign
        exact ⟨saved, hid, hstatus, hrefund, hdb⟩
    · exact assign_change hrest
  obtain ⟨saved, hid, hstatus, hrefund, hdb⟩ := hassigned
  have hrows : r.2.bookings = save Booking.id db.bookings saved := by rw [hdb]
  have hsaved : saved.id = id := hid.trans (row_id hbooking)
  refine .updates hbooking hstatus hrefund (row_save_self hrows hsaved) (fun other hother => ?_)
    (announced_congr (by rw [hdb]))
  exact row_save_of_ne hrows hsaved hother

theorem create_change (hnumbered : Numbered db) {userId userTier : String} {dto : CreateBookingDto}
    (h : exec env (.create userId dto userTier) db = .ok db') :
    Change env db (.create userId dto userTier) db' := by
  have hfresh : ∀ id b, db.row id = some b → id < db.nextId := by
    intro id b hb
    obtain ⟨hmem, hid⟩ := findRow_eq_some hb
    exact hnumbered.fresh id (hid ▸ List.mem_map_of_mem hmem)
  cases hrule : truthy dto.recurrenceRule with
  | some rule =>
    obtain ⟨workspace, instances, _, rfl⟩ := (create_series_eq_ok hrule).mp h
    refine .creates (fun id b hb => ?_) (announced_congr rfl)
    have hlt := hfresh id b hb
    have hid :
        id ∉ (seriesBookings env userId dto workspace db.nextId instances).map Booking.id := by
      rw [seriesBookings_ids, List.mem_range'_1]
      omega
    exact (findRow_saveAll_of_not_mem hid).trans hb
  | none =>
    simp only [exec, map_eq_ok, create, hrule, createSingle, bind_eq_ok, getOr_eq_ok] at h
    obtain ⟨_, ⟨workspace, _, _, _, conflict, _, hrest⟩, rfl⟩ := h
    cases conflict with
    | some detail => cases hrest
    | none =>
      simp only [bind_eq_ok, timestamp_eq_ok, pure_eq_ok] at hrest
      obtain ⟨startTime, _, endTime, _, rateSnapshot, _, rfl⟩ := hrest
      refine .creates (fun id b hb => ?_) fun id => ?_
      · have hlt := hfresh id b hb
        exact (row_save_of_ne rfl rfl (Nat.ne_of_lt hlt)).trans hb
      · rw [announced_append rfl]
        simp [bookingEvent]

theorem cancelInstances_ids {instances cancelled : List Booking}
    (h : cancelInstances env db instances = .ok cancelled) :
    cancelled.map Booking.id = instances.map Booking.id := by
  induction instances generalizing cancelled with
  | nil =>
    obtain rfl := pure_eq_ok.mp h
    rfl
  | cons i instances ih =>
    simp only [cancelInstances, bind_eq_ok, pure_eq_ok] at h
    obtain ⟨refundAmount, _, rest, hrest, rfl⟩ := h
    rw [List.map_cons, List.map_cons, ih hrest]

/-- The instances that `cancelSeries` picks from the series. -/
theorem mem_future_iff {seriesId : ℕ} {b : Booking} :
    b ∈ (db.bookings.filter fun b => b.seriesId = some seriesId).filter
        (fun b => env.now < b.startTime ∧ b.status ≠ .cancelled) ↔
      b ∈ db.bookings ∧ b.CancelledWith env seriesId := by
  simp only [List.mem_filter, decide_eq_true_eq]
  constructor
  · rintro ⟨⟨hmem, hseries⟩, hfits⟩
    exact ⟨hmem, hseries, hfits⟩
  · rintro ⟨hmem, hseries, hfits⟩
    exact ⟨⟨hmem, hseries⟩, hfits⟩

theorem cancelSeries_change (hnumbered : Numbered db) {seriesId : ℕ} {userId : String}
    (h : exec env (.cancelSeries seriesId userId) db = .ok db') :
    Change env db (.cancelSeries seriesId userId) db' := by
  simp only [exec, map_eq_ok, cancelSeries] at h
  obtain ⟨_, hrest, rfl⟩ := h
  cases hall : db.bookings.filter fun b => b.seriesId = some seriesId with
  | nil =>
    rw [hall] at hrest
    cases hrest
  | cons owner rest =>
    rw [hall] at hrest
    simp only [bind_eq_ok, pure_eq_ok] at hrest
    obtain ⟨_, _, cancelled, hcancelled, rfl⟩ := hrest
    rw [← hall] at hcancelled
    have hids := cancelInstances_ids hcancelled
    refine .cancelsSeries (fun id b hb hfits => ?_) (fun id b hb hkept => ?_) (announced_congr rfl)
    · obtain ⟨hmem, hid⟩ := findRow_eq_some hb
      have hinstance := List.mem_map_of_mem (f := Booking.id) (mem_future_iff.mpr ⟨hmem, hfits⟩)
      rw [← hids, hid] at hinstance
      obtain ⟨c, hc, _, hfind⟩ := findRow_saveAll_of_mem hinstance
      exact ⟨c, hfind, (cancelInstances_status hcancelled c hc).1⟩
    · obtain ⟨hmem, hid⟩ := findRow_eq_some hb
      have hother : id ∉ cancelled.map Booking.id := by
        rw [hids]
        intro hinstance
        obtain ⟨i, hi, hkey⟩ := List.mem_map.mp hinstance
        obtain ⟨hstored, hfits⟩ := mem_future_iff.mp hi
        obtain rfl := hnumbered.keyed.eq_of_key hstored hmem (hkey.trans hid.symm)
        exact hkept hfits
      exact (findRow_saveAll_of_not_mem hother).trans hb

theorem exec_change (hnumbered : Numbered db) (h : exec env call db = .ok db') :
    Change env db call db' := by
  cases call with
  | create => exact create_change hnumbered h
  | update => exact update_change h
  | confirm => exact confirm_change h
  | cancel => exact cancel_change h
  | cancelSeries => exact cancelSeries_change hnumbered h

theorem Confirmed.ne {id : ℕ} (h : Confirmed db db' id) : db'.row id ≠ db.row id := by
  obtain ⟨b, b', hb, hpending, hb', hconfirmed⟩ := h
  intro hsame
  obtain rfl := Option.some.inj ((hb'.symm.trans hsame).trans hb)
  cases hpending.symm.trans hconfirmed

/-- What a call that rewrites one row does to finished bookings. -/
theorem settled_iff_at {id : ℕ} {b saved : Booking} (hb : db.row id = some b)
    (hself : db'.row id = some saved) (hrows : ∀ other, other ≠ id → db'.row other = db.row other) :
    Settled db db' ↔ (b.status.Final → saved.status = b.status ∧
      (b.status = .cancelled → saved.refundAmount = b.refundAmount)) := by
  constructor
  · intro h hfinal
    obtain ⟨b', hb', hkept⟩ := h id b hb hfinal
    obtain rfl := Option.some.inj (hb'.symm.trans hself)
    exact hkept
  · intro h other b' hb' hfinal
    by_cases hother : other = id
    · subst hother
      obtain rfl := Option.some.inj (hb'.symm.trans hb)
      exact ⟨saved, hself, h hfinal⟩
    · exact ⟨b', (hrows other hother).trans hb', rfl, fun _ => rfl⟩

theorem confirmed_iff_at {id other : ℕ} {b saved : Booking} (hb : db.row id = some b)
    (hself : db'.row id = some saved) (hrows : ∀ other, other ≠ id → db'.row other = db.row other) :
    Confirmed db db' other ↔ other = id ∧ b.status = .pending ∧ saved.status = .confirmed := by
  constructor
  · intro h
    have hother : other = id := by
      by_contra hother
      exact h.ne (hrows other hother)
    subst hother
    obtain ⟨b₁, b₂, hb₁, hpending, hb₂, hconfirmed⟩ := h
    obtain rfl := Option.some.inj (hb₁.symm.trans hb)
    obtain rfl := Option.some.inj (hb₂.symm.trans hself)
    exact ⟨rfl, hpending, hconfirmed⟩
  · rintro ⟨rfl, hpending, hconfirmed⟩
    exact ⟨b, saved, hb, hpending, hself, hconfirmed⟩

/-- Announcements are of bookings that have just been confirmed, and stay. -/
theorem Change.announced (h : Change env db call db') (id : ℕ) :
    (Announced db id → Announced db' id) ∧
      (Announced db' id → Announced db id ∨ Confirmed db db' id) := by
  -- all but `confirm` announce nothing
  have hquiet (hsame : ∀ id, Announced db' id ↔ Announced db id) :
      (Announced db id → Announced db' id) ∧
        (Announced db' id → Announced db id ∨ Confirmed db db' id) :=
    ⟨(hsame id).mpr, fun h => .inl ((hsame id).mp h)⟩
  cases h with
  | creates _ hannounced => exact hquiet hannounced
  | confirms hb hpending hself hrows hannounced =>
    refine ⟨fun h => (hannounced id).mpr (.inl h), fun h => ?_⟩
    rcases (hannounced id).mp h with hbefore | hid
    · exact .inl hbefore
    · exact .inr ((confirmed_iff_at hb hself hrows).mpr ⟨hid, hpending, rfl⟩)
  | cancels _ _ _ _ hannounced => exact hquiet hannounced
  | cancelsSeries _ _ hannounced => exact hquiet hannounced
  | updates _ _ _ _ _ hannounced => exact hquiet hannounced

theorem Change.truthful_iff (h : Change env db call db') {moved : Set ℕ}
    (ht : Truthful (db, moved)) :
    Truthful (db', {id | id ∈ moved ∨ Confirmed db db' id}) ↔
      ∀ id, Confirmed db db' id → Announced db' id := by
  constructor
  · exact fun ht' id hconfirmed => (ht' id).mpr (.inr hconfirmed)
  · intro hall id
    constructor
    · intro hannounced
      rcases (h.announced id).2 hannounced with hbefore | hconfirmed
      · exact .inl ((ht id).mp hbefore)
      · exact .inr hconfirmed
    · rintro (hmoved | hconfirmed)
      · exact (h.announced id).1 ((ht id).mpr hmoved)
      · exact hall id hconfirmed

/-- Nothing that a call has not confirmed needs an announcement. -/
theorem settled_and_announced_iff (hnone : ∀ id, ¬Confirmed db db' id) :
    (Settled db db' ∧ ∀ id, Confirmed db db' id → Announced db' id) ↔ Settled db db' :=
  and_iff_left fun id hconfirmed => absurd hconfirmed (hnone id)

theorem cancels_settled_iff {id : ℕ} {userId : String} {b : Booking} {refund : ℚ}
    (hb : db.row id = some b) (hrefund : env.evaluateRefund b env.now = .ok refund)
    (hself : db'.row id = some { b with status := .cancelled, refundAmount := some refund })
    (hrows : ∀ other, other ≠ id → db'.row other = db.row other) :
    Settled db db' ↔ Law env db (.cancel id userId) := by
  rw [settled_iff_at hb hself hrows]
  constructor
  · intro h b' hb'
    obtain rfl := Option.some.inj (hb'.symm.trans hb)
    refine ⟨fun hcompleted => ?_, fun hcancelled refund' hrefund' => ?_⟩
    · cases (h (.inr hcompleted)).1.trans hcompleted
    · obtain rfl := Except.ok.inj (hrefund.symm.trans hrefund')
      exact ((h (.inl hcancelled)).2 hcancelled).symm
  · intro h hfinal
    obtain ⟨hopen, hsame⟩ := h b hb
    have hcancelled := hfinal.resolve_right hopen
    exact ⟨hcancelled.symm, fun _ => (hsame hcancelled refund hrefund).symm⟩

theorem cancelsSeries_settled_iff {seriesId : ℕ} {userId : String}
    (hcancelled : ∀ id b, db.row id = some b → b.CancelledWith env seriesId →
      ∃ b', db'.row id = some b' ∧ b'.status = .cancelled)
    (hrows : ∀ id b, db.row id = some b → ¬b.CancelledWith env seriesId → db'.row id = some b) :
    Settled db db' ↔ Law env db (.cancelSeries seriesId userId) := by
  constructor
  · intro h id b hb hfits hcompleted
    obtain ⟨b', hb', hstatus, _⟩ := h id b hb (.inr hcompleted)
    obtain ⟨c, hc, hcstatus⟩ := hcancelled id b hb hfits
    obtain rfl := Option.some.inj (hb'.symm.trans hc)
    cases (hcstatus.symm.trans hstatus).trans hcompleted
  · intro h id b hb hfinal
    by_cases hfits : b.CancelledWith env seriesId
    · -- what is cancelled with the series was neither cancelled nor completed
      exact absurd (hfinal.resolve_left hfits.2.2) (h id b hb hfits)
    · exact ⟨b, hrows id b hb hfits, rfl, fun _ => rfl⟩

/-- A patch keeps the law through the status it gives: none is the present one, and null is
refused. -/
theorem updates_law_iff {id : ℕ} {dto : UpdateBookingDto} {userTier : Option String}
    {b saved : Booking} (hb : db.row id = some b)
    (hstatus : dto.status.column b.status = .ok saved.status) :
    Law env db (.update id dto userTier) ↔ (b.status.Final → saved.status = b.status) ∧
      (b.status = .pending → saved.status = .confirmed → Announced db id) := by
  cases hpatch : dto.status with
  | absent =>
    rw [hpatch] at hstatus
    have hkept : b.status = saved.status := Except.ok.inj hstatus
    apply iff_of_true
    · intro b' status _ hgiven
      cases hpatch.symm.trans hgiven
    · refine ⟨fun _ => hkept.symm, fun hpending hconfirmed => ?_⟩
      cases (hpending.symm.trans hkept).trans hconfirmed
  | null =>
    rw [hpatch] at hstatus
    cases hstatus
  | value status =>
    rw [hpatch] at hstatus
    obtain rfl : status = saved.status := Except.ok.inj hstatus
    constructor
    · intro h
      exact h b saved.status hb hpatch
    · intro h b' status hb' hgiven
      obtain rfl := Option.some.inj (hb'.symm.trans hb)
      obtain rfl := Patch.value.inj (hpatch.symm.trans hgiven)
      exact h

/-- An accepted call leaves finished bookings alone and announces what it confirms exactly when it
keeps the law. -/
theorem Change.law_iff (h : Change env db call db') :
    (Settled db db' ∧ ∀ id, Confirmed db db' id → Announced db' id) ↔ Law env db call := by
  cases h with
  | creates hrows =>
    apply iff_of_true _ trivial
    refine ⟨fun id b hb _ => ⟨b, hrows id b hb, rfl, fun _ => rfl⟩, fun id hconfirmed => ?_⟩
    have hne := hconfirmed.ne
    obtain ⟨b, _, hb, _⟩ := hconfirmed
    exact absurd ((hrows id b hb).trans hb.symm) hne
  | @confirms _ id b hb hpending hself hrows hannounced =>
    apply iff_of_true _ trivial
    refine ⟨(settled_iff_at hb hself hrows).mpr fun hfinal => ?_, fun other hconfirmed => ?_⟩
    · rcases hfinal with hfinal | hfinal
      · cases hpending.symm.trans hfinal
      · cases hpending.symm.trans hfinal
    · exact (hannounced other).mpr (.inr ((confirmed_iff_at hb hself hrows).mp hconfirmed).1)
  | @cancels _ id userId b refund hb hrefund hself hrows hannounced =>
    have hnone : ∀ other, ¬Confirmed db db' other := by
      intro other hconfirmed
      obtain ⟨_, _, hstatus⟩ := (confirmed_iff_at hb hself hrows).mp hconfirmed
      cases hstatus
    rw [settled_and_announced_iff hnone]
    exact cancels_settled_iff hb hrefund hself hrows
  | @cancelsSeries _ seriesId userId hcancelled hrows hannounced =>
    have hnone : ∀ other, ¬Confirmed db db' other := by
      intro other hconfirmed
      have hne := hconfirmed.ne
      obtain ⟨b, b', hb, _, hb', hstatus⟩ := hconfirmed
      by_cases hfits : b.CancelledWith env seriesId
      · obtain ⟨c, hc, hcstatus⟩ := hcancelled other b hb hfits
        obtain rfl := Option.some.inj (hb'.symm.trans hc)
        cases hstatus.symm.trans hcstatus
      · exact hne ((hrows other b hb hfits).trans hb.symm)
    rw [settled_and_announced_iff hnone]
    exact cancelsSeries_settled_iff hcancelled hrows
  | @updates _ id dto userTier b saved hb hstatus hrefund hself hrows hannounced =>
    rw [updates_law_iff hb hstatus, settled_iff_at hb hself hrows]
    constructor
    · rintro ⟨hsettled, hall⟩
      refine ⟨fun hfinal => (hsettled hfinal).1, fun hpending hconfirmed => ?_⟩
      have hmoved := (confirmed_iff_at hb hself hrows).mpr ⟨rfl, hpending, hconfirmed⟩
      exact (hannounced id).mp (hall id hmoved)
    · rintro ⟨hfinal, hconfirm⟩
      refine ⟨fun hb' => ⟨hfinal hb', fun _ => hrefund⟩, fun other hconfirmed => ?_⟩
      obtain ⟨rfl, hpending, hconfirmed⟩ := (confirmed_iff_at hb hself hrows).mp hconfirmed
      exact (hannounced other).mpr (hconfirm hpending hconfirmed)

theorem lawful_step_iff (hnumbered : Numbered db) {moved : Set ℕ} (ht : Truthful (db, moved))
    (a : Action) :
    (Settles db a ∧ Truthful (withHistory step record (db, moved) a)) ↔ Lawful db a := by
  obtain ⟨env, call⟩ := a
  cases hcall : exec env call db with
  | ok db' =>
    have hstep : step db ⟨env, call⟩ = db' := by rw [step, hcall, orRollback]
    have hchange := exec_change hnumbered hcall
    have hlawful : Lawful db ⟨env, call⟩ ↔ Law env db call :=
      ⟨fun h => h ⟨db', hcall⟩, fun h _ => h⟩
    have hrecord : withHistory step record (db, moved) ⟨env, call⟩ =
        (db', {id | id ∈ moved ∨ Confirmed db db' id}) := by
      rw [← hstep]
      rfl
    rw [hlawful, ← hchange.law_iff, ← hchange.truthful_iff ht, Settles, hstep, hrecord]
  | error e =>
    have hstep : step db ⟨env, call⟩ = db := by rw [step, hcall, orRollback]
    have hrecord : withHistory step record (db, moved) ⟨env, call⟩ =
        (db, {id | id ∈ moved ∨ Confirmed db db id}) := by
      show (step db ⟨env, call⟩, {id | id ∈ moved ∨ Confirmed db (step db ⟨env, call⟩) id}) = _
      rw [hstep]
    apply iff_of_true
    · rw [Settles, hstep, hrecord]
      refine ⟨fun id b hb _ => ⟨b, hb, rfl, fun _ => rfl⟩, fun id => ?_⟩
      exact (ht id).trans ⟨.inl, fun h => h.resolve_right fun hconfirmed => hconfirmed.ne rfl⟩
    · rintro ⟨db', hok⟩
      cases hcall.symm.trans hok

/-- From no bookings on, finished bookings stay as they are and the announced bookings are those
that a call has confirmed, in all of a run, exactly when every accepted call keeps the law. -/
theorem lifecycle_run_iff (workspaces : String → Option Workspace)
    (maintenanceWindows : List MaintenanceWindow) (as : List Action) :
    (Guarded step Settles (emptyDatabase workspaces maintenanceWindows) as ∧
      Always (withHistory step record) Truthful (emptyDatabase workspaces maintenanceWindows, ∅) as) ↔
    Guarded step Lawful (emptyDatabase workspaces maintenanceWindows) as := by
  have hnumbered : Numbered (emptyDatabase workspaces maintenanceWindows) :=
    ⟨List.nodup_nil, fun _ h => absurd h List.not_mem_nil⟩
  have htruthful : Truthful (emptyDatabase workspaces maintenanceWindows, ∅) :=
    fun _ => iff_of_false (fun ⟨_, hevent, _⟩ => absurd hevent List.not_mem_nil) id
  exact guarded_and_always_iff step (fun _ a h => h.step a)
    (fun _ _ a hnumbered ht => lawful_step_iff hnumbered ht a) hnumbered htruthful

/-- An hour at the desk. -/
def oneHour : CreateBookingDto where
  workspaceId := "ws-1"
  startTime := some 0
  endTime := some 3600000
  stellarTxHash := none
  recurrenceRule := none

/-- The booking of that hour, once it is cancelled. -/
def cancelledHour : Booking :=
  { singleBooking "user-1" oneHour 0 0 3600000 ⟨0⟩ with
    status := .cancelled
    refundAmount := some 0 }

/-- A booking that is made, cancelled and set back to pending by a patch. -/
def revival : List Action :=
  [⟨dailyTwice, .create "user-1" oneHour "member"⟩, ⟨dailyTwice, .cancel 0 "user-1"⟩,
   ⟨dailyTwice, .update 0 ⟨.value .pending, .absent, .absent, .absent⟩ none⟩]

theorem revived_after_cancel : ¬Guarded step Settles (emptyDatabase oneDesk []) revival := by
  intro h
  obtain ⟨b', hb', hstatus, _⟩ := h.2.2.1 0 cancelledHour (by decide) (Or.inl rfl)
  have hrevived : (run step (emptyDatabase oneDesk []) revival).row 0 =
      some { cancelledHour with status := .pending } := by
    decide
  obtain rfl := Option.some.inj (hb'.symm.trans hrevived)
  cases hstatus

end HubAssist.Bookings
