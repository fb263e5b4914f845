import HubAssist.BookingsLifecycle

/-! What the bookings service posts to the outbox: an order for an escrow with each single booking,
and a notice with each confirmation. -/
namespace HubAssist.Bookings
open Checks KeyedTable RunSystem

/-- What no call changes of a booking. -/
structure Origin where
  id : ℕ
  workspaceId : String
  userId : String
  recurrenceRule : Option String
  seriesId : Option ℕ
  instanceIndex : Option ℕ
  deriving DecidableEq

def Booking.origin (b : Booking) : Origin :=
  ⟨b.id, b.workspaceId, b.userId, b.recurrenceRule, b.seriesId, b.instanceIndex⟩

/-- The bookings that this call makes. -/
def made (db : Database) (a : Action) : List Booking :=
  match a.call with
  | .create userId dto userTier =>
    match create a.env userId dto userTier db with
    | .ok (bookings, _) => bookings
    | .error _ => []
  | _ => []

/-- The notice of a confirmation is about a booking that has been made and, where it is no part of a
series, comes after the order for its escrow. -/
def Backed (made : List Booking) (before : List OutboxEvent) (event : OutboxEvent) : Prop :=
  ∃ b ∈ made, (event.bookingId, event.userId, event.workspaceId) = (b.id, b.userId, b.workspaceId) ∧
    (b.seriesId = none → bookingEvent .stellarEscrowCreate b ∈ before)

/-- The rows are the bookings made, the orders are those of the single ones as they were made, and
every notice is backed. -/
structure Ledger (db : Database) (made : List Booking) : Prop where
  numbered : Numbered db
  origins : db.bookings.map Booking.origin = made.map Booking.origin
  escrows : db.outbox.filter (fun event => event.type = .stellarEscrowCreate) =
    (made.filter fun b => b.seriesId = none).map (bookingEvent .stellarEscrowCreate)
  backed : ∀ n event, db.outbox[n]? = some event → event.type = .stellarBookingConfirmed →
    Backed made (db.outbox.take n) event

variable {env : Services} {db db' : Database} {call : Call} {bookings news : List Booking}
  {b : Booking} {makings : List Booking}

/-- Saving a row with the origin of a stored one changes no origin. -/
theorem map_origin_save (hkeyed : Keyed Booking.id bookings)
    (h : b.origin ∈ bookings.map Booking.origin) :
    (save Booking.id bookings b).map Booking.origin = bookings.map Booking.origin := by
  obtain ⟨old, hold, horigin⟩ := List.mem_map.mp h
  have hid : old.id = b.id := congrArg Origin.id horigin
  rw [save, if_pos (hid ▸ List.mem_map_of_mem hold), List.map_map]
  refine List.map_congr_left fun r hr => ?_
  simp only [Function.comp_apply]
  split_ifs with hkey
  · obtain rfl := hkeyed.eq_of_key hr hold (hkey.trans hid.symm)
    exact horigin.symm
  · rfl

theorem map_origin_saveAll (hkeyed : Keyed Booking.id bookings)
    (h : ∀ b ∈ news, b.origin ∈ bookings.map Booking.origin) :
    (saveAll Booking.id bookings news).map Booking.origin = bookings.map Booking.origin := by
  induction news generalizing bookings with
  | nil => rfl
  | cons b news ih =>
    obtain ⟨hb, hnews⟩ := List.forall_mem_cons.mp h
    have hsaved := map_origin_save hkeyed hb
    rw [saveAll, List.foldl_cons, ← saveAll, ih (hkeyed.save b), hsaved]
    rw [hsaved]
    exact hnews

theorem cancelInstances_origins {instances cancelled : List Booking}
    (h : cancelInstances env db instances = .ok cancelled) :
    cancelled.map Booking.origin = instances.map Booking.origin := by
  induction instances generalizing cancelled with
  | nil =>
    obtain rfl := pure_eq_ok.mp h
    rfl
  | cons i instances ih =>
    simp only [cancelInstances, bind_eq_ok, pure_eq_ok] at h
    obtain ⟨refundAmount, _, rest, hrest, rfl⟩ := h
    rw [List.map_cons, List.map_cons, ih hrest]
    rfl

/-- What an accepted call posts, and what it makes of the rows. -/
inductive Posts (db : Database) : List Booking → Database → Prop where
  | single (b : Booking) (db' : Database) (hid : b.id = db.nextId) (hsingle : b.seriesId = none)
      (hrows : db'.bookings = save Booking.id db.bookings b)
      (hposted : db'.outbox = db.outbox ++ [bookingEvent .stellarEscrowCreate b]) : Posts db [b] db'
  | series (news : List Booking) (db' : Database)
      (hseries : ∀ b ∈ news, b.seriesId ≠ none)
      (hrows : db'.bookings = db.bookings ++ news) (hposted : db'.outbox = db.outbox) :
      Posts db news db'
  | confirmed (b : Booking) (db' : Database) (hmem : b ∈ db.bookings)
      (hrows : db'.bookings.map Booking.origin = db.bookings.map Booking.origin)
      (hposted : db'.outbox = db.outbox ++ [bookingEvent .stellarBookingConfirmed b]) :
      Posts db [] db'
  | kept (db' : Database)
      (hrows : db'.bookings.map Booking.origin = db.bookings.map Booking.origin)
      (hposted : db'.outbox = db.outbox) : Posts db [] db'

theorem made_create {userId userTier : String} {dto : CreateBookingDto}
    {r : List Booking × Database} (h : create env userId dto userTier db = .ok r) :
    made db ⟨env, .create userId dto userTier⟩ = r.1 := by
  simp only [made, h]

theorem create_posts (hnumbered : Numbered db) {userId userTier : String} {dto : CreateBookingDto}
    (h : exec env (.create userId dto userTier) db = .ok db') :
    Posts db (made db ⟨env, .create userId dto userTier⟩) db' := by
  obtain ⟨r, hcreate, rfl⟩ := map_eq_ok.mp h
  rw [made_create hcreate]
  cases hrule : truthy dto.recurrenceRule with
  | some rule =>
    simp only [create, hrule, createSeries, bind_eq_ok, pure_eq_ok] at hcreate
    obtain ⟨workspace, _, _, _, instances, _, _, _, rfl⟩ := hcreate
    refine .series _ _ (fun b hb => ?_) (hnumbered.saveSeries instances) rfl
    obtain ⟨n, hn, rfl⟩ := List.mem_mapIdx.mp hb
    exact Option.some_ne_none _
  | none =>
    simp only [create, hrule, createSingle, bind_eq_ok, getOr_eq_ok] at hcreate
    obtain ⟨workspace, _, _, _, conflict, _, hrest⟩ := hcreate
    cases conflict with
    | some detail => cases hrest
    | none =>
      simp only [bind_eq_ok, pure_eq_ok] at hrest
      obtain ⟨startTime, _, endTime, _, rateSnapshot, _, rfl⟩ := hrest
      exact .single _ _ rfl rfl rfl rfl

theorem origin_mem_of_findRow {id : ℕ} {booking : Booking}
    (h : findRow Booking.id db.bookings id = some booking) :
    booking.origin ∈ db.bookings.map Booking.origin :=
  List.mem_map_of_mem (findRow_eq_some h).1

theorem assign_posts (hnumbered : Numbered db) {booking : Booking} {dto : UpdateBookingDto}
    {r : Booking × Database} (hmem : booking.origin ∈ db.bookings.map Booking.origin)
    (h : assign booking dto db = .ok r) : Posts db [] r.2 := by
  obtain ⟨status, _, startTime, _, endTime, _, rfl⟩ := assign_eq_ok.mp h
  exact .kept _ (map_origin_save hnumbered.keyed hmem) rfl

theorem update_posts (hnumbered : Numbered db) {id : ℕ} {dto : UpdateBookingDto}
    {userTier : Option String} (h : exec env (.update id dto userTier) db = .ok db') :
    Posts db [] db' := by
  simp only [exec, map_eq_ok, update, findBooking, bind_eq_ok, getOr_eq_ok] at h
  obtain ⟨r, ⟨booking, hbooking, hrest⟩, rfl⟩ := h
  have hmem := origin_mem_of_findRow hbooking
  split_ifs at hrest with hgiven
  · simp only [bind_eq_ok] at hrest
    obtain ⟨conflict, _, hrest⟩ := hrest
    cases conflict with
    | some detail => cases hrest
    | none =>
      simp only [bind_eq_ok] at hrest
      obtain ⟨_, _, _, _, _, _, rateSnapshot, _, hassign⟩ := hrest
      refine assign_posts hnumbered ?_ hassign
      exact hmem
  · exact assign_posts hnumbered hmem hrest

theorem exec_posts (hnumbered : Numbered db) (h : exec env call db = .ok db') :
    Posts db (made db ⟨env, call⟩) db' := by
  cases call with
  | create userId dto userTier => exact create_posts hnumbered h
  | update id dto userTier => exact update_posts hnumbered h
  | confirm id =>
    simp only [exec, map_eq_ok, confirm, findBooking, bind_eq_ok, getOr_eq_ok, pure_eq_ok] at h
    obtain ⟨_, ⟨booking, hbooking, _, _, _, _, rfl⟩, rfl⟩ := h
    have hmem := origin_mem_of_findRow hbooking
    exact .confirmed booking _ (findRow_eq_some hbooking).1
      (map_origin_save hnumbered.keyed hmem) rfl
  | cancel id userId =>
    simp only [exec, map_eq_ok, cancel, findBooking, bind_eq_ok, getOr_eq_ok, pure_eq_ok] at h
    obtain ⟨_, ⟨booking, hbooking, _, _, refund, _, rfl⟩, rfl⟩ := h
    have hmem := origin_mem_of_findRow hbooking
    exact .kept _ (map_origin_save hnumbered.keyed hmem) rfl
  | cancelSeries seriesId userId =>
    simp only [exec, map_eq_ok, cancelSeries] at h
    obtain ⟨_, hrest, rfl⟩ := h
    cases hall : db.bookings.filter fun b => b.seriesId = some seriesId with
    | nil =>
      rw [hall] at hrest
      cases hrest
    | cons owner rest =>
      rw [hall] at hrest
      simp only [bind_eq_ok, pure_eq_ok] at hrest
      obtain ⟨_, _, cancelled, hcancelled, rfl⟩ := hrest
      refine .kept _ (map_origin_saveAll hnumbered.keyed fun b hb => ?_) rfl
      -- each row that is saved is an instance of the series as it was
      have hinstance := List.mem_map_of_mem (f := Booking.origin) hb
      rw [cancelInstances_origins hcancelled, ← hall] at hinstance
      obtain ⟨i, hi, horigin⟩ := List.mem_map.mp hinstance
      rw [← horigin]
      exact List.mem_map_of_mem (List.mem_of_mem_filter (List.mem_of_mem_filter hi))

theorem Backed.more {before : List OutboxEvent} {event : OutboxEvent}
    (h : Backed makings before event) : Backed (makings ++ news) before event := by
  obtain ⟨b, hb, hevent, horder⟩ := h
  exact ⟨b, List.mem_append_left news hb, hevent, horder⟩

/-- What has been backed stays so when an event is posted behind it. -/
theorem backed_concat {outbox : List OutboxEvent} {event : OutboxEvent}
    (hold : ∀ n e, outbox[n]? = some e → e.type = .stellarBookingConfirmed →
      Backed makings (outbox.take n) e)
    (hnew : event.type = .stellarBookingConfirmed → Backed makings outbox event) :
    ∀ n e, (outbox ++ [event])[n]? = some e → e.type = .stellarBookingConfirmed →
      Backed makings ((outbox ++ [event]).take n) e := by
  intro n e he htype
  by_cases hn : n < outbox.length
  · rw [List.getElem?_append_left hn] at he
    rw [List.take_append_of_le_length hn.le]
    exact hold n e he htype
  · obtain ⟨hlt, rfl⟩ := List.getElem?_eq_some_iff.mp he
    rw [List.length_append, List.length_singleton] at hlt
    obtain rfl : n = outbox.length := by omega
    rw [List.getElem_concat_length rfl] at htype ⊢
    rw [List.take_left']
    · exact hnew htype
    · rfl

theorem Ledger.posts (h : Ledger db makings) (hposts : Posts db news db')
    (hnumbered : Numbered db') : Ledger db' (makings ++ news) := by
  have hbacked : ∀ n event, db.outbox[n]? = some event → event.type = .stellarBookingConfirmed →
      Backed (makings ++ news) (db.outbox.take n) event :=
    fun n event hevent htype => (h.backed n event hevent htype).more
  cases hposts with
  | single b _ hid hsingle hrows hposted =>
    refine ⟨hnumbered, ?_, ?_, ?_⟩
    · rw [hrows, save_fresh (hid ▸ h.numbered.fresh_key le_rfl), List.map_append, h.origins,
        List.map_append]
    · rw [hposted, List.filter_append, h.escrows, List.filter_append, List.map_append]
      simp [bookingEvent, hsingle]
    · rw [hposted]
      refine backed_concat hbacked fun htype => ?_
      cases htype
  | series _ _ hseries hrows hposted =>
    have hnone : news.filter (fun b => b.seriesId = none) = [] := by
      rw [List.filter_eq_nil_iff]
      intro b hb
      simpa using hseries b hb
    refine ⟨hnumbered, ?_, ?_, ?_⟩
    · rw [hrows, List.map_append, h.origins, List.map_append]
    · rw [hposted, List.filter_append, hnone, List.append_nil, h.escrows]
    · rw [hposted]
      exact hbacked
  | confirmed b _ hmem hrows hposted =>
    refine ⟨hnumbered, ?_, ?_, ?_⟩
    · rw [hrows, h.origins, List.append_nil]
    · rw [hposted, List.filter_append, h.escrows, List.append_nil]
      exact List.append_nil _
    · rw [hposted]
      refine backed_concat hbacked fun _ => ?_
      -- the row has been made as some booking, and ordered with it
      have horigin : b.origin ∈ makings.map Booking.origin := by
        rw [← h.origins]
        exact List.mem_map_of_mem hmem
      obtain ⟨first, hfirst, hsame⟩ := List.mem_map.mp horigin
      refine ⟨first, List.mem_append_left _ hfirst, ?_, fun hsingle => ?_⟩
      · simp only [bookingEvent, Prod.mk.injEq]
        exact ⟨(congrArg Origin.id hsame).symm, (congrArg Origin.userId hsame).symm,
          (congrArg Origin.workspaceId hsame).symm⟩
      · have hordered : bookingEvent .stellarEscrowCreate first ∈
            db.outbox.filter fun event => event.type = .stellarEscrowCreate := by
          rw [h.escrows]
          exact List.mem_map_of_mem (List.mem_filter.mpr ⟨hfirst, by simpa using hsingle⟩)
        exact List.mem_of_mem_filter hordered
  | kept _ hrows hposted =>
    refine ⟨hnumbered, ?_, ?_, ?_⟩
    · rw [hrows, h.origins, List.append_nil]
    · rw [hposted, h.escrows, List.append_nil]
    · rw [hposted]
      exact hbacked

theorem made_of_error {e : ServiceError} (h : exec env call db = .error e) :
    made db ⟨env, call⟩ = [] := by
  cases call with
  | create userId dto userTier =>
    cases hcreate : create env userId dto userTier db with
    | ok r => rw [exec, hcreate] at h; cases h
    | error _ => simp only [made, hcreate]
  | _ => rfl

theorem Ledger.step (h : Ledger db makings) (a : Action) :
    Ledger (step db a) (makings ++ made db a) := by
  have hnumbered := h.numbered.step a
  rw [Bookings.step] at hnumbered ⊢
  cases hcall : exec a.env a.call db with
  | ok db' =>
    rw [hcall] at hnumbered
    exact h.posts (exec_posts h.numbered hcall) hnumbered
  | error e =>
    rw [show made db a = [] from made_of_error hcall, List.append_nil]
    exact h

/-- From no bookings on, over any run: the rows are the bookings made, whose owner, workspace and
place in a series never change; an escrow has been ordered for each single booking, once, as it was
made, and for no instance of a series; and every notice of a confirmation is about one of these
bookings and comes after the order for it. -/
theorem outbox_ledger_run (workspaces : String → Option Workspace)
    (maintenanceWindows : List MaintenanceWindow) (as : List Action) :
    Ledger (run Bookings.step (emptyDatabase workspaces maintenanceWindows) as)
      (trace Bookings.step made (emptyDatabase workspaces maintenanceWindows) as) := by
  have hstart : Ledger (emptyDatabase workspaces maintenanceWindows) [] :=
    ⟨⟨List.nodup_nil, fun _ h => absurd h List.not_mem_nil⟩, rfl, rfl,
      fun n event h => by simp [emptyDatabase] at h⟩
  exact trace_invariant_all Bookings.step made (J := Ledger) (fun _ a _ h => h.step a) hstart as

end HubAssist.Bookings
