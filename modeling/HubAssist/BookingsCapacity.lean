import HubAssist.BookingsOccupancy
import HubAssist.RunSystem

/-! The capacity of workspaces along runs of the bookings service: at no instant are more places
taken than a workspace has, as long as every interval that starts to take places has been
checked against all the others. -/
namespace HubAssist.Bookings
open Checks KeyedTable RunSystem

variable {db db' : Database} {env : Services} {call : Call} {workspaceId : String}
variable {b booking : Booking}

/-- No workspace that has a place is taken beyond its capacity. -/
def WithinCapacity (db : Database) : Prop :=
  ∀ workspaceId workspace, db.workspaces workspaceId = some workspace → 1 ≤ workspace.capacity →
    Bounded db.bookings workspaceId workspace.capacity

/-- The conflict detection finds room for one more booking, maintenance windows aside. -/
def Fits (db : Database) (workspaceId : String) (startTime endTime : ℤ)
    (excludeBookingId : Option ℕ) : Prop :=
  hasConflict { db with maintenanceWindows := [] } workspaceId (some startTime) (some endTime)
    excludeBookingId = .ok none

/-- A patch without times that gives a booking a place it did not have. -/
structure Revives (db : Database) (id : ℕ) (dto : UpdateBookingDto) (booking : Booking)
    (status : BookingStatus) : Prop where
  found : findRow Booking.id db.bookings id = some booking
  startTime_absent : dto.startTime = .absent
  endTime_absent : dto.endTime = .absent
  status_eq : dto.status = .value status
  holds : status.Holds
  held_none : ¬booking.status.Holds

/-- An accepted series fits also when its instances are stored one after another, and a booking
that is given a place back fits into its stored interval. -/
def Rechecked (db : Database) (a : Action) : Prop :=
  match a.call with
  | .create userId dto _ => ∀ workspace instances, SeriesAccepted a.env db dto workspace instances →
    1 ≤ workspace.capacity → ∀ pre b post,
      seriesBookings a.env userId dto workspace db.nextId instances = pre ++ b :: post →
        Fits { db with bookings := db.bookings ++ pre } dto.workspaceId b.startTime b.endTime none
  | .update id dto _ => ∀ booking status workspace, Revives db id dto booking status →
    db.workspaces booking.workspaceId = some workspace → 1 ≤ workspace.capacity →
      Fits db booking.workspaceId booking.startTime booking.endTime (some id)
  | _ => True

theorem fits_iff {workspace : Workspace} {startTime endTime : ℤ} {excludeBookingId : Option ℕ}
    (hworkspace : db.workspaces workspaceId = some workspace) (hcapacity : 1 ≤ workspace.capacity) :
    Fits db workspaceId startTime endTime excludeBookingId ↔
      ¬Overfull (leaving db.bookings excludeBookingId) workspaceId workspace.capacity startTime
        endTime := by
  have hnone : Fits db workspaceId startTime endTime excludeBookingId ↔ _ :=
    hasConflict_eq_none hworkspace hcapacity
  exact hnone.trans (and_iff_right fun _ h => absurd h List.not_mem_nil)

/-- A series keeps to the capacity exactly when its instances fit one after another. -/
theorem withSeries_within_iff (hnumbered : Numbered db) (h : WithinCapacity db) {userId : String}
    {dto : CreateBookingDto} {workspace : Workspace} {instances : List RecurrenceInstance}
    (hworkspace : db.workspaces dto.workspaceId = some workspace) :
    WithinCapacity (withSeries env userId dto workspace db instances) ↔
      (1 ≤ workspace.capacity → ∀ pre b post,
        seriesBookings env userId dto workspace db.nextId instances = pre ++ b :: post →
          Fits { db with bookings := db.bookings ++ pre } dto.workspaceId b.startTime b.endTime
            none) := by
  have hrows : ∀ b ∈ seriesBookings env userId dto workspace db.nextId instances,
      b.workspaceId = dto.workspaceId ∧ b.status.Holds := fun b => mem_seriesBookings
  have happend : saveAll Booking.id db.bookings
      (seriesBookings env userId dto workspace db.nextId instances) = _ :=
    hnumbered.saveSeries instances
  have hfits {pre : List Booking} {b : Booking} (hcapacity : 1 ≤ workspace.capacity) :
      Fits { db with bookings := db.bookings ++ pre } dto.workspaceId b.startTime b.endTime none ↔
        ¬Overfull (db.bookings ++ pre) dto.workspaceId workspace.capacity b.startTime b.endTime := by
    refine (fits_iff ?_ hcapacity).trans ?_
    · exact hworkspace
    · rw [leaving_none]
  constructor
  · intro hwithin hcapacity pre b post hsplit
    rw [hfits hcapacity]
    have hbound := hwithin dto.workspaceId workspace hworkspace hcapacity
    dsimp only [withSeries] at hbound
    rw [happend] at hbound
    exact (Bounded.append_iff (h _ _ hworkspace hcapacity) hrows).mp hbound pre b post hsplit
  · intro hroom other otherWorkspace hother hcapacity
    dsimp only [withSeries] at hother ⊢
    rw [happend]
    by_cases ho : other = dto.workspaceId
    · subst ho
      obtain rfl := Option.some.inj (hworkspace.symm.trans hother)
      apply (Bounded.append_iff (h _ _ hworkspace hcapacity) hrows).mpr
      intro pre b post hsplit
      exact (hfits hcapacity).mp (hroom hcapacity pre b post hsplit)
    · intro t
      -- no instance of the series is in another workspace
      have hnone : occupancy (seriesBookings env userId dto workspace db.nextId instances) other
          t = 0 := by
        rw [occupancy, List.countP_eq_zero]
        intro b hb
        rw [decide_eq_true_iff]
        rintro ⟨hws, _⟩
        exact ho (hws.symm.trans (hrows b hb).1)
      have hbound := h other otherWorkspace hother hcapacity t
      rw [occupancy_append, hnone]
      exact hbound

/-- The capacities are kept when a booking is saved that keeps them at every workspace. -/
theorem within_saved (h : WithinCapacity db) {b : Booking}
    (hbookings : db'.bookings = save Booking.id db.bookings b)
    (hworkspaces : db'.workspaces = db.workspaces)
    (hsaved : ∀ other workspace, db.workspaces other = some workspace → 1 ≤ workspace.capacity →
      Bounded db.bookings other workspace.capacity →
        Bounded (save Booking.id db.bookings b) other workspace.capacity) :
    WithinCapacity db' := by
  intro other workspace hother hcapacity
  rw [hworkspaces] at hother
  rw [hbookings]
  exact hsaved other workspace hother hcapacity (h other workspace hother hcapacity)

theorem within_single (hnumbered : Numbered db) (h : WithinCapacity db) {userId : String}
    {dto : CreateBookingDto} {startTime endTime : ℤ} {rateSnapshot : RateSnapshot}
    (hfree : hasConflict db dto.workspaceId (some startTime) (some endTime) none = .ok none)
    (hbookings : db'.bookings = save Booking.id db.bookings
      (singleBooking userId dto db.nextId startTime endTime rateSnapshot))
    (hworkspaces : db'.workspaces = db.workspaces) : WithinCapacity db' := by
  apply within_saved h hbookings hworkspaces
  intro other workspace hother hcapacity hbound
  apply hbound.save hnumbered.keyed
  rintro rfl
  have hroom := ((hasConflict_eq_none hother hcapacity).mp hfree).2
  rw [leaving_none] at hroom
  dsimp only [singleBooking]
  rw [others_eq_self (hnumbered.fresh_key le_rfl)]
  exact hroom

theorem within_moved (hnumbered : Numbered db) (h : WithinCapacity db) {id : ℕ}
    (hfree : hasConflict db b.workspaceId (some b.startTime) (some b.endTime) (some id) = .ok none)
    (hid : b.id = id) (hbookings : db'.bookings = save Booking.id db.bookings b)
    (hworkspaces : db'.workspaces = db.workspaces) : WithinCapacity db' := by
  apply within_saved h hbookings hworkspaces
  intro other workspace hother hcapacity hbound
  apply hbound.save hnumbered.keyed
  rintro rfl
  have hroom := ((hasConflict_eq_none hother hcapacity).mp hfree).2
  rw [leaving_some, ← hid] at hroom
  exact hroom

theorem within_kept (hnumbered : Numbered db) (h : WithinCapacity db)
    (hstored : booking ∈ db.bookings) (hbookings : db'.bookings = save Booking.id db.bookings b)
    (hid : b.id = booking.id) (hworkspaces : db'.workspaces = db.workspaces)
    (htakes : ∀ workspaceId t, b.Takes workspaceId t → booking.Takes workspaceId t) :
    WithinCapacity db' := by
  apply within_saved h hbookings hworkspaces
  intro other workspace _ _ hbound
  exact hbound.save_kept hnumbered.keyed hstored hid (htakes other)

/-- A booking that is given a place back keeps to the capacity exactly when it fits. -/
theorem within_revived_iff (hnumbered : Numbered db) (h : WithinCapacity db)
    (hbookings : db'.bookings = save Booking.id db.bookings b)
    (hid : b.id = booking.id) (hworkspaces : db'.workspaces = db.workspaces)
    (hworkspace : b.workspaceId = booking.workspaceId) (hstart : b.startTime = booking.startTime)
    (hend : b.endTime = booking.endTime) (hholds : b.status.Holds) :
    WithinCapacity db' ↔ ∀ workspace, db.workspaces booking.workspaceId = some workspace →
      1 ≤ workspace.capacity →
        Fits db booking.workspaceId booking.startTime booking.endTime (some booking.id) := by
  constructor
  · intro hwithin workspace hfound hcapacity
    rw [fits_iff hfound hcapacity, leaving_some]
    rintro ⟨t, hin, hover⟩
    have hbound := hwithin booking.workspaceId workspace (hworkspaces ▸ hfound) hcapacity t
    have htakes : b.Takes booking.workspaceId t := ⟨hworkspace, hholds, hstart ▸ hin.1, hend ▸ hin.2⟩
    rw [hbookings, occupancy_save hnumbered.keyed, if_pos htakes, hid] at hbound
    push_cast at hbound
    omega
  · intro hfits other workspace hother hcapacity
    rw [hworkspaces] at hother
    rw [hbookings]
    apply (h other workspace hother hcapacity).save hnumbered.keyed
    rintro rfl
    have hroom := hfits workspace (hworkspace ▸ hother) hcapacity
    rw [fits_iff (hworkspace ▸ hother) hcapacity, leaving_some] at hroom
    rwa [hid, hworkspace, hstart, hend]

theorem SeriesAccepted.unique {dto : CreateBookingDto} {workspace other : Workspace}
    {instances others : List RecurrenceInstance} (h : SeriesAccepted env db dto workspace instances)
    (h' : SeriesAccepted env db dto other others) : workspace = other ∧ instances = others := by
  obtain ⟨rule, startTime, endTime, hrule, hstart, hend, _, hexpand⟩ := h.expanded
  obtain ⟨rule', startTime', endTime', hrule', hstart', hend', _, hexpand'⟩ := h'.expanded
  obtain rfl := Option.some.inj (hrule.symm.trans hrule')
  obtain rfl := Option.some.inj (hstart.symm.trans hstart')
  obtain rfl := Option.some.inj (hend.symm.trans hend')
  exact ⟨Option.some.inj (h.workspace_eq.symm.trans h'.workspace_eq),
    Except.ok.inj (hexpand.symm.trans hexpand')⟩

/-- A patch that changes a column gives it a value. -/
theorem Patch.value_of_column {α : Type} {patch : Patch α} {old new : α}
    (h : patch.column old = .ok new) (hne : new ≠ old) : patch = .value new := by
  cases patch with
  | absent => exact absurd (Except.ok.inj h).symm hne
  | null => cases h
  | value given => rw [Except.ok.inj h]

/-- A patch without times checks nothing: only one that brings the booking back from a status
without a place needs room. -/
theorem within_patched_iff (hnumbered : Numbered db) (h : WithinCapacity db) {id : ℕ}
    {dto : UpdateBookingDto} {userTier : Option String} {status : BookingStatus}
    {stellarTxHash : Option String} (hbooking : findRow Booking.id db.bookings id = some booking)
    (hstart : dto.startTime = .absent) (hend : dto.endTime = .absent)
    (hstatus : dto.status.column booking.status = .ok status) :
    WithinCapacity { db with bookings := save Booking.id db.bookings { booking with
      status := status, stellarTxHash := stellarTxHash } } ↔
      Rechecked db ⟨env, .update id dto userTier⟩ := by
  obtain ⟨hstored, hid⟩ := findRow_eq_some hbooking
  by_cases hrevives : status.Holds ∧ ¬booking.status.Holds
  · have hne : status ≠ booking.status := by
      rintro rfl
      exact hrevives.2 hrevives.1
    have hvalue := Patch.value_of_column hstatus hne
    refine Iff.trans (within_revived_iff hnumbered h rfl rfl rfl rfl rfl rfl hrevives.1) ?_
    rw [hid]
    constructor
    · intro hfits booking' status' workspace hrevives'
      obtain rfl := Option.some.inj (hbooking.symm.trans hrevives'.found)
      exact hfits workspace
    · intro hfits workspace
      exact hfits booking status workspace ⟨hbooking, hstart, hend, hvalue, hrevives.1,
        hrevives.2⟩
  · refine iff_of_true ?_ ?_
    · refine within_kept hnumbered h hstored rfl rfl rfl ?_
      rintro workspaceId t ⟨hworkspace, hholds, hin⟩
      exact ⟨hworkspace, not_not.mp fun hnot => hrevives ⟨hholds, hnot⟩, hin⟩
    · intro booking' status' workspace hrevives'
      obtain rfl := Option.some.inj (hbooking.symm.trans hrevives'.found)
      rw [hrevives'.status_eq] at hstatus
      obtain rfl := Except.ok.inj hstatus
      exact absurd ⟨hrevives'.holds, hrevives'.held_none⟩ hrevives

/-- An accepted call keeps to the capacity exactly when what it does not check holds as well. -/
theorem Effect.within_iff (heffect : Effect env db call db') (hnumbered : Numbered db)
    (h : WithinCapacity db) : WithinCapacity db' ↔ Rechecked db ⟨env, call⟩ := by
  cases heffect with
  | inserts userId dto userTier workspace startTime endTime rateSnapshot event hrule _ hfree =>
    refine iff_of_true (within_single hnumbered h hfree rfl rfl) ?_
    intro _ _ haccepted
    obtain ⟨rule, _, _, hrule', _⟩ := haccepted.expanded
    rw [hrule] at hrule'
    exact nomatch hrule'
  | insertsSeries userId dto userTier workspace instances haccepted =>
    rw [withSeries_within_iff hnumbered h haccepted.workspace_eq]
    constructor
    · intro hroom workspace' instances' haccepted'
      obtain ⟨rfl, rfl⟩ := haccepted.unique haccepted'
      exact hroom
    · intro hroom
      exact hroom workspace instances haccepted
  | confirms id booking event hbooking hstatus =>
    refine iff_of_true ?_ trivial
    -- a pending booking held its place already
    refine within_kept hnumbered h (findRow_eq_some hbooking).1 rfl rfl rfl ?_
    rintro workspaceId t ⟨hworkspace, _, hin⟩
    exact ⟨hworkspace, Or.inr hstatus, hin⟩
  | cancels id userId booking refundAmount hbooking =>
    refine iff_of_true ?_ trivial
    refine within_kept hnumbered h (findRow_eq_some hbooking).1 rfl rfl rfl ?_
    rintro workspaceId t ⟨_, hholds, _⟩
    rcases hholds with hholds | hholds <;> exact nomatch hholds
  | cancelsSeries seriesId userId cancelled hcancelled =>
    refine iff_of_true ?_ trivial
    intro other workspace hother hcapacity
    apply (h other workspace hother hcapacity).saveAll hnumbered.keyed
    intro b hb hholds
    rw [(hcancelled b hb).1] at hholds
    rcases hholds with hholds | hholds <;> exact nomatch hholds
  | moves id dto userTier booking saved hgiven hbooking hid hworkspace hfree =>
    have hstored := (findRow_eq_some hbooking).2
    refine iff_of_true (within_moved hnumbered h hfree (hid.trans hstored) rfl rfl) ?_
    intro _ _ _ hrevives
    rw [hrevives.startTime_absent, hrevives.endTime_absent] at hgiven
    exact nomatch hgiven
  | patches id dto userTier booking status hbooking hstart hend hstatus =>
    exact within_patched_iff hnumbered h hbooking hstart hend hstatus

/-- What a rejected call does not check does not matter. -/
theorem rechecked_of_error {error : ServiceError} (h : exec env call db = .error error) :
    Rechecked db ⟨env, call⟩ := by
  cases call with
  | create userId dto userTier =>
    intro workspace instances haccepted
    obtain ⟨rule, _, _, hrule, _⟩ := haccepted.expanded
    have hok : exec env (.create userId dto userTier) db = .ok _ :=
      (create_series_eq_ok hrule).mpr ⟨workspace, instances, haccepted, rfl⟩
    rw [h] at hok
    exact nomatch hok
  | update id dto userTier =>
    intro booking status workspace hrevives
    have hcolumn : dto.status.column booking.status = .ok status := by
      rw [hrevives.status_eq]
      rfl
    have hok : exec env (.update id dto userTier) db = .ok _ :=
      (update_untimed_eq_ok hrevives.startTime_absent hrevives.endTime_absent).mpr
        ⟨booking, status, hrevives.found, hcolumn, rfl⟩
    rw [h] at hok
    exact nomatch hok
  | confirm => trivial
  | cancel => trivial
  | cancelSeries => trivial

theorem within_step_iff (hnumbered : Numbered db) (h : WithinCapacity db) (a : Action) :
    WithinCapacity (step db a) ↔ Rechecked db a := by
  obtain ⟨env, call⟩ := a
  cases hcall : exec env call db with
  | ok db' =>
    have hstep : step db ⟨env, call⟩ = db' := by rw [step, hcall, orRollback]
    rw [hstep]
    exact (exec_effect hcall).within_iff hnumbered h
  | error error =>
    have hstep : step db ⟨env, call⟩ = db := by rw [step, hcall, orRollback]
    rw [hstep]
    exact iff_of_true h (rechecked_of_error hcall)

/-- The tables without bookings. -/
def emptyDatabase (workspaces : String → Option Workspace)
    (maintenanceWindows : List MaintenanceWindow) : Database :=
  ⟨workspaces, maintenanceWindows, [], [], 0⟩

/-- From no bookings on, no workspace is taken beyond its capacity in any state of a run exactly
when every accepted series also fits instance after instance, and every booking that is given a
place back fits into its interval. -/
theorem capacity_kept_run (workspaces : String → Option Workspace)
    (maintenanceWindows : List MaintenanceWindow) (as : List Action) :
    Always step WithinCapacity (emptyDatabase workspaces maintenanceWindows) as ↔
      Guarded step Rechecked (emptyDatabase workspaces maintenanceWindows) as := by
  have hstart : Numbered (emptyDatabase workspaces maintenanceWindows) :=
    ⟨List.nodup_nil, fun _ h => absurd h List.not_mem_nil⟩
  have hwithin : WithinCapacity (emptyDatabase workspaces maintenanceWindows) :=
    fun _ _ _ hcapacity t => zero_le_one.trans hcapacity
  exact always_iff_guarded step (fun db a h => h.step a)
    (fun db a hnumbered h => within_step_iff hnumbered h a) hstart hwithin

/-- A desk for one. -/
def oneDesk (workspaceId : String) : Option Workspace :=
  if workspaceId = "ws-1" then some ⟨1, 10⟩ else none

/-- Services for the rule of two daily occurrences; nothing else is asked of them. -/
def dailyTwice : Services where
  now := 0
  occurrences _ dtstart := dtstart.map fun time => [time, time+86400000]
  toFixed amount := amount
  calculatePrice _ _ _ _ _ := .ok ⟨0⟩
  verifyTransaction _ := .ok "SUCCESS"
  evaluateRefund _ _ := .ok 0
  userRole _ := none

/-- A day and a half, on two days in a row. -/
def overlappingSeries : CreateBookingDto where
  workspaceId := "ws-1"
  startTime := some 0
  endTime := some 129600000
  stellarTxHash := none
  recurrenceRule := some "FREQ=DAILY;COUNT=2"

/-- Both instances pass the check, and the desk is taken twice on the second morning. -/
theorem capacity_exceeded_bySeries :
    ¬Always step WithinCapacity (emptyDatabase oneDesk [])
      [⟨dailyTwice, .create "user-1" overlappingSeries "member"⟩] := by
  intro h
  have hbound := h.2 "ws-1" ⟨1, 10⟩ rfl le_rfl 86400000
  revert hbound
  decide

end HubAssist.Bookings
