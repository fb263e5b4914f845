import HubAssist.BookingsConflict
import HubAssist.PricingModel

/-! What a series of bookings is charged and what it sends to the outbox, against single bookings of
the same intervals. -/
namespace HubAssist.Bookings
open Checks KeyedTable

variable {env : Services} {toFixed : ℕ → ℚ → ℚ} {rules : List Pricing.PriceRule}
variable {userId rule userTier : String} {dto : CreateBookingDto} {workspace : Workspace}
variable {db db' : Database} {startTime endTime : ℤ} {bookings : List Booking}

def ofPricing : Pricing.ServiceError → ServiceError
  | .notFound message => .notFound message
  | .badRequest message => .badRequest message
  | .conflict message => .failed message
  | .failed message => .failed message

/-- The services with the pricing engine over a table of price rules, of which the active ones of
the workspace are read. -/
def withEngine (env : Services) (toFixed : ℕ → ℚ → ℚ) (rules : List Pricing.PriceRule) :
    Services :=
  { env with
    toFixed := toFixed 2
    calculatePrice := fun workspaceId startTime endTime userTier fallbackRate =>
      match Pricing.calculatePrice toFixed env.now startTime endTime userTier fallbackRate
        (rules.filter fun r => r.workspaceId = workspaceId ∧ r.isActive = true) with
      | .ok snapshot => .ok ⟨snapshot.totalAmount⟩
      | .error e => .error (ofPricing e) }

/-- The amounts that the engine finds for the instances of a series. No call of the bookings
service asks for them. -/
def calculateSeriesPrices (env : Services) (workspaceId userTier : String) (pricePerHour : ℚ) :
    List RecurrenceInstance → Except ServiceError (List ℚ)
  | [] => return []
  | i :: instances => do
    let snapshot ← env.calculatePrice workspaceId i.startTime i.endTime userTier pricePerHour
    let amounts ← calculateSeriesPrices env workspaceId userTier pricePerHour instances
    return snapshot.totalAmount :: amounts

/-- The amount that a single booking of the interval is charged. -/
def engineAmount (toFixed : ℕ → ℚ → ℚ) (rules : List Pricing.PriceRule)
    (workspaceId userTier : String) (pricePerHour : ℚ) (startTime endTime : ℤ) : ℚ :=
  toFixed 2 (Pricing.grossTotal (Pricing.buildSegments toFixed
    (rules.filter fun r => r.workspaceId = workspaceId ∧ r.isActive = true) pricePerHour
    startTime endTime)*(1-Pricing.tierDiscount userTier))

/-- The amount that an instance of a series is charged. -/
def flatAmount (toFixed : ℕ → ℚ → ℚ) (pricePerHour : ℚ) (startTime endTime : ℤ) : ℚ :=
  toFixed 2 ((endTime-startTime : ℤ)/(1000*60*60)*pricePerHour)

/-- The events that a call has added, without the identifiers of the bookings. -/
def newEvents (db db' : Database) : List OutboxEvent :=
  (db'.outbox.drop db.outbox.length).map fun event => { event with bookingId := 0 }

/-- The request makes one booking which, but for the columns of a series, is the one that it makes
without its recurrence rule. -/
def LikeSingle (env : Services) (userId : String) (dto : CreateBookingDto) (userTier : String)
    (db : Database) : Prop :=
  ∃ ofSeries dbSeries single dbSingle,
    create env userId dto userTier db = .ok ([ofSeries], dbSeries) ∧
    create env userId { dto with recurrenceRule := none } userTier db = .ok ([single], dbSingle) ∧
    ofSeries.totalAmount = single.totalAmount ∧
    ofSeries.appliedRateSnapshot = single.appliedRateSnapshot ∧
    ofSeries.status = single.status ∧ newEvents db dbSeries = newEvents db dbSingle

theorem engine_price (hlt : startTime < endTime) (workspaceId : String) (pricePerHour : ℚ) :
    (withEngine env toFixed rules).calculatePrice workspaceId startTime endTime userTier
        pricePerHour =
      .ok ⟨engineAmount toFixed rules workspaceId userTier pricePerHour startTime endTime⟩ := by
  simp only [withEngine, Pricing.calculatePrice, failIf, not_le.mpr hlt, if_false]
  rfl

/-- The engine finds for each instance of a series what a single booking of it is charged. -/
theorem calculateSeriesPrices_eq {instances : List RecurrenceInstance} (workspaceId : String)
    (pricePerHour : ℚ) (h : ∀ i ∈ instances, i.startTime < i.endTime) :
    calculateSeriesPrices (withEngine env toFixed rules) workspaceId userTier pricePerHour
        instances = .ok (instances.map fun i =>
      engineAmount toFixed rules workspaceId userTier pricePerHour i.startTime i.endTime) := by
  induction instances with
  | nil => rfl
  | cons i instances ih =>
    obtain ⟨hlt, hrest⟩ := List.forall_mem_cons.mp h
    rw [calculateSeriesPrices, engine_price hlt, ok_bind, ih hrest]
    rfl

/-- A single booking is priced by the engine and sends its event. -/
theorem create_single_eq (hworkspace : db.workspaces dto.workspaceId = some workspace)
    (hstart : dto.startTime = some startTime) (hend : dto.endTime = some endTime)
    (hlt : startTime < endTime) (hrule : truthy dto.recurrenceRule = none)
    (hfree : hasConflict db dto.workspaceId (some startTime) (some endTime) none = .ok none) :
    create (withEngine env toFixed rules) userId dto userTier db =
      (let single := singleBooking userId dto db.nextId startTime endTime
        ⟨engineAmount toFixed rules dto.workspaceId userTier workspace.pricePerHour startTime
          endTime⟩
      .ok ([single], { db with
        bookings := save Booking.id db.bookings single
        outbox := db.outbox ++ [bookingEvent .stellarEscrowCreate single]
        nextId := db.nextId+1 })) := by
  have hduration : ¬endTime-startTime ≤ 0 := by omega
  simp only [create, hworkspace, hstart, hend, getOr, ok_bind, hrule, failIf, createSingle, hfree,
    timestamp, engine_price hlt]
  simp [hduration]

/-- A series of one instance is stored without an event. -/
theorem create_series_eq (hworkspace : db.workspaces dto.workspaceId = some workspace)
    (hstart : dto.startTime = some startTime) (hend : dto.endTime = some endTime)
    (hlt : startTime < endTime) (hrule : truthy dto.recurrenceRule = some rule)
    (hone : env.occurrences rule (some startTime) = some [startTime])
    (hfree : hasConflict db dto.workspaceId (some startTime) (some endTime) none = .ok none) :
    create env userId dto userTier db =
      (let ofSeries := seriesBooking env userId dto workspace db.nextId ⟨startTime, endTime⟩ 0
      .ok ([ofSeries], { db with
        bookings := saveAll Booking.id db.bookings [ofSeries]
        nextId := db.nextId+1+1 })) := by
  have hduration : ¬endTime-startTime ≤ 0 := by omega
  have hsum : startTime+(endTime-startTime) = endTime := by omega
  have hexpand : expandInstances env rule (some startTime) (some (endTime-startTime)) =
      .ok [⟨startTime, endTime⟩] := by
    simp only [expandInstances, hone, getOr, ok_bind, failIf, maxRecurrenceInstances, timestamp,
      List.map_cons, List.map_nil, hsum]
    rfl
  have hcheck : checkInstances db dto.workspaceId [⟨startTime, endTime⟩] = .ok () := by
    simp only [checkInstances, hfree, ok_bind]
    rfl
  have hbookings : seriesBookings env userId dto workspace db.nextId [⟨startTime, endTime⟩] =
      [seriesBooking env userId dto workspace db.nextId ⟨startTime, endTime⟩ 0] := rfl
  simp only [create, hworkspace, hstart, hend, getOr, ok_bind, hrule, failIf, createSeries,
    Option.bind_some, Option.map_some, hexpand, hcheck, hbookings]
  simp [hduration]

/-- The instances last as long as the interval of the request. -/
theorem expandInstances_lasting {dtstart durationMs : Option ℤ}
    {instances : List RecurrenceInstance}
    (h : expandInstances env rule dtstart durationMs = .ok instances) :
    ∃ duration, durationMs = some duration ∧
      ∀ i ∈ instances, i.endTime = i.startTime+duration := by
  simp only [expandInstances, bind_eq_ok, pure_eq_ok, timestamp_eq_ok] at h
  obtain ⟨_, _, _, _, _, _, duration, hduration, rfl⟩ := h
  refine ⟨duration, hduration, fun i hi => ?_⟩
  obtain ⟨_, _, rfl⟩ := List.mem_map.mp hi
  rfl

/-- Every booking of a series takes some time and is charged its hours at the rate of the
workspace. -/
theorem create_series_amounts (hworkspace : db.workspaces dto.workspaceId = some workspace)
    (hrule : truthy dto.recurrenceRule = some rule)
    (h : create (withEngine env toFixed rules) userId dto userTier db = .ok (bookings, db')) :
    ∀ b ∈ bookings, b.startTime < b.endTime ∧
      b.totalAmount = flatAmount toFixed workspace.pricePerHour b.startTime b.endTime := by
  simp only [create, hrule, createSeries, bind_eq_ok, getOr_eq_ok, failIf_eq_ok, pure_eq_ok,
    Prod.mk.injEq] at h
  obtain ⟨workspace', hworkspace', _, hpositive, instances, hinstances, _, _, rfl, _⟩ := h
  obtain rfl := Option.some.inj (hworkspace.symm.trans hworkspace')
  obtain ⟨duration, hduration, hlasting⟩ := expandInstances_lasting hinstances
  rw [hduration, Option.any_some, decide_eq_true_eq] at hpositive
  intro b hb
  obtain ⟨index, hindex, rfl⟩ := List.mem_mapIdx.mp hb
  have hlast := hlasting instances[index] (List.getElem_mem hindex)
  have hpositive : instances[index].startTime < instances[index].endTime := by omega
  exact ⟨hpositive, rfl⟩

/-- A booking of a series is charged what a single one would be exactly when the flat amount is
what the engine finds. -/
theorem series_charge_iff (hworkspace : db.workspaces dto.workspaceId = some workspace)
    (hrule : truthy dto.recurrenceRule = some rule)
    (h : create (withEngine env toFixed rules) userId dto userTier db = .ok (bookings, db')) :
    ∀ b ∈ bookings, ((withEngine env toFixed rules).calculatePrice dto.workspaceId b.startTime
        b.endTime userTier workspace.pricePerHour = .ok ⟨b.totalAmount⟩ ↔
      engineAmount toFixed rules dto.workspaceId userTier workspace.pricePerHour b.startTime
        b.endTime = flatAmount toFixed workspace.pricePerHour b.startTime b.endTime) := by
  intro b hb
  obtain ⟨hlt, hamount⟩ := create_series_amounts hworkspace hrule h b hb
  rw [engine_price hlt, hamount, Except.ok.injEq, RateSnapshot.mk.injEq]

theorem not_likeSingle (hworkspace : db.workspaces dto.workspaceId = some workspace)
    (hstart : dto.startTime = some startTime) (hend : dto.endTime = some endTime)
    (hlt : startTime < endTime) (hrule : truthy dto.recurrenceRule = some rule)
    (hone : env.occurrences rule (some startTime) = some [startTime])
    (hfree : hasConflict db dto.workspaceId (some startTime) (some endTime) none = .ok none) :
    ¬LikeSingle (withEngine env toFixed rules) userId dto userTier db := by
  have hseries : create (withEngine env toFixed rules) userId dto userTier db = _ :=
    create_series_eq hworkspace hstart hend hlt hrule hone hfree
  have hsingle : create (withEngine env toFixed rules) userId { dto with recurrenceRule := none }
      userTier db = _ :=
    create_single_eq hworkspace hstart hend hlt rfl hfree
  rintro ⟨ofSeries, dbSeries, single, dbSingle, hofSeries, hofSingle, _, hsnapshot, _, _⟩
  rw [hseries] at hofSeries
  rw [hsingle] at hofSingle
  simp only [Except.ok.injEq, Prod.mk.injEq, List.cons.injEq, and_true] at hofSeries hofSingle
  rw [← hofSeries.1, ← hofSingle.1] at hsnapshot
  exact absurd hsnapshot (by simp [seriesBooking, singleBooking])

/-- With no conflict a request for one instance never makes the booking of a single request: it has
no rate snapshot and sends no event. It, and each booking of any series, is charged the same
exactly when the flat amount is what the engine finds. -/
theorem series_of_one (hworkspace : db.workspaces dto.workspaceId = some workspace)
    (hstart : dto.startTime = some startTime) (hend : dto.endTime = some endTime)
    (hlt : startTime < endTime) (hrule : truthy dto.recurrenceRule = some rule)
    (hone : env.occurrences rule (some startTime) = some [startTime])
    (hfree : hasConflict db dto.workspaceId (some startTime) (some endTime) none = .ok none)
    (toFixed : ℕ → ℚ → ℚ) (rules : List Pricing.PriceRule) (userId userTier : String) :
    ¬LikeSingle (withEngine env toFixed rules) userId dto userTier db ∧
    ∀ dto' bookings db', dto'.workspaceId = dto.workspaceId → truthy dto'.recurrenceRule ≠ none →
      create (withEngine env toFixed rules) userId dto' userTier db = .ok (bookings, db') →
        ∀ b ∈ bookings, ((withEngine env toFixed rules).calculatePrice dto.workspaceId b.startTime
            b.endTime userTier workspace.pricePerHour = .ok ⟨b.totalAmount⟩ ↔
          engineAmount toFixed rules dto.workspaceId userTier workspace.pricePerHour b.startTime
            b.endTime = flatAmount toFixed workspace.pricePerHour b.startTime b.endTime) := by
  refine ⟨not_likeSingle hworkspace hstart hend hlt hrule hone hfree, ?_⟩
  intro dto' bookings db' hsame hrule' hcreate
  obtain ⟨rule', hrule'⟩ := Option.ne_none_iff_exists'.mp hrule'
  rw [← hsame] at hworkspace ⊢
  exact series_charge_iff hworkspace hrule' hcreate

/-- Services for a rule of one occurrence; nothing else is asked of them. -/
def once : Services where
  now := 0
  occurrences _ dtstart := dtstart.map fun time => [time]
  toFixed amount := amount
  calculatePrice _ _ _ _ _ := .error (.failed "not called")
  verifyTransaction _ := .error "not called"
  evaluateRefund _ _ := .error (.failed "not called")
  userRole _ := none

/-- A room without bookings. -/
def emptyRoom : Database where
  workspaces id := if id = "room-1" then some ⟨1, 10⟩ else none
  maintenanceWindows := []
  bookings := []
  outbox := []
  nextId := 21

def rehearsal : CreateBookingDto :=
  ⟨"room-1", some 36000000, some 39600000, none, some "FREQ=DAILY;COUNT=1"⟩

/-- A member's series of one hour. -/
theorem series_not_likeSingle :
    ¬LikeSingle (withEngine once (fun _ amount => amount) []) "user-1" rehearsal "member"
      emptyRoom := by
  have hworkspace : emptyRoom.workspaces rehearsal.workspaceId = some ⟨1, 10⟩ := rfl
  have hrule : truthy rehearsal.recurrenceRule = some "FREQ=DAILY;COUNT=1" := rfl
  exact not_likeSingle hworkspace rfl rfl (by decide) hrule rfl rfl

theorem series_of_one_rehearsal :
    ¬LikeSingle (withEngine once (fun _ amount => amount) []) "user-2" rehearsal "staff"
      emptyRoom := by
  have hworkspace : emptyRoom.workspaces rehearsal.workspaceId = some ⟨1, 10⟩ := rfl
  have hrule : truthy rehearsal.recurrenceRule = some "FREQ=DAILY;COUNT=1" := rfl
  exact (series_of_one hworkspace rfl rfl (by decide) hrule rfl rfl (fun _ amount => amount) []
    "user-2" "staff").1

end HubAssist.Bookings
