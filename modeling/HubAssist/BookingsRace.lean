import HubAssist.BookingsLifecycle
import HubAssist.ReadModifyWrite

/-! One confirmation and one cancellation of a booking at the same time. Each reads the booking and
writes it later, without a lock; the refund is that of the cancellation policies. -/
namespace HubAssist.Bookings
open Checks KeyedTable ReadModifyWrite

structure CancellationPolicy where
  fullRefundHoursBefore : ℤ
  partialRefundPercent : ℤ
  partialRefundHoursBefore : ℤ

def defaultPolicy : CancellationPolicy := ⟨24, 0, 0⟩

/-- The amount that `evaluateRefund` answers with. -/
def refundOf (toFixed : ℚ → ℚ) (policy : Option CancellationPolicy) (booking : Booking)
    (cancelledAt : ℤ) : ℚ :=
  let effective := policy.getD defaultPolicy
  let hoursBeforeStart : ℚ := (booking.startTime-cancelledAt : ℤ)/(1000*60*60)
  if effective.fullRefundHoursBefore ≤ hoursBeforeStart then booking.totalAmount
  else if 0 < effective.partialRefundPercent ∧
      effective.partialRefundHoursBefore ≤ hoursBeforeStart then
    toFixed (booking.totalAmount*effective.partialRefundPercent/100)
  else 0

/-- The services with the policy that is looked up for the type of a workspace. -/
def Services.withPolicies (env : Services)
    (policyOf : String → Except ServiceError (Option CancellationPolicy)) : Services :=
  { env with evaluateRefund := fun booking cancelledAt =>
      (policyOf booking.workspaceId).map fun policy =>
        refundOf env.toFixed policy booking cancelledAt }

/-- A column of a copy that is saved: written where it differs from the stored one. -/
def changedColumn {α : Type} [DecidableEq α] (stored copy : α) : α :=
  if copy = stored then stored else copy

def saveColumns (stored copy : Booking) : Booking where
  id := stored.id
  workspaceId := changedColumn stored.workspaceId copy.workspaceId
  userId := changedColumn stored.userId copy.userId
  startTime := changedColumn stored.startTime copy.startTime
  endTime := changedColumn stored.endTime copy.endTime
  status := changedColumn stored.status copy.status
  totalAmount := changedColumn stored.totalAmount copy.totalAmount
  stellarTxHash := changedColumn stored.stellarTxHash copy.stellarTxHash
  recurrenceRule := changedColumn stored.recurrenceRule copy.recurrenceRule
  seriesId := changedColumn stored.seriesId copy.seriesId
  instanceIndex := changedColumn stored.instanceIndex copy.instanceIndex
  refundAmount := changedColumn stored.refundAmount copy.refundAmount
  appliedRateSnapshot := changedColumn stored.appliedRateSnapshot copy.appliedRateSnapshot

/-- The save of a copy: the stored row is read again, and its columns that differ are written. -/
def saveCopy (bookings : List Booking) (copy : Booking) : List Booking :=
  match findRow Booking.id bookings copy.id with
  | some stored => save Booking.id bookings (saveColumns stored copy)
  | none => save Booking.id bookings copy

/-- `confirm` up to the save, and the save with the event in one transaction. -/
def confirmCall (env : Services) (id : ℕ) : RmwCall Database Booking ServiceError where
  read db := do
    let booking ← findBooking db id
    verifyPayment env booking
    failIf (booking.status ≠ .pending) (.badRequest "Only pending bookings can be confirmed")
    return { booking with status := .confirmed }
  write copy db := { db with
    bookings := saveCopy db.bookings copy
    outbox := db.outbox ++ [bookingEvent .stellarBookingConfirmed copy] }

/-- `cancel` up to the save, and the save. -/
def cancelCall (env : Services) (id : ℕ) (userId : String) :
    RmwCall Database Booking ServiceError where
  read db := do
    let booking ← findBooking db id
    failIf (booking.userId ≠ userId) (.forbidden "Not authorized to cancel this booking")
    let refundAmount ← env.evaluateRefund booking env.now
    return { booking with status := .cancelled, refundAmount := some refundAmount }
  write copy db := { db with bookings := saveCopy db.bookings copy }

inductive Caller where
  | confirm
  | cancel
  deriving DecidableEq

/-- A confirmation and a cancellation of one booking, each with the answers that it gets. -/
structure Contest where
  confirmEnv : Services
  cancelEnv : Services
  policyOf : String → Except ServiceError (Option CancellationPolicy)
  id : ℕ
  userId : String

namespace Contest

variable (x : Contest) (schedule : List Caller) (db : Database)

def cancelServices : Services := x.cancelEnv.withPolicies x.policyOf

def calls : Caller → RmwCall Database Booking ServiceError
  | .confirm => confirmCall x.confirmEnv x.id
  | .cancel => cancelCall x.cancelServices x.id x.userId

/-- The calls take their steps in the order of the schedule. -/
def race : Race Caller Database Booking ServiceError := run x.calls schedule (start db)

def confirmed : Database := step db ⟨x.confirmEnv, .confirm x.id⟩

def cancelled : Database := step db ⟨x.cancelServices, .cancel x.id x.userId⟩

end Contest

/-- What is compared: the status, the refund and the events. -/
structure Outcome where
  status : Option BookingStatus
  refundAmount : Option (Option ℚ)
  outbox : List OutboxEvent

def outcome (id : ℕ) (db : Database) : Outcome where
  status := (db.row id).map Booking.status
  refundAmount := (db.row id).map Booking.refundAmount
  outbox := db.outbox

/-- The race ends like one of the calls after the other, and not with the booking confirmed if the
cancellation has gone through with a refund. -/
def Serialisable (x : Contest) (schedule : List Caller) (db : Database) : Prop :=
  (outcome x.id (x.race schedule db).shared = outcome x.id (x.cancelled (x.confirmed db)) ∨
    outcome x.id (x.race schedule db).shared = outcome x.id (x.confirmed (x.cancelled db))) ∧
  ∀ saved refund, (x.race schedule db).locals .cancel = .written saved →
    saved.refundAmount = some refund →
      (outcome x.id (x.race schedule db).shared).status ≠ some .confirmed

/-- The booking as it stands can be confirmed and can be cancelled. -/
def Contested (x : Contest) (db : Database) : Prop :=
  ∃ b, db.row x.id = some b ∧ b.status = .pending ∧ verifyPayment x.confirmEnv b = .ok () ∧
    b.userId = x.userId ∧ ∃ policy, x.policyOf b.workspaceId = .ok policy

/-- The cancellation is written after the confirmation has read and before it writes. -/
def Overwritten (schedule : List Caller) : Prop :=
  ∃ front, schedule = front ++ [.cancel, .confirm] ∧ Caller.confirm ∈ front

theorem changedColumn_eq {α : Type} [DecidableEq α] (stored copy : α) :
    changedColumn stored copy = copy := by
  unfold changedColumn
  split_ifs with h
  · exact h.symm
  · rfl

/-- Writing the columns that differ writes them all: also those that another call has written and
this one has not. -/
theorem saveCopy_eq (bookings : List Booking) (copy : Booking) :
    saveCopy bookings copy = save Booking.id bookings copy := by
  unfold saveCopy
  split
  · next stored h =>
    have hid : stored.id = copy.id := (findRow_eq_some h).2
    simp only [saveColumns, changedColumn_eq, hid]
  · rfl

variable {env : Services} {db : Database} {id : ℕ} {userId : String} {copy : Booking}

theorem confirm_eq_read (db : Database) : (confirm env id db).map Prod.snd =
    ((confirmCall env id).read db).map fun copy => (confirmCall env id).write copy db := by
  simp only [confirm, confirmCall, saveCopy_eq, bind, Except.bind, pure, Except.pure]
  cases findBooking db id with
  | error e => rfl
  | ok booking =>
    dsimp only
    cases verifyPayment env booking with
    | error e => rfl
    | ok u =>
      dsimp only
      cases failIf (booking.status ≠ .pending) (ServiceError.badRequest
        "Only pending bookings can be confirmed") <;> rfl

theorem cancel_eq_read (db : Database) : (cancel env id userId db).map Prod.snd =
    ((cancelCall env id userId).read db).map fun copy =>
      (cancelCall env id userId).write copy db := by
  simp only [cancel, cancelCall, saveCopy_eq, bind, Except.bind, pure, Except.pure]
  cases findBooking db id with
  | error e => rfl
  | ok booking =>
    dsimp only
    cases failIf (booking.userId ≠ userId) (ServiceError.forbidden
      "Not authorized to cancel this booking") with
    | error e => rfl
    | ok u =>
      dsimp only
      cases env.evaluateRefund booking env.now <;> rfl

theorem confirmed_eq_whole (x : Contest) (db : Database) :
    x.confirmed db = (x.calls .confirm).whole db := congrArg (orRollback db) (confirm_eq_read db)

theorem cancelled_eq_whole (x : Contest) (db : Database) :
    x.cancelled db = (x.calls .cancel).whole db := congrArg (orRollback db) (cancel_eq_read db)

theorem confirm_read_eq_ok : (confirmCall env id).read db = .ok copy ↔
    ∃ b, db.row id = some b ∧ verifyPayment env b = .ok () ∧ b.status = .pending ∧
      { b with status := .confirmed } = copy := by
  simp only [confirmCall, findBooking, bind_eq_ok, getOr_eq_ok, failIf_eq_ok, pure_eq_ok,
    not_not, Database.row]
  constructor
  · rintro ⟨b, hb, u, hpaid, _, hpending, hcopy⟩
    exact ⟨b, hb, hpaid, hpending, hcopy⟩
  · rintro ⟨b, hb, hpaid, hpending, hcopy⟩
    exact ⟨b, hb, (), hpaid, (), hpending, hcopy⟩

theorem cancel_read_eq_ok : (cancelCall env id userId).read db = .ok copy ↔
    ∃ b refund, db.row id = some b ∧ b.userId = userId ∧
      env.evaluateRefund b env.now = .ok refund ∧
        { b with status := .cancelled, refundAmount := some refund } = copy := by
  simp only [cancelCall, findBooking, bind_eq_ok, getOr_eq_ok, failIf_eq_ok, pure_eq_ok,
    not_not, Database.row]
  constructor
  · rintro ⟨b, hb, _, hown, refund, hrefund, hcopy⟩
    exact ⟨b, refund, hb, hown, hrefund, hcopy⟩
  · rintro ⟨b, refund, hb, hown, hrefund, hcopy⟩
    exact ⟨b, hb, (), hown, refund, hrefund, hcopy⟩

/-- What is written is the row that stands there. -/
theorem row_saveCopy {db' : Database} (h : db'.bookings = saveCopy db.bookings copy)
    (hid : copy.id = id) : db'.row id = some copy :=
  row_save_self (h.trans (saveCopy_eq _ _)) hid

theorem confirm_read_id (h : (confirmCall env id).read db = .ok copy) : copy.id = id := by
  obtain ⟨b, hb, _, _, rfl⟩ := confirm_read_eq_ok.mp h
  exact (row_id hb : b.id = id)

theorem cancel_read_id (h : (cancelCall env id userId).read db = .ok copy) : copy.id = id := by
  obtain ⟨b, _, hb, _, _, rfl⟩ := cancel_read_eq_ok.mp h
  exact (row_id hb : b.id = id)

/-- The cancellation reads a booking just the same when it has been confirmed meanwhile. -/
theorem cancel_read_confirmed (x : Contest) {copy : Booking}
    (h : (x.calls .confirm).read db = .ok copy) :
    (x.calls .cancel).read ((x.calls .confirm).write copy db) = (x.calls .cancel).read db := by
  obtain ⟨b, hb, _, _, hcopy⟩ := confirm_read_eq_ok.mp h
  have hrow : ((x.calls .confirm).write copy db).row x.id = some copy :=
    row_saveCopy rfl (confirm_read_id h)
  unfold Database.row at hb hrow
  -- `cancel` does not look at the status, and the other columns are the same
  subst hcopy
  simp only [Contest.calls, cancelCall, findBooking] at hrow ⊢
  rw [hrow, hb]
  rfl

/-- Then the cancellation writes last, and the race ends like the calls one after the other. -/
theorem crossed_confirm_cancel (x : Contest) (db : Database) :
    RmwCall.crossed (x.calls .confirm) (x.calls .cancel) db = x.cancelled (x.confirmed db) := by
  rw [cancelled_eq_whole, confirmed_eq_whole, RmwCall.crossed, RmwCall.whole, RmwCall.whole]
  cases hread : (x.calls .confirm).read db with
  | error e => rfl
  | ok copy =>
    have hsame := cancel_read_confirmed x hread
    simp only [RmwCall.commit, Except.map, orRollback] at hsame ⊢
    rw [hsame]

/-- The booking can be confirmed and cancelled when both reads go through. -/
theorem contested_iff {x : Contest} : Contested x db ↔
    (∃ copy, (x.calls .confirm).read db = .ok copy) ∧
      ∃ copy, (x.calls .cancel).read db = .ok copy := by
  constructor
  · rintro ⟨b, hb, hpending, hpaid, hown, policy, hpolicy⟩
    have hrefund : x.cancelServices.evaluateRefund b x.cancelServices.now =
        .ok (refundOf x.cancelEnv.toFixed policy b x.cancelEnv.now) := by
      simp only [Contest.cancelServices, Services.withPolicies, hpolicy]
      rfl
    exact ⟨⟨_, confirm_read_eq_ok.mpr ⟨b, hb, hpaid, hpending, rfl⟩⟩,
      ⟨_, cancel_read_eq_ok.mpr ⟨b, _, hb, hown, hrefund, rfl⟩⟩⟩
  · rintro ⟨⟨confirmCopy, hconfirm⟩, ⟨cancelCopy, hcancel⟩⟩
    obtain ⟨b, hb, hpaid, hpending, _⟩ := confirm_read_eq_ok.mp hconfirm
    obtain ⟨b', refund, hb', hown, hrefund, _⟩ := cancel_read_eq_ok.mp hcancel
    obtain rfl := Option.some.inj (hb.symm.trans hb')
    obtain ⟨policy, hpolicy, _⟩ := map_eq_ok.mp hrefund
    exact ⟨b, hb, hpending, hpaid, hown, policy, hpolicy⟩

/-- What a cancellation has written is a cancelled booking. -/
theorem row_cancel_write {x : Contest} (h : (x.calls .cancel).read db = .ok copy)
    (db' : Database) : ((x.calls .cancel).write copy db').row x.id = some copy ∧
      copy.status = .cancelled := by
  refine ⟨row_saveCopy rfl (cancel_read_id h), ?_⟩
  obtain ⟨_, _, _, _, _, rfl⟩ := cancel_read_eq_ok.mp h
  rfl

/-- A booking that is not pending is not confirmed. -/
theorem confirmed_of_row {x : Contest} (hrow : db.row x.id = some copy)
    (hstatus : copy.status = .cancelled) : x.confirmed db = db := by
  rw [confirmed_eq_whole, RmwCall.whole]
  cases hread : (x.calls .confirm).read db with
  | error e => rfl
  | ok saved =>
    obtain ⟨b, hb, _, hpending, _⟩ := confirm_read_eq_ok.mp hread
    rw [Option.some.inj (hb.symm.trans hrow), hstatus] at hpending
    exact absurd hpending (by decide)

theorem cancelled_of_read {x : Contest} (h : (x.calls .cancel).read db = .ok copy) :
    x.cancelled db = (x.calls .cancel).write copy db := by
  rw [cancelled_eq_whole, RmwCall.whole, h]
  rfl

theorem confirmed_of_read {x : Contest} (h : (x.calls .confirm).read db = .ok copy) :
    x.confirmed db = (x.calls .confirm).write copy db := by
  rw [confirmed_eq_whole, RmwCall.whole, h]
  rfl

theorem status_of_row {db : Database} {id : ℕ} (h : db.row id = some copy) :
    (outcome id db).status = some copy.status := by
  rw [outcome, h]
  rfl

/-- When both calls can be made, either order ends with the booking cancelled. -/
theorem serial_status {x : Contest} (h : Contested x db) :
    (outcome x.id (x.cancelled (x.confirmed db))).status = some .cancelled ∧
      (outcome x.id (x.confirmed (x.cancelled db))).status = some .cancelled := by
  obtain ⟨⟨confirmCopy, hconfirm⟩, ⟨cancelCopy, hcancel⟩⟩ := contested_iff.mp h
  -- after the confirmation the cancellation still goes through
  have hlater : (x.calls .cancel).read (x.confirmed db) = .ok cancelCopy := by
    rw [confirmed_of_read hconfirm, cancel_read_confirmed x hconfirm, hcancel]
  obtain ⟨hrow, hstatus⟩ := row_cancel_write hcancel db
  rw [cancelled_of_read hlater, cancelled_of_read hcancel, confirmed_of_row hrow hstatus,
    status_of_row hrow, status_of_row (row_cancel_write hcancel _).1, hstatus]
  exact ⟨rfl, rfl⟩

/-- The confirmation writes last: it undoes a cancellation. -/
theorem crossed_cancel_confirm {x : Contest} (h : Contested x db) :
    (outcome x.id (RmwCall.crossed (x.calls .cancel) (x.calls .confirm) db)).status =
      some .confirmed := by
  obtain ⟨⟨confirmCopy, hconfirm⟩, ⟨cancelCopy, hcancel⟩⟩ := contested_iff.mp h
  have hstatus : confirmCopy.status = .confirmed := by
    obtain ⟨_, _, _, _, rfl⟩ := confirm_read_eq_ok.mp hconfirm
    rfl
  rw [RmwCall.crossed, hconfirm, hcancel, ← hstatus]
  exact status_of_row (row_saveCopy rfl (confirm_read_id hconfirm))

/-- Where one of the two calls is rejected, the other one alone is left. -/
theorem crossed_of_not_contested {x : Contest} (h : ¬Contested x db) :
    (RmwCall.crossed (x.calls .cancel) (x.calls .confirm) db = x.cancelled (x.confirmed db) ∧
        x.confirmed db = db) ∨
      (RmwCall.crossed (x.calls .cancel) (x.calls .confirm) db = x.confirmed (x.cancelled db) ∧
        ∃ e, (x.calls .cancel).read db = .error e) := by
  rw [contested_iff] at h
  cases hcancel : (x.calls .cancel).read db with
  -- without the cancellation the confirmation is alone
  | error e =>
    refine Or.inr ⟨?_, e, rfl⟩
    rw [cancelled_eq_whole, confirmed_eq_whole, RmwCall.crossed, RmwCall.whole, RmwCall.whole,
      hcancel]
    rfl
  | ok copy =>
    cases hconfirm : (x.calls .confirm).read db with
    | error e =>
      have hnone : x.confirmed db = db := by
        rw [confirmed_eq_whole, RmwCall.whole, hconfirm]
        rfl
      refine Or.inl ⟨?_, hnone⟩
      rw [hnone, cancelled_of_read hcancel, RmwCall.crossed, hconfirm, hcancel]
      rfl
    | ok saved => exact absurd ⟨⟨saved, hconfirm⟩, ⟨copy, hcancel⟩⟩ h

theorem overwritten_iff {a b c d : Caller} :
    Overwritten [a, b, c, d] ↔ (c = .cancel ∧ d = .confirm) ∧ Caller.confirm ∈ [a, b] := by
  constructor
  · rintro ⟨front, heq, hmem⟩
    have hsplit : [a, b] ++ [c, d] = front ++ [.cancel, .confirm] := heq
    obtain ⟨rfl, htail⟩ := List.append_inj' hsplit rfl
    exact ⟨by simpa using htail, hmem⟩
  · rintro ⟨⟨rfl, rfl⟩, hmem⟩
    exact ⟨[a, b], rfl, hmem⟩

theorem read_of_written {outcome : Except ServiceError Booking} {saved : Booking}
    (h : Phase.ofCall outcome = .written saved) : outcome = .ok saved := by
  cases outcome with
  | ok copy => rw [Phase.written.inj h]
  | error e => exact absurd h (by simp [Phase.ofCall])

/-- A race that ends like the calls one after the other, with the booking cancelled if the
cancellation has gone through. -/
theorem serialisable_of {x : Contest} {schedule : List Caller} {shared : Database}
    {confirms cancels : Except ServiceError Booking}
    (hends : EndsWith (x.race schedule db) .confirm .cancel shared confirms cancels)
    (hserial : shared = x.cancelled (x.confirmed db) ∨ shared = x.confirmed (x.cancelled db))
    (hcancelled : ∀ saved, cancels = .ok saved → (outcome x.id shared).status = some .cancelled) :
    Serialisable x schedule db := by
  refine ⟨?_, fun saved refund hwritten _ => ?_⟩
  · rw [hends.shared]
    exact hserial.imp (congrArg _) (congrArg _)
  · rw [hends.second] at hwritten
    rw [hends.shared, hcancelled saved (read_of_written hwritten)]
    decide

theorem not_serialisable_of_overwritten {x : Contest} {schedule : List Caller}
    (hcross : schedule = [.cancel, .confirm, .cancel, .confirm] ∨
      schedule = [.confirm, .cancel, .cancel, .confirm]) (hcontested : Contested x db) :
    ¬Serialisable x schedule db := by
  rintro ⟨hserial, _⟩
  have hends := run_crossed x.calls db (by decide : Caller.cancel ≠ .confirm)
    hcross
  have hconfirmed := crossed_cancel_confirm hcontested
  obtain ⟨hfirst, hsecond⟩ := serial_status hcontested
  rw [Contest.race, hends.shared] at hserial
  rcases hserial with heq | heq
  · rw [heq, hfirst] at hconfirmed
    exact absurd hconfirmed (by decide)
  · rw [heq, hsecond] at hconfirmed
    exact absurd hconfirmed (by decide)

/-- A confirmation and a cancellation of one booking, in whatever order they take their steps, end
like one after the other exactly unless the cancellation is written between the read and the write
of the confirmation, of a booking that can be both confirmed and cancelled: then the confirmation
puts the booking back as it read it, confirmed and without the refund. -/
theorem serialisable_iff (x : Contest) (db : Database) {schedule : List Caller}
    (h : schedule.Perm [.confirm, .confirm, .cancel, .cancel]) :
    Serialisable x schedule db ↔ ¬(Overwritten schedule ∧ Contested x db) := by
  have hne : Caller.confirm ≠ .cancel := by decide
  rcases schedule_cases hne h with (rfl | rfl) | hcross | hcross
  · -- the confirmation comes first
    refine iff_of_true ?_ (fun hover => absurd (overwritten_iff.mp hover.1).1.2 (by decide))
    have hends := run_in_order x.calls db hne
    refine serialisable_of hends (Or.inl ?_) fun saved hread => ?_
    · rw [cancelled_eq_whole, confirmed_eq_whole]
    · rw [← confirmed_eq_whole] at hread ⊢
      rw [← cancelled_eq_whole, cancelled_of_read hread,
        status_of_row (row_cancel_write hread _).1, (row_cancel_write hread db).2]
  · -- the cancellation comes first
    refine iff_of_true ?_ (fun hover => absurd (overwritten_iff.mp hover.1).1.1 (by decide))
    have hends := run_in_order x.calls db hne.symm
    refine serialisable_of ⟨hends.shared, hends.second, hends.first⟩ (Or.inr ?_)
      fun saved hread => ?_
    · rw [cancelled_eq_whole, confirmed_eq_whole]
    · obtain ⟨hrow, hstatus⟩ := row_cancel_write hread db
      rw [← confirmed_eq_whole, ← cancelled_eq_whole, cancelled_of_read hread,
        confirmed_of_row hrow hstatus, status_of_row hrow, hstatus]
  · -- both read, and the cancellation writes last
    have hends := run_crossed x.calls db hne hcross
    refine iff_of_true (serialisable_of hends (Or.inl (crossed_confirm_cancel x db))
      fun saved hread => ?_) ?_
    · rw [RmwCall.crossed, hread, ← (row_cancel_write hread db).2]
      exact status_of_row (row_cancel_write hread _).1
    · rcases hcross with rfl | rfl <;>
        exact fun hover => absurd (overwritten_iff.mp hover.1).1.2 (by decide)
  · -- both read, and the confirmation writes last
    have hends := run_crossed x.calls db hne.symm hcross
    have hover : Overwritten schedule := by
      rcases hcross with rfl | rfl <;> exact overwritten_iff.mpr (by decide)
    have hends' : EndsWith (x.race schedule db) .confirm .cancel _ _ _ :=
      ⟨hends.shared, hends.second, hends.first⟩
    constructor
    · rintro hserialisable ⟨_, hcontested⟩
      exact not_serialisable_of_overwritten hcross hcontested hserialisable
    · intro hnot
      have hfree : ¬Contested x db := fun hcontested => hnot ⟨hover, hcontested⟩
      rcases crossed_of_not_contested hfree with ⟨heq, hnone⟩ | ⟨heq, e, he⟩
      · refine serialisable_of hends' (Or.inl heq) fun saved hread => ?_
        rw [heq, hnone, cancelled_of_read hread, status_of_row (row_cancel_write hread _).1,
          (row_cancel_write hread db).2]
      · refine serialisable_of hends' (Or.inr heq) fun saved hread => ?_
        exact absurd (he.symm.trans hread) (by simp)

/-- A pending booking of an hour, two days from now. -/
def inTwoDays : Booking :=
  ⟨1, "ws-1", "alice", 172800000, 176400000, .pending, 100, none, none, none, none, none, none⟩

def oneBooking : Database := ⟨oneDesk, [], [inTwoDays], [], 2⟩

/-- No policy is set, so a cancellation a day ahead is refunded in full. -/
def ownerCancels : Contest := ⟨dailyTwice, dailyTwice, fun _ => .ok none, 1, "alice"⟩

/-- Both read the pending booking, and the cancellation is the last to write. -/
theorem serialisable_iff_ownerCancels :
    Serialisable ownerCancels [.cancel, .confirm, .confirm, .cancel] oneBooking ↔
      ¬(Overwritten [.cancel, .confirm, .confirm, .cancel] ∧ Contested ownerCancels oneBooking) :=
  serialisable_iff ownerCancels oneBooking (by decide)

/-- The owner cancels while the confirmation is on its way: the booking stays confirmed. -/
theorem confirm_cancel_not_serialisable :
    ¬Serialisable ownerCancels [.confirm, .cancel, .cancel, .confirm] oneBooking :=
  not_serialisable_of_overwritten (Or.inr rfl) ⟨inTwoDays, rfl, rfl, rfl, rfl, none, rfl⟩

end HubAssist.Bookings
