import HubAssist.DeliveryModel
import HubAssist.WorkAccounting

/-! Outbox events and webhook deliveries under concurrent workers: how often they are published, what
their counters say, and whether they stay finished. -/
namespace HubAssist.Delivery
open KeyedTable WorkQueue RunSystem Interleaving

/-- Failed attempts are counted, and an event is finished once it is sent or has failed. -/
def outboxAccounting : Accounting outboxQueue where
  counter := OutboxEvent.retryCount
  final event := event.status ≠ .pending
  counts outcome := match outcome with
    | .published => false
    | .failed _ => true
  succeeds outcome := outcome = .published
  due_open now event h := by
    obtain ⟨hpending, _⟩ := Bool.and_eq_true_iff.mp h
    simpa using hpending
  finish_key now copy outcome row hkey := by
    cases outcome with
    | published => exact hkey.symm
    | failed message => rfl
  finish_counter now row outcome := by
    cases outcome with
    | published => rfl
    | failed message => rfl
  finish_final now row outcome h := by
    obtain rfl : outcome = .published := by simpa using h
    rfl

/-- All posts are counted, and a delivery is finished once it is delivered or dead. -/
def webhookAccounting (crypto : Crypto) (config : WebhookConfig) :
    Accounting (webhookQueue crypto config) where
  counter := WebhookDelivery.attempts
  final delivery := delivery.status = .delivered || delivery.status = .dead
  counts _ := true
  succeeds := PostOutcome.accepted
  due_open now delivery h := by
    obtain ⟨hdue, _⟩ := Bool.and_eq_true_iff.mp h
    obtain ⟨hstatus, _⟩ := Bool.and_eq_true_iff.mp hdue
    rcases Bool.or_eq_true_iff.mp hstatus with h | h
    · simp [of_decide_eq_true h]
    · simp [of_decide_eq_true h]
  finish_key now copy outcome row _ := by
    cases outcome with
    | response status =>
      simp only [webhookQueue, deliver]
      split_ifs <;> rfl
    | error message => rfl
  finish_counter now row outcome := by
    cases outcome with
    | response status =>
      simp only [webhookQueue, deliver]
      split_ifs <;> rfl
    | error message => rfl
  finish_final now row outcome h := by
    cases outcome with
    | response status =>
      simp only [webhookQueue, deliver, if_pos h]
      rfl
    | error message => cases h

/-- In every run in which no worker selects a row that another has in hand, each event is published
with success at most once, counts its failed attempts and stays sent or failed; and each delivery
is posted with success at most once, counts its posts and stays delivered or dead. -/
theorem delivery_exact_run {I : Type} [DecidableEq I] (crypto : Crypto) (config : WebhookConfig)
    (events : List OutboxEvent) (hevents : Keyed OutboxEvent.id events)
    (publishing : List (I × Action String String PublishOutcome))
    (hpublishing : outboxQueue.Divided events publishing)
    (deliveries : List WebhookDelivery) (hdeliveries : Keyed WebhookDelivery.id deliveries)
    (posting : List (I × Action String WebhookLock PostOutcome))
    (hposting : (webhookQueue crypto config).Divided deliveries posting) :
    outboxAccounting.ExactRun events publishing ∧
      (webhookAccounting crypto config).ExactRun deliveries posting :=
  ⟨exact_run outboxAccounting events hevents hpublishing,
    exact_run (webhookAccounting crypto config) deliveries hdeliveries hposting⟩

/-- A cipher that leaves texts as they are. -/
def plainCrypto : Crypto := ⟨id, fun _ _ _ text => some text, fun secret body => secret ++ body⟩

def oneSubscription : WebhookConfig := ⟨none, none, [⟨"sub", "https://example", "00:11:22"⟩]⟩

def pendingEvent : OutboxEvent :=
  ⟨"e", "stellar.escrow.create", "{}", .pending, 0, 0, none, none⟩

def pendingDelivery : WebhookDelivery :=
  ⟨"d", "sub", "booking.confirmed", "{}", .pending, 0, 0, none, none⟩

/-- Two instances of the backend, each with its own workers. -/
inductive Instance where
  | one
  | two
  deriving DecidableEq, Repr

instance : Fintype Instance where
  elems := {.one, .two}
  complete i := by cases i <;> decide

/-- One worker publishes the event on its second attempt; the other one looks at it in between. -/
def eventTurns : List (Instance × Action String String PublishOutcome) :=
  [(.one, ⟨0, .select 25 ["e"] ["e"]⟩), (.one, ⟨0, .commit⟩),
   (.one, ⟨1, .attempt (.failed "timeout")⟩), (.one, ⟨2, .write⟩),
   (.two, ⟨10, .select 25 [] []⟩), (.two, ⟨10, .commit⟩), (.two, ⟨10, .attempt .published⟩),
   (.two, ⟨2000, .select 25 ["e"] ["e"]⟩), (.two, ⟨2000, .commit⟩),
   (.two, ⟨2001, .attempt .published⟩), (.two, ⟨2002, .write⟩)]

def deliveryTurns : List (Instance × Action String WebhookLock PostOutcome) :=
  [(.one, ⟨0, .select 25 ["d"] [.delivery "d", .subscription "sub"]⟩), (.one, ⟨0, .commit⟩),
   (.one, ⟨1, .attempt (.response 500)⟩), (.one, ⟨2, .write⟩)]

theorem delivery_exact_turns :
    (outboxAccounting.ExactRun [pendingEvent] eventTurns ∧
      (webhookAccounting plainCrypto oneSubscription).ExactRun [pendingDelivery] deliveryTurns) ∧
    (run (step outboxQueue.act) (idleAt (Instance) [pendingEvent]) eventTurns).shared.rows =
      [{ pendingEvent with status := .sent, retryCount := 1, nextRetryAt := some 1002,
                           processedAt := some 2002 }] :=
  ⟨delivery_exact_run plainCrypto oneSubscription [pendingEvent] (List.nodup_singleton _) eventTurns
    (by decide) [pendingDelivery] (List.nodup_singleton _) deliveryTurns (by decide), by decide⟩

/-- Both workers select the event, since the lock is gone before it is published. -/
def eventShared : List (Instance × Action String String PublishOutcome) :=
  [(.one, ⟨0, .select 25 ["e"] ["e"]⟩), (.one, ⟨0, .commit⟩),
   (.two, ⟨1, .select 25 ["e"] ["e"]⟩), (.two, ⟨1, .commit⟩),
   (.one, ⟨2, .attempt .published⟩), (.one, ⟨3, .write⟩),
   (.two, ⟨4, .attempt .published⟩), (.two, ⟨5, .write⟩)]

/-- Both publish it. -/
theorem event_published_twice : ¬outboxAccounting.ExactRun [pendingEvent] eventShared := by
  rintro ⟨hexact, _⟩
  have hrow : { pendingEvent with status := .sent, processedAt := some 5 } ∈
      (run (step outboxQueue.act) (idleAt (Instance) [pendingEvent]) eventShared).shared.rows := by
    decide
  exact absurd (hexact _ hrow).1 (by decide)

end HubAssist.Delivery
