import HubAssist.DeliveryModel
import HubAssist.RetryLifecycle

/-! The retries of outbox events and webhook deliveries under workers that take turns, whatever
their publications and posts come to. -/
namespace HubAssist.Delivery
open KeyedTable WorkQueue RunSystem

def OutboxEventStatus.stage : OutboxEventStatus → Stage
  | .pending => .waiting
  | .sent => .succeeded
  | .failed => .exhausted

def WebhookDeliveryStatus.stage : WebhookDeliveryStatus → Stage
  | .pending | .failed => .waiting
  | .delivered => .succeeded
  | .dead => .exhausted

/-- The seconds after the k-th failure, in milliseconds. -/
def retryDelay (k : ℕ) : ℕ := 2^(k-1)*1000

theorem isDeadLetter_eq_true {attempts maxAttempts : ℕ} (h : maxAttempts ≤ attempts) :
    isDeadLetter attempts maxAttempts = true := decide_eq_true h

theorem isDeadLetter_eq_false {attempts maxAttempts : ℕ} (h : attempts < maxAttempts) :
    isDeadLetter attempts maxAttempts = false := decide_eq_false (by omega)

theorem OutboxEvent.ready_stage {now : ℕ} {event : OutboxEvent} (h : event.ready now = true) :
    event.status.stage = .waiting ∧ event.nextRetryAt.getD 0 ≤ now := by
  obtain ⟨hpending, htime⟩ := Bool.and_eq_true_iff.mp h
  refine ⟨by rw [of_decide_eq_true hpending]; rfl, ?_⟩
  cases hnext : event.nextRetryAt with
  | none => exact Nat.zero_le now
  | some t => simpa [hnext] using htime

theorem publish_id {event stored : OutboxEvent} (h : stored.id = event.id) (now : ℕ)
    (outcome : PublishOutcome) : (publish now event outcome stored).id = stored.id := by
  cases outcome with
  | published => exact h.symm
  | failed message => rfl

/-- Five attempts. -/
def outboxPolicy : RetryPolicy outboxQueue where
  limit := maxOutboxAttempts
  backoff := retryDelay
  counter := OutboxEvent.retryCount
  retryAt event := event.nextRetryAt.getD 0
  stage event := event.status.stage
  succeeds outcome := outcome = .published
  limit_pos := by decide
  due_waiting _ _ h := OutboxEvent.ready_stage h
  finish_key now _ outcome _ hkey := publish_id hkey now outcome
  finish_success now row outcome h := by
    obtain rfl : outcome = .published := of_decide_eq_true h
    rfl
  finish_exhausted now row outcome h hlimit := by
    cases outcome with
    | published => exact absurd h (by decide)
    | failed message =>
      simp [outboxQueue, publish, isDeadLetter_eq_true hlimit, OutboxEventStatus.stage]
  finish_waiting now row outcome h hlimit := by
    cases outcome with
    | published => exact absurd h (by decide)
    | failed message =>
      simp [outboxQueue, publish, isDeadLetter_eq_false hlimit, OutboxEventStatus.stage,
        calculateNextRetryAt, retryDelay]

theorem WebhookDelivery.ready_stage {config : WebhookConfig} {now : ℕ} {delivery : WebhookDelivery}
    (h : delivery.ready config now = true) :
    delivery.status.stage = .waiting ∧ delivery.nextRetryAt ≤ now := by
  simp only [WebhookDelivery.ready, Bool.and_eq_true, Bool.or_eq_true, decide_eq_true_eq] at h
  obtain ⟨⟨hstatus, htime⟩, _⟩ := h
  refine ⟨?_, htime⟩
  rcases hstatus with hpending | hfailed
  · rw [hpending]
    rfl
  · rw [hfailed]
    rfl

/-- What a post leaves of the row that has been read: `delivered`, or marked for a retry. -/
theorem deliver_self (now : ℕ) (delivery : WebhookDelivery) (outcome : PostOutcome) :
    (outcome.accepted = true ∧ (deliver now delivery outcome delivery).status = .delivered ∧
      (deliver now delivery outcome delivery).attempts = delivery.attempts+1) ∨
    outcome.accepted = false ∧ ∃ code error, deliver now delivery outcome delivery =
      markForRetry now delivery (delivery.attempts+1) code error delivery := by
  cases outcome with
  | response status =>
    by_cases h : (PostOutcome.response status).accepted = true
    · refine .inl ⟨h, ?_, ?_⟩ <;> simp only [deliver, if_pos h]
    · refine .inr ⟨by simpa using h, some status, "HTTP " ++ toString status, ?_⟩
      simp only [deliver, if_neg h]
  | error message => exact .inr ⟨rfl, none, message, rfl⟩

theorem deliver_id (now : ℕ) (copy : WebhookDelivery) (outcome : PostOutcome)
    (stored : WebhookDelivery) : (deliver now copy outcome stored).id = stored.id := by
  cases outcome with
  | response status =>
    simp only [deliver]
    split_ifs <;> rfl
  | error message => rfl

/-- Eight attempts. -/
def webhookPolicy (crypto : Crypto) (config : WebhookConfig) :
    RetryPolicy (webhookQueue crypto config) where
  limit := maxWebhookAttempts
  backoff := retryDelay
  counter := WebhookDelivery.attempts
  retryAt := WebhookDelivery.nextRetryAt
  stage delivery := delivery.status.stage
  succeeds := PostOutcome.accepted
  limit_pos := by decide
  due_waiting _ _ h := WebhookDelivery.ready_stage h
  finish_key now copy outcome row _ := deliver_id now copy outcome row
  finish_success now row outcome h := by
    rcases deliver_self now row outcome with ⟨_, hstatus, _⟩ | ⟨hrefused, _⟩
    · exact congrArg WebhookDeliveryStatus.stage hstatus
    · cases h.symm.trans hrefused
  finish_exhausted now row outcome h hlimit := by
    rcases deliver_self now row outcome with ⟨haccepted, _⟩ | ⟨_, code, error, hmarked⟩
    · cases h.symm.trans haccepted
    · simp [webhookQueue, hmarked, markForRetry, isDeadLetter_eq_true hlimit,
        WebhookDeliveryStatus.stage]
  finish_waiting now row outcome h hlimit := by
    rcases deliver_self now row outcome with ⟨haccepted, _⟩ | ⟨_, code, error, hmarked⟩
    · cases h.symm.trans haccepted
    · simp [webhookQueue, hmarked, markForRetry, isDeadLetter_eq_false hlimit,
        WebhookDeliveryStatus.stage, calculateNextRetryAt, retryDelay]

/-- In every run of workers that take turns, an event is published at most five times and a delivery
posted at most eight times; it is sent (delivered) when one of these attempts has succeeded, failed
(dead) when all of them have failed, and then stays as it is; and after each failed attempt it waits
for the time that doubles with each. -/
theorem retry_lifecycle_run (crypto : Crypto) (config : WebhookConfig)
    (publishing : List (Turn OutboxEvent String PublishOutcome))
    (hpublishing : outboxPolicy.Regular publishing)
    (posting : List (Turn WebhookDelivery String PostOutcome))
    (hposting : (webhookPolicy crypto config).Regular posting) :
    outboxPolicy.Lives publishing ∧ (webhookPolicy crypto config).Lives posting :=
  ⟨lives_run outboxPolicy publishing hpublishing,
    lives_run (webhookPolicy crypto config) posting hposting⟩

def newEvent : OutboxEvent := ⟨"ev-1", "stellar.payment", "{}", .pending, 0, 0, none, none⟩

/-- The event is published at the second attempt, a second after the first. -/
def eventRetried : List (Turn OutboxEvent String PublishOutcome) :=
  [.create newEvent, .select 10 25 ["ev-1"], .attempt 11 12 (.failed "timeout"),
   .attempt 13 13 .published, .select 1012 25 ["ev-1"], .attempt 1013 1014 .published]

def newDelivery : WebhookDelivery :=
  ⟨"dl-1", "sub-1", "booking.created", "{}", .pending, 0, 5, none, none⟩

def openCrypto : Crypto := ⟨id, fun _ _ _ text => some text, fun secret body => secret ++ body⟩

def subscribed : WebhookConfig := ⟨none, some "jwt", [⟨"sub-1", "https://hook", "0a:0b:0c"⟩]⟩

def deliveryRetried : List (Turn WebhookDelivery String PostOutcome) :=
  [.create newDelivery, .select 10 25 ["dl-1"], .attempt 11 12 (.response 500)]

theorem retry_lifecycle_turns :
    (outboxPolicy.Lives eventRetried ∧
      (webhookPolicy openCrypto subscribed).Lives deliveryRetried) ∧
      (run outboxQueue.turn emptyBench eventRetried).1.rows =
        [{ newEvent with status := .sent, retryCount := 1, nextRetryAt := some 1012,
                         processedAt := some 1014 }] ∧
      (run (webhookQueue openCrypto subscribed).turn emptyBench deliveryRetried).1.rows =
        [{ newDelivery with status := .failed, attempts := 1, nextRetryAt := 1012,
                            responseCode := some 500, lastError := some "HTTP 500" }] :=
  ⟨retry_lifecycle_run openCrypto subscribed eventRetried ⟨by decide, by decide⟩ deliveryRetried
    ⟨by decide, by decide⟩, by decide, by decide⟩

end HubAssist.Delivery
