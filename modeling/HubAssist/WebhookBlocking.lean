import HubAssist.DeliveryRetries
import HubAssist.WorkPages

/-! What one webhook delivery can do to the others of its page: the secret of its subscription is
deciphered outside of the `try` that contains a failed post. -/
namespace HubAssist.Delivery
open KeyedTable WorkQueue RunSystem

variable {crypto : Crypto} {config : WebhookConfig} {rows : List WebhookDelivery}
  {r : PageRun String PostOutcome}

/-- The delivery has been attempted once more, and has a new status or is due later. -/
def Advanced (delivery : WebhookDelivery) (rows : List WebhookDelivery) : Prop :=
  ∃ stored ∈ rows, stored.id = delivery.id ∧ stored.attempts = delivery.attempts+1 ∧
    (stored.status ≠ delivery.status ∨ delivery.nextRetryAt < stored.nextRetryAt)

instance (delivery : WebhookDelivery) (rows : List WebhookDelivery) :
    Decidable (Advanced delivery rows) := List.decidableBEx _ _

theorem retryDelay_pos (k : ℕ) : 0 < retryDelay k :=
  Nat.mul_pos (Nat.pow_pos (by decide)) (by decide)

theorem markForRetry_moves {now : ℕ} {delivery : WebhookDelivery} {code : Option ℕ} {error : String}
    (hstage : delivery.status.stage = .waiting) (hdue : delivery.nextRetryAt ≤ now) :
    let stored := markForRetry now delivery (delivery.attempts+1) code error delivery
    stored.attempts = delivery.attempts+1 ∧
      (stored.status ≠ delivery.status ∨ delivery.nextRetryAt < stored.nextRetryAt) := by
  refine ⟨rfl, ?_⟩
  simp only [markForRetry]
  cases hdead : isDeadLetter (delivery.attempts+1) maxWebhookAttempts with
  | true =>
    left
    intro hsame
    rw [← hsame] at hstage
    cases hstage
  | false =>
    right
    have hlater := retryDelay_pos (delivery.attempts+1)
    simp only [retryDelay] at hlater
    simp only [Bool.false_eq_true, if_false, calculateNextRetryAt]
    omega

/-- A post leaves a due delivery with one more attempt, and further on. -/
theorem deliver_moves {now : ℕ} {delivery : WebhookDelivery}
    (hstage : delivery.status.stage = .waiting) (hdue : delivery.nextRetryAt ≤ now)
    (outcome : PostOutcome) :
    let stored := deliver now delivery outcome delivery
    stored.attempts = delivery.attempts+1 ∧
      (stored.status ≠ delivery.status ∨ delivery.nextRetryAt < stored.nextRetryAt) := by
  rcases deliver_self now delivery outcome with
    ⟨_, hdelivered, hattempts⟩ | ⟨_, code, error, hmarked⟩
  · refine ⟨hattempts, .inl ?_⟩
    intro hsame
    rw [← hsame, hdelivered] at hstage
    cases hstage
  · intro stored
    have hstored : stored = _ := hmarked
    rw [hstored]
    exact markForRetry_moves hstage hdue

/-- A run attempts all deliveries that it has selected exactly when the posts for all of them can be
prepared. -/
theorem advanced_iff (hkeyed : Keyed WebhookDelivery.id rows)
    (hrun : (webhookQueue crypto config).Complete rows r) :
    (∀ delivery ∈ (webhookQueue crypto config).selected rows r,
      Advanced delivery ((webhookQueue crypto config).afterPage rows r)) ↔
    ∀ delivery ∈ (webhookQueue crypto config).selected rows r,
      (webhookPost crypto config delivery).isSome = true := by
  have hheld : Held (webhookQueue crypto config) rows _ := held_selected hkeyed hrun
  rw [(afterPage_eq hrun).1]
  constructor
  · intro h delivery hdelivery
    by_contra hnone
    rw [Bool.not_eq_true, Option.isSome_eq_false_iff, Option.isNone_iff_eq_none] at hnone
    -- the delivery is stored as it was, so that it has not been attempted
    have hkept : delivery ∈ (webhookQueue crypto config).drain rows
        ((webhookQueue crypto config).selected rows r) r.attempts :=
      mem_drain_of_unprepared hheld (mem_selected hdelivery).1 hnone
    obtain ⟨stored, hstored, hid, hattempts, _⟩ := h delivery hdelivery
    have hkeyed' : Keyed WebhookDelivery.id ((webhookQueue crypto config).drain rows
        ((webhookQueue crypto config).selected rows r) r.attempts) :=
      (webhookPolicy crypto config).keyed_drain hkeyed
    have hsame := hkeyed'.eq_of_key hstored hkept hid
    rw [hsame] at hattempts
    omega
  · intro h delivery hdelivery
    obtain ⟨a, ha, hstored⟩ := (webhookPolicy crypto config).mem_drain_of_prepared hheld h
      hrun.attempts hdelivery
    obtain ⟨hstage, hdue⟩ := WebhookDelivery.ready_stage (mem_selected hdelivery).2
    have hmoves := deliver_moves hstage (hdue.trans (hrun.now_le ha)) a.outcome
    exact ⟨_, hstored, deliver_id _ _ _ _, hmoves⟩

/-- What holds of the deliveries and subscriptions, whatever they are. A run attempts all that it
has selected exactly when their posts can be prepared. Over repeated runs, a due delivery is attempted
after at most as many as there are deliveries ahead of it, when the posts for these can be prepared;
and a single one among them for which this fails keeps it waiting in all runs. -/
theorem processReady_contains (crypto : Crypto) (config : WebhookConfig) :
    (∀ rows r, Keyed WebhookDelivery.id rows → (webhookQueue crypto config).Complete rows r →
      ((∀ delivery ∈ (webhookQueue crypto config).selected rows r,
          Advanced delivery ((webhookQueue crypto config).afterPage rows r)) ↔
        ∀ delivery ∈ (webhookQueue crypto config).selected rows r,
          (webhookPost crypto config delivery).isSome = true)) ∧
    ∀ rows rounds, ∀ delivery ∈ rows,
      Guarded (webhookQueue crypto config).afterRound ((webhookQueue crypto config).Passes delivery)
        rows rounds →
      ((webhookPost crypto config delivery).isSome = true →
        (∀ other ∈ rows, (webhookPolicy crypto config).ahead delivery other = true →
          ∀ now, other.ready config now = true → (webhookPost crypto config other).isSome = true) →
        rows.countP ((webhookPolicy crypto config).ahead delivery) < rounds.length →
        Occurred (webhookQueue crypto config).afterRound
          ((webhookQueue crypto config).Attempts delivery) rows rounds) ∧
      ∀ other ∈ rows, webhookPost crypto config other = none →
        other.nextRetryAt < delivery.nextRetryAt →
        (∀ c ∈ rounds, other.ready config c.run.now = true) →
        ¬Occurred (webhookQueue crypto config).afterRound
          ((webhookQueue crypto config).Attempts delivery) rows rounds := by
  refine ⟨fun rows r hkeyed hrun => advanced_iff hkeyed hrun, ?_⟩
  intro rows rounds delivery hdelivery hrounds
  constructor
  · intro hself hahead hmany
    exact (webhookPolicy crypto config).attempted_of_rounds retryDelay_pos (fun _ => rfl) hrounds
      hdelivery hself hahead hmany
  · intro other hother hblocked hrank hdue
    exact not_attempted_of_blocked hrounds hdelivery hother hblocked hrank hdue

/-- The secret of one of the two subscriptions is not one that the service has enciphered. -/
def oneBadSecret : WebhookConfig :=
  ⟨none, some "jwt-2",
    [⟨"sub-bad", "https://bad", "garbage"⟩, ⟨"sub-good", "https://good", "1a:2b:3c"⟩]⟩

def duePair : List WebhookDelivery :=
  [⟨"dl-bad", "sub-bad", "booking.created", "{}", .pending, 0, 5, none, none⟩,
   ⟨"dl-good", "sub-good", "booking.created", "{}", .pending, 0, 6, none, none⟩]

/-- Both deliveries are selected, and both endpoints would accept. -/
def pairRun : PageRun String PostOutcome :=
  ⟨10, 25, ["dl-bad", "dl-good"], [⟨11, 12, .response 200⟩, ⟨13, 14, .response 200⟩]⟩

/-- The delivery in front ends the run, which leaves the table as it was. -/
theorem good_delivery_blocked :
    (webhookQueue openCrypto oneBadSecret).Complete duePair pairRun ∧
      (webhookQueue openCrypto oneBadSecret).selected duePair pairRun = duePair ∧
      (webhookQueue openCrypto oneBadSecret).afterPage duePair pairRun = duePair ∧
      ¬∀ delivery ∈ (webhookQueue openCrypto oneBadSecret).selected duePair pairRun,
        Advanced delivery ((webhookQueue openCrypto oneBadSecret).afterPage duePair pairRun) := by
  decide

end HubAssist.Delivery
