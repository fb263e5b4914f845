import HubAssist.WorkQueue
import Mathlib.Algebra.Ring.Nat

/-! The OutboxService and the WebhookService of the backend as workers on their tables, with the
back-off that they share. Reads and writes of the database do not fail; what a publication or a
post comes to is open. -/
namespace HubAssist.Delivery
open KeyedTable WorkQueue

/-- The exponent is `Math.max(attempts - 1, 0)`. -/
def calculateNextRetryAt (attempts now : ℕ) : ℕ := now+2^(attempts-1)*1000

def isDeadLetter (attempts maxAttempts : ℕ) : Bool := maxAttempts ≤ attempts

def maxOutboxAttempts : ℕ := 5

def maxWebhookAttempts : ℕ := 8

inductive OutboxEventStatus where
  | pending
  | sent
  | failed
  deriving DecidableEq, Repr

/-- A row of `outbox_events`, with its payload as JSON text. -/
structure OutboxEvent where
  id : String
  eventType : String
  payload : String
  status : OutboxEventStatus
  retryCount : ℕ
  createdAt : ℕ
  nextRetryAt : Option ℕ
  processedAt : Option ℕ
  deriving DecidableEq, Repr

/-- Whether `publishPaymentEvent` resolves or throws. -/
inductive PublishOutcome where
  | published
  | failed (message : String)
  deriving DecidableEq, Repr

/-- The condition of `processPending`. -/
def OutboxEvent.ready (now : ℕ) (event : OutboxEvent) : Bool :=
  event.status = .pending && event.nextRetryAt.all fun t => t ≤ now

/-- What `publish` leaves of the stored row. `save` writes all columns of the worker's copy, and
`update` those that it is given. -/
def publish (now : ℕ) (event : OutboxEvent) (outcome : PublishOutcome) (stored : OutboxEvent) :
    OutboxEvent :=
  match outcome with
  | .published => { event with status := .sent, processedAt := some now }
  | .failed _ =>
    let attempts := event.retryCount+1
    let isDead := isDeadLetter attempts maxOutboxAttempts
    { stored with
      retryCount := attempts
      status := if isDead then .failed else .pending
      nextRetryAt := if isDead then event.nextRetryAt else some (calculateNextRetryAt attempts now)
      processedAt := if isDead then some now else none }

/-- `processPending`: each event that is selected is published with its type and payload. -/
def outboxQueue : Queue OutboxEvent String String (String × String) PublishOutcome where
  key := OutboxEvent.id
  rowLock id := id
  locks event := [event.id]
  due := OutboxEvent.ready
  rank := OutboxEvent.createdAt
  message event := some (event.eventType, event.payload)
  finish := publish

inductive WebhookDeliveryStatus where
  | pending
  | delivered
  | failed
  | dead
  deriving DecidableEq, Repr

structure WebhookSubscription where
  id : String
  url : String
  encryptedSecret : String
  deriving DecidableEq, Repr

/-- A row of `webhook_deliveries`, with its payload as JSON text. -/
structure WebhookDelivery where
  id : String
  subscriptionId : String
  eventType : String
  payload : String
  status : WebhookDeliveryStatus
  attempts : ℕ
  nextRetryAt : ℕ
  responseCode : Option ℕ
  lastError : Option String
  deriving DecidableEq, Repr

/-- The crypto module: the digest, the decipher with its key, the two hex texts and the hex of what
is enciphered, which throws on what it cannot take, and the signature in hex. -/
structure Crypto where
  sha256 : String → String
  decipher : String → String → String → String → Option String
  hmacHex : String → String → String

/-- The secrets that the service is configured with, and the subscriptions that its deliveries are
joined with. -/
structure WebhookConfig where
  encryptionSecret : Option String
  jwtSecret : Option String
  subscriptions : List WebhookSubscription

/-- The first of two texts that is there and not empty. -/
def orText (first : Option String) (second : String) : String :=
  match first with
  | none => second
  | some text => if text = "" then second else text

def encryptionKey (crypto : Crypto) (config : WebhookConfig) : String :=
  crypto.sha256 (orText config.encryptionSecret
    (orText config.jwtSecret "hubassist-webhook-development-key"))

/-- The parts of the value between its colons; a part that is missing makes it throw. -/
def decryptSecret (crypto : Crypto) (config : WebhookConfig) (value : String) : Option String :=
  match value.toList.splitOn ':' with
  | ivHex :: tagHex :: encryptedHex :: _ =>
    crypto.decipher (encryptionKey crypto config) (String.ofList ivHex) (String.ofList tagHex)
      (String.ofList encryptedHex)
  | _ => none

def generateSignature (crypto : Crypto) (secret payload : String) : String :=
  "sha256=" ++ crypto.hmacHex secret payload

/-- What is posted for a delivery. -/
structure WebhookPost where
  url : String
  body : String
  timeout : ℕ
  headers : List (String × String)
  deriving DecidableEq, Repr

/-- The post that `deliver` prepares, outside of its `try`, from the delivery and the subscription
that it is joined with. -/
def webhookPost (crypto : Crypto) (config : WebhookConfig) (delivery : WebhookDelivery) :
    Option WebhookPost := do
  let subscription ← findRow WebhookSubscription.id config.subscriptions delivery.subscriptionId
  let secret ← decryptSecret crypto config subscription.encryptedSecret
  let signature := generateSignature crypto secret delivery.payload
  return ⟨subscription.url, delivery.payload, 5000,
    [("Content-Type", "application/json"), ("X-Hub-Event", delivery.eventType),
      ("X-Hub-Delivery", delivery.id), ("X-Hub-Signature-256", signature)]⟩

/-- Whether the post gets a response, of whatever status, or throws. -/
inductive PostOutcome where
  | response (status : ℕ)
  | error (message : String)
  deriving DecidableEq, Repr

def PostOutcome.accepted : PostOutcome → Bool
  | .response status => 200 ≤ status && status < 300
  | .error _ => false

/-- A response code that is undefined is not written. -/
def markForRetry (now : ℕ) (delivery : WebhookDelivery) (attempts : ℕ) (responseCode : Option ℕ)
    (lastError : String) (stored : WebhookDelivery) : WebhookDelivery :=
  let isDead := isDeadLetter attempts maxWebhookAttempts
  { stored with
    attempts := attempts
    responseCode := responseCode.or stored.responseCode
    lastError := some lastError
    status := if isDead then .dead else .failed
    nextRetryAt := if isDead then delivery.nextRetryAt else calculateNextRetryAt attempts now }

/-- What `deliver` leaves of the stored row. -/
def deliver (now : ℕ) (delivery : WebhookDelivery) (outcome : PostOutcome)
    (stored : WebhookDelivery) : WebhookDelivery :=
  let attempts := delivery.attempts+1
  match outcome with
  | .response status =>
    if (PostOutcome.response status).accepted then
      { stored with
        attempts := attempts
        status := .delivered
        responseCode := some status
        lastError := none }
    else markForRetry now delivery attempts (some status) ("HTTP " ++ toString status) stored
  | .error message => markForRetry now delivery attempts none message stored

/-- The condition of `processReady`, with the join. -/
def WebhookDelivery.ready (config : WebhookConfig) (now : ℕ) (delivery : WebhookDelivery) : Bool :=
  (delivery.status = .pending || delivery.status = .failed) && delivery.nextRetryAt ≤ now &&
    (findRow WebhookSubscription.id config.subscriptions delivery.subscriptionId).isSome

/-- The rows that a select of `processReady` locks: those of both tables. -/
inductive WebhookLock where
  | delivery (id : String)
  | subscription (id : String)
  deriving DecidableEq, Repr

/-- `processReady`. -/
def webhookQueue (crypto : Crypto) (config : WebhookConfig) :
    Queue WebhookDelivery String WebhookLock WebhookPost PostOutcome where
  key := WebhookDelivery.id
  rowLock := .delivery
  locks delivery := [.delivery delivery.id, .subscription delivery.subscriptionId]
  due := WebhookDelivery.ready config
  rank := WebhookDelivery.nextRetryAt
  message := webhookPost crypto config
  finish := deliver

end HubAssist.Delivery
