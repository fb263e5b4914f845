import HubAssist.Checks
import HubAssist.Interleaving
import HubAssist.TtlCache

/-! The IdempotencyMiddleware of the backend. A request goes through it in atomic steps, with the
cache as the only state that requests share. The cache is reliable, and the handler behind the
middleware is whatever calls `res.json` once it has been entered. -/
namespace HubAssist.Idempotency
open Checks TtlCache

def idempotencyTtlMs : ℕ := 5*60*1000

/-- `/^[\x21-\x7E]{1,128}$/` -/
def keyPattern (key : String) : Bool :=
  1 ≤ key.length && key.length ≤ 128 && key.toList.all fun c => '\x21' ≤ c && c ≤ '\x7E'

structure CachedResponse (B : Type*) where
  statusCode : ℕ
  body : B
  deriving DecidableEq, Repr

/-- The response has a 2xx status. -/
def CachedResponse.ok {B : Type*} (response : CachedResponse B) : Prop :=
  200 ≤ response.statusCode ∧ response.statusCode < 300

instance {B : Type*} (response : CachedResponse B) : Decidable response.ok :=
  inferInstanceAs (Decidable (_ ∧ _))

/-- What is stored under a cache key: the sentinel, or the response of a completed request. -/
inductive Stored (B : Type*) where
  | inFlight
  | response (response : CachedResponse B)
  deriving DecidableEq, Repr

structure Request (B : Type*) where
  method : String
  path : String
  idempotencyKey : Option String
  authorization : Option String
  body : B
  deriving DecidableEq, Repr

inductive HttpError where
  | unprocessableEntity (message : String)
  | unauthorized (message : String)
  deriving DecidableEq, Repr

/-- What the middleware itself answers. -/
inductive Reply (B : Type*) where
  | rejected (error : HttpError)
  | conflict (statusCode : ℕ) (message error : String)
  | replayed (response : CachedResponse B)
  deriving DecidableEq, Repr

/-- The JWT package, whose `verify` throws or gives the subject of a payload, and the secret as it
is configured and as the environment has it. -/
structure Tokens where
  verify : String → String → Option (Option String)
  configuredSecret : Option String
  environmentSecret : Option String

def extractUserIdFromToken {B : Type*} (tokens : Tokens) (req : Request B) : Option String := do
  let authHeader ← req.authorization
  if "Bearer ".toList.isPrefixOf authHeader.toList then
    let token := String.ofList (authHeader.toList.drop 7)
    let secret ← tokens.configuredSecret.or tokens.environmentSecret
    if secret = "" then none
    else
      let sub ← tokens.verify token secret
      sub
  else none

def conflictReply {B : Type*} : Reply B :=
  .conflict 409 "A request with this idempotency key is already being processed" "Conflict"

/-- The checks before the cache is read. They give the cache key. -/
def cacheKey {B : Type*} (tokens : Tokens) (req : Request B) : Except HttpError String := do
  let rawKey := req.idempotencyKey.getD ""
  failIf (rawKey = "")
    (.unprocessableEntity "X-Idempotency-Key header is required for this endpoint")
  failIf (keyPattern rawKey = false) (.unprocessableEntity
    "X-Idempotency-Key must be 1–128 printable ASCII characters with no whitespace")
  let userId := (extractUserIdFromToken tokens req).getD ""
  failIf (userId = "") (.unauthorized "Valid Bearer token required to use idempotency key")
  return "idempotency:" ++ userId ++ ":" ++ rawKey

/-- How far a request has come. Between `responded` and `settled` its response is on its way and
the cache has not yet been written. -/
inductive Phase (B : Type*) where
  | arrived
  | looking (key : String)
  | marking (key : String)
  | marked (key : String)
  | handling (key : String)
  | responded (key : String) (response : CachedResponse B)
  | settled (key : String) (response : CachedResponse B)
  | answered (reply : Reply B)
  deriving DecidableEq, Repr

/-- A request and how far it has come. -/
structure Progress (B : Type*) where
  request : Request B
  phase : Phase B
  deriving DecidableEq, Repr

/-- The atomic steps of a request: the checks, reading the cache, setting the mark, entering the
handler, the handler's call of `res.json`, and the write or the deletion that this triggers. -/
inductive Move (B : Type*) where
  | check
  | get
  | mark
  | next
  | json (statusCode : ℕ) (body : B)
  | settle
  deriving DecidableEq, Repr

structure Action (B : Type*) where
  now : ℕ
  move : Move B
  deriving DecidableEq, Repr

abbrev ResponseCache (B : Type*) := Cache String (Stored B)

/-- One step of `use`. A step that the request has not come to does nothing. -/
def act {B : Type*} (tokens : Tokens) (cache : ResponseCache B) (p : Progress B) (a : Action B) :
    ResponseCache B × Progress B :=
  match a.move, p.phase with
  | .check, .arrived =>
    match cacheKey tokens p.request with
    | .error e => (cache, { p with phase := .answered (.rejected e) })
    | .ok key => (cache, { p with phase := .looking key })
  | .get, .looking key =>
    match get cache a.now key with
    | some .inFlight => (cache, { p with phase := .answered conflictReply })
    | some (.response response) => (cache, { p with phase := .answered (.replayed response) })
    | none => (cache, { p with phase := .marking key })
  | .mark, .marking key =>
    (set cache a.now idempotencyTtlMs key .inFlight, { p with phase := .marked key })
  | .next, .marked key => (cache, { p with phase := .handling key })
  | .json statusCode body, .handling key =>
    (cache, { p with phase := .responded key ⟨statusCode, body⟩ })
  | .settle, .responded key response =>
    -- errors are not stored, so that the client can retry
    if response.ok then
      (set cache a.now idempotencyTtlMs key (.response response),
        { p with phase := .settled key response })
    else (del cache key, { p with phase := .settled key response })
  | _, _ => (cache, p)

/-- Requests at the middleware, before their first step. -/
def start {I B : Type*} (requests : I → Request B) :
    Interleaving.Global I (ResponseCache B) (Progress B) :=
  ⟨empty, fun i => ⟨requests i, .arrived⟩⟩

end HubAssist.Idempotency
