import HubAssist.RunSystem
import Mathlib.Data.List.Infix
import Mathlib.Logic.Function.Basic

/-! The API client of the frontend: what its interceptors do with a request, and the refresh of the
access token that a 401 starts. A step is what runs between two awaits. Of a config only what the
interceptors look at is kept; it stays with the request when that is sent again. An empty token
counts as none. The payloads, and the rest of what a logout does, are left out. -/
namespace HubAssist.ApiClient
open RunSystem

variable {I T : Type} [DecidableEq I]

def authEntryEndpoints : List String :=
  ["/auth/login", "/auth/register", "/auth/refresh", "/auth/verify-otp", "/auth/resend-otp",
    "/auth/forgot-password", "/auth/reset-password"]

def includes (text search : String) : Bool := search.toList <:+: text.toList

structure Config (T : Type) where
  url : Option String
  retry : Bool
  authorization : Option T

def Config.isAuthEntryEndpoint (original : Config T) : Bool :=
  authEntryEndpoints.any fun endpoint => original.url.any fun url => includes url endpoint

/-- Where a request is. From `gettingStore` to `failing` its interceptor refreshes the token, and
awaits the store, the refresh, the store again, and once more in its catch block. -/
inductive Phase (T : Type) where
  | unsent
  | calling
  | inFlight
  | queued
  | gettingStore
  | refreshing
  | refreshed
  | gotStore (accessToken : Option T)
  | failing
  | fulfilled
  | rejected

def Phase.Refreshes : Phase T → Prop
  | .gettingStore | .refreshing | .refreshed | .gotStore _ | .failing => True
  | .unsent | .calling | .inFlight | .queued | .fulfilled | .rejected => False

/-- A request, with the number of the refresh whose queue it joined last and the tokens that it has
been sent again with, which the code does not keep. -/
structure Request (T : Type) where
  config : Config T
  phase : Phase T
  joined : Option ℕ
  resent : List T

/-- The request with the token in its header and on its way again. -/
def Request.again (r : Request T) (accessToken : T) : Request T :=
  { r with
    config := { r.config with authorization := some accessToken }
    phase := .calling
    resent := r.resent ++ [accessToken] }

inductive Callback (I : Type) where
  | resend (original : I)
  | reject (original : I)

inductive Response where
  | ok
  | error (status : Option ℕ)

/-- The variables of the module, the token in the store, the requests, and how the refreshes so far
have ended. -/
structure Client (I T : Type) where
  isRefreshing : Bool
  refreshQueue : List (Callback I)
  accessToken : Option T
  requests : I → Request T
  outcomes : List (Option T)

namespace Client

variable (c : Client I T)

def modify (i : I) (f : Request T → Request T) : Client I T :=
  { c with requests := Function.update c.requests i (f (c.requests i)) }

def goto (i : I) (phase : Phase T) : Client I T := c.modify i fun r => { r with phase := phase }

def resend (accessToken : T) (i : I) : Client I T := c.modify i fun r => r.again accessToken

/-- A callback of the queue. A promise that has been resolved cannot be rejected any more. -/
def call (accessToken : T) : Callback I → Client I T
  | .resend i => c.resend accessToken i
  | .reject i =>
    match (c.requests i).phase with
    | .queued => c.goto i .rejected
    | _ => c

def callAll (accessToken : T) (callbacks : List (Callback I)) : Client I T :=
  callbacks.foldl (fun c cb => c.call accessToken cb) c

def join (i : I) : Client I T :=
  { c.modify i fun r => { r with phase := .queued, joined := some c.outcomes.length } with
    refreshQueue := c.refreshQueue ++ [.resend i, .reject i] }

def begin (i : I) : Client I T :=
  { c.modify i fun r =>
      { r with config := { r.config with retry := true }, phase := .gettingStore } with
    isRefreshing := true }

/-- The response interceptor, up to its first await. -/
def onError (i : I) (status : Option ℕ) : Client I T :=
  let original := (c.requests i).config
  if status ≠ some 401 ∨ original.retry = true ∨ original.isAuthEntryEndpoint = true then
    c.goto i .rejected
  else if c.isRefreshing = true then c.join i
  else c.begin i

def receive (i : I) : Response → Client I T
  | .ok => c.goto i .fulfilled
  | .error status => c.onError i status

/-- The rest of the try block once there is a token, and the finally block. -/
def succeed (i : I) (accessToken : T) : Client I T :=
  { (c.callAll accessToken c.refreshQueue).resend accessToken i with
    refreshQueue := []
    isRefreshing := false
    outcomes := c.outcomes ++ [some accessToken] }

/-- The catch block up to its await. -/
def drop (i : I) : Client I T := { c.goto i .failing with refreshQueue := [] }

/-- The rest of the catch block after its await, and the finally block. -/
def fail (i : I) : Client I T :=
  { c.goto i .rejected with
    accessToken := none
    isRefreshing := false
    outcomes := c.outcomes ++ [none] }

/-- An await that is over: of the request interceptor, or of the response interceptor. -/
def resume (i : I) : Client I T :=
  match (c.requests i).phase with
  | .calling => c.modify i fun r =>
    { r with
      config := { r.config with authorization := c.accessToken.or r.config.authorization }
      phase := .inFlight }
  | .gettingStore => c.goto i .refreshing
  | .refreshed => c.goto i (.gotStore c.accessToken)
  | .gotStore (some accessToken) => c.succeed i accessToken
  | .gotStore none => c.drop i
  | .failing => c.fail i
  | .unsent | .inFlight | .queued | .refreshing | .fulfilled | .rejected => c

end Client

/-- A request is sent or gets its response, a refresh gets the token that it has asked for or none,
an await is over, or other code writes the token. -/
inductive Move (I T : Type) where
  | send (i : I) (url : Option String)
  | respond (i : I) (response : Response)
  | refreshAccessToken (i : I) (answer : Option T)
  | resume (i : I)
  | setToken (accessToken : Option T)

def step (c : Client I T) : Move I T → Client I T
  | .send i url =>
    match (c.requests i).phase with
    | .unsent => c.modify i fun r => { r with config := ⟨url, false, none⟩, phase := .calling }
    | _ => c
  | .respond i response =>
    match (c.requests i).phase with
    | .inFlight => c.receive i response
    | _ => c
  | .refreshAccessToken i answer =>
    match (c.requests i).phase with
    | .refreshing => { c.goto i .refreshed with accessToken := answer }
    | _ => c
  | .resume i => c.resume i
  | .setToken accessToken => { c with accessToken := accessToken }

/-- The module as it is loaded. -/
def start (accessToken : Option T) : Client I T :=
  ⟨false, [], accessToken, fun _ => ⟨⟨none, false, none⟩, .unsent, none, []⟩, []⟩

/-- What a refresh that has ended so means for a request of its queue: it has been sent again, once,
with the new token, or is rejected. -/
def Request.EndedBy (r : Request T) : Option T → Prop
  | some accessToken => r.resent = [accessToken]
  | none => r.phase = .rejected

/-- No request is stranded, at most one refreshes, and none is sent again twice. -/
structure Unstranded (c : Client I T) : Prop where
  settled : c.isRefreshing = false → c.refreshQueue = [] ∧
    ∀ i k, (c.requests i).joined = some k →
      ∃ outcome, c.outcomes[k]? = some outcome ∧ (c.requests i).EndedBy outcome
  single : ∀ i j, (c.requests i).phase.Refreshes → (c.requests j).phase.Refreshes → i = j
  once : ∀ i, (c.requests i).resent.length ≤ 1

/-- A refresh that succeeds sends no request again that has been sent again before, and when one
that has failed ends, no request waits. -/
def Harmless (c : Client I T) : Move I T → Prop
  | .resume i =>
    match (c.requests i).phase with
    | .gotStore (some _) =>
      (c.requests i).resent = [] ∧ ∀ j, (c.requests j).phase = .queued → (c.requests j).resent = []
    | .failing => ∀ j, (c.requests j).phase ≠ .queued
    | _ => True
  | _ => True

end HubAssist.ApiClient
