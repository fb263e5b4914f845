import HubAssist.SmtpBreaker

/-! The Retry decorator of the mail service around `sendTemplate`. The decorator is stated for any
method, whose calls come to whatever they come to; the provider answers each call by itself. -/
namespace HubAssist.EmailRetry
open SmtpBreaker

variable {E A : Type*}

structure RetryOptions where
  maxAttempts : Option ℕ
  backoffMs : Option (List ℕ)
  deriving DecidableEq

/-- 2, 4 and 8 minutes. -/
def defaultBackoff : List ℕ := [2*60*1000, 4*60*1000, 8*60*1000]

/-- `options.maxAttempts || 3` -/
def RetryOptions.attempts (options : RetryOptions) : ℕ :=
  match options.maxAttempts with
  | some 0 | none => 3
  | some n => n

def RetryOptions.backoff (options : RetryOptions) : List ℕ := options.backoffMs.getD defaultBackoff

/-- `backoffMs[attempt - 1] || backoffMs[backoffMs.length - 1]` -/
def delayAfter (backoffMs : List ℕ) (attempt : ℕ) : ℕ :=
  match backoffMs[attempt-1]? with
  | some 0 | none => backoffMs.getLast?.getD 0
  | some delay => delay

/-- What a decorated call comes to: how its promise is settled, how often it has called the method,
and the delays in between. -/
structure Settled (E A : Type*) where
  result : Except (Option E) A
  attempts : ℕ
  delays : List ℕ

/-- The loop of the decorator, with the attempts that are left, the number of the next one and
`lastError`. -/
def retryLoop (isRetryable : E → Bool) (options : RetryOptions) (call : ℕ → Except E A) :
    ℕ → ℕ → Option E → Settled E A
  | 0, attempt, lastError => ⟨.error lastError, attempt-1, []⟩
  | left+1, attempt, _ =>
    match call attempt with
    | .ok result => ⟨.ok result, attempt, []⟩
    | .error error =>
      if isRetryable error = false then ⟨.error (some error), attempt, []⟩
      else
        let rest := retryLoop isRetryable options call left (attempt+1) (some error)
        if attempt < options.attempts then
          { rest with delays := delayAfter options.backoff attempt :: rest.delays }
        else rest

/-- `Retry`, around a method whose calls are numbered from 1. -/
def retry (isRetryable : E → Bool) (options : RetryOptions) (call : ℕ → Except E A) : Settled E A :=
  retryLoop isRetryable options call options.attempts 1 none

/-- The call fails with an error for which the method is called again. -/
def Retryable (isRetryable : E → Bool) (call : ℕ → Except E A) (k : ℕ) : Prop :=
  ∃ error, call k = .error error ∧ isRetryable error = true

/-- The settled call has gone through retryable failures from `first` on, and stopped at the first
call that is none, or when no attempt was left; and is settled as its last call was. -/
structure Stops (isRetryable : E → Bool) (call : ℕ → Except E A) (first last : ℕ)
    (settled : Settled E A) : Prop where
  lower : first ≤ settled.attempts
  upper : settled.attempts ≤ last
  before : ∀ k, first ≤ k → k < settled.attempts → Retryable isRetryable call k
  stop : settled.attempts = last ∨ ¬Retryable isRetryable call settled.attempts
  result : settled.result = (call settled.attempts).mapError some

theorem RetryOptions.attempts_pos (options : RetryOptions) : 0 < options.attempts := by
  unfold RetryOptions.attempts
  split
  · decide
  · decide
  · next n hzero _ => exact Nat.pos_of_ne_zero fun h => hzero (h ▸ rfl)

variable {isRetryable : E → Bool} {call : ℕ → Except E A} {attempt last : ℕ}
  {settled rest : Settled E A}

theorem stops_now (hattempts : settled.attempts = attempt)
    (hresult : settled.result = (call attempt).mapError some) (hlast : attempt ≤ last)
    (hstop : attempt = last ∨ ¬Retryable isRetryable call attempt) :
    Stops isRetryable call attempt last settled := by
  subst hattempts
  exact ⟨Nat.le_refl _, hlast, fun k h h' => absurd h (Nat.not_le_of_lt h'), hstop, hresult⟩

/-- One more call in front of those of the rest. -/
theorem Stops.later (h : Stops isRetryable call (attempt+1) last rest)
    (hretryable : Retryable isRetryable call attempt) (hattempts : settled.attempts = rest.attempts)
    (hresult : settled.result = rest.result) : Stops isRetryable call attempt last settled := by
  refine ⟨?_, ?_, fun k hk hk' => ?_, ?_, ?_⟩
  · have hlower := h.lower
    omega
  · rw [hattempts]
    exact h.upper
  · rcases Nat.eq_or_lt_of_le hk with rfl | hlt
    · exact hretryable
    · exact h.before k hlt (hattempts ▸ hk')
  · rw [hattempts]
    exact h.stop
  · rw [hresult, hattempts]
    exact h.result

theorem not_retryable_of_ok {result : A} (h : call attempt = .ok result) :
    ¬Retryable isRetryable call attempt := by
  rintro ⟨error, herror, _⟩
  cases h.symm.trans herror

theorem retryable_iff (isRetryable : E → Bool) {error : E} (h : call attempt = .error error) :
    Retryable isRetryable call attempt ↔ isRetryable error = true := by
  constructor
  · rintro ⟨error', herror, htrue⟩
    obtain rfl := Except.error.inj (h.symm.trans herror)
    exact htrue
  · intro htrue
    exact ⟨error, h, htrue⟩

theorem retryLoop_stops (isRetryable : E → Bool) (call : ℕ → Except E A) (options : RetryOptions)
    (left attempt : ℕ) (lastError : Option E) :
    Stops isRetryable call attempt (attempt+left)
      (retryLoop isRetryable options call (left+1) attempt lastError) := by
  induction left generalizing attempt lastError with
  | zero =>
    -- the last attempt that is left
    apply stops_now _ _ (Nat.le_refl _) (.inl rfl) <;> rw [retryLoop] <;>
      cases hcall : call attempt with
      | ok result => rfl
      | error error =>
        simp only [retryLoop, Nat.add_sub_cancel]
        split_ifs <;> rfl
  | succ left ih =>
    rw [retryLoop]
    cases hcall : call attempt with
    | ok result =>
      dsimp only
      exact stops_now rfl (by rw [hcall]; rfl) (by omega) (.inr (not_retryable_of_ok hcall))
    | error error =>
      have hiff := retryable_iff isRetryable hcall
      cases hretryable : isRetryable error with
      | false =>
        rw [hretryable] at hiff
        have hnot : ¬Retryable isRetryable call attempt := fun h => absurd (hiff.mp h) (by simp)
        simp only [hretryable, if_true]
        exact stops_now rfl (by rw [hcall]; rfl) (by omega) (.inr hnot)
      | true =>
        have hrest := ih (attempt+1) (some error)
        rw [Nat.add_right_comm, Nat.add_assoc] at hrest
        simp only [hretryable, Bool.true_eq_false, if_false]
        split_ifs
        · exact hrest.later (hiff.mpr hretryable) rfl rfl
        · exact hrest.later (hiff.mpr hretryable) rfl rfl

/-- A decorated method is called until a call is no retryable failure, and at most as often as the
options say. -/
theorem retry_stops (isRetryable : E → Bool) (options : RetryOptions) (call : ℕ → Except E A) :
    Stops isRetryable call 1 options.attempts (retry isRetryable options call) := by
  have hleft : options.attempts = options.attempts-1+1 := by
    have hpos := options.attempts_pos
    omega
  have hstops := retryLoop_stops isRetryable call options (options.attempts-1) 1 none
  rw [← hleft, Nat.add_comm, ← hleft] at hstops
  exact hstops

/-- An error of the mail provider or of the connection to it. -/
structure MailError where
  responseCode : Option ℕ
  code : Option String
  message : String
  deriving DecidableEq

inductive MailOutcome where
  | delivered
  | failed (error : MailError)
  deriving DecidableEq

/-- What `sendTemplate` throws. An InternalServerErrorException has neither a response code nor a
code. -/
inductive Thrown where
  | internalServerErrorException (message : String)
  | mailError (error : MailError)
  deriving DecidableEq

def Thrown.message : Thrown → String
  | .internalServerErrorException message => message
  | .mailError e => e.message

def Thrown.responseCode : Thrown → Option ℕ
  | .internalServerErrorException _ => none
  | .mailError e => e.responseCode

def Thrown.code : Thrown → Option String
  | .internalServerErrorException _ => none
  | .mailError e => e.code

def retryableCodes : List ℕ := [421, 450, 451, 452]

def isRetryableError (error : Thrown) : Bool :=
  if error.responseCode.any fun code => code ≠ 0 && retryableCodes.contains code then true
  else error.code = some "ECONNREFUSED" || error.code = some "ETIMEDOUT" ||
    error.code = some "EHOSTUNREACH"

/-- The body of the `try`: whether the mail goes out, and what is thrown when it does not. -/
def attemptMail (template : String) (hasContext : Bool) (now : ℕ) (r : Redis)
    (outcome : MailOutcome) : Except Thrown Unit :=
  if hasContext = false then
    .error (.internalServerErrorException ("Missing context for email template: " ++ template))
  else if isOpen now r then
    .error (.mailError ⟨none, none, "Circuit breaker open - fallback not configured"⟩)
  else
    match outcome with
    | .delivered => .ok ()
    | .failed error => .error (.mailError error)

/-- The `catch`: what is thrown for what it catches. -/
def translated (thrown : Thrown) : Thrown :=
  match thrown with
  | .internalServerErrorException _ => thrown
  | .mailError error => .internalServerErrorException ("Failed to send email: " ++ error.message)

def sendTemplate (template : String) (hasContext : Bool) (now : ℕ) (r : Redis)
    (outcome : MailOutcome) : Except Thrown Unit × Redis :=
  match attemptMail template hasContext now r outcome with
  | .ok () => (.ok (), recordSuccess r)
  | .error thrown => (.error (translated thrown), recordFailure now r)

/-- What a call of the method meets: the time, the keys of the breaker and the provider. -/
structure Sending where
  now : ℕ
  redis : Redis
  outcome : MailOutcome
  deriving DecidableEq

def retryOptions : RetryOptions := ⟨some 3, some [2*60*1000, 4*60*1000, 8*60*1000]⟩

/-- The calls of the method, the k-th of which meets `sendings k`. -/
def calls (template : String) (hasContext : Bool) (sendings : ℕ → Sending) (k : ℕ) :
    Except Thrown Unit :=
  (sendTemplate template hasContext (sendings k).now (sendings k).redis (sendings k).outcome).1

def decoratedSendTemplate (template : String) (hasContext : Bool) (sendings : ℕ → Sending) :
    Settled Thrown Unit :=
  retry isRetryableError retryOptions (calls template hasContext sendings)

/-- A failure that is expected to pass. -/
def MailOutcome.Transient : MailOutcome → Prop
  | .delivered => False
  | .failed error => error.responseCode ∈ [some 421, some 450, some 451, some 452] ∨
    error.code ∈ [some "ECONNREFUSED", some "ETIMEDOUT", some "EHOSTUNREACH"]

instance : DecidablePred MailOutcome.Transient := fun outcome =>
  match outcome with
  | .delivered => isFalse id
  | .failed _ => inferInstanceAs (Decidable (_ ∨ _))

/-- The k-th attempt is the first success, the first permanent failure or the third attempt. -/
def LastAttempt (outcomes : ℕ → MailOutcome) (k : ℕ) : Prop :=
  1 ≤ k ∧ k ≤ 3 ∧ (∀ j, 1 ≤ j → j < k → (outcomes j).Transient) ∧
    (k = 3 ∨ ¬(outcomes k).Transient)

/-- Transient failures are retried, and the call resolves when its last attempt has succeeded. -/
def RetriesTransient (outcomes : ℕ → MailOutcome) (settled : Settled Thrown Unit) : Prop :=
  LastAttempt outcomes settled.attempts ∧
    (settled.result = .ok () ↔ outcomes settled.attempts = .delivered)

/-- What a send does to the breaker is as in its own model. -/
theorem sendTemplate_redis (template : String) (hasContext : Bool) (now : ℕ) (r : Redis)
    (outcome : MailOutcome) : (sendTemplate template hasContext now r outcome).2 =
      (SmtpBreaker.sendTemplate hasContext (decide (outcome = .delivered)) now r).2 := by
  cases outcome with
  | delivered =>
    simp only [sendTemplate, attemptMail, SmtpBreaker.sendTemplate, decide_true, if_true]
    split_ifs <;> rfl
  | failed error =>
    simp only [sendTemplate, attemptMail, SmtpBreaker.sendTemplate, reduceCtorEq, decide_false,
      Bool.false_eq_true, if_false]
    split_ifs <;> rfl

/-- The error that leaves `sendTemplate` never looks retryable. -/
theorem isRetryableError_translated (thrown : Thrown) :
    isRetryableError (translated thrown) = false := by
  cases thrown with
  | internalServerErrorException message =>
    simp [translated, isRetryableError, Thrown.responseCode, Thrown.code]
  | mailError error => simp [translated, isRetryableError, Thrown.responseCode, Thrown.code]

theorem calls_not_retryable (template : String) (hasContext : Bool) (sendings : ℕ → Sending)
    (k : ℕ) : ¬Retryable isRetryableError (calls template hasContext sendings) k := by
  rintro ⟨error, herror, hretryable⟩
  simp only [calls, sendTemplate] at herror
  split at herror
  · cases herror
  · next thrown _ =>
    obtain rfl := Except.error.inj herror
    cases (isRetryableError_translated thrown).symm.trans hretryable

theorem calls_ok_iff {template : String} {sendings : ℕ → Sending} {k : ℕ}
    (hclosed : isOpen (sendings k).now (sendings k).redis = false) :
    calls template true sendings k = .ok () ↔ (sendings k).outcome = .delivered := by
  cases houtcome : (sendings k).outcome with
  | delivered => simp [calls, sendTemplate, attemptMail, hclosed, houtcome]
  | failed error => simp [calls, sendTemplate, attemptMail, hclosed, houtcome]

/-- There is one attempt, whatever the provider answers, and it settles the call. -/
theorem decoratedSendTemplate_once (template : String) (hasContext : Bool)
    (sendings : ℕ → Sending) :
    (decoratedSendTemplate template hasContext sendings).attempts = 1 ∧
      (decoratedSendTemplate template hasContext sendings).result =
        (calls template hasContext sendings 1).mapError some := by
  have hstops := retry_stops isRetryableError retryOptions (calls template hasContext sendings)
  rw [← decoratedSendTemplate] at hstops
  have hone : (decoratedSendTemplate template hasContext sendings).attempts = 1 := by
    by_contra hmore
    have hfirst := hstops.before 1 (Nat.le_refl 1) (Nat.lt_of_le_of_ne hstops.lower (Ne.symm hmore))
    exact calls_not_retryable template hasContext sendings 1 hfirst
  have hresult := hstops.result
  rw [hone] at hresult
  exact ⟨hone, hresult⟩

theorem lastAttempt_one_iff {outcomes : ℕ → MailOutcome} :
    LastAttempt outcomes 1 ↔ ¬(outcomes 1).Transient := by
  constructor
  · rintro ⟨_, _, _, hlast | hstop⟩
    · cases hlast
    · exact hstop
  · intro hstop
    exact ⟨Nat.le_refl 1, by decide, fun j hj hj' => absurd hj (Nat.not_le_of_lt hj'), .inr hstop⟩

/-- With the breaker closed, transient failures are retried as they should be exactly when the first
attempt does not meet one. -/
theorem retries_transient_iff (template : String) (sendings : ℕ → Sending)
    (hclosed : ∀ k, 1 ≤ k → k ≤ 3 → isOpen (sendings k).now (sendings k).redis = false) :
    RetriesTransient (fun k => (sendings k).outcome)
        (decoratedSendTemplate template true sendings) ↔
      ¬(sendings 1).outcome.Transient := by
  obtain ⟨hattempts, hresult⟩ := decoratedSendTemplate_once template true sendings
  have hok : (decoratedSendTemplate template true sendings).result = .ok () ↔
      (sendings 1).outcome = .delivered := by
    rw [hresult, ← calls_ok_iff (hclosed 1 (Nat.le_refl 1) (by decide))]
    cases calls template true sendings 1 with
    | ok _ => simp [Except.mapError]
    | error _ => simp [Except.mapError]
  rw [RetriesTransient, hattempts, lastAttempt_one_iff]
  exact and_iff_left hok

/-- The provider is busy at first, and takes the mail two minutes later. -/
def busyOnce : ℕ → Sending
  | 1 => ⟨1000, ⟨none, none⟩, .failed ⟨some 421, none, "try again later"⟩⟩
  | _ => ⟨121000, ⟨none, none⟩, .delivered⟩

def acceptedAtOnce : ℕ → Sending := fun _ => ⟨1000, ⟨none, none⟩, .delivered⟩

theorem retries_transient_accepted :
    RetriesTransient (fun k => (acceptedAtOnce k).outcome)
      (decoratedSendTemplate "welcome" true acceptedAtOnce) :=
  (retries_transient_iff "welcome" acceptedAtOnce fun _ _ _ => rfl).mpr id

/-- The mail is given up at the first answer. -/
theorem busy_not_retried :
    (∀ k, 1 ≤ k → k ≤ 3 → isOpen (busyOnce k).now (busyOnce k).redis = false) ∧
      decoratedSendTemplate "welcome" true busyOnce =
        ⟨.error (some (.internalServerErrorException "Failed to send email: try again later")), 1,
          []⟩ ∧
      ¬RetriesTransient (fun k => (busyOnce k).outcome)
        (decoratedSendTemplate "welcome" true busyOnce) := by
  have hattempts := (decoratedSendTemplate_once "welcome" true busyOnce).1
  refine ⟨fun k _ _ => ?_, rfl, ?_⟩
  · cases k with
    | zero => rfl
    | succ k => cases k <;> rfl
  · rintro ⟨hlast, _⟩
    rw [hattempts] at hlast
    exact lastAttempt_one_iff.mp hlast (by decide)

end HubAssist.EmailRetry
