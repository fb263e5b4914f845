import HubAssist.RunSystem

/-! The circuit breaker in front of the mail provider. Its state is two Redis keys with a time to
live each; a call is taken to happen at one instant, in milliseconds. The mails themselves and the
log lines are left out. -/
namespace HubAssist.SmtpBreaker
open RunSystem

/-- A key with the last instant at which it is there. -/
structure Key (V : Type) where
  value : V
  expiresAt : ℕ
  deriving DecidableEq

def lookup {V : Type} (key : Option (Key V)) (now : ℕ) : Option V :=
  match key with
  | some k => if now ≤ k.expiresAt then some k.value else none
  | none => none

inductive CircuitBreakerState where
  | closed
  | opened
  | halfOpen
  deriving DecidableEq

/-- The keys `smtp:circuit-breaker:failures` and `smtp:circuit-breaker`. -/
structure Redis where
  failures : Option (Key ℕ)
  breaker : Option (Key CircuitBreakerState)
  deriving DecidableEq

def failureThreshold : ℕ := 5

/-- Half an hour. -/
def resetTimeout : ℕ := 30*60*1000

/-- The time to live of the counter. -/
def failureTtl : ℕ := 60*1000

def recordSuccess (r : Redis) : Redis := { r with breaker := none }

def recordFailure (now : ℕ) (r : Redis) : Redis :=
  let failures := (lookup r.failures now).getD 0+1
  { failures := some ⟨failures, now+failureTtl⟩
    breaker := if failureThreshold ≤ failures then some ⟨.opened, now+resetTimeout⟩ else r.breaker }

def getState (now : ℕ) (r : Redis) : CircuitBreakerState :=
  if lookup r.breaker now = some .opened then .opened else .closed

def isOpen (now : ℕ) (r : Redis) : Bool := getState now r = .opened

/-- What becomes of a send. -/
inductive SendResult where
  | sent
  | missingContext
  | refused
  | providerFailed
  deriving DecidableEq

/-- `sendTemplate`, with what the provider would answer. -/
def sendTemplate (hasContext delivers : Bool) (now : ℕ) (r : Redis) : SendResult × Redis :=
  if hasContext = false then (.missingContext, recordFailure now r)
  else if isOpen now r then (.refused, recordFailure now r)
  else if delivers then (.sent, recordSuccess r)
  else (.providerFailed, recordFailure now r)

/-- An answer of the provider. -/
structure Answer where
  time : ℕ
  delivered : Bool
  deriving DecidableEq

/-- The keys at a time, and the answers that the provider has given so far, the latest first. -/
structure Mailer where
  now : ℕ
  redis : Redis
  answers : List Answer

/-- A send some time after what has happened before. -/
structure Send where
  delay : ℕ
  hasContext : Bool
  delivers : Bool

def answersAfter (result : SendResult) (time : ℕ) (answers : List Answer) : List Answer :=
  match result with
  | .sent => ⟨time, true⟩ :: answers
  | .providerFailed => ⟨time, false⟩ :: answers
  | .missingContext | .refused => answers

def send (m : Mailer) (a : Send) : Mailer :=
  let (result, redis) := sendTemplate a.hasContext a.delivers (m.now+a.delay) m.redis
  ⟨m.now+a.delay, redis, answersAfter result (m.now+a.delay) m.answers⟩

/-- The failures in a row at the end, none of them more than a minute after the one before. -/
def streak : List Answer → ℕ
  | [] => 0
  | ⟨_, true⟩ :: _ => 0
  | ⟨time, false⟩ :: earlier =>
    if ∀ last ∈ earlier.head?, time ≤ last.time+failureTtl then streak earlier+1 else 1

/-- At this time the fifth failure in a row occurred. -/
def Tripped (answers : List Answer) (time : ℕ) : Prop :=
  ∃ later earlier, answers = later ++ ⟨time, false⟩ :: earlier ∧
    streak (⟨time, false⟩ :: earlier) = failureThreshold

/-- What the breaker is for: it is open for half an hour after a fifth failure in a row. -/
def ShouldOpen (answers : List Answer) (now : ℕ) : Prop :=
  ∃ time, Tripped answers time ∧ time ≤ now ∧ now ≤ time+resetTimeout

/-- From now on until the next send the breaker is open exactly when it should be. -/
def Agrees (m : Mailer) : Prop :=
  ∀ t, m.now ≤ t → (isOpen t m.redis = true ↔ ShouldOpen m.answers t)

/-- The send has a context, finds the breaker closed, and is not delivered while earlier failures
are still counted. -/
def Plain (m : Mailer) (a : Send) : Prop :=
  a.hasContext = true ∧ isOpen (m.now+a.delay) m.redis = false ∧
    (a.delivers = true → lookup m.redis.failures (m.now+a.delay) = none)

/-- The counter is the streak, as long as that can go on. -/
def Counts (m : Mailer) : Prop :=
  match m.answers with
  | [] => m.redis.failures = none
  | ⟨_, true⟩ :: _ => ∀ t, m.now ≤ t → lookup m.redis.failures t = none
  | ⟨time, false⟩ :: earlier =>
    m.redis.failures = some ⟨streak (⟨time, false⟩ :: earlier), time+failureTtl⟩

structure Sound (m : Mailer) : Prop where
  agrees : Agrees m
  counts : Counts m
  past : ∀ a ∈ m.answers, a.time ≤ m.now
  bounded : streak m.answers ≤ failureThreshold

theorem isOpen_eq_true {now : ℕ} {r : Redis} :
    isOpen now r = true ↔ lookup r.breaker now = some .opened := by
  simp [isOpen, getState]

/-- A key that is gone stays away. -/
theorem lookup_later {V : Type} {key : Option (Key V)} {now t : ℕ} (h : lookup key now = none)
    (ht : now ≤ t) : lookup key t = none := by
  cases key with
  | none => rfl
  | some k =>
    simp only [lookup, ite_eq_right_iff, reduceCtorEq, imp_false] at h ⊢
    omega

theorem not_tripped_nil {time : ℕ} : ¬Tripped [] time := by
  rintro ⟨later, earlier, heq, _⟩
  simp at heq

theorem tripped_cons {a : Answer} {answers : List Answer} {time : ℕ} :
    Tripped (a :: answers) time ↔
      Tripped answers time ∨ a = ⟨time, false⟩ ∧ streak (a :: answers) = failureThreshold := by
  constructor
  · rintro ⟨later, earlier, heq, hstreak⟩
    cases later with
    | nil =>
      obtain ⟨rfl, rfl⟩ := List.cons.inj heq
      exact Or.inr ⟨rfl, hstreak⟩
    | cons b later =>
      obtain ⟨rfl, rfl⟩ := List.cons.inj heq
      exact Or.inl ⟨later, earlier, rfl, hstreak⟩
  · rintro (⟨later, earlier, rfl, hstreak⟩ | ⟨rfl, hstreak⟩)
    · exact ⟨a :: later, earlier, rfl, hstreak⟩
    · exact ⟨[], answers, rfl, hstreak⟩

theorem shouldOpen_cons {a : Answer} {answers : List Answer} {now : ℕ} :
    ShouldOpen (a :: answers) now ↔ ShouldOpen answers now ∨
      a.delivered = false ∧ streak (a :: answers) = failureThreshold ∧ a.time ≤ now ∧
        now ≤ a.time+resetTimeout := by
  constructor
  · rintro ⟨time, htripped, hle, hopen⟩
    rcases tripped_cons.mp htripped with h | ⟨rfl, hstreak⟩
    · exact Or.inl ⟨time, h, hle, hopen⟩
    · exact Or.inr ⟨rfl, hstreak, hle, hopen⟩
  · rintro (⟨time, htripped, hle, hopen⟩ | ⟨hfailed, hstreak, hle, hopen⟩)
    · exact ⟨time, tripped_cons.mpr (Or.inl htripped), hle, hopen⟩
    · obtain ⟨time, delivered⟩ := a
      subst hfailed
      exact ⟨time, tripped_cons.mpr (Or.inr ⟨rfl, hstreak⟩), hle, hopen⟩

theorem Tripped.mem {answers : List Answer} {time : ℕ} (h : Tripped answers time) :
    ⟨time, false⟩ ∈ answers := by
  obtain ⟨later, earlier, rfl, _⟩ := h
  simp

/-- Once the breaker is closed, the failures so far open it no more. -/
theorem Sound.closed_onward {m : Mailer} (h : Sound m) {t t' : ℕ} (ht : m.now ≤ t)
    (hclosed : isOpen t m.redis = false) (htt' : t ≤ t') : ¬ShouldOpen m.answers t' := by
  rintro ⟨time, htripped, _, hopen⟩
  have hpast : time ≤ m.now := h.past _ htripped.mem
  have hopened : isOpen t m.redis = true :=
    (h.agrees t ht).mpr ⟨time, htripped, by omega, by omega⟩
  rw [hclosed] at hopened
  exact absurd hopened (by simp)

/-- The counter that a failure leaves is the streak with it. -/
theorem Sound.count_eq {m : Mailer} (h : Sound m) {t : ℕ} (ht : m.now ≤ t) :
    (lookup m.redis.failures t).getD 0+1 = streak (⟨t, false⟩ :: m.answers) := by
  obtain ⟨now, redis, answers⟩ := m
  have hcounts := h.counts
  cases answers with
  | nil =>
    have hnone : redis.failures = none := hcounts
    simp [hnone, lookup, streak]
  | cons last earlier =>
    obtain ⟨time, delivered⟩ := last
    cases delivered with
    | true =>
      -- the counter had run out when this was delivered
      have hnone : lookup redis.failures t = none := hcounts t ht
      simp [hnone, streak]
    | false =>
      have hcounter : redis.failures =
          some ⟨streak (⟨time, false⟩ :: earlier), time+failureTtl⟩ := hcounts
      rw [streak, hcounter]
      -- the counter lives for as long as the streak can go on
      by_cases hgap : t ≤ time+failureTtl
      · simp [lookup, hgap]
      · simp [lookup, hgap]

/-- While the breaker is closed a failure is at most the fifth in a row. -/
theorem Sound.streak_le {m : Mailer} (h : Sound m) {t : ℕ} (ht : m.now ≤ t)
    (hclosed : isOpen t m.redis = false) :
    streak (⟨t, false⟩ :: m.answers) ≤ failureThreshold := by
  have hshut : ¬ShouldOpen m.answers t := h.closed_onward ht hclosed (Nat.le_refl t)
  have hbounded := h.bounded
  have hpast := h.past
  obtain ⟨now, redis, answers⟩ := m
  rw [streak]
  split
  case isFalse => decide
  case isTrue hgap =>
    cases answers with
    | nil => exact Nat.le_add_left 1 4
    | cons last earlier =>
      obtain ⟨time, delivered⟩ := last
      cases delivered with
      | true => simp [streak, failureThreshold]
      | false =>
        -- a fifth failure within the last minute would still hold the breaker open
        have hgap : t ≤ time+failureTtl := hgap ⟨time, false⟩ (by simp)
        have hbefore : time ≤ now := hpast ⟨time, false⟩ (by simp)
        have hne : streak (⟨time, false⟩ :: earlier) ≠ failureThreshold := by
          intro hstreak
          refine hshut ⟨time, ⟨[], earlier, rfl, hstreak⟩, Nat.le_trans hbefore ht, ?_⟩
          simp only [failureTtl, resetTimeout] at hgap ⊢
          omega
        exact Nat.succ_le_of_lt (Nat.lt_of_le_of_ne hbounded hne)

theorem Sound.failed {m : Mailer} (h : Sound m) {t : ℕ} (ht : m.now ≤ t)
    (hclosed : isOpen t m.redis = false) :
    Sound ⟨t, recordFailure t m.redis, ⟨t, false⟩ :: m.answers⟩ := by
  have hcount := h.count_eq ht
  have hle := h.streak_le ht hclosed
  refine ⟨?_, ?_, ?_, hle⟩
  · intro t' htt'
    have htt' : t ≤ t' := htt'
    rw [shouldOpen_cons, isOpen_eq_true]
    simp only [recordFailure, hcount]
    split
    case isTrue hopens =>
      -- the fifth failure in a row
      have hstreak := Nat.le_antisymm hle hopens
      have hbefore := h.closed_onward ht hclosed htt'
      simp only [lookup, Option.ite_none_right_eq_some, and_true, hbefore, hstreak, true_and,
        htt', false_or]
    case isFalse hstays =>
      -- the breaker's key is left alone, and no fifth failure has come
      have hne : streak (⟨t, false⟩ :: m.answers) ≠ failureThreshold :=
        fun heq => hstays (Nat.le_of_eq heq.symm)
      rw [← isOpen_eq_true, h.agrees t' (Nat.le_trans ht htt')]
      simp only [hne, false_and, and_false, or_false]
  · simp only [Counts, recordFailure, hcount]
  · intro a ha
    rcases List.mem_cons.mp ha with rfl | ha
    · exact Nat.le_refl t
    · exact Nat.le_trans (h.past a ha) ht

theorem Sound.delivered {m : Mailer} (h : Sound m) {t : ℕ} (ht : m.now ≤ t)
    (hclosed : isOpen t m.redis = false) (hcount : lookup m.redis.failures t = none) :
    Sound ⟨t, recordSuccess m.redis, ⟨t, true⟩ :: m.answers⟩ := by
  refine ⟨?_, ?_, ?_, by simp [streak]⟩
  · intro t' htt'
    have hbefore := h.closed_onward ht hclosed htt'
    simp [shouldOpen_cons, hbefore, isOpen_eq_true, recordSuccess, lookup]
  · exact fun t' htt' => lookup_later hcount htt'
  · intro a ha
    rcases List.mem_cons.mp ha with rfl | ha
    · exact Nat.le_refl t
    · exact Nat.le_trans (h.past a ha) ht

theorem Sound.send {m : Mailer} {a : Send} (h : Sound m) (hplain : Plain m a) :
    Sound (send m a) := by
  obtain ⟨hcontext, hclosed, hcount⟩ := hplain
  have ht : m.now ≤ m.now+a.delay := Nat.le_add_right _ _
  by_cases hdelivers : a.delivers = true
  · simpa [SmtpBreaker.send, sendTemplate, hcontext, hclosed, hdelivers, answersAfter]
      using h.delivered ht hclosed (hcount hdelivers)
  · simpa [SmtpBreaker.send, sendTemplate, hcontext, hclosed, hdelivers, answersAfter]
      using h.failed ht hclosed

/-- Before the first send. -/
def start (now : ℕ) : Mailer := ⟨now, ⟨none, none⟩, []⟩

theorem start_sound (now : ℕ) : Sound (start now) := by
  refine ⟨?_, rfl, by simp [start], by simp [start, streak]⟩
  intro t _
  have hnever : ¬ShouldOpen [] t := by
    rintro ⟨time, htripped, _⟩
    exact not_tripped_nil htripped
  simp [hnever, isOpen_eq_true, start, lookup]

/-- Where every send has a context, finds the breaker closed, and is delivered only when no earlier
failure is still counted, the breaker is open at all times exactly when it should be. -/
theorem agrees_run (now : ℕ) (as : List Send) (h : Guarded send Plain (start now) as) :
    Always send Agrees (start now) as :=
  always_of_guarded send (fun _ _ hm hp => hm.send hp) (fun _ hm => hm.agrees) (start_sound now) h

/-- Five failures in a row and a delivery after the half hour. -/
def outage : List Send :=
  [⟨0, true, false⟩, ⟨1000, true, false⟩, ⟨60000, true, false⟩, ⟨1000, true, false⟩,
    ⟨1000, true, false⟩, ⟨1800001, true, true⟩]

instance (m : Mailer) (a : Send) : Decidable (Plain m a) :=
  inferInstanceAs (Decidable (_ ∧ _ ∧ _))

theorem agrees_outage : Always send Agrees (start 0) outage :=
  agrees_run 0 outage (by decide)

/-- Four failures, a delivery, and another failure within the minute. -/
def recovered : List Send :=
  [⟨0, true, false⟩, ⟨1000, true, false⟩, ⟨1000, true, false⟩, ⟨1000, true, false⟩,
    ⟨1000, true, true⟩, ⟨1000, true, false⟩]

/-- The delivery leaves the counter alone, so a first failure after it opens the breaker. -/
theorem opened_after_delivery :
    ¬∀ (now : ℕ) (as : List Send), Always send Agrees (start now) as := by
  intro h
  have hagrees := (always_iff_prefixes send Agrees (start 0) recovered).mp (h 0 recovered)
    recovered [] (by simp)
  obtain ⟨time, htripped, _, _⟩ := (hagrees 5000 (by decide)).mp (by decide)
  have hanswers : (run send (start 0) recovered).answers =
      [⟨5000, false⟩, ⟨4000, true⟩, ⟨3000, false⟩, ⟨2000, false⟩, ⟨1000, false⟩, ⟨0, false⟩] := by
    decide
  rw [hanswers] at htripped
  simp only [tripped_cons, not_tripped_nil] at htripped
  simp [streak, failureTtl, failureThreshold] at htripped

end HubAssist.SmtpBreaker
