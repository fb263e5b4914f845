import HubAssist.AuthOtpBudget
import HubAssist.SlidingWindow

/-! The OtpRateLimitService over a reliable cache: how many resends of a code are allowed within the
window, and when a refused one is told to come again. -/
namespace HubAssist.Auth
open RunSystem SlidingWindow TtlCache

/-- The calls of OtpRateLimitService. -/
inductive ResendCall where
  | checkAndRecordResend (email : String)
  | clearResendWindow (email : String)
  deriving DecidableEq

def ResendCall.email : ResendCall → String
  | .checkAndRecordResend email | .clearResendWindow email => email

structure ResendEvent where
  env : Env
  call : ResendCall

def resendStep (s : AuthState) (event : ResendEvent) : AuthState :=
  match event.call with
  | .checkAndRecordResend email => (checkAndRecordResend event.env email s).2
  | .clearResendWindow email => clearResendWindow event.env email s

/-- No operation of the cache fails. -/
structure Reliable (env : Env) : Prop where
  get : env.cacheGetFails = false
  set : env.cacheSetFails = false
  del : env.cacheDelFails = false

/-- The calls come one after the other, at times that do not go back, over a reliable cache. -/
structure Sequential (events : List ResendEvent) : Prop where
  reliable (event : ResendEvent) (h : event ∈ events) : Reliable event.env
  times : events.Pairwise fun earlier next => earlier.env.now ≤ next.env.now

/-- The times of the allowed calls for `email`, from the last time that its window was cleared. -/
def recordAllowed (email : String) (s : AuthState) (event : ResendEvent) (past : List ℕ) : List ℕ :=
  match event.call with
  | .checkAndRecordResend other =>
    if other = email ∧ (checkAndRecordResend event.env other s).1.allowed = true then
      past ++ [event.env.now]
    else past
  | .clearResendWindow other => if other = email then [] else past

def allowedSinceClear (email : String) (start : AuthState) (events : List ResendEvent) : List ℕ :=
  (run (withHistory resendStep (recordAllowed email)) (start, []) events).2

/-- The cache mirrors the allowed calls for `email`, of which the window never counts more than the
limit. -/
structure Tracks (email : String) (now : ℕ) (s : AuthState) (past : List ℕ) : Prop where
  mirrored : ∃ cache, s.resendWindows = some cache ∧
    Mirrors otpResendWindowMs cache email now past
  limited (future : ℕ) (h : now ≤ future) :
    (recent otpResendWindowMs future past).length ≤ otpResendLimit

variable {email : String} {env : Env} {event : ResendEvent} {s : AuthState} {past : List ℕ}
variable {now : ℕ}

theorem Tracks.later (h : Tracks email now s past) {future : ℕ} (hle : now ≤ future) :
    Tracks email future s past := by
  obtain ⟨cache, hcache, hmirrors⟩ := h.mirrored
  exact ⟨⟨cache, hcache, hmirrors.later hle⟩, fun t ht => h.limited t (hle.trans ht)⟩

theorem tracks_empty (h : s.resendWindows = some TtlCache.empty) : Tracks email 0 s [] :=
  ⟨⟨_, h, mirrors_empty⟩, fun _ _ => Nat.zero_le _⟩

/-- A call answers by what the window counts of the allowed calls, and records itself if it is
allowed. -/
theorem checkAndRecordResend_eq (h : Tracks email env.now s past) (henv : Reliable env) :
    let counted := recent otpResendWindowMs env.now past
    ∃ cache, s.resendWindows = some cache ∧
      let recorded := set cache env.now otpResendWindowMs email (counted ++ [env.now])
      checkAndRecordResend env email s =
        if otpResendLimit ≤ counted.length then
          (⟨false, 0, (oldest counted+otpResendWindowMs-env.now+999)/1000, false⟩, s)
        else (⟨true, otpResendLimit-(counted.length+1), 0, false⟩,
          { s with resendWindows := some recorded }) := by
  intro counted
  obtain ⟨cache, hcache, hmirrors⟩ := h.mirrored
  have hload : ((loadTimestamps env cache email).filter fun t => env.now < t+otpResendWindowMs) =
      counted := by
    rw [loadTimestamps, henv.get, if_neg (by simp)]
    exact hmirrors.counted env.now (Nat.le_refl _)
  refine ⟨cache, hcache, ?_⟩
  rw [checkAndRecordResend, hcache]
  simp only [hload, saveTimestamps, henv.set, List.length_append, List.length_singleton,
    Bool.false_eq_true, if_false]

theorem allowed_iff (h : Tracks email env.now s past) (henv : Reliable env) :
    (checkAndRecordResend env email s).1.allowed = true ↔
      (recent otpResendWindowMs env.now past).length < otpResendLimit := by
  obtain ⟨cache, _, heq⟩ := checkAndRecordResend_eq h henv
  rw [heq]
  split_ifs with hfull
  · simpa using hfull
  · simpa using hfull

theorem recordAllowed_check : recordAllowed email s ⟨env, .checkAndRecordResend email⟩ past =
    if (checkAndRecordResend env email s).1.allowed = true then past ++ [env.now] else past := by
  simp [recordAllowed]

/-- An allowed call is one more of those that are tracked. -/
theorem Tracks.check (h : Tracks email env.now s past) (henv : Reliable env) :
    Tracks email env.now (checkAndRecordResend env email s).2
      (recordAllowed email s ⟨env, .checkAndRecordResend email⟩ past) := by
  have hallowed := allowed_iff h henv
  obtain ⟨cache, hcache, heq⟩ := checkAndRecordResend_eq h henv
  rw [recordAllowed_check]
  by_cases hfull : otpResendLimit ≤ (recent otpResendWindowMs env.now past).length
  · -- a refused call is not recorded
    rw [if_neg (by rw [hallowed]; omega), heq, if_pos hfull]
    exact h
  · rw [if_pos (hallowed.mpr (Nat.lt_of_not_le hfull)), heq, if_neg hfull]
    obtain ⟨_, hsame, hmirrors⟩ := h.mirrored
    obtain rfl := Option.some.inj (hcache.symm.trans hsame)
    refine ⟨⟨_, rfl, hmirrors.record (Nat.le_refl _)⟩, fun future hfuture => ?_⟩
    have hbefore : (recent otpResendWindowMs future past).length ≤
        (recent otpResendWindowMs env.now past).length := length_recent_anti hfuture
    have hone : (recent otpResendWindowMs future [env.now]).length ≤ 1 := recent_sublist.length_le
    rw [recent_append, List.length_append]
    omega

/-- The cache of another email is not touched. -/
theorem Tracks.other (h : Tracks email now s past) (hne : event.call.email ≠ email) :
    Tracks email now (resendStep s event) past := by
  obtain ⟨cache, hcache, hmirrors⟩ := h.mirrored
  obtain ⟨env, call⟩ := event
  cases call with
  | checkAndRecordResend other =>
    simp only [resendStep, checkAndRecordResend, hcache]
    split_ifs with hfull
    · exact h
    · refine ⟨⟨_, rfl, ?_⟩, h.limited⟩
      rw [saveTimestamps]
      split_ifs
      · exact hmirrors
      · exact hmirrors.set_of_ne (Ne.symm hne)
  | clearResendWindow other =>
    simp only [resendStep, clearResendWindow, hcache, Option.map_some]
    refine ⟨⟨_, rfl, ?_⟩, h.limited⟩
    split_ifs
    · exact hmirrors
    · exact hmirrors.del_of_ne (Ne.symm hne)

theorem recordAllowed_other (hne : event.call.email ≠ email) :
    recordAllowed email s event past = past := by
  obtain ⟨env, call⟩ := event
  cases call with
  | checkAndRecordResend other => exact if_neg fun hsame => hne hsame.1
  | clearResendWindow other => exact if_neg hne

theorem Tracks.clear (h : Tracks email env.now s past) (henv : Reliable env) :
    Tracks email env.now (clearResendWindow env email s) [] := by
  obtain ⟨cache, hcache, _⟩ := h.mirrored
  refine ⟨⟨del cache email, ?_, Mirrors.del cache email env.now⟩, fun _ _ => Nat.zero_le _⟩
  simp [clearResendWindow, hcache, henv.del]

/-- What is tracked stays tracked, whatever is called. -/
theorem Tracks.step (h : Tracks email now s past) (hle : now ≤ event.env.now)
    (henv : Reliable event.env) :
    Tracks email event.env.now (resendStep s event) (recordAllowed email s event past) := by
  have hnow := h.later hle
  by_cases hemail : event.call.email = email
  · obtain ⟨env, call⟩ := event
    cases call with
    | checkAndRecordResend other =>
      obtain rfl : other = email := hemail
      exact hnow.check henv
    | clearResendWindow other =>
      obtain rfl : other = email := hemail
      have hcleared : recordAllowed other s ⟨env, .clearResendWindow other⟩ past = [] := if_pos rfl
      rw [hcleared]
      exact hnow.clear henv
  · rw [recordAllowed_other hemail]
    exact hnow.other hemail

theorem Tracks.run {events : List ResendEvent} {future : ℕ} (h : Tracks email now s past)
    (hseq : Sequential events) (hafter : ∀ event ∈ events, now ≤ event.env.now)
    (hbefore : ∀ event ∈ events, event.env.now ≤ future) (hle : now ≤ future) :
    Tracks email future (RunSystem.run resendStep s events)
      (RunSystem.run (withHistory resendStep (recordAllowed email)) (s, past) events).2 := by
  induction events generalizing now s past with
  | nil => exact h.later hle
  | cons event events ih =>
    obtain ⟨hreliable, htimes⟩ := hseq
    obtain ⟨hfirst, hrest⟩ := List.pairwise_cons.mp htimes
    have hstep := h.step (hafter event List.mem_cons_self) (hreliable event List.mem_cons_self)
    exact ih hstep ⟨fun e he => hreliable e (List.mem_cons_of_mem _ he), hrest⟩ hfirst
      (fun e he => hbefore e (List.mem_cons_of_mem _ he)) (hbefore event List.mem_cons_self)

theorem Tracks.run_other {events : List ResendEvent} (h : Tracks email now s past)
    (hother : ∀ event ∈ events, event.call.email ≠ email) :
    Tracks email now (RunSystem.run resendStep s events) past :=
  run_invariant (I := fun s => Tracks email now s past) resendStep
    (fun _ _ htracks hne => htracks.other hne) h (guarded_of_forall_mem resendStep hother)

theorem oldest_mem {timestamps : List ℕ} (h : timestamps ≠ []) :
    oldest timestamps ∈ timestamps := by
  cases timestamps with
  | nil => exact absurd rfl h
  | cons t ts =>
    rw [oldest]
    clear h
    induction ts generalizing t with
    | nil => exact List.mem_cons_self
    | cons u us ih =>
      rw [List.foldl_cons]
      rcases List.mem_cons.mp (ih (min t u)) with hmin | hrest
      · rw [hmin]
        rcases Nat.le_total t u with hleft | hright
        · rw [Nat.min_eq_left hleft]
          exact List.mem_cons_self
        · rw [Nat.min_eq_right hright]
          exact List.mem_cons_of_mem _ List.mem_cons_self
      · exact List.mem_cons_of_mem _ (List.mem_cons_of_mem _ hrest)

/-- A refused call is told to come again when the window has left its oldest call behind: there is
room by then. -/
theorem retry_allowed (h : Tracks email env.now s past) (henv : Reliable env)
    (hrefused : (checkAndRecordResend env email s).1.allowed = false) :
    let result := (checkAndRecordResend env email s).1
    1 ≤ result.retryAfterSeconds ∧ ∀ future, env.now+result.retryAfterSeconds*1000 ≤ future →
      (recent otpResendWindowMs future past).length < otpResendLimit := by
  intro result
  have hfull : otpResendLimit ≤ (recent otpResendWindowMs env.now past).length := by
    refine Nat.le_of_not_lt fun hroom => ?_
    rw [(allowed_iff h henv).mpr hroom] at hrefused
    cases hrefused
  have hlimited := h.limited env.now (Nat.le_refl _)
  have hsome : recent otpResendWindowMs env.now past ≠ [] := by
    intro hnil
    rw [hnil] at hfull
    exact absurd hfull (by decide)
  have holdest := oldest_mem hsome
  have hretry : result.retryAfterSeconds =
      (oldest (recent otpResendWindowMs env.now past)+otpResendWindowMs-env.now+999)/1000 := by
    obtain ⟨cache, _, heq⟩ := checkAndRecordResend_eq h henv
    simp only [result, heq, if_pos hfull]
  have hcounted := (mem_recent.mp holdest).2
  refine ⟨by omega, fun future hfuture => ?_⟩
  -- of the calls that are counted now, the oldest is not counted any more
  rw [← recent_recent (show env.now ≤ future by omega)]
  exact (length_recent_lt holdest (by omega)).trans_le hlimited

/-- In any history of sequential calls over a cache that was empty, a call is allowed exactly when
fewer than the limit have been allowed within its window since the last clear, and says how many are
left; a refused one is told to wait for a second at least, after which it is allowed. -/
theorem resendWindow_exact {start : AuthState} (hstart : start.resendWindows = some TtlCache.empty)
    (events : List ResendEvent) (env : Env) (email : String)
    (hseq : Sequential (events ++ [⟨env, .checkAndRecordResend email⟩])) :
    let s := run resendStep start events
    let count := ((allowedSinceClear email start events).filter fun t =>
      env.now < t+otpResendWindowMs ∧ t ≤ env.now).length
    let result := (checkAndRecordResend env email s).1
    (result.allowed = true ↔ count < otpResendLimit) ∧
      (result.allowed = true → result.remaining = otpResendLimit-count-1) ∧
      (result.allowed = false → 1 ≤ result.retryAfterSeconds ∧
        ∀ (between : List ResendEvent) (again : Env),
          (∀ event ∈ between, event.call.email ≠ email) → Reliable again →
            env.now+result.retryAfterSeconds*1000 ≤ again.now →
              (checkAndRecordResend again email (run resendStep
                (checkAndRecordResend env email s).2 between)).1.allowed = true) := by
  intro s count result
  obtain ⟨hreliable, htimes⟩ := hseq
  obtain ⟨hpairs, _, hlast⟩ := List.pairwise_append.mp htimes
  have henv : Reliable env := hreliable _ (List.mem_append_right events List.mem_cons_self)
  have htracks : Tracks email env.now s (allowedSinceClear email start events) :=
    (tracks_empty hstart).run
      ⟨fun event he => hreliable event (List.mem_append_left _ he), hpairs⟩
      (fun _ _ => Nat.zero_le _) (fun event he => hlast event he _ List.mem_cons_self)
      (Nat.zero_le _)
  -- no allowed call is from the time to come
  have hcount : count =
      (recent otpResendWindowMs env.now (allowedSinceClear email start events)).length := by
    obtain ⟨_, _, hmirrors⟩ := htracks.mirrored
    refine congrArg List.length (List.filter_congr fun t ht => ?_)
    have hle := hmirrors.notAfter t ht
    simp [hle]
  have hallowed := allowed_iff htracks henv
  rw [hcount]
  refine ⟨hallowed, fun h => ?_, fun h => ?_⟩
  · obtain ⟨cache, _, heq⟩ := checkAndRecordResend_eq htracks henv
    have hroom := hallowed.mp h
    simp only [result, heq, if_neg (Nat.not_le.mpr hroom)]
    omega
  · obtain ⟨hone, hroom⟩ := retry_allowed htracks henv h
    refine ⟨hone, fun between again hother hagain hwait => ?_⟩
    have hrefused := htracks.check henv
    rw [recordAllowed_check, if_neg (by rw [h]; simp)] at hrefused
    have hle : env.now ≤ again.now := (Nat.le_add_right _ _).trans hwait
    exact (allowed_iff ((hrefused.run_other hother).later hle) hagain).mpr (hroom again.now hwait)

/-- A resend for one account, in a cache that does not fail. -/
def resendAt (now : ℕ) : ResendEvent :=
  ⟨{ smallEnv with now := now }, .checkAndRecordResend "b@hub"⟩

/-- The fourth call within five minutes is told to wait until the first is five minutes old. -/
theorem resendWindow_exact_fourth :
    let s := run resendStep emptyState [resendAt 1000, resendAt 1000, resendAt 2500]
    (checkAndRecordResend (resendAt 3000).env "b@hub" s).1 = ⟨false, 0, 298, false⟩ ∧
      (checkAndRecordResend (resendAt 301000).env "b@hub" (checkAndRecordResend
        (resendAt 3000).env "b@hub" s).2).1.allowed = true := by
  intro s
  have hanswer : (checkAndRecordResend (resendAt 3000).env "b@hub" s).1 = ⟨false, 0, 298, false⟩ :=
    by decide
  have hsmall (now : ℕ) : Reliable (resendAt now).env := ⟨rfl, rfl, rfl⟩
  have hseq : Sequential ([resendAt 1000, resendAt 1000, resendAt 2500] ++ [resendAt 3000]) :=
    ⟨by simp [hsmall], by decide⟩
  have hstart : emptyState.resendWindows = some TtlCache.empty := rfl
  obtain ⟨_, _, hrefused⟩ := resendWindow_exact hstart _ (resendAt 3000).env "b@hub" hseq
  obtain ⟨_, hagain⟩ := hrefused (by rw [hanswer])
  refine ⟨hanswer, hagain [] (resendAt 301000).env (by simp) (hsmall 301000) ?_⟩
  rw [hanswer]
  decide

end HubAssist.Auth
