import HubAssist.SubscriptionSteps
import HubAssist.ManageHubPrivilege
import Mathlib.Data.List.Pairwise

/-! How often a user pauses a subscription, and how far apart. -/
namespace HubAssist.ManageHub.Subscriptions
open SorobanHost CheckedArith RunSystem

variable {Address : Type} [DecidableEq Address] {C : Chain Address} {K : Crypto Address}
variable {env : Env C} {w w' : ManageWorld C K} {user : Address}

/-- The times of the pauses after an accepted call of the user, made at the time `now`. A
subscription that is created has had none. -/
def notePause (now : ℕ) : Call Address → List ℕ → List ℕ
  | .createSubscription _ _ _ _ _ _, _ => []
  | .pauseSubscription _ _, pauses => pauses ++ [now]
  | .setTierFeatures _ _ _, pauses | .setTier _ _, pauses | .cancelSubscription _, pauses
  | .resumeSubscription _, pauses | .renewSubscription _, pauses => pauses

/-- The times at which `user` has paused the present subscription. -/
def pauseTimes (user : Address) :
    ManageWorld C K → Action C (Call Address) → List ℕ → List ℕ :=
  recordCalls exec fun call w _ pauses =>
    if call.subscriber = some user then notePause w.now call pauses else pauses

/-- There are not more pauses than allowed, and any two of them are far enough apart. -/
def PolicyKept (v : ManageWorld C K × List ℕ) : Prop :=
  v.2.length ≤ maxPauses ∧
    v.2.Pairwise fun earlier later => earlier+minPauseInterval ≤ later

/-- `user` pauses a subscription that has no pause on record any more, too soon after its last
one. -/
def PausesEarly (user : Address) (w : ManageWorld C K) (pauses : List ℕ) :
    Action C (Call Address) → Prop
  | .invoke env (.pauseSubscription other _) => other = user ∧ user ∈ env.signers ∧
    (∃ sub, w.store.subscription user = some sub ∧ sub.status = .active ∧
      sub.pauseCount < maxPauses ∧ sub.pausedAt = 0) ∧
        ∃ last, pauses.getLast? = some last ∧ w.now < last+minPauseInterval
  | _ => False

/-- What a subscription has on record of its pauses. -/
structure Logged (user : Address) (w : ManageWorld C K) (pauses : List ℕ) : Prop where
  count : ∀ sub, w.store.subscription user = some sub → sub.pauseCount = pauses.length
  last : ∀ sub, w.store.subscription user = some sub → 0 < sub.pausedAt →
    pauses.getLast? = some sub.pausedAt
  limit : pauses.length ≤ maxPauses

/-- A call that leaves the pauses alone, and keeps or clears what is on record of the last. -/
theorem Logged.of_kept {pauses : List ℕ} {sub sub' : Subscription Address K.Digest}
    (h : Logged user w pauses) (hsub : w.store.subscription user = some sub)
    (hsub' : w'.store.subscription user = some sub') (hcount : sub'.pauseCount = sub.pauseCount)
    (hpaused : sub'.pausedAt = sub.pausedAt ∨ sub'.pausedAt = 0) : Logged user w' pauses := by
  refine ⟨fun other hother => ?_, fun other hother hpos => ?_, h.limit⟩
  · rw [← Option.some.inj (hsub'.symm.trans hother), hcount]
    exact h.count sub hsub
  · rw [← Option.some.inj (hsub'.symm.trans hother)] at hpos ⊢
    rcases hpaused with heq | hzero
    · rw [heq] at hpos ⊢
      exact h.last sub hsub hpos
    · omega

theorem Logged.call {pauses : List ℕ} {call : Call Address} {sub : Subscription Address K.Digest}
    (h : Logged user w pauses) (heffect : Effect env w user call sub)
    (hsub : w'.store.subscription user = some sub) :
    Logged user w' (notePause w.now call pauses) := by
  cases heffect with
  | creates =>
    refine ⟨fun other hother => ?_, fun other hother hpos => ?_, Nat.zero_le _⟩
    · rw [← Option.some.inj (hsub.symm.trans hother)]
      rfl
    · rw [← Option.some.inj (hsub.symm.trans hother)] at hpos
      exact absurd hpos (lt_irrefl 0)
  | cancels before hbefore => exact h.of_kept hbefore hsub rfl (Or.inl rfl)
  | pauses reason before hbefore hactive hcount hinterval =>
    have hlength := h.count before hbefore
    refine ⟨fun other hother => ?_, fun other hother _ => ?_, ?_⟩
    · rw [← Option.some.inj (hsub.symm.trans hother)]
      simp [notePause, hlength]
    · rw [← Option.some.inj (hsub.symm.trans hother)]
      simp [notePause]
    · simp only [notePause, List.length_append, List.length_singleton]
      omega
  | resumes before hresume => exact h.of_kept hresume.2.1 hsub rfl (Or.inr rfl)
  | renews before hrenew => exact h.of_kept hrenew.2.1 hsub rfl (Or.inl rfl)

theorem pauseTimes_invoke_ok {call : Call Address} {pauses : List ℕ}
    (h : exec env call w = .ok w') : pauseTimes user w (.invoke env call) pauses =
      if call.subscriber = some user then notePause w.now call pauses else pauses := by
  rw [pauseTimes, recordCalls_ok h]

theorem pauseTimes_invoke_error {call : Call Address} {pauses : List ℕ}
    {fault : Fault ModuleError} (h : exec env call w = .error fault) :
    pauseTimes user w (.invoke env call) pauses = pauses := by
  rw [pauseTimes, recordCalls_error h]

theorem Logged.step {pauses : List ℕ} (h : Logged user w pauses) (a : Action C (Call Address)) :
    Logged user (SorobanHost.step exec w a) (pauseTimes user w a pauses) := by
  refine recordCalls_keeps _ (Logged user) h (fun env call w' _ hok => ?_)
    (fun _ _ => ⟨h.count, h.last, h.limit⟩) fun _ _ _ _ => ⟨h.count, h.last, h.limit⟩
  obtain ⟨_, hown, hapart⟩ := exec_effect user hok
  split_ifs with hcall
  · obtain ⟨sub, hsub, heffect⟩ := hown hcall
    exact h.call heffect hsub
  · have hsame := hapart hcall
    exact ⟨fun sub hsub => h.count sub (hsame ▸ hsub), fun sub hsub => h.last sub (hsame ▸ hsub),
      h.limit⟩

/-- A list of times stays spaced by one more exactly when that is far enough from the last. -/
theorem spaced_concat {interval now : ℕ} {pauses : List ℕ}
    (h : pauses.Pairwise fun earlier later => earlier+interval ≤ later) :
    ((pauses ++ [now]).Pairwise fun earlier later => earlier+interval ≤ later) ↔
      ∀ last, pauses.getLast? = some last → last+interval ≤ now := by
  rw [List.pairwise_append]
  constructor
  · rintro ⟨_, _, hall⟩ last hlast
    exact hall last (List.mem_of_getLast? hlast) now (List.mem_singleton_self now)
  · intro hlast
    refine ⟨h, List.pairwise_singleton _ _, fun earlier hearlier later hlater => ?_⟩
    obtain rfl := List.mem_singleton.mp hlater
    induction pauses using List.reverseRecOn with
    | nil => exact absurd hearlier List.not_mem_nil
    | append_singleton pauses last _ =>
      have hle : last+interval ≤ later := hlast last (by simp)
      rcases List.mem_append.mp hearlier with hmem | hmem
      · -- an earlier pause is further away than the last one
        have hbefore : earlier+interval ≤ last :=
          (List.pairwise_append.mp h).2.2 earlier hmem last (List.mem_singleton_self last)
        omega
      · obtain rfl := List.mem_singleton.mp hmem
        exact hle

/-- An accepted pause is far enough from the last one, unless nothing of that one is on record. -/
theorem pause_spaced_iff {pauses : List ℕ} {reason : String} (h : Logged user w pauses)
    (hspaced : pauses.Pairwise fun earlier later => earlier+minPauseInterval ≤ later)
    (hok : exec env (.pauseSubscription user reason) w = .ok w') :
    ((pauses ++ [w.now]).Pairwise fun earlier later => earlier+minPauseInterval ≤ later) ↔
      ¬PausesEarly user w pauses (.invoke env (.pauseSubscription user reason)) := by
  obtain ⟨hs, sub, hsub, hactive, hcount, hinterval, _⟩ := pauseSubscription_eq_ok.mp hok
  rw [spaced_concat hspaced]
  constructor
  · rintro hlast ⟨_, _, _, last, hgetLast, hearly⟩
    have hle := hlast last hgetLast
    omega
  · intro hnot last hgetLast
    by_cases hzero : sub.pausedAt = 0
    · have hunrecorded : ∃ sub, w.store.subscription user = some sub ∧ sub.status = .active ∧
          sub.pauseCount < maxPauses ∧ sub.pausedAt = 0 := ⟨sub, hsub, hactive, hcount, hzero⟩
      exact not_lt.mp fun hearly => hnot ⟨rfl, hs, hunrecorded, last, hgetLast, hearly⟩
    · -- the last pause is on record, and the call has compared the time with it
      have hpos : 0 < sub.pausedAt := Nat.pos_of_ne_zero hzero
      rw [Option.some.inj (hgetLast.symm.trans (h.last sub hsub hpos))]
      exact (hinterval hpos).2

/-- A pause that comes too early is accepted all the same. -/
theorem PausesEarly.accepted {pauses : List ℕ} {call : Call Address}
    (h : PausesEarly user w pauses (.invoke env call)) :
    call.subscriber = some user ∧ ∃ w', exec env call w = .ok w' := by
  unfold PausesEarly at h
  split at h
  · next env' other reason heq =>
    obtain ⟨rfl, rfl⟩ := Action.invoke.inj heq
    obtain ⟨rfl, hs, ⟨sub, hsub, hactive, hcount, hzero⟩, _⟩ := h
    have hinterval : IntervalKept w.now sub.pausedAt := fun hpos => absurd hzero hpos.ne'
    exact ⟨rfl, _, pauseSubscription_eq_ok.mpr
      ⟨hs, sub, hsub, hactive, hcount, hinterval, rfl⟩⟩
  · exact h.elim

/-- The policy is kept by a step exactly when it is no early pause. -/
theorem policyKept_step_iff {pauses : List ℕ} (h : Logged user w pauses)
    (hkept : PolicyKept (w, pauses)) (a : Action C (Call Address)) :
    PolicyKept (withHistory (SorobanHost.step exec) (pauseTimes user) (w, pauses) a) ↔
      ¬PausesEarly user w pauses a := by
  have hlogged := h.step a
  rw [PolicyKept, withHistory, and_iff_right hlogged.limit]
  cases a with
  | tick seconds => exact iff_of_true hkept.2 id
  | external token next => exact iff_of_true hkept.2 id
  | invoke env call =>
    cases hok : exec env call w with
    | error fault =>
      simp only [pauseTimes_invoke_error hok]
      refine iff_of_true hkept.2 fun hearly => ?_
      obtain ⟨_, w', hok'⟩ := hearly.accepted
      rw [hok] at hok'
      exact absurd hok' (by simp)
    | ok w' =>
      simp only [pauseTimes_invoke_ok hok]
      split_ifs with hcall
      · obtain ⟨_, hown, _⟩ := exec_effect user hok
        obtain ⟨sub, hsub, heffect⟩ := hown hcall
        cases heffect with
        | creates => exact iff_of_true List.Pairwise.nil id
        | cancels => exact iff_of_true hkept.2 id
        | pauses reason => exact pause_spaced_iff h hkept.2 hok
        | resumes => exact iff_of_true hkept.2 id
        | renews => exact iff_of_true hkept.2 id
      · exact iff_of_true hkept.2 fun hearly => hcall hearly.accepted.1

theorem logged_deployed (wasm : BytesN32) (tokens : Address → C.token.State) (now : ℕ)
    (user : Address) : Logged user (deployed wasm tokens now : ManageWorld C K) [] := by
  have hnone (sub : Subscription Address K.Digest) :
      (deployed wasm tokens now : ManageWorld C K).store.subscription user ≠ some sub := by
    simp [deployed, Storage.empty]
  exact ⟨fun sub hsub => absurd hsub (hnone sub), fun sub hsub => absurd hsub (hnone sub),
    Nat.zero_le _⟩

/-- In no run does a user pause a subscription more often than allowed. -/
theorem pause_count_run (wasm : BytesN32) (tokens : Address → C.token.State) (now : ℕ)
    (user : Address) (as : List (Action C (Call Address))) :
    Always (withHistory (SorobanHost.step exec) (pauseTimes user))
      (fun v => v.2.length ≤ maxPauses) ((deployed wasm tokens now : ManageWorld C K), []) as :=
  always_of_invariant (J := fun v : ManageWorld C K × List ℕ => Logged user v.1 v.2) _
    (fun _ a h => h.step a) (fun _ h => h.limit) (logged_deployed wasm tokens now user) as

/-- In every run of the deployed contract, a user pauses a subscription at most three times and at
least seven days apart exactly when no pause that finds none on record comes too early. -/
theorem pause_policy_iff (wasm : BytesN32) (tokens : Address → C.token.State) (now : ℕ)
    (user : Address) (as : List (Action C (Call Address))) :
    Always (withHistory (SorobanHost.step exec) (pauseTimes user)) PolicyKept
        ((deployed wasm tokens now : ManageWorld C K), []) as ↔
      Guarded (withHistory (SorobanHost.step exec) (pauseTimes user))
        (fun v a => ¬PausesEarly user v.1 v.2 a)
        ((deployed wasm tokens now : ManageWorld C K), []) as :=
  always_iff_guarded (J := fun v : ManageWorld C K × List ℕ => Logged user v.1 v.2) _
    (fun _ a h => h.step a) (fun _ a h hkept => policyKept_step_iff h hkept a)
    (logged_deployed wasm tokens now user)
    ⟨Nat.zero_le _, List.Pairwise.nil⟩

/-- Account 1 pauses, resumes after a second and pauses again at once. -/
theorem pause_policy_not_kept :
    ¬Always (withHistory (SorobanHost.step exec) (pauseTimes 1)) PolicyKept
      ((deployed 0 (fun _ _ => (60 : ℕ)) 2000 : ManageWorld numberedChain plainCrypto), [])
      [.invoke (signedBy 4) (.setTier 6 ⟨6, "desk", .basic, 20, 30, [], true, 6⟩),
        .invoke (signedBy 0) (.createSubscription 1 8 20 6 500 1),
        .invoke (signedBy 0) (.pauseSubscription 1 "illness"), .tick 1,
        .invoke (signedBy 0) (.resumeSubscription 1),
        .invoke (signedBy 0) (.pauseSubscription 1 "travel")] := by
  intro h
  have hkept : PolicyKept (_, [2000, 2001]) :=
    (always_iff_prefixes _ _ _ _).mp h _ [] (List.append_nil _).symm
  have hspaced : 2000+minPauseInterval ≤ 2001 := by simpa using hkept.2
  exact absurd hspaced (by decide)

end HubAssist.ManageHub.Subscriptions
