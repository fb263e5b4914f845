import HubAssist.ManageHubTiers

/-! What an accepted call of the subscription module requires and does. -/
namespace HubAssist.ManageHub.Subscriptions
open SorobanHost CheckedArith

variable {Address : Type} [DecidableEq Address] {C : Chain Address} {K : Crypto Address}
variable {env : Env C} {w w' : ManageWorld C K} {user : Address}

/-- The subscription that a call is about. -/
def Call.subscriber : Call Address → Option Address
  | .setTierFeatures _ _ _ | .setTier _ _ => none
  | .createSubscription user _ _ _ _ _ | .cancelSubscription user | .pauseSubscription user _
  | .resumeSubscription user | .renewSubscription user => some user

/-- A subscription as it is created. -/
def created (K : Crypto Address) (user paymentToken : Address) (amount : ℤ) (tierId : BytesN32)
    (billingCycle sequence now : ℕ) : Subscription Address K.Digest where
  id := K.sha256 (toLeBytes 4 sequence)
  user := user
  paymentToken := paymentToken
  amount := amount
  status := .active
  createdAt := now
  expiresAt := now+billingCycle
  tierId := tierId
  billingCycle := billingCycle
  pauseCount := 0
  pausedAt := 0
  pauseReason := ""

omit [DecidableEq Address] in
theorem load_eq_ok {Digest : Type} {s : Storage Address Digest} {sub : Subscription Address Digest} :
    load s user = .ok sub ↔ s.subscription user = some sub := getOr_eq_ok

@[simp] theorem save_subscription (w : ManageWorld C K) (user : Address)
    (sub : Subscription Address K.Digest) : (save w user sub).store.subscription =
      Function.update w.store.subscription user (some sub) := rfl

@[simp] theorem save_now (w : ManageWorld C K) (user : Address)
    (sub : Subscription Address K.Digest) : (save w user sub).now = w.now := rfl

/-- A subscription of the tier that `user` has signed and can pay for. -/
def Creatable (env : Env C) (w : ManageWorld C K) (user paymentToken : Address) (amount : ℤ)
    (tierId : BytesN32) (billingCycle : ℕ) (tier : SubscriptionTier) : Prop :=
  user ∈ env.signers ∧ w.store.tier tierId = some (.subscription tier) ∧ tier.price ≤ amount ∧
    (∃ t, C.token.transfer (w.tokens paymentToken) user C.self amount = some t) ∧
      w.now+billingCycle < u64Bound

theorem createSubscription_eq_ok {paymentToken : Address} {amount : ℤ} {tierId : BytesN32}
    {billingCycle sequence : ℕ} :
    exec env (.createSubscription user paymentToken amount tierId billingCycle sequence) w =
      .ok w' ↔ ∃ tier, Creatable env w user paymentToken amount tierId billingCycle tier ∧ ∃ t,
        C.token.transfer (w.tokens paymentToken) user C.self amount = some t ∧
          save (w.paid ⟨paymentToken, user, C.self, amount⟩ t) user
            (created K user paymentToken amount tierId billingCycle sequence w.now) = w' := by
  simp only [exec, createSubscription, map_eq_ok, bind_eq_ok, requireAuth_eq_ok, readTier_eq_ok,
    failIf_eq_ok, World.transfer_eq_ok, checked_eq_ok, u64Add_eq_some, pure_eq_ok, exists_const,
    exists_exists_and_eq_and, Int.not_lt, World.paid_now]
  constructor
  · rintro ⟨_, ⟨hs, tier, htier, hprice, t, ht, _, ⟨hfits, rfl⟩, rfl⟩, rfl⟩
    exact ⟨tier, ⟨hs, htier, hprice, ⟨t, ht⟩, hfits⟩, t, ht, rfl⟩
  · rintro ⟨tier, ⟨hs, htier, hprice, _, hfits⟩, t, ht, rfl⟩
    exact ⟨_, ⟨hs, tier, htier, hprice, t, ht, _, ⟨hfits, rfl⟩, rfl⟩, rfl⟩

theorem cancelSubscription_eq_ok : exec env (.cancelSubscription user) w = .ok w' ↔
    user ∈ env.signers ∧ ∃ sub, w.store.subscription user = some sub ∧
      (sub.status = .active ∨ sub.status = .paused) ∧
        save w user { sub with status := .cancelled } = w' := by
  simp only [exec, cancelSubscription, bind_eq_ok, requireAuth_eq_ok, load_eq_ok, failIf_eq_ok,
    pure_eq_ok, exists_const, not_not]

/-- The interval between pauses, where the last one is still on record. -/
def IntervalKept (now pausedAt : ℕ) : Prop :=
  0 < pausedAt → pausedAt+minPauseInterval < u64Bound ∧ pausedAt+minPauseInterval ≤ now

theorem requireInterval_eq_ok {now pausedAt : ℕ} {u : Unit} :
    requireInterval now pausedAt = .ok u ↔ IntervalKept now pausedAt := by
  unfold requireInterval IntervalKept
  split_ifs with hpos
  · simp only [bind_eq_ok, checked_eq_ok, u64Add_eq_some, failIf_eq_ok, not_lt, hpos,
      forall_true_left]
    constructor
    · rintro ⟨_, ⟨hfits, rfl⟩, hle⟩
      exact ⟨hfits, hle⟩
    · rintro ⟨hfits, hle⟩
      exact ⟨_, ⟨hfits, rfl⟩, hle⟩
  · exact iff_of_true rfl fun h => absurd h hpos

theorem pauseSubscription_eq_ok {reason : String} :
    exec env (.pauseSubscription user reason) w = .ok w' ↔ user ∈ env.signers ∧ ∃ sub,
      w.store.subscription user = some sub ∧ sub.status = .active ∧ sub.pauseCount < maxPauses ∧
        IntervalKept w.now sub.pausedAt ∧
          save w user { sub with
            status := .paused
            pausedAt := w.now
            pauseReason := reason
            pauseCount := sub.pauseCount+1 } = w' := by
  simp only [exec, pauseSubscription, bind_eq_ok, requireAuth_eq_ok, load_eq_ok, failIf_eq_ok,
    requireInterval_eq_ok, checked_eq_ok, pure_eq_ok, exists_const, not_not, not_le]
  refine and_congr_right fun _ => exists_congr fun sub => and_congr_right fun _ =>
    and_congr_right fun _ => and_congr_right fun hcount => and_congr_right fun _ => ?_
  -- a count below the limit is far from the end of its type
  have hadd : u32Add sub.pauseCount 1 = some (sub.pauseCount+1) := by
    have hlimit : maxPauses < u32Bound := by decide
    rw [u32Add, if_pos (by omega)]
  simp only [hadd, Option.some.injEq, exists_eq_left']

/-- A paused subscription that `user` has signed to resume. -/
def Resumable (env : Env C) (w : ManageWorld C K) (user : Address)
    (sub : Subscription Address K.Digest) : Prop :=
  user ∈ env.signers ∧ w.store.subscription user = some sub ∧ sub.status = .paused ∧
    sub.pausedAt ≤ w.now ∧ sub.expiresAt+(w.now-sub.pausedAt) < u64Bound

theorem resumeSubscription_eq_ok : exec env (.resumeSubscription user) w = .ok w' ↔ ∃ sub,
    Resumable env w user sub ∧ save w user { sub with
      expiresAt := sub.expiresAt+(w.now-sub.pausedAt)
      status := .active
      pausedAt := 0
      pauseReason := "" } = w' := by
  simp only [exec, resumeSubscription, bind_eq_ok, requireAuth_eq_ok, load_eq_ok, failIf_eq_ok,
    checked_eq_ok, u64Sub_eq_some, u64Add_eq_some, pure_eq_ok, exists_const, not_not]
  constructor
  · rintro ⟨hs, sub, hsub, hpaused, _, ⟨hle, rfl⟩, _, ⟨hfits, rfl⟩, rfl⟩
    exact ⟨sub, ⟨hs, hsub, hpaused, hle, hfits⟩, rfl⟩
  · rintro ⟨sub, ⟨hs, hsub, hpaused, hle, hfits⟩, rfl⟩
    exact ⟨hs, sub, hsub, hpaused, _, ⟨hle, rfl⟩, _, ⟨hfits, rfl⟩, rfl⟩

/-- A renewal of `sub` that `user` has signed and can pay for. -/
def Renewable (env : Env C) (w : ManageWorld C K) (user : Address)
    (sub : Subscription Address K.Digest) : Prop :=
  user ∈ env.signers ∧ w.store.subscription user = some sub ∧ sub.status ≠ .cancelled ∧
    (∃ t, C.token.transfer (w.tokens sub.paymentToken) user C.self sub.amount = some t) ∧
      sub.expiresAt+sub.billingCycle < u64Bound

theorem renewSubscription_eq_ok : exec env (.renewSubscription user) w = .ok w' ↔ ∃ sub,
    Renewable env w user sub ∧ ∃ t,
      C.token.transfer (w.tokens sub.paymentToken) user C.self sub.amount = some t ∧
        save (w.paid ⟨sub.paymentToken, user, C.self, sub.amount⟩ t) user { sub with
          expiresAt := sub.expiresAt+sub.billingCycle
          status := .active } = w' := by
  simp only [exec, renewSubscription, bind_eq_ok, requireAuth_eq_ok, load_eq_ok, failIf_eq_ok,
    World.transfer_eq_ok, checked_eq_ok, u64Add_eq_some, pure_eq_ok, exists_const,
    exists_exists_and_eq_and]
  constructor
  · rintro ⟨hs, sub, hsub, hstatus, t, ht, _, ⟨hfits, rfl⟩, rfl⟩
    exact ⟨sub, ⟨hs, hsub, hstatus, ⟨t, ht⟩, hfits⟩, t, ht, rfl⟩
  · rintro ⟨sub, ⟨hs, hsub, hstatus, _, hfits⟩, t, ht, rfl⟩
    exact ⟨hs, sub, hsub, hstatus, t, ht, _, ⟨hfits, rfl⟩, rfl⟩

/-- What an accepted call of `user` makes of the subscription. -/
inductive Effect (env : Env C) (w : ManageWorld C K) (user : Address) :
    Call Address → Subscription Address K.Digest → Prop where
  | creates (paymentToken : Address) (amount : ℤ) (tierId : BytesN32) (billingCycle sequence : ℕ)
      (tier : SubscriptionTier)
      (hcreate : Creatable env w user paymentToken amount tierId billingCycle tier) :
      Effect env w user
        (.createSubscription user paymentToken amount tierId billingCycle sequence)
        (created K user paymentToken amount tierId billingCycle sequence w.now)
  | cancels (sub : Subscription Address K.Digest) (hsub : w.store.subscription user = some sub) :
      Effect env w user (.cancelSubscription user) { sub with status := .cancelled }
  | pauses (reason : String) (sub : Subscription Address K.Digest)
      (hsub : w.store.subscription user = some sub) (hactive : sub.status = .active)
      (hcount : sub.pauseCount < maxPauses) (hinterval : IntervalKept w.now sub.pausedAt) :
      Effect env w user (.pauseSubscription user reason) { sub with
        status := .paused
        pausedAt := w.now
        pauseReason := reason
        pauseCount := sub.pauseCount+1 }
  | resumes (sub : Subscription Address K.Digest) (hresume : Resumable env w user sub) :
      Effect env w user (.resumeSubscription user) { sub with
        expiresAt := sub.expiresAt+(w.now-sub.pausedAt)
        status := .active
        pausedAt := 0
        pauseReason := "" }
  -- what is on record of a pause stays there
  | renews (sub : Subscription Address K.Digest) (hrenew : Renewable env w user sub) :
      Effect env w user (.renewSubscription user) { sub with
        expiresAt := sub.expiresAt+sub.billingCycle
        status := .active }

theorem Effect.subscriber {call : Call Address} {sub : Subscription Address K.Digest}
    (h : Effect env w user call sub) : call.subscriber = some user := by
  cases h <;> rfl

/-- A call takes no time, has its effect where it is about the subscription of `user`, and leaves
that alone where it is not. -/
structure Affects (env : Env C) (w : ManageWorld C K) (call : Call Address)
    (w' : ManageWorld C K) (user : Address) : Prop where
  now : w'.now = w.now
  own : call.subscriber = some user → ∃ sub, w'.store.subscription user = some sub ∧
    Effect env w user call sub
  apart : call.subscriber ≠ some user → w'.store.subscription user = w.store.subscription user

/-- The subscription that an effect saves is that of one user. The world may have changed by a
payment before it is saved. -/
theorem Effect.saved {call : Call Address} {other : Address} {sub : Subscription Address K.Digest}
    (h : Effect env w other call sub) (v : ManageWorld C K) (hnow : v.now = w.now)
    (hsub : v.store.subscription = w.store.subscription) :
    Affects env w call (save v other sub) user := by
  refine ⟨hnow, fun heq => ?_, fun hne => ?_⟩
  · obtain rfl := Option.some.inj (h.subscriber.symm.trans heq)
    exact ⟨sub, Function.update_self .., h⟩
  · have hother : user ≠ other := by
      rintro rfl
      exact hne h.subscriber
    rw [save_subscription, Function.update_of_ne hother, hsub]

variable (user) in
theorem exec_effect {call : Call Address} (h : exec env call w = .ok w') :
    Affects env w call w' user := by
  cases call with
  | setTierFeatures admin tier features =>
    simp only [exec, setTierFeatures, bind_eq_ok, pure_eq_ok] at h
    obtain ⟨_, _, rfl⟩ := h
    exact ⟨rfl, nofun, fun _ => rfl⟩
  | setTier tierId tier =>
    obtain rfl := pure_eq_ok.mp h
    exact ⟨rfl, nofun, fun _ => rfl⟩
  | createSubscription other paymentToken amount tierId billingCycle sequence =>
    obtain ⟨tier, hcreate, t, _, rfl⟩ := createSubscription_eq_ok.mp h
    exact Effect.saved (.creates _ _ _ _ _ tier hcreate) (w.paid _ t) rfl rfl
  | cancelSubscription other =>
    obtain ⟨_, sub, hsub, _, rfl⟩ := cancelSubscription_eq_ok.mp h
    exact Effect.saved (.cancels sub hsub) w rfl rfl
  | pauseSubscription other reason =>
    obtain ⟨_, sub, hsub, hactive, hcount, hinterval, rfl⟩ := pauseSubscription_eq_ok.mp h
    exact Effect.saved (.pauses reason sub hsub hactive hcount hinterval) w rfl rfl
  | resumeSubscription other =>
    obtain ⟨sub, hresume, rfl⟩ := resumeSubscription_eq_ok.mp h
    exact Effect.saved (.resumes sub hresume) w rfl rfl
  | renewSubscription other =>
    obtain ⟨sub, hrenew, t, _, rfl⟩ := renewSubscription_eq_ok.mp h
    exact Effect.saved (.renews sub hrenew) (w.paid _ t) rfl rfl

end HubAssist.ManageHub.Subscriptions
