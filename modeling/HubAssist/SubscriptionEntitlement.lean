import HubAssist.SubscriptionSteps
import HubAssist.ManageHubPrivilege

/-! Who may use a feature: what the feature service grants, against the period that a subscription
has been paid for. -/
namespace HubAssist.ManageHub.Subscriptions
open SorobanHost CheckedArith RunSystem

variable {Address : Type} [DecidableEq Address] {C : Chain Address} {K : Crypto Address}
variable {env : Env C} {w w' : ManageWorld C K} {user : Address}

def levelFeatures {Digest : Type} (s : Storage Address Digest) (level : TierLevel) :
    List FeatureFlag :=
  (s.tierFeatures level).getD []

/-- The features of the level of the tier `id`. -/
def tierFeatures {Digest : Type} (s : Storage Address Digest) (id : BytesN32) : List FeatureFlag :=
  match (s.tier id).bind TierRecord.subscription? with
  | some tier => levelFeatures s tier.level
  | none => []

/-- The service says that the user has access. -/
def Grants {Digest : Type} (s : Storage Address Digest) (user : Address) (feature : FeatureFlag) :
    Prop :=
  ∃ result, hasFeature s user feature = .ok result ∧ result.hasAccess = true

/-- The user has an active subscription that has not ended, of a tier with the feature. -/
def Entitled (w : ManageWorld C K) (user : Address) (feature : FeatureFlag) : Prop :=
  ∃ sub, w.store.subscription user = some sub ∧ sub.status = .active ∧ w.now < sub.expiresAt ∧
    feature ∈ tierFeatures w.store sub.tierId

/-- The service grants nothing but what has been paid for. -/
def GrantsPaid (w : ManageWorld C K) : Prop :=
  ∀ user feature, Grants w.store user feature → Entitled w user feature

/-- The user whose payment the call takes. -/
def Call.payer : Call Address → Option Address
  | .createSubscription user _ _ _ _ _ | .renewSubscription user => some user
  | .setTierFeatures _ _ _ | .setTier _ _ | .cancelSubscription _ | .pauseSubscription _ _
  | .resumeSubscription _ => none

/-- A payment for a cycle of some length gives the user exactly the features of the tier. -/
def ServesPayment (w : ManageWorld C K) : Action C (Call Address) → Prop
  | .invoke env call => ∀ w' user sub, exec env call w = .ok w' → call.payer = some user →
    w'.store.subscription user = some sub → 0 < sub.billingCycle → ∀ feature,
      Grants w'.store user feature ∧ Entitled w' user feature ↔
        feature ∈ tierFeatures w'.store sub.tierId
  | .tick _ | .external _ _ => True

/-- An active subscription has ended, and its tier has features. -/
def Lapsed {Digest : Type} (s : Storage Address Digest) (now : ℕ) (user : Address) : Prop :=
  ∃ sub, s.subscription user = some sub ∧ sub.status = .active ∧ sub.expiresAt ≤ now ∧
    tierFeatures s sub.tierId ≠ []

/-- The steps after which a subscription has ended and is active, of a tier with features: time that
passes its end, a cycle of no length, a renewal or an end of a pause that leaves it in the past, and
features that come to the tier of a subscription that has ended. -/
def Overruns (w : ManageWorld C K) : Action C (Call Address) → Prop
  | .tick seconds => ∃ user, Lapsed w.store (w.now+seconds) user
  | .external _ _ => False
  | .invoke env (.createSubscription user paymentToken amount tierId billingCycle _) =>
    billingCycle = 0 ∧ (∃ tier, Creatable env w user paymentToken amount tierId billingCycle tier) ∧
      tierFeatures w.store tierId ≠ []
  | .invoke env (.renewSubscription user) => ∃ sub, Renewable env w user sub ∧
    sub.expiresAt+sub.billingCycle ≤ w.now ∧ tierFeatures w.store sub.tierId ≠ []
  | .invoke env (.resumeSubscription user) => ∃ sub, Resumable env w user sub ∧
    sub.expiresAt ≤ sub.pausedAt ∧ tierFeatures w.store sub.tierId ≠ []
  -- anybody can register a tier and, as the admin it signs for, set the features of a level
  | .invoke _ (.setTier tierId tier) => levelFeatures w.store tier.level ≠ [] ∧ ∃ user sub,
    w.store.subscription user = some sub ∧ sub.status = .active ∧ sub.expiresAt ≤ w.now ∧
      sub.tierId = tierId
  | .invoke env (.setTierFeatures admin level features) => admin ∈ env.signers ∧ features ≠ [] ∧
    ∃ user sub tier, w.store.subscription user = some sub ∧ sub.status = .active ∧
      sub.expiresAt ≤ w.now ∧ w.store.tier sub.tierId = some (.subscription tier) ∧
        tier.level = level
  | .invoke _ (.cancelSubscription _) | .invoke _ (.pauseSubscription _ _) => False

/-- The tier of every subscription is there. -/
def TierKnown {Digest : Type} (s : Storage Address Digest) : Prop :=
  ∀ user sub, s.subscription user = some sub →
    ∃ tier, s.tier sub.tierId = some (.subscription tier)

omit [DecidableEq Address] in
theorem tierFeatures_of_tier {Digest : Type} {s : Storage Address Digest} {id : BytesN32}
    {tier : SubscriptionTier} (h : s.tier id = some (.subscription tier)) :
    tierFeatures s id = levelFeatures s tier.level := by
  simp [tierFeatures, h, TierRecord.subscription?]

omit [DecidableEq Address] in
/-- The service looks at the status and at the features of the tier, and at nothing else. -/
theorem grants_iff {Digest : Type} {s : Storage Address Digest} {user : Address}
    {feature : FeatureFlag} (hs : TierKnown s) : Grants s user feature ↔
      ∃ sub, s.subscription user = some sub ∧ sub.status = .active ∧
        feature ∈ tierFeatures s sub.tierId := by
  unfold Grants hasFeature
  cases hsub : s.subscription user with
  | none => simp [pure_eq_ok]
  | some sub =>
    obtain ⟨tier, htier⟩ := hs user sub hsub
    have hread : readTier s sub.tierId "tier not found" = .ok tier := readTier_eq_ok.mpr htier
    by_cases hactive : sub.status = .active
    · have hfeatures := tierFeatures_of_tier htier
      by_cases hfeature : feature ∈ (s.tierFeatures tier.level).getD []
      · simp [hactive, hread, hfeatures, levelFeatures, hfeature]
      · simp [hactive, hread, hfeatures, levelFeatures, hfeature]
    · simp [hactive, pure_eq_ok]

/-- Nothing has ended that still gives access. -/
def NoneLapsed (w : ManageWorld C K) : Prop := ∀ user, ¬Lapsed w.store w.now user

omit [DecidableEq Address] in
theorem Lapsed.exists_feature {Digest : Type} {s : Storage Address Digest} {now : ℕ}
    {user : Address} (h : Lapsed s now user) : ∃ sub feature, s.subscription user = some sub ∧
      sub.status = .active ∧ sub.expiresAt ≤ now ∧ feature ∈ tierFeatures s sub.tierId := by
  obtain ⟨sub, hsub, hactive, hended, hfeatures⟩ := h
  obtain ⟨feature, hfeature⟩ := List.exists_mem_of_ne_nil _ hfeatures
  exact ⟨sub, feature, hsub, hactive, hended, hfeature⟩

theorem grantsPaid_iff (hw : TierKnown w.store) : GrantsPaid w ↔ NoneLapsed w := by
  constructor
  · intro h user hlapsed
    obtain ⟨sub, feature, hsub, hactive, hended, hfeature⟩ := hlapsed.exists_feature
    have hgrants := (grants_iff hw).mpr ⟨sub, hsub, hactive, hfeature⟩
    obtain ⟨other, hother, _, hnow, _⟩ := h user feature hgrants
    rw [Option.some.inj (hother.symm.trans hsub)] at hnow
    exact absurd hnow (not_lt.mpr hended)
  · intro h user feature hgrants
    obtain ⟨sub, hsub, hactive, hfeature⟩ := (grants_iff hw).mp hgrants
    have hnow : ¬sub.expiresAt ≤ w.now := fun hended =>
      h user ⟨sub, hsub, hactive, hended, List.ne_nil_of_mem hfeature⟩
    exact ⟨sub, hsub, hactive, not_le.mp hnow, hfeature⟩

/-- A subscription that is saved lapses by what it is itself. -/
theorem noneLapsed_save_iff (v : ManageWorld C K) (user : Address)
    (sub : Subscription Address K.Digest) (h : NoneLapsed w) (hstore : v.store = w.store)
    (hnow : v.now = w.now) : NoneLapsed (save v user sub) ↔
      ¬(sub.status = .active ∧ sub.expiresAt ≤ w.now ∧ tierFeatures w.store sub.tierId ≠ []) := by
  have hfeatures (id : BytesN32) :
      tierFeatures (save v user sub).store id = tierFeatures w.store id := by
    rw [← hstore]
    rfl
  constructor
  · rintro hsaved ⟨hactive, hended, hne⟩
    refine hsaved user ⟨sub, Function.update_self .., hactive, ?_, ?_⟩
    · rwa [save_now, hnow]
    · rwa [hfeatures]
  · rintro hsub other ⟨sub', hsub', hactive, hended, hne⟩
    rw [save_now, hnow] at hended
    rw [hfeatures] at hne
    rw [save_subscription, hstore] at hsub'
    by_cases heq : other = user
    · subst heq
      rw [Function.update_self] at hsub'
      obtain rfl := Option.some.inj hsub'
      exact hsub ⟨hactive, hended, hne⟩
    · rw [Function.update_of_ne heq] at hsub'
      exact h other ⟨sub', hsub', hactive, hended, hne⟩

theorem createSubscription_overruns {paymentToken : Address} {amount : ℤ} {tierId : BytesN32}
    {billingCycle sequence : ℕ} (h : NoneLapsed w) :
    (∀ w', exec env (.createSubscription user paymentToken amount tierId billingCycle sequence) w =
      .ok w' → NoneLapsed w') ↔ ¬Overruns w (.invoke env
        (.createSubscription user paymentToken amount tierId billingCycle sequence)) := by
  constructor
  · rintro hall ⟨rfl, ⟨tier, hcreate⟩, hne⟩
    obtain ⟨t, ht⟩ := hcreate.2.2.2.1
    have hok : exec env
        (.createSubscription user paymentToken amount tierId 0 sequence) w = .ok _ :=
      createSubscription_eq_ok.mpr ⟨tier, hcreate, t, ht, rfl⟩
    exact (noneLapsed_save_iff (w.paid _ t) user _ h rfl rfl).mp (hall _ hok)
      ⟨rfl, le_refl _, hne⟩
  · intro hnot w' hok
    obtain ⟨tier, hcreate, t, _, rfl⟩ := createSubscription_eq_ok.mp hok
    rw [noneLapsed_save_iff (w.paid _ t) user _ h rfl rfl]
    rintro ⟨_, hended, hne⟩
    have hcycle : w.now+billingCycle ≤ w.now := hended
    exact hnot ⟨by omega, ⟨tier, hcreate⟩, hne⟩

theorem renewSubscription_overruns (h : NoneLapsed w) :
    (∀ w', exec env (.renewSubscription user) w = .ok w' → NoneLapsed w') ↔
      ¬Overruns w (.invoke env (.renewSubscription user)) := by
  constructor
  · rintro hall ⟨sub, hrenew, hended, hne⟩
    obtain ⟨t, ht⟩ := hrenew.2.2.2.1
    have hok := renewSubscription_eq_ok.mpr ⟨sub, hrenew, t, ht, rfl⟩
    exact (noneLapsed_save_iff (w.paid _ t) user _ h rfl rfl).mp (hall _ hok) ⟨rfl, hended, hne⟩
  · intro hnot w' hok
    obtain ⟨sub, hrenew, t, _, rfl⟩ := renewSubscription_eq_ok.mp hok
    rw [noneLapsed_save_iff (w.paid _ t) user _ h rfl rfl]
    rintro ⟨_, hended, hne⟩
    exact hnot ⟨sub, hrenew, hended, hne⟩

theorem resumeSubscription_overruns (h : NoneLapsed w) :
    (∀ w', exec env (.resumeSubscription user) w = .ok w' → NoneLapsed w') ↔
      ¬Overruns w (.invoke env (.resumeSubscription user)) := by
  constructor
  · rintro hall ⟨sub, hresume, hended, hne⟩
    have hle := hresume.2.2.2.1
    have hafter : sub.expiresAt+(w.now-sub.pausedAt) ≤ w.now := by omega
    have hok := resumeSubscription_eq_ok.mpr ⟨sub, hresume, rfl⟩
    exact (noneLapsed_save_iff w user _ h rfl rfl).mp (hall _ hok) ⟨rfl, hafter, hne⟩
  · intro hnot w' hok
    obtain ⟨sub, hresume, rfl⟩ := resumeSubscription_eq_ok.mp hok
    rw [noneLapsed_save_iff w user _ h rfl rfl]
    rintro ⟨_, hended, hne⟩
    have hle := hresume.2.2.2.1
    have hafter : sub.expiresAt+(w.now-sub.pausedAt) ≤ w.now := hended
    exact hnot ⟨sub, hresume, by omega, hne⟩

/-- A tier that is registered again counts with the features of its new level. -/
theorem setTier_overruns {tierId : BytesN32} {tier : SubscriptionTier} (h : NoneLapsed w) :
    (∀ w', exec env (.setTier tierId tier) w = .ok w' → NoneLapsed w') ↔
      ¬Overruns w (.invoke env (.setTier tierId tier)) := by
  have hself : tierFeatures (setTierRecord w.store tierId tier) tierId =
      levelFeatures w.store tier.level :=
    tierFeatures_of_tier (s := setTierRecord w.store tierId tier) (Function.update_self ..)
  have hother {id : BytesN32} (hne : id ≠ tierId) :
      tierFeatures (setTierRecord w.store tierId tier) id = tierFeatures w.store id := by
    simp only [tierFeatures, setTierRecord, Function.update_of_ne hne, levelFeatures]
  constructor
  · rintro hall ⟨hne, user, sub, hsub, hactive, hended, rfl⟩
    exact hall _ rfl user ⟨sub, hsub, hactive, hended, hself ▸ hne⟩
  · intro hnot w' hok user
    obtain rfl := pure_eq_ok.mp hok
    rintro ⟨sub, hsub, hactive, hended, hne⟩
    by_cases htier : sub.tierId = tierId
    · rw [htier] at hne
      exact hnot ⟨hself ▸ hne, user, sub, hsub, hactive, hended, htier⟩
    · exact h user ⟨sub, hsub, hactive, hended, hother htier ▸ hne⟩

theorem setTierFeatures_overruns {admin : Address} {level : TierLevel}
    {features : List FeatureFlag} (hw : TierKnown w.store) (h : NoneLapsed w) :
    (∀ w', exec env (.setTierFeatures admin level features) w = .ok w' → NoneLapsed w') ↔
      ¬Overruns w (.invoke env (.setTierFeatures admin level features)) := by
  have hfeatures (id : BytesN32) (tier : SubscriptionTier)
      (htier : w.store.tier id = some (.subscription tier)) :
      tierFeatures { w.store with
        tierFeatures := Function.update w.store.tierFeatures level (some features) } id =
          if tier.level = level then features else tierFeatures w.store id := by
    rw [tierFeatures_of_tier htier, tierFeatures_of_tier (s := { w.store with
      tierFeatures := Function.update w.store.tierFeatures level (some features) }) htier]
    split_ifs with hlevel
    · simp [levelFeatures, hlevel]
    · simp [levelFeatures, Function.update_of_ne hlevel]
  constructor
  · rintro hall ⟨hs, hne, user, sub, tier, hsub, hactive, hended, htier, hlevel⟩
    have hok : exec env (.setTierFeatures admin level features) w = .ok _ :=
      bind_eq_ok.mpr ⟨(), requireAuth_eq_ok.mpr hs, rfl⟩
    refine hall _ hok user ⟨sub, hsub, hactive, hended, ?_⟩
    rw [World.setStore_store, hfeatures sub.tierId tier htier, if_pos hlevel]
    exact hne
  · intro hnot w' hok user
    simp only [exec, setTierFeatures, bind_eq_ok, requireAuth_eq_ok, pure_eq_ok,
      exists_const] at hok
    obtain ⟨hs, rfl⟩ := hok
    rintro ⟨sub, hsub, hactive, hended, hne⟩
    obtain ⟨tier, htier⟩ := hw user sub hsub
    rw [World.setStore_store, hfeatures sub.tierId tier htier] at hne
    split_ifs at hne with hlevel
    · exact hnot ⟨hs, hne, user, sub, tier, hsub, hactive, hended, htier, hlevel⟩
    · exact h user ⟨sub, hsub, hactive, hended, hne⟩

/-- With nothing lapsed before it, a step lets nothing lapse exactly when it does not overrun. -/
theorem noneLapsed_step_iff (hw : TierKnown w.store) (h : NoneLapsed w)
    (a : Action C (Call Address)) :
    NoneLapsed (SorobanHost.step exec w a) ↔ ¬Overruns w a := by
  cases a with
  | tick seconds => exact not_exists.symm
  | external token next =>
    exact iff_of_true (step_external_keeps NoneLapsed h h) id
  | invoke env call =>
    rw [step_invoke_keeps_iff NoneLapsed h]
    cases call with
    | setTierFeatures admin level features => exact setTierFeatures_overruns hw h
    | setTier tierId tier => exact setTier_overruns h
    | createSubscription user paymentToken amount tierId billingCycle sequence =>
      exact createSubscription_overruns h
    | cancelSubscription user =>
      refine iff_of_true (fun w' hok => ?_) id
      obtain ⟨_, sub, hsub, _, rfl⟩ := cancelSubscription_eq_ok.mp hok
      exact (noneLapsed_save_iff w user _ h rfl rfl).mpr fun hlapsed => nomatch hlapsed.1
    | pauseSubscription user reason =>
      refine iff_of_true (fun w' hok => ?_) id
      obtain ⟨_, sub, hsub, _, _, _, rfl⟩ := pauseSubscription_eq_ok.mp hok
      exact (noneLapsed_save_iff w user _ h rfl rfl).mpr fun hlapsed => nomatch hlapsed.1
    | resumeSubscription user => exact resumeSubscription_overruns h
    | renewSubscription user => exact renewSubscription_overruns h

/-- A call that saves a subscription of a known tier keeps the tiers known. -/
theorem TierKnown.save {v : ManageWorld C K} {sub : Subscription Address K.Digest}
    (hw : TierKnown w.store) (hstore : v.store = w.store)
    (htier : ∃ tier, w.store.tier sub.tierId = some (.subscription tier)) :
    TierKnown (save v user sub).store := by
  intro other sub' hsub'
  rw [save_subscription, hstore] at hsub'
  have hsame : (Subscriptions.save v user sub).store.tier = w.store.tier := by
    rw [← hstore]
    rfl
  rw [hsame]
  by_cases heq : other = user
  · subst heq
    rw [Function.update_self] at hsub'
    obtain rfl := Option.some.inj hsub'
    exact htier
  · rw [Function.update_of_ne heq] at hsub'
    exact hw other sub' hsub'

theorem TierKnown.exec {call : Call Address} (hw : TierKnown w.store)
    (h : exec env call w = .ok w') : TierKnown w'.store := by
  cases call with
  | setTierFeatures admin level features =>
    simp only [Subscriptions.exec, setTierFeatures, bind_eq_ok, pure_eq_ok] at h
    obtain ⟨_, _, rfl⟩ := h
    exact hw
  | setTier tierId tier =>
    obtain rfl := pure_eq_ok.mp h
    intro user sub hsub
    by_cases heq : sub.tierId = tierId
    · rw [heq]
      exact ⟨tier, Function.update_self ..⟩
    · obtain ⟨other, hother⟩ := hw user sub hsub
      exact ⟨other, (Function.update_of_ne heq ..).trans hother⟩
  | createSubscription user paymentToken amount tierId billingCycle sequence =>
    obtain ⟨tier, hcreate, t, _, rfl⟩ := createSubscription_eq_ok.mp h
    exact hw.save rfl ⟨tier, hcreate.2.1⟩
  | cancelSubscription user =>
    obtain ⟨_, sub, hsub, _, rfl⟩ := cancelSubscription_eq_ok.mp h
    exact hw.save rfl (hw user sub hsub)
  | pauseSubscription user reason =>
    obtain ⟨_, sub, hsub, _, _, _, rfl⟩ := pauseSubscription_eq_ok.mp h
    exact hw.save rfl (hw user sub hsub)
  | resumeSubscription user =>
    obtain ⟨sub, hresume, rfl⟩ := resumeSubscription_eq_ok.mp h
    exact hw.save rfl (hw user sub hresume.2.1)
  | renewSubscription user =>
    obtain ⟨sub, hrenew, t, _, rfl⟩ := renewSubscription_eq_ok.mp h
    exact hw.save rfl (hw user sub hrenew.2.1)

theorem TierKnown.step (hw : TierKnown w.store) (a : Action C (Call Address)) :
    TierKnown (SorobanHost.step Subscriptions.exec w a).store :=
  step_keeps (fun v => TierKnown v.store) hw (fun _ _ _ _ hok => hw.exec hok)
    (fun _ _ => hw) fun _ _ _ _ => hw

theorem grantsPaid_step_iff (hw : TierKnown w.store) (h : GrantsPaid w)
    (a : Action C (Call Address)) :
    GrantsPaid (SorobanHost.step exec w a) ↔ ¬Overruns w a :=
  (grantsPaid_iff (hw.step a)).trans (noneLapsed_step_iff hw ((grantsPaid_iff hw).mp h) a)

omit [DecidableEq Address] in
theorem Call.payer_subscriber {call : Call Address} (h : call.payer = some user) :
    call.subscriber = some user := by
  cases call <;> first | exact h | exact nomatch h

/-- Whoever has paid has an active subscription. -/
theorem active_of_payment {call : Call Address} {sub : Subscription Address K.Digest}
    (h : exec env call w = .ok w') (hpayer : call.payer = some user)
    (hsub : w'.store.subscription user = some sub) : sub.status = .active := by
  obtain ⟨after, hafter, heffect⟩ := (exec_effect user h).own (Call.payer_subscriber hpayer)
  rw [Option.some.inj (hsub.symm.trans hafter)]
  cases heffect with
  | creates => rfl
  | cancels => exact nomatch hpayer
  | pauses => exact nomatch hpayer
  | resumes => exact nomatch hpayer
  | renews => rfl

/-- A payment serves where the service grants nothing else than what is paid for. -/
theorem servesPayment (hw : TierKnown w.store) (a : Action C (Call Address))
    (h : GrantsPaid (SorobanHost.step exec w a)) : ServesPayment w a := by
  cases a with
  | tick => trivial
  | external => trivial
  | invoke env call =>
    intro w' user sub hok hpayer hsub _ feature
    have hknown := hw.exec hok
    rw [step_invoke_ok hok] at h
    constructor
    · rintro ⟨hgrants, _⟩
      obtain ⟨other, hother, _, hfeature⟩ := (grants_iff hknown).mp hgrants
      rwa [Option.some.inj (hother.symm.trans hsub)] at hfeature
    · intro hfeature
      have hactive := active_of_payment hok hpayer hsub
      have hgrants := (grants_iff hknown).mpr ⟨sub, hsub, hactive, hfeature⟩
      exact ⟨hgrants, h user feature hgrants⟩

/-- In every run of the deployed contract, the service grants only what has been paid for, and every
payment gives the features of its tier, exactly when no step overruns the end of a subscription. -/
theorem entitlement_paid_iff (wasm : BytesN32) (tokens : Address → C.token.State) (now : ℕ)
    (as : List (Action C (Call Address))) :
    Always (SorobanHost.step exec) GrantsPaid (deployed wasm tokens now : ManageWorld C K) as ∧
        Guarded (SorobanHost.step exec) ServesPayment
          (deployed wasm tokens now : ManageWorld C K) as ↔
      Guarded (SorobanHost.step exec) (fun w a => ¬Overruns w a)
        (deployed wasm tokens now : ManageWorld C K) as := by
  have hnone (user : Address) (sub : Subscription Address K.Digest) :
      (deployed wasm tokens now : ManageWorld C K).store.subscription user ≠ some sub := by
    simp [deployed, Storage.empty]
  have hknown : TierKnown (deployed wasm tokens now : ManageWorld C K).store :=
    fun user sub hsub => absurd hsub (hnone user sub)
  have hpaid : GrantsPaid (deployed wasm tokens now : ManageWorld C K) :=
    (grantsPaid_iff hknown).mpr fun user ⟨sub, hsub, _⟩ => hnone user sub hsub
  have halways : Always (SorobanHost.step exec) GrantsPaid
      (deployed wasm tokens now : ManageWorld C K) as ↔
        Guarded (SorobanHost.step exec) (fun w a => ¬Overruns w a)
          (deployed wasm tokens now : ManageWorld C K) as :=
    always_iff_guarded (J := fun v : ManageWorld C K => TierKnown v.store) _
      (fun _ a hw => hw.step a) (fun _ a hw h => grantsPaid_step_iff hw h a) hknown hpaid
  refine ⟨fun h => halways.mp h.1, fun h => ⟨halways.mpr h, ?_⟩⟩
  -- every payment is followed by a state in which nothing else is granted
  refine guarded_of_guarded (J := fun v : ManageWorld C K => TierKnown v.store ∧ GrantsPaid v)
    (SorobanHost.step exec) (fun _ a hw ha => ?_) (fun _ a hw ha => ?_) ⟨hknown, hpaid⟩ h h
  · exact ⟨hw.1.step a, (grantsPaid_step_iff hw.1 hw.2 a).mpr ha⟩
  · exact servesPayment hw.1 a ((grantsPaid_step_iff hw.1 hw.2 a).mpr ha)

/-- Account 1 has paid for 100 seconds of a tier with desks. After 200 seconds it still has access,
and a renewal buys it a cycle that is over by then. -/
theorem entitlement_not_paid :
    ¬Always (SorobanHost.step exec) GrantsPaid
        (deployed 0 (fun _ _ => (70 : ℕ)) 3000 : ManageWorld numberedChain plainCrypto)
        [.invoke (signedBy 4) (.setTier 8 ⟨8, "desk", .basic, 25, 30, [], true, 8⟩),
          .invoke (signedBy 4) (.setTierFeatures 5 .basic [.hotDeskAccess]),
          .invoke (signedBy 0) (.createSubscription 1 7 25 8 100 2), .tick 200] ∧
      ¬Guarded (SorobanHost.step exec) ServesPayment
        (deployed 0 (fun _ _ => (70 : ℕ)) 3000 : ManageWorld numberedChain plainCrypto)
        [.invoke (signedBy 4) (.setTier 8 ⟨8, "desk", .basic, 25, 30, [], true, 8⟩),
          .invoke (signedBy 4) (.setTierFeatures 5 .basic [.hotDeskAccess]),
          .invoke (signedBy 0) (.createSubscription 1 7 25 8 100 2), .tick 200,
          .invoke (signedBy 0) (.renewSubscription 1)] := by
  constructor
  · intro h
    have hpaid := (always_iff_prefixes _ _ _ _).mp h _ [] (List.append_nil _).symm
    obtain ⟨sub, hsub, _, hnow, _⟩ := hpaid 1 .hotDeskAccess ⟨_, rfl, rfl⟩
    have hends : some 3100 = some sub.expiresAt := congrArg (Option.map Subscription.expiresAt) hsub
    have hlate : 3200 < sub.expiresAt := hnow
    rw [← Option.some.inj hends] at hlate
    exact absurd hlate (by decide)
  · rintro ⟨_, _, _, _, hserves, _⟩
    obtain ⟨_, sub, hsub, _, hnow, _⟩ :=
      (hserves _ 1 _ rfl rfl rfl (by decide) .hotDeskAccess).mpr (by decide)
    have hends : some 3200 = some sub.expiresAt := congrArg (Option.map Subscription.expiresAt) hsub
    have hlate : 3200 < sub.expiresAt := hnow
    rw [← Option.some.inj hends] at hlate
    exact absurd hlate (by decide)

end HubAssist.ManageHub.Subscriptions
