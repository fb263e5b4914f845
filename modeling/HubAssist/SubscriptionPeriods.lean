import HubAssist.SubscriptionExpiry

/-! What a payment buys. The tier says what a period costs and how many days it has. A subscription
is checked against the one alone, and takes the length of its cycles from its caller. -/
namespace HubAssist.ManageHub.Subscriptions
open SorobanHost RunSystem

variable {Address : Type} [DecidableEq Address] {C : Chain Address} {K : Crypto Address}
variable {env : Env C} {w w' : ManageWorld C K} {user : Address} {tier : SubscriptionTier}

/-- What one payment is for, in seconds. -/
def period (tier : SubscriptionTier) : ℕ := tier.durationDays*86400

/-- The payments that go with an accepted call of the user, those of the call being `new`. A
subscription that is created starts anew. -/
def collectCall {E : Type} (new : List E) : Call Address → List E → List E
  | .createSubscription _ _ _ _ _ _, _ => new
  | .renewSubscription _, payments => payments ++ new
  | .setTierFeatures _ _ _, payments | .setTier _ _, payments | .cancelSubscription _, payments
  | .pauseSubscription _ _, payments | .resumeSubscription _, payments => payments

/-- The transfers that a call has made. -/
def transfersOf (w w' : ManageWorld C K) : List (TransferEvent Address) :=
  w'.transfers.drop w.transfers.length

/-- The account of `user` after a step, and the payments for it. -/
def bill (user : Address) (w : ManageWorld C K) (a : Action C (Call Address))
    (g : Account × List (TransferEvent Address)) : Account × List (TransferEvent Address) :=
  (book user w a g.1, recordCalls exec
    (fun call w w' payments => if call.subscriber = some user then
      collectCall (transfersOf w w') call payments else payments) w a g.2)

/-- A transfer from the user to the contract of what the tier costs, in the token agreed on. -/
structure Pays (C : Chain Address) (user paymentToken : Address) (tier : SubscriptionTier)
    (e : TransferEvent Address) : Prop where
  token : e.token = paymentToken
  sender : e.sender = user
  receiver : e.receiver = C.self
  price : tier.price ≤ e.amount

/-- One payment has been taken for the creation and one for each renewal, each of them what the tier
costs, and together they are for no less time than the subscription has beside its pauses. -/
structure PaidFor (C : Chain Address) {Digest : Type} (user : Address)
    (g : Account × List (TransferEvent Address)) (sub : Subscription Address Digest)
    (tier : SubscriptionTier) : Prop where
  ends : sub.expiresAt ≤ sub.createdAt+g.1.pausedTime+period tier*g.2.length
  count : g.2.length = 1+g.1.renewals
  payments : ∀ e ∈ g.2, Pays C user sub.paymentToken tier e

/-- The subscription of `user` has been paid for, at the terms of its tier. -/
def Limited (user : Address) (v : ManageWorld C K × Account × List (TransferEvent Address)) :
    Prop :=
  ∀ sub, v.1.store.subscription user = some sub → ∃ tier,
    v.1.store.tier sub.tierId = some (.subscription tier) ∧ PaidFor C user v.2 sub tier

/-- No record of a tier is replaced by another one. -/
def FixesTiers (w : ManageWorld C K) : Action C (Call Address) → Prop
  | .invoke _ (.setTier tierId tier) =>
    w.store.tier tierId = none ∨ w.store.tier tierId = some (.subscription tier)
  | _ => True

/-- `user` creates a subscription with longer cycles than its tier has. -/
def Overbuys (user : Address) (w : ManageWorld C K) : Action C (Call Address) → Prop
  | .invoke env (.createSubscription other paymentToken amount tierId billingCycle _) =>
    other = user ∧ ∃ tier, Creatable env w user paymentToken amount tierId billingCycle tier ∧
      period tier < billingCycle
  | _ => False

/-- How long a pause has taken that is still on. -/
def pausedFor {Digest : Type} (now : ℕ) (sub : Subscription Address Digest) : ℕ :=
  if sub.status = .paused then now-sub.pausedAt else 0

/-- What the subscription has been sold for. A pause that is still on is counted already. -/
structure Sold (C : Chain Address) {Digest : Type} (user : Address) (now : ℕ)
    (g : Account × List (TransferEvent Address)) (sub : Subscription Address Digest)
    (tier : SubscriptionTier) : Prop where
  cycle : sub.billingCycle ≤ period tier
  price : tier.price ≤ sub.amount
  ends : sub.expiresAt+pausedFor now sub ≤
    sub.createdAt+g.1.pausedTime+period tier*g.2.length
  count : g.2.length = 1+g.1.renewals
  payments : ∀ e ∈ g.2, Pays C user sub.paymentToken tier e

def AllSold (user : Address) (w : ManageWorld C K) (g : Account × List (TransferEvent Address)) :
    Prop :=
  ∀ sub, w.store.subscription user = some sub → ∃ tier,
    w.store.tier sub.tierId = some (.subscription tier) ∧ Sold C user w.now g sub tier

theorem AllSold.limited {g : Account × List (TransferEvent Address)} (h : AllSold user w g) :
    Limited user (w, g) := by
  intro sub hsub
  obtain ⟨tier, htier, hsold⟩ := h sub hsub
  exact ⟨tier, htier, (Nat.le_add_right _ _).trans hsold.ends, hsold.count, hsold.payments⟩

theorem transfersOf_paid (w : ManageWorld C K) (e : TransferEvent Address) (t : C.token.State)
    (sub : Subscription Address K.Digest) : transfersOf w (save (w.paid e t) user sub) = [e] := by
  change (w.transfers ++ [e]).drop w.transfers.length = [e]
  exact List.drop_left

theorem transfersOf_create {paymentToken : Address} {amount : ℤ} {tierId : BytesN32}
    {billingCycle sequence : ℕ} (h : exec env
      (.createSubscription user paymentToken amount tierId billingCycle sequence) w = .ok w') :
    transfersOf w w' = [⟨paymentToken, user, C.self, amount⟩] := by
  obtain ⟨_, _, t, _, rfl⟩ := createSubscription_eq_ok.mp h
  exact transfersOf_paid w _ t _

theorem transfersOf_renew {sub : Subscription Address K.Digest}
    (hsub : w.store.subscription user = some sub)
    (h : exec env (.renewSubscription user) w = .ok w') :
    transfersOf w w' = [⟨sub.paymentToken, user, C.self, sub.amount⟩] := by
  obtain ⟨other, hrenew, t, _, rfl⟩ := renewSubscription_eq_ok.mp h
  obtain rfl := Option.some.inj (hsub.symm.trans hrenew.2.1)
  exact transfersOf_paid w _ t _

/-- Where no record is replaced, a tier keeps its record. -/
theorem tier_kept {call : Call Address} {tierId : BytesN32} (h : exec env call w = .ok w')
    (hfixed : FixesTiers w (.invoke env call))
    (htier : w.store.tier tierId = some (.subscription tier)) :
    w'.store.tier tierId = some (.subscription tier) := by
  cases call with
  | setTierFeatures admin level features =>
    simp only [exec, setTierFeatures, bind_eq_ok, pure_eq_ok] at h
    obtain ⟨_, _, rfl⟩ := h
    exact htier
  | setTier other record =>
    obtain rfl := pure_eq_ok.mp h
    by_cases hid : tierId = other
    · subst hid
      rcases hfixed with hnone | hsame
      · exact absurd (hnone.symm.trans htier) (by simp)
      · exact (Function.update_self ..).trans (hsame.symm.trans htier)
    · exact (Function.update_of_ne hid ..).trans htier
  | createSubscription other paymentToken amount tierId' billingCycle sequence =>
    obtain ⟨_, _, t, _, rfl⟩ := createSubscription_eq_ok.mp h
    exact htier
  | cancelSubscription other =>
    obtain ⟨_, sub, _, _, rfl⟩ := cancelSubscription_eq_ok.mp h
    exact htier
  | pauseSubscription other reason =>
    obtain ⟨_, sub, _, _, _, _, rfl⟩ := pauseSubscription_eq_ok.mp h
    exact htier
  | resumeSubscription other =>
    obtain ⟨sub, _, rfl⟩ := resumeSubscription_eq_ok.mp h
    exact htier
  | renewSubscription other =>
    obtain ⟨sub, _, t, _, rfl⟩ := renewSubscription_eq_ok.mp h
    exact htier

section
variable {g : Account × List (TransferEvent Address)} {sub : Subscription Address K.Digest}

/-- The time that passes in a pause is on the account. -/
theorem Sold.tick (h : Sold C user w.now g sub tier) (hsub : w.store.subscription user = some sub)
    (seconds : ℕ) : Sold C user (w.now+seconds) (bill user w (.tick seconds) g) sub tier := by
  obtain ⟨hcycle, hprice, hends, hcount, hpayments⟩ := h
  by_cases hpaused : sub.status = .paused
  · have hstored : Paused w.store user := (paused_iff hsub).mpr hpaused
    have hbook : bill user w (.tick seconds) g =
        ({ g.1 with pausedTime := g.1.pausedTime+seconds }, g.2) := by
      simp only [bill, book, if_pos hstored, recordCalls]
    rw [hbook]
    refine ⟨hcycle, hprice, ?_, hcount, hpayments⟩
    simp only [pausedFor, if_pos hpaused] at hends ⊢
    omega
  · have hstored : ¬Paused w.store user := fun h => hpaused ((paused_iff hsub).mp h)
    have hbook : bill user w (.tick seconds) g = g := by
      simp only [bill, book, if_neg hstored, recordCalls]
    rw [hbook]
    refine ⟨hcycle, hprice, ?_, hcount, hpayments⟩
    simpa only [pausedFor, if_neg hpaused] using hends

/-- A subscription as it is created has been paid for once. -/
theorem sold_created {paymentToken : Address} {amount : ℤ} {tierId : BytesN32}
    {billingCycle sequence now : ℕ} (hprice : tier.price ≤ amount)
    (hcycle : billingCycle ≤ period tier) :
    Sold C user now (⟨0, 0⟩, [⟨paymentToken, user, C.self, amount⟩])
      (created K user paymentToken amount tierId billingCycle sequence now) tier where
  cycle := hcycle
  price := hprice
  ends := by simpa [created, pausedFor] using hcycle
  count := rfl
  payments := by
    intro e he
    rw [List.mem_singleton.mp he]
    exact ⟨rfl, rfl, rfl, hprice⟩

/-- A renewal adds one cycle and one payment. -/
theorem Sold.renewed {now : ℕ} (h : Sold C user now g sub tier) :
    Sold C user now ({ g.1 with renewals := g.1.renewals+1 },
        g.2 ++ [⟨sub.paymentToken, user, C.self, sub.amount⟩])
      { sub with expiresAt := sub.expiresAt+sub.billingCycle, status := .active } tier where
  cycle := h.cycle
  price := h.price
  ends := by
    have hmore : period tier*(g.2 ++ [(⟨sub.paymentToken, user, C.self, sub.amount⟩ :
        TransferEvent Address)]).length = period tier*g.2.length+period tier := by
      rw [List.length_append, List.length_singleton, Nat.mul_succ]
    have hends := h.ends
    have hcycle := h.cycle
    simp only [hmore, pausedFor, reduceCtorEq, if_false]
    omega
  count := by
    have hcount := h.count
    simp only [List.length_append, List.length_singleton]
    omega
  payments := by
    intro e he
    rcases List.mem_append.mp he with hold | hlast
    · exact h.payments e hold
    · rw [List.mem_singleton.mp hlast]
      exact ⟨rfl, rfl, rfl, h.price⟩

theorem bill_invoke_ok {call : Call Address} (h : exec env call w = .ok w') :
    bill user w (.invoke env call) g =
      if call.subscriber = some user then
        (bookCall call g.1, collectCall (transfersOf w w') call g.2) else g := by
  rw [bill, book_invoke_ok h, recordCalls_ok h]
  split_ifs <;> rfl

theorem bill_invoke_error {fault : Fault ModuleError} {call : Call Address}
    (h : exec env call w = .error fault) : bill user w (.invoke env call) g = g := by
  rw [bill, book_invoke_error h, recordCalls_error h]

/-- An accepted call of the user sells no more time than it takes payments for, unless it creates a
subscription with longer cycles than the tier has. -/
theorem AllSold.call {call : Call Address} (h : AllSold user w g) (hok : exec env call w = .ok w')
    (heffect : Effect env w user call sub) (hcall : ¬Overbuys user w (.invoke env call)) :
    ∃ tier, w.store.tier sub.tierId = some (.subscription tier) ∧
      Sold C user w.now (bookCall call g.1, collectCall (transfersOf w w') call g.2) sub tier := by
  cases heffect with
  | creates paymentToken amount tierId billingCycle sequence tier hcreate =>
    obtain ⟨_, htier, hprice, _⟩ := id hcreate
    have hcycle : billingCycle ≤ period tier := by
      by_contra hlonger
      exact hcall ⟨rfl, tier, hcreate, not_le.mp hlonger⟩
    rw [transfersOf_create hok]
    exact ⟨tier, htier, sold_created hprice hcycle⟩
  | cancels sub hsub =>
    obtain ⟨tier, htier, hcycle, hprice, hends, hcount, hpayments⟩ := h sub hsub
    refine ⟨tier, htier, hcycle, hprice, ?_, hcount, hpayments⟩
    exact (Nat.le_add_right _ _).trans hends
  | pauses reason sub hsub hactive =>
    obtain ⟨tier, htier, hcycle, hprice, hends, hcount, hpayments⟩ := h sub hsub
    refine ⟨tier, htier, hcycle, hprice, ?_, hcount, hpayments⟩
    -- the pause begins now
    simpa [pausedFor, hactive, bookCall, collectCall] using hends
  | resumes sub hresume =>
    obtain ⟨_, hsub, hpaused, _⟩ := hresume
    obtain ⟨tier, htier, hcycle, hprice, hends, hcount, hpayments⟩ := h sub hsub
    refine ⟨tier, htier, hcycle, hprice, ?_, hcount, hpayments⟩
    simpa [pausedFor, hpaused, bookCall, collectCall] using hends
  | renews sub hrenew =>
    have hsub := hrenew.2.1
    obtain ⟨tier, htier, hsold⟩ := h sub hsub
    rw [transfersOf_renew hsub hok]
    exact ⟨tier, htier, hsold.renewed⟩

theorem AllSold.step {a : Action C (Call Address)} (h : AllSold user w g)
    (hfixed : FixesTiers w a) (ha : ¬Overbuys user w a) :
    AllSold user (SorobanHost.step exec w a) (bill user w a g) := by
  cases a with
  | tick seconds =>
    intro sub hsub
    obtain ⟨tier, htier, hsold⟩ := h sub hsub
    exact ⟨tier, htier, hsold.tick hsub seconds⟩
  | external token next => exact step_external_keeps (fun v => AllSold user v g) h h
  | invoke env call =>
    cases hok : exec env call w with
    | error fault =>
      rw [step_invoke_error hok, bill_invoke_error hok]
      exact h
    | ok w' =>
      obtain ⟨hnow, hown, hapart⟩ := exec_effect user hok
      rw [step_invoke_ok hok, bill_invoke_ok hok]
      intro sub hsub
      split_ifs with hcall
      · obtain ⟨after, hafter, heffect⟩ := hown hcall
        obtain rfl := Option.some.inj (hsub.symm.trans hafter)
        obtain ⟨tier, htier, hsold⟩ := h.call hok heffect ha
        exact ⟨tier, tier_kept hok hfixed htier, hnow ▸ hsold⟩
      · obtain ⟨tier, htier, hsold⟩ := h sub ((hapart hcall).symm.trans hsub)
        exact ⟨tier, tier_kept hok hfixed htier, hnow ▸ hsold⟩

/-- A subscription with longer cycles than its tier has is not paid for. -/
theorem Overbuys.not_limited {a : Action C (Call Address)} (h : Overbuys user w a) :
    ¬Limited user (withHistory (SorobanHost.step exec) (bill user) (w, g) a) := by
  unfold Overbuys at h
  split at h
  · next env other paymentToken amount tierId billingCycle sequence =>
    obtain ⟨rfl, tier, hcreate, hlonger⟩ := h
    obtain ⟨t, ht⟩ := hcreate.2.2.2.1
    have hok : exec env
        (.createSubscription other paymentToken amount tierId billingCycle sequence) w = .ok _ :=
      createSubscription_eq_ok.mpr ⟨tier, hcreate, t, ht, rfl⟩
    intro hlimited
    rw [withHistory, step_invoke_ok hok, bill_invoke_ok hok, transfersOf_create hok] at hlimited
    obtain ⟨record, hrecord, hpaid⟩ := hlimited _ (Function.update_self ..)
    -- the tier it has been created with
    obtain rfl : record = tier := by
      have hsame := hrecord.symm.trans hcreate.2.1
      simpa using hsame
    have hends := hpaid.ends
    simp only [Call.subscriber, if_true, bookCall, collectCall, created,
      List.length_singleton, Nat.mul_one, Nat.add_zero] at hends
    omega
  · exact h.elim

end

/-- In every run of the deployed contract in which no record of a tier is replaced, a user's
subscription has been paid for at the terms of its tier in every state, exactly when the user never
creates one with longer cycles than its tier has. -/
theorem periods_paid_iff (wasm : BytesN32) (tokens : Address → C.token.State) (now : ℕ)
    (user : Address) (as : List (Action C (Call Address)))
    (hfixed : Guarded (SorobanHost.step exec) FixesTiers
      (deployed wasm tokens now : ManageWorld C K) as) :
    Always (withHistory (SorobanHost.step exec) (bill user)) (Limited user)
        ((deployed wasm tokens now : ManageWorld C K), ⟨0, 0⟩, []) as ↔
      Guarded (SorobanHost.step exec) (fun w a => ¬Overbuys user w a)
        (deployed wasm tokens now : ManageWorld C K) as := by
  have hstart : AllSold user (deployed wasm tokens now : ManageWorld C K) (⟨0, 0⟩, []) := by
    intro sub hsub
    exact absurd hsub (by simp [deployed, Storage.empty])
  rw [← guarded_withHistory (SorobanHost.step exec) (bill user) FixesTiers
    ((deployed wasm tokens now : ManageWorld C K), ⟨0, 0⟩, []) as] at hfixed
  rw [← guarded_withHistory (SorobanHost.step exec) (bill user) (fun w a => ¬Overbuys user w a)
    ((deployed wasm tokens now : ManageWorld C K), ⟨0, 0⟩, []) as]
  exact always_iff_guarded_of_guarded_kept
    (J := fun v : ManageWorld C K × Account × List (TransferEvent Address) =>
      AllSold user v.1 v.2) _ (fun _ h => h.limited)
    (fun _ _ h hfixed ha => h.step hfixed ha)
    (fun _ _ _ _ hlimited ha => ha.not_limited hlimited) hfixed hstart

/-- A tier of 30 days that costs 10, and a subscription of account 1 to it. -/
def oneSubscription (billingCycle : ℕ) : List (Action numberedChain (Call ℕ)) :=
  [.invoke (signedBy 3) (.setTier 6 ⟨6, "studio", .basic, 10, 30, [], true, 8⟩),
    .invoke (signedBy 0) (.createSubscription 1 9 10 6 billingCycle 7)]

theorem oneSubscription_fixesTiers (billingCycle : ℕ) :
    Guarded (SorobanHost.step exec) FixesTiers
      (deployed 0 (fun _ _ => (40 : ℕ)) 1000 : ManageWorld numberedChain plainCrypto)
      (oneSubscription billingCycle) := ⟨Or.inl rfl, trivial, trivial⟩

/-- Thirty days for what thirty days cost. -/
theorem periods_paid_oneSubscription :
    Always (withHistory (SorobanHost.step exec) (bill 1)) (Limited 1)
      ((deployed 0 (fun _ _ => (40 : ℕ)) 1000 : ManageWorld numberedChain plainCrypto), ⟨0, 0⟩, [])
      (oneSubscription 2592000) := by
  rw [periods_paid_iff 0 _ 1000 1 _ (oneSubscription_fixesTiers 2592000)]
  refine ⟨not_false, ?_, trivial⟩
  rintro ⟨_, tier, ⟨_, htier, _⟩, hlonger⟩
  obtain rfl : ⟨6, "studio", .basic, 10, 30, [], true, 8⟩ = tier :=
    TierRecord.subscription.inj (Option.some.inj htier)
  exact absurd hlonger (by decide)

/-- Thirty-one days for what thirty days cost. -/
theorem periods_not_paid : ¬∀ (user : ℕ) (as : List (Action numberedChain (Call ℕ))),
    Guarded (SorobanHost.step exec) FixesTiers
        (deployed 0 (fun _ _ => (40 : ℕ)) 1000 : ManageWorld numberedChain plainCrypto) as →
      Always (withHistory (SorobanHost.step exec) (bill user)) (Limited user)
        ((deployed 0 (fun _ _ => (40 : ℕ)) 1000 : ManageWorld numberedChain plainCrypto),
          ⟨0, 0⟩, []) as := by
  intro h
  have halways := h 1 (oneSubscription 2678400) (oneSubscription_fixesTiers 2678400)
  obtain ⟨tier, htier, hpaid⟩ :=
    (always_iff_prefixes _ _ _ _).mp halways _ [] (List.append_nil _).symm _ rfl
  obtain rfl : ⟨6, "studio", .basic, 10, 30, [], true, 8⟩ = tier :=
    TierRecord.subscription.inj (Option.some.inj htier)
  exact absurd hpaid.ends (by decide)

end HubAssist.ManageHub.Subscriptions
