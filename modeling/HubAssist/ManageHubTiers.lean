import HubAssist.ManageHubStorage

/-! The modules of the manage_hub contract that work on subscription tiers: tier_management and
subscription. The events they publish are left out; a call that reads the ledger's sequence
number carries it. -/
namespace HubAssist.ManageHub
open SorobanHost CheckedArith

variable {Address : Type} [DecidableEq Address] {C : Chain Address} {K : Crypto Address}

def readTier {Digest : Type} (s : Storage Address Digest) (id : BytesN32) (absent : String) :
    Except (Fault ModuleError) SubscriptionTier :=
  readAs TierRecord.subscription? (s.tier id) (.panic absent)

omit [DecidableEq Address] in
theorem readTier_eq_ok {Digest : Type} {s : Storage Address Digest} {id : BytesN32}
    {message : String} {tier : SubscriptionTier} :
    readTier s id message = .ok tier ↔ s.tier id = some (.subscription tier) := by
  simp only [readTier, readAs, bind_eq_ok, getOr_eq_ok]
  constructor
  · rintro ⟨record, hrecord, hdecode⟩
    cases record with
    | staking other => exact absurd hdecode (by simp [TierRecord.subscription?])
    | subscription other => rw [hrecord, Option.some.inj hdecode]
  · intro htier
    exact ⟨_, htier, rfl⟩

def setTierRecord {Digest : Type} (s : Storage Address Digest) (id : BytesN32)
    (tier : SubscriptionTier) : Storage Address Digest :=
  { s with tier := Function.update s.tier id (some (.subscription tier)) }

namespace Tiers

structure TierUpdate where
  name : Option String
  price : Option ℤ
  durationDays : Option ℕ
  isActive : Option Bool
  maxMembers : Option ℕ
  deriving DecidableEq, Repr

def requireAdmin (env : Env C) (w : ManageWorld C K) (admin : Address) :
    Except (Fault ModuleError) Unit := do
  let storedAdmin ← getOr w.store.admin (.panic "admin not set")
  failIf (admin ≠ storedAdmin) (.panic "not admin")
  requireAuth env admin

def setTierAdmin (env : Env C) (admin : Address) (w : ManageWorld C K) : Outcome C K := do
  -- the address that is to be the admin signs, whoever is the admin now
  requireAuth env admin
  return w.setStore { w.store with admin := some admin }

def addTier (env : Env C) (admin : Address) (tier : SubscriptionTier) (w : ManageWorld C K) :
    Outcome C K := do
  requireAdmin env w admin
  failIf ((w.store.tier tier.id).isSome = true) (.error (.tier .tierAlreadyExists))
  let s := setTierRecord w.store tier.id tier
  return w.setStore { s with tierList := some (s.tierList.getD [] ++ [tier.id]) }

def TierUpdate.apply (updates : TierUpdate) (tier : SubscriptionTier) : SubscriptionTier :=
  { tier with
    name := updates.name.getD tier.name
    price := updates.price.getD tier.price
    durationDays := updates.durationDays.getD tier.durationDays
    isActive := updates.isActive.getD tier.isActive
    maxMembers := updates.maxMembers.getD tier.maxMembers }

def updateTier (env : Env C) (admin : Address) (tierId : BytesN32) (updates : TierUpdate)
    (w : ManageWorld C K) : Outcome C K := do
  requireAdmin env w admin
  let tier ← readTier w.store tierId "tier not found"
  return w.setStore (setTierRecord w.store tierId (updates.apply tier))

def deactivateTier (env : Env C) (admin : Address) (tierId : BytesN32) (w : ManageWorld C K) :
    Outcome C K := do
  requireAdmin env w admin
  let tier ← readTier w.store tierId "tier not found"
  return w.setStore (setTierRecord w.store tierId { tier with isActive := false })

def tierRank : TierLevel → ℕ
  | .basic => 1
  | .standard => 2
  | .premium => 3
  | .enterprise => 4

def determineChangeType (start target : TierLevel) : TierChangeType :=
  if tierRank start < tierRank target then .upgrade
  else if tierRank target < tierRank start then .downgrade
  else .renewal

/-- The id of a request depends on the ledger sequence number alone. -/
def requestTierChange (env : Env C) (user : Address) (newTierId : BytesN32) (sequence : ℕ)
    (w : ManageWorld C K) : Except (Fault ModuleError) (K.Digest × ManageWorld C K) := do
  requireAuth env user
  let currentTierId ← getOr (w.store.userTier user) (.panic "user has no tier")
  let newTier ← readTier w.store newTierId "new tier not found"
  failIf (newTier.isActive = false) (.panic "new tier is not active")
  let currentTier ← readTier w.store currentTierId "current tier not found"
  let changeType := determineChangeType currentTier.level newTier.level
  let requestId := K.sha256 (K.u32ToXdr sequence)
  let request : TierChangeRequest Address K.Digest :=
    ⟨requestId, user, currentTierId, newTierId, changeType, .pending, w.now⟩
  return (requestId, w.setStore { w.store with
    tierChangeRequest := Function.update w.store.tierChangeRequest requestId (some request)
    tierChangeRequestList := some (w.store.tierChangeRequestList.getD [] ++ [requestId]) })

/-- The request that an admin is about to answer. -/
def pendingRequest (s : Storage Address K.Digest) (requestId : K.Digest) :
    Except (Fault ModuleError) (TierChangeRequest Address K.Digest) := do
  let request ← getOr (s.tierChangeRequest requestId) (.panic "request not found")
  failIf (request.status ≠ .pending) (.panic "request not pending")
  return request

def approveTierChange (env : Env C) (admin : Address) (requestId : K.Digest)
    (w : ManageWorld C K) : Outcome C K := do
  requireAdmin env w admin
  let request ← pendingRequest w.store requestId
  -- neither the member's present tier nor the new one is looked at
  return w.setStore { w.store with
    tierChangeRequest := Function.update w.store.tierChangeRequest requestId
      (some { request with status := .approved })
    userTier := Function.update w.store.userTier request.member (some request.toTierId) }

def rejectTierChange (env : Env C) (admin : Address) (requestId : K.Digest)
    (w : ManageWorld C K) : Outcome C K := do
  requireAdmin env w admin
  let request ← pendingRequest w.store requestId
  return w.setStore { w.store with
    tierChangeRequest := Function.update w.store.tierChangeRequest requestId
      (some { request with status := .rejected }) }

def createPromotion (env : Env C) (admin : Address) (promo : TierPromotion)
    (w : ManageWorld C K) : Outcome C K := do
  requireAdmin env w admin
  failIf (promo.validUntil ≤ promo.validFrom) (.panic "invalid date range")
  failIf (promo.validUntil ≤ w.now) (.panic "promotion already expired")
  failIf (10000 < promo.discountBps) (.panic "discount exceeds 100%")
  failIf (w.store.tier promo.tierId = none) (.panic "tier not found")
  return w.setStore { w.store with
    promotion := Function.update w.store.promotion promo.code (some promo)
    promotionList := some (w.store.promotionList.getD [] ++ [promo.code]) }

/-- The discounted price; nothing is written. -/
def applyPromoCode (env : Env C) (user : Address) (code : String) (w : ManageWorld C K) :
    Except (Fault ModuleError) (ℤ × ManageWorld C K) := do
  requireAuth env user
  let promo ← getOr (w.store.promotion code) (.panic "promo code not found")
  failIf (promo.isActive = false) (.panic "promotion is not active")
  failIf (w.now < promo.validFrom) (.panic "promotion not yet valid")
  failIf (promo.validUntil < w.now) (.panic "promotion expired")
  let tier ← readTier w.store promo.tierId "tier not found"
  let product ← checked (i128Mul tier.price promo.discountBps)
  let discountAmount ← checked (i128Div product 10000)
  let discountedPrice ← checked (i128Sub tier.price discountAmount)
  return (discountedPrice, w)

/-- The entry points that write, and `applyPromoCode`. -/
inductive Call (Address Digest : Type) where
  | setTierAdmin (admin : Address)
  | addTier (admin : Address) (tier : SubscriptionTier)
  | updateTier (admin : Address) (tierId : BytesN32) (updates : TierUpdate)
  | deactivateTier (admin : Address) (tierId : BytesN32)
  | requestTierChange (user : Address) (newTierId : BytesN32) (sequence : ℕ)
  | approveTierChange (admin : Address) (requestId : Digest)
  | rejectTierChange (admin : Address) (requestId : Digest)
  | createPromotion (admin : Address) (promo : TierPromotion)
  | applyPromoCode (user : Address) (code : String)
  deriving DecidableEq

def exec (env : Env C) : Call Address K.Digest → ManageWorld C K → Outcome C K
  | .setTierAdmin admin, w => setTierAdmin env admin w
  | .addTier admin tier, w => addTier env admin tier w
  | .updateTier admin tierId updates, w => updateTier env admin tierId updates w
  | .deactivateTier admin tierId, w => deactivateTier env admin tierId w
  | .requestTierChange user newTierId sequence, w =>
    (requestTierChange env user newTierId sequence w).map Prod.snd
  | .approveTierChange admin requestId, w => approveTierChange env admin requestId w
  | .rejectTierChange admin requestId, w => rejectTierChange env admin requestId w
  | .createPromotion admin promo, w => createPromotion env admin promo w
  | .applyPromoCode user code, w => (applyPromoCode env user code w).map Prod.snd

end Tiers

namespace Subscriptions

def maxPauses : ℕ := 3

def minPauseInterval : ℕ := 7*24*3600

structure EntitlementResult where
  hasAccess : Bool
  tier : TierLevel
  feature : FeatureFlag
  reason : String
  deriving DecidableEq, Repr

/-- The end of the period that has been paid for is not looked at. -/
def hasFeature {Digest : Type} (s : Storage Address Digest) (subscriber : Address)
    (feature : FeatureFlag) : Except (Fault ModuleError) EntitlementResult :=
  match s.subscription subscriber with
  | none => return ⟨false, .basic, feature, "no active subscription"⟩
  | some sub =>
    if sub.status ≠ .active then return ⟨false, .basic, feature, "subscription not active"⟩
    else do
      let tier ← readTier s sub.tierId "tier not found"
      let features := (s.tierFeatures tier.level).getD []
      return if feature ∈ features then ⟨true, tier.level, feature, "feature enabled for tier"⟩
        else ⟨false, tier.level, feature, "feature not available for tier"⟩

def setTierFeatures (env : Env C) (admin : Address) (tier : TierLevel)
    (features : List FeatureFlag) (w : ManageWorld C K) : Outcome C K := do
  -- the address that is passed signs; it is not compared with the stored admin
  requireAuth env admin
  return w.setStore { w.store with
    tierFeatures := Function.update w.store.tierFeatures tier (some features) }

/-- Nobody has to sign. -/
def setTier (tierId : BytesN32) (tier : SubscriptionTier) (w : ManageWorld C K) :
    Outcome C K :=
  return w.setStore (setTierRecord w.store tierId tier)

def load {Digest : Type} (s : Storage Address Digest) (user : Address) :
    Except (Fault ModuleError) (Subscription Address Digest) :=
  getOr (s.subscription user) (.panic "subscription not found")

def save (w : ManageWorld C K) (user : Address) (sub : Subscription Address K.Digest) :
    ManageWorld C K :=
  w.setStore { w.store with
    subscription := Function.update w.store.subscription user (some sub) }

def createSubscription (env : Env C) (user paymentToken : Address) (amount : ℤ)
    (tierId : BytesN32) (billingCycle sequence : ℕ) (w : ManageWorld C K) :
    Except (Fault ModuleError) (Subscription Address K.Digest × ManageWorld C K) := do
  requireAuth env user
  -- of the tier, only the price is looked at
  let tier ← readTier w.store tierId "tier not found"
  failIf (amount < tier.price) (.panic "payment amount below tier price")
  let w ← w.transfer paymentToken user C.self amount
  let expiresAt ← checked (u64Add w.now billingCycle)
  let sub : Subscription Address K.Digest :=
    { id := K.sha256 (toLeBytes 4 sequence)
      user := user
      paymentToken := paymentToken
      amount := amount
      status := .active
      createdAt := w.now
      expiresAt := expiresAt
      tierId := tierId
      billingCycle := billingCycle
      pauseCount := 0
      pausedAt := 0
      pauseReason := "" }
  return (sub, save w user sub)

def cancelSubscription (env : Env C) (user : Address) (w : ManageWorld C K) : Outcome C K := do
  requireAuth env user
  let sub ← load w.store user
  failIf (¬(sub.status = .active ∨ sub.status = .paused)) (.panic "subscription not cancellable")
  return save w user { sub with status := .cancelled }

/-- The time since the pause that is recorded, if there is one: a resumed subscription has none. -/
def requireInterval (now pausedAt : ℕ) : Except (Fault ModuleError) Unit :=
  if 0 < pausedAt then do
    let earliest ← checked (u64Add pausedAt minPauseInterval)
    failIf (now < earliest) (.panic "min interval between pauses not met")
  else return ()

def pauseSubscription (env : Env C) (user : Address) (reason : String) (w : ManageWorld C K) :
    Outcome C K := do
  requireAuth env user
  let sub ← load w.store user
  failIf (sub.status ≠ .active) (.panic "only active subscriptions can be paused")
  failIf (maxPauses ≤ sub.pauseCount) (.panic "max pauses reached")
  requireInterval w.now sub.pausedAt
  let pauseCount ← checked (u32Add sub.pauseCount 1)
  return save w user { sub with
    status := .paused
    pausedAt := w.now
    pauseReason := reason
    pauseCount := pauseCount }

def resumeSubscription (env : Env C) (user : Address) (w : ManageWorld C K) : Outcome C K := do
  requireAuth env user
  let sub ← load w.store user
  failIf (sub.status ≠ .paused) (.panic "subscription is not paused")
  let pausedDuration ← checked (u64Sub w.now sub.pausedAt)
  let expiresAt ← checked (u64Add sub.expiresAt pausedDuration)
  return save w user { sub with
    expiresAt := expiresAt
    status := .active
    pausedAt := 0
    pauseReason := "" }

def renewSubscription (env : Env C) (user : Address) (w : ManageWorld C K) : Outcome C K := do
  requireAuth env user
  let sub ← load w.store user
  failIf (sub.status = .cancelled) (.panic "cannot renew cancelled subscription")
  let w ← w.transfer sub.paymentToken user C.self sub.amount
  let expiresAt ← checked (u64Add sub.expiresAt sub.billingCycle)
  -- a paused subscription is active again, without the time it was paused
  return save w user { sub with
    expiresAt := expiresAt
    status := .active }

/-- The functions that write. -/
inductive Call (Address : Type) where
  | setTierFeatures (admin : Address) (tier : TierLevel) (features : List FeatureFlag)
  | setTier (tierId : BytesN32) (tier : SubscriptionTier)
  | createSubscription (user paymentToken : Address) (amount : ℤ) (tierId : BytesN32)
      (billingCycle sequence : ℕ)
  | cancelSubscription (user : Address)
  | pauseSubscription (user : Address) (reason : String)
  | resumeSubscription (user : Address)
  | renewSubscription (user : Address)
  deriving DecidableEq

def exec (env : Env C) : Call Address → ManageWorld C K → Outcome C K
  | .setTierFeatures admin tier features, w => setTierFeatures env admin tier features w
  | .setTier tierId tier, w => setTier tierId tier w
  | .createSubscription user paymentToken amount tierId billingCycle sequence, w =>
    (createSubscription env user paymentToken amount tierId billingCycle sequence w).map Prod.snd
  | .cancelSubscription user, w => cancelSubscription env user w
  | .pauseSubscription user reason, w => pauseSubscription env user reason w
  | .resumeSubscription user, w => resumeSubscription env user w
  | .renewSubscription user, w => renewSubscription env user w

end Subscriptions

end HubAssist.ManageHub
