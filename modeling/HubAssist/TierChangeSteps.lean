import HubAssist.ManageHubPrivilege

/-! What an accepted call of the tier_management module requires and does to the tiers, the requests
for a change and the tiers of the users. -/
namespace HubAssist.ManageHub.Tiers
open SorobanHost CheckedArith

variable {Address : Type} [DecidableEq Address] {C : Chain Address} {K : Crypto Address}
variable {env : Env C} {w w' : ManageWorld C K}

/-- The id of a request that is made in the ledger `sequence`. -/
def requestIdOf (K : Crypto Address) (sequence : ℕ) : K.Digest := K.sha256 (K.u32ToXdr sequence)

/-- A user who has the tier `current` signs to change to an active one. -/
structure Requestable (env : Env C) (w : ManageWorld C K) (user : Address)
    (newTierId current : BytesN32) (newTier currentTier : SubscriptionTier) : Prop where
  signed : user ∈ env.signers
  held : w.store.userTier user = some current
  target : w.store.tier newTierId = some (.subscription newTier)
  active : newTier.isActive = true
  start : w.store.tier current = some (.subscription currentTier)

def newRequest (w : ManageWorld C K) (user : Address) (newTierId : BytesN32) (sequence : ℕ)
    (current : BytesN32) (newTier currentTier : SubscriptionTier) :
    TierChangeRequest Address K.Digest :=
  ⟨requestIdOf K sequence, user, current, newTierId,
    determineChangeType currentTier.level newTier.level, .pending, w.now⟩

def requestList {Digest : Type} (s : Storage Address Digest) : List Digest :=
  s.tierChangeRequestList.getD []

/-- The world after a request has been stored and listed. -/
def file (w : ManageWorld C K) (request : TierChangeRequest Address K.Digest) : ManageWorld C K :=
  w.setStore { w.store with
    tierChangeRequest := Function.update w.store.tierChangeRequest request.id (some request)
    tierChangeRequestList := some (requestList w.store ++ [request.id]) }

/-- The world after the request stored under `requestId` has been answered. -/
def answer (w : ManageWorld C K) (requestId : K.Digest)
    (request : TierChangeRequest Address K.Digest) (status : TierChangeStatus) : ManageWorld C K :=
  w.setStore { w.store with
    tierChangeRequest := Function.update w.store.tierChangeRequest requestId
      (some { request with status := status }) }

/-- The world after the member of a request has got its tier. -/
def move (w : ManageWorld C K) (request : TierChangeRequest Address K.Digest) : ManageWorld C K :=
  w.setStore { w.store with
    userTier := Function.update w.store.userTier request.member (some request.toTierId) }

/-- An admin signs to answer a request that is pending. -/
structure Answerable (env : Env C) (w : ManageWorld C K) (admin : Address) (requestId : K.Digest)
    (request : TierChangeRequest Address K.Digest) : Prop where
  admin : w.store.admin = some admin ∧ admin ∈ env.signers
  stored : w.store.tierChangeRequest requestId = some request
  pending : request.status = .pending

theorem requestTierChange_eq_ok {user : Address} {newTierId : BytesN32} {sequence : ℕ}
    {id : K.Digest} : requestTierChange env user newTierId sequence w = .ok (id, w') ↔
      ∃ current newTier currentTier,
        Requestable env w user newTierId current newTier currentTier ∧ requestIdOf K sequence = id ∧
          file w (newRequest w user newTierId sequence current newTier currentTier) = w' := by
  simp only [requestTierChange, bind_eq_ok, requireAuth_eq_ok, getOr_eq_ok, readTier_eq_ok,
    failIf_eq_ok, pure_eq_ok, Prod.mk.injEq, exists_const, Bool.not_eq_false]
  constructor
  · rintro ⟨hs, current, hcurrent, newTier, htarget, hactive, currentTier, hstart, rfl, rfl⟩
    exact ⟨current, newTier, currentTier, ⟨hs, hcurrent, htarget, hactive, hstart⟩, rfl, rfl⟩
  · rintro ⟨current, newTier, currentTier, ⟨hs, hcurrent, htarget, hactive, hstart⟩, rfl, rfl⟩
    exact ⟨hs, current, hcurrent, newTier, htarget, hactive, currentTier, hstart, rfl, rfl⟩

omit [DecidableEq Address] in
theorem pendingRequest_eq_ok {s : Storage Address K.Digest} {requestId : K.Digest}
    {request : TierChangeRequest Address K.Digest} : pendingRequest s requestId = .ok request ↔
      s.tierChangeRequest requestId = some request ∧ request.status = .pending := by
  simp only [pendingRequest, bind_eq_ok, getOr_eq_ok, failIf_eq_ok, not_not, pure_eq_ok,
    exists_const]
  constructor
  · rintro ⟨_, hstored, hpending, rfl⟩
    exact ⟨hstored, hpending⟩
  · rintro ⟨hstored, hpending⟩
    exact ⟨request, hstored, hpending, rfl⟩

theorem approveTierChange_eq_ok {admin : Address} {requestId : K.Digest} :
    exec env (.approveTierChange admin requestId) w = .ok w' ↔ ∃ request,
      Answerable env w admin requestId request ∧
        move (answer w requestId request .approved) request = w' := by
  simp only [exec, approveTierChange, bind_eq_ok, requireAdmin_eq_ok, pendingRequest_eq_ok,
    pure_eq_ok, exists_const]
  constructor
  · rintro ⟨hadmin, request, ⟨hstored, hpending⟩, rfl⟩
    exact ⟨request, ⟨hadmin, hstored, hpending⟩, rfl⟩
  · rintro ⟨request, ⟨hadmin, hstored, hpending⟩, rfl⟩
    exact ⟨hadmin, request, ⟨hstored, hpending⟩, rfl⟩

theorem rejectTierChange_eq_ok {admin : Address} {requestId : K.Digest} :
    exec env (.rejectTierChange admin requestId) w = .ok w' ↔ ∃ request,
      Answerable env w admin requestId request ∧ answer w requestId request .rejected = w' := by
  simp only [exec, rejectTierChange, bind_eq_ok, requireAdmin_eq_ok, pendingRequest_eq_ok,
    pure_eq_ok, exists_const]
  constructor
  · rintro ⟨hadmin, request, ⟨hstored, hpending⟩, rfl⟩
    exact ⟨request, ⟨hadmin, hstored, hpending⟩, rfl⟩
  · rintro ⟨request, ⟨hadmin, hstored, hpending⟩, rfl⟩
    exact ⟨hadmin, request, ⟨hstored, hpending⟩, rfl⟩

/-- A tier is deactivated by an update of that one field. -/
def deactivation : TierUpdate := ⟨none, none, none, some false, none⟩

/-- The tier that a call edits, and how. -/
def Call.edit {Digest : Type} : Call Address Digest → Option (BytesN32 × TierUpdate)
  | .updateTier _ tierId updates => some (tierId, updates)
  | .deactivateTier _ tierId => some (tierId, deactivation)
  | .setTierAdmin _ | .addTier _ _ | .requestTierChange _ _ _ | .approveTierChange _ _
  | .rejectTierChange _ _ | .createPromotion _ _ | .applyPromoCode _ _ => none

/-- What accepted calls leave alone that have no part in changes of tiers. -/
structure Same (w w' : ManageWorld C K) : Prop where
  tier : w'.store.tier = w.store.tier
  requests : w'.store.tierChangeRequest = w.store.tierChangeRequest
  list : w'.store.tierChangeRequestList = w.store.tierChangeRequestList
  userTier : w'.store.userTier = w.store.userTier

/-- What an accepted call does. -/
inductive Effect (env : Env C) (w : ManageWorld C K) :
    Call Address K.Digest → ManageWorld C K → Prop where
  | requests (user : Address) (newTierId : BytesN32) (sequence : ℕ) (current : BytesN32)
      (newTier currentTier : SubscriptionTier)
      (hrequest : Requestable env w user newTierId current newTier currentTier) :
      Effect env w (.requestTierChange user newTierId sequence)
        (file w (newRequest w user newTierId sequence current newTier currentTier))
  | approves (admin : Address) (requestId : K.Digest) (request : TierChangeRequest Address K.Digest)
      (hanswer : Answerable env w admin requestId request) :
      Effect env w (.approveTierChange admin requestId)
        (move (answer w requestId request .approved) request)
  | rejects (admin : Address) (requestId : K.Digest) (request : TierChangeRequest Address K.Digest)
      (hanswer : Answerable env w admin requestId request) :
      Effect env w (.rejectTierChange admin requestId) (answer w requestId request .rejected)
  | adds (admin : Address) (tier : SubscriptionTier) (hnew : w.store.tier tier.id = none) :
      Effect env w (.addTier admin tier) (w.setStore { setTierRecord w.store tier.id tier with
        tierList := some (w.store.tierList.getD [] ++ [tier.id]) })
  | edits (call : Call Address K.Digest) (tierId : BytesN32) (updates : TierUpdate)
      (tier : SubscriptionTier) (hedit : call.edit = some (tierId, updates))
      (htier : w.store.tier tierId = some (.subscription tier)) :
      Effect env w call (w.setStore (setTierRecord w.store tierId (updates.apply tier)))
  | others (call : Call Address K.Digest) (w' : ManageWorld C K) (hsame : Same w w')
      (hedit : call.edit = none)
      (hrequest : ∀ user newTierId sequence, call ≠ .requestTierChange user newTierId sequence)
      (happrove : ∀ admin requestId, call ≠ .approveTierChange admin requestId) :
      Effect env w call w'

theorem exec_effect {call : Call Address K.Digest} (h : exec env call w = .ok w') :
    Effect env w call w' := by
  cases call with
  | setTierAdmin admin =>
    simp only [exec, setTierAdmin, bind_eq_ok, pure_eq_ok] at h
    obtain ⟨_, _, rfl⟩ := h
    exact .others _ _ ⟨rfl, rfl, rfl, rfl⟩ rfl (by simp) (by simp)
  | addTier admin tier =>
    simp only [exec, addTier, bind_eq_ok, failIf_eq_ok, Option.not_isSome_iff_eq_none,
      pure_eq_ok] at h
    obtain ⟨_, _, _, hnew, rfl⟩ := h
    exact .adds admin tier hnew
  | updateTier admin tierId updates =>
    simp only [exec, updateTier, bind_eq_ok, readTier_eq_ok, pure_eq_ok] at h
    obtain ⟨_, _, tier, htier, rfl⟩ := h
    exact .edits _ tierId updates tier rfl htier
  | deactivateTier admin tierId =>
    simp only [exec, deactivateTier, bind_eq_ok, readTier_eq_ok, pure_eq_ok] at h
    obtain ⟨_, _, tier, htier, rfl⟩ := h
    exact .edits _ tierId deactivation tier rfl htier
  | requestTierChange user newTierId sequence =>
    obtain ⟨⟨id, _⟩, hok, rfl⟩ := map_eq_ok.mp h
    obtain ⟨current, newTier, currentTier, hrequest, _, rfl⟩ := requestTierChange_eq_ok.mp hok
    exact .requests user newTierId sequence current newTier currentTier hrequest
  | approveTierChange admin requestId =>
    obtain ⟨request, hanswer, rfl⟩ := approveTierChange_eq_ok.mp h
    exact .approves admin requestId request hanswer
  | rejectTierChange admin requestId =>
    obtain ⟨request, hanswer, rfl⟩ := rejectTierChange_eq_ok.mp h
    exact .rejects admin requestId request hanswer
  | createPromotion admin promo =>
    simp only [exec, createPromotion, bind_eq_ok, pure_eq_ok] at h
    obtain ⟨_, _, _, _, _, _, _, _, _, _, rfl⟩ := h
    exact .others _ _ ⟨rfl, rfl, rfl, rfl⟩ rfl (by simp) (by simp)
  | applyPromoCode user code =>
    simp only [exec, applyPromoCode, map_eq_ok, bind_eq_ok, pure_eq_ok] at h
    obtain ⟨_, ⟨_, _, _, _, _, _, _, _, _, _, _, _, _, _, _, _, _, _, rfl⟩, rfl⟩ := h
    exact .others _ _ ⟨rfl, rfl, rfl, rfl⟩ rfl (by simp) (by simp)

end HubAssist.ManageHub.Tiers
