import HubAssist.ManageHubModel
import HubAssist.TokenSteps
import HubAssist.RootOfTrust
import HubAssist.StakingLock

/-! The settings of the manage_hub contract that are the admin's to change, and the calls of its
modules that change them without a look at the stored admin. -/
namespace HubAssist.ManageHub
open SorobanHost ContractParts
open RootOfTrust (Trust holder_signed)

variable {Address : Type} [DecidableEq Address] {C : Chain Address} {K : Crypto Address}
variable {env : Env C} {w w' : ManageWorld C K} {p : Address}

structure Settings (Address : Type) where
  admin : Option Address
  config : Option Staking.StakingConfig
  tier : BytesN32 → Option TierRecord
  cooldownSecs : Option ℕ
  tierFeatures : TierLevel → Option (List FeatureFlag)
  merkleRoot : Option BytesN32
  merkleRootAmount : Option ℤ
  upgrade : Option (BytesN32 × ℕ)
  wasm : BytesN32

def Storage.settings {Digest : Type} (s : Storage Address Digest) : Settings Address where
  admin := s.admin
  config := s.config
  tier := s.tier
  cooldownSecs := s.cooldownSecs
  tierFeatures := s.tierFeatures
  merkleRoot := s.merkleRoot
  merkleRootAmount := s.merkleRootAmount
  upgrade := s.upgrade
  wasm := s.wasm

/-- The calls that write a setting without a look at the stored admin, where they are accepted and
what they write is not there already. Whoever signs as the admin of a configuration becomes the
stored one. -/
def Usurps (env : Env C) (w : ManageWorld C K) : Call Address K.Digest → Prop
  | .staking (.setStakingConfig admin _) => admin ∈ env.signers
  | .tiers (.setTierAdmin admin) => admin ∈ env.signers
  | .subscriptions (.setTier tierId tier) => w.store.tier tierId ≠ some (.subscription tier)
  | .subscriptions (.setTierFeatures admin tier features) =>
    admin ∈ env.signers ∧ w.store.tierFeatures tier ≠ some features
  | .rewards (.commitRewardsRoot admin merkleRoot totalAmount) => admin ∈ env.signers ∧
    ¬(w.store.merkleRoot = some merkleRoot ∧ w.store.merkleRootAmount = some totalAmount)
  | .upgrades (.upgrade admin newWasmHash) => admin ∈ env.signers ∧ w.store.wasm ≠ newWasmHash
  | .upgrades (.scheduleUpgrade admin newWasmHash executionTime) => admin ∈ env.signers ∧
    w.now < executionTime ∧ w.store.upgrade ≠ some (newWasmHash, executionTime)
  | .upgrades .executeScheduledUpgrade => ∃ scheduled, w.store.upgrade = some scheduled ∧
    scheduled.2 ≤ w.now
  | _ => False

namespace Tokens

omit [DecidableEq Address] in
theorem Issues.settings {Digest : Type} {s s' : Storage Address Digest} (h : Issues s s') :
    s'.settings = s.settings := by
  rw [h.rest]
  rfl

theorem batchTransferTokens_settings {params : List (TransferParams Address)}
    (h : batchTransferTokens env params w = .ok w') : w'.store.settings = w.store.settings := by
  simp only [batchTransferTokens, bind_eq_ok, pure_eq_ok] at h
  obtain ⟨s, hall, rfl⟩ := h
  exact (issues_transferAll hall).settings

theorem batchIssueTokens_admin {params : List (IssueParams Address)}
    (h : batchIssueTokens env params w = .ok w') :
    ∃ admin, w.store.admin = some admin ∧ admin ∈ env.signers := by
  simp only [batchIssueTokens, bind_eq_ok] at h
  obtain ⟨_, hadmin, _⟩ := h
  exact requireAdmin_eq_ok.mp hadmin

/-- What the module does without the signature of the stored admin leaves the settings alone. -/
theorem exec_settings {call : Call Address} (h : exec env call w = .ok w')
    (hp : w.store.admin = some p) (hsigned : p ∉ env.signers) :
    w'.store.settings = w.store.settings := by
  have hadmin (hstored : ∃ admin, w.store.admin = some admin ∧ admin ∈ env.signers) :
      w'.store.settings = w.store.settings := by
    obtain ⟨admin, hadmin, hs⟩ := hstored
    exact absurd (holder_signed hp hadmin hs) hsigned
  cases call with
  | setAdmin admin =>
    simp only [exec, setAdmin, hp, requireCurrent, bind_eq_ok, requireAuth_eq_ok] at h
    obtain ⟨_, hs, _⟩ := h
    exact absurd hs hsigned
  | issueToken id user expiryDate =>
    simp only [exec, issueToken, bind_eq_ok] at h
    obtain ⟨_, hcaller, _⟩ := h
    exact hadmin (requireAdmin_eq_ok.mp hcaller)
  | transferToken id newUser =>
    obtain ⟨_, hcall, _⟩ | ⟨s, hissues, rfl⟩ := exec_issues h
    · cases hcall
    · exact hissues.settings
  | revokeToken admin id =>
    simp only [exec, revokeToken, bind_eq_ok] at h
    obtain ⟨_, hcaller, _⟩ := h
    exact hadmin (requireAdmin_eq_ok.mp hcaller)
  | renewToken admin id newExpiry =>
    simp only [exec, renewToken, bind_eq_ok] at h
    obtain ⟨_, hcaller, _⟩ := h
    exact hadmin (requireAdmin_eq_ok.mp hcaller)
  | batchIssueTokens params => exact hadmin (batchIssueTokens_admin h)
  | batchTransferTokens params => exact batchTransferTokens_settings h

end Tokens

theorem Allowances.exec_settings {call : Allowances.Call Address}
    (h : Allowances.exec env call w = .ok w') : w'.store.settings = w.store.settings := by
  cases call with
  | approve owner spender tokenId expiry =>
    simp only [exec, approve, bind_eq_ok, pure_eq_ok] at h
    obtain ⟨_, _, _, _, rfl⟩ := h
    rfl
  | transferFrom spender sender receiver tokenId =>
    simp only [exec, transferFrom, bind_eq_ok, pure_eq_ok] at h
    obtain ⟨_, _, info, _, _, _, _, _, token, _, _, _, _, _, rfl⟩ := h
    rfl
  | revokeAllowance owner spender tokenId =>
    simp only [exec, revokeAllowance, bind_eq_ok, pure_eq_ok] at h
    obtain ⟨_, _, rfl⟩ := h
    rfl

theorem Batch.exec_settings {call : Batch.Call Address} (h : Batch.exec env call w = .ok w')
    (hp : w.store.admin = some p) (hsigned : p ∉ env.signers) :
    w'.store.settings = w.store.settings := by
  cases call with
  | batchMint params =>
    obtain ⟨_, _, hissue⟩ := bind_eq_ok.mp h
    obtain ⟨admin, hadmin, hs⟩ := Tokens.batchIssueTokens_admin hissue
    exact absurd (holder_signed hp hadmin hs) hsigned
  | batchTransfer params =>
    obtain ⟨_, _, htransfer⟩ := bind_eq_ok.mp h
    exact Tokens.batchTransferTokens_settings htransfer
  | batchUpdate params =>
    simp only [exec, batchUpdate, bind_eq_ok, pure_eq_ok] at h
    obtain ⟨_, _, s, hall, rfl⟩ := h
    rw [World.setStore_store, updateAll_rest hall]
    rfl

theorem Attendance.exec_settings {call : Attendance.Call Address}
    (h : Attendance.exec env call w = .ok w') : w'.store.settings = w.store.settings := by
  cases call with
  | logAttendance id userId action details =>
    simp only [exec, logAttendance, logAttendanceInternal, map_eq_ok, bind_eq_ok, pure_eq_ok] at h
    obtain ⟨_, ⟨_, _, _, _, rfl⟩, rfl⟩ := h
    rfl
  | logAttendanceInternal id userId action details =>
    simp only [exec, logAttendanceInternal, map_eq_ok, bind_eq_ok, pure_eq_ok] at h
    obtain ⟨_, ⟨_, _, rfl⟩, rfl⟩ := h
    rfl
  | aggregatePeakHours user daysWindow offsetHours =>
    simp only [exec, aggregatePeakHours, map_eq_ok, bind_eq_ok] at h
    obtain ⟨_, ⟨_, _, _, _, hcached⟩, rfl⟩ := h
    split at hcached
    · rw [← pure_eq_ok.mp hcached]
    · obtain ⟨result, _, hresult⟩ := bind_eq_ok.mp hcached
      rw [← pure_eq_ok.mp hresult]
      rfl

theorem Fractions.exec_settings {call : Fractions.Call Address}
    (h : Fractions.exec env call w = .ok w') : w'.store.settings = w.store.settings := by
  cases call with
  | applyRoyaltyOnTransfer transferAmount royaltyPercentage =>
    simp only [exec, applyRoyaltyOnTransfer, map_eq_ok, bind_eq_ok, pure_eq_ok] at h
    obtain ⟨_, ⟨_, _, _, _, _, _, rfl⟩, rfl⟩ := h
    rfl
  | splitToken owner fractionCount =>
    simp only [exec, splitToken, map_eq_ok, bind_eq_ok, pure_eq_ok] at h
    obtain ⟨_, ⟨_, _, _, _, _, _, rfl⟩, rfl⟩ := h
    rfl

namespace Tiers

theorem requireAdmin_eq_ok {admin : Address} {u : Unit} :
    requireAdmin env w admin = .ok u ↔ w.store.admin = some admin ∧ admin ∈ env.signers := by
  simp only [requireAdmin, bind_eq_ok, getOr_eq_ok, failIf_eq_ok, requireAuth_eq_ok, exists_const,
    not_not]
  constructor
  · rintro ⟨stored, hstored, rfl, hs⟩
    exact ⟨hstored, hs⟩
  · intro h
    exact ⟨admin, h.1, rfl, h.2⟩

/-- Of the calls of the module, `setTierAdmin` alone does not ask for the stored admin. -/
theorem exec_settings {call : Call Address K.Digest} (h : exec env call w = .ok w')
    (hp : w.store.admin = some p) (hsigned : p ∉ env.signers)
    (hcall : ¬Usurps env w (.tiers call)) : w'.store.settings = w.store.settings := by
  have hadmin {admin : Address} {u : Unit} (hcaller : requireAdmin env w admin = .ok u) :
      w'.store.settings = w.store.settings := by
    obtain ⟨hstored, hs⟩ := requireAdmin_eq_ok.mp hcaller
    exact absurd (holder_signed hp hstored hs) hsigned
  cases call with
  | setTierAdmin admin =>
    obtain ⟨_, hs, _⟩ := bind_eq_ok.mp h
    exact absurd (requireAuth_eq_ok.mp hs) hcall
  | addTier admin tier =>
    obtain ⟨_, hcaller, _⟩ := bind_eq_ok.mp h
    exact hadmin hcaller
  | updateTier admin tierId updates =>
    obtain ⟨_, hcaller, _⟩ := bind_eq_ok.mp h
    exact hadmin hcaller
  | deactivateTier admin tierId =>
    obtain ⟨_, hcaller, _⟩ := bind_eq_ok.mp h
    exact hadmin hcaller
  | requestTierChange user newTierId sequence =>
    simp only [exec, requestTierChange, map_eq_ok, bind_eq_ok, pure_eq_ok] at h
    obtain ⟨_, ⟨_, _, _, _, _, _, _, _, _, _, rfl⟩, rfl⟩ := h
    rfl
  | approveTierChange admin requestId =>
    obtain ⟨_, hcaller, _⟩ := bind_eq_ok.mp h
    exact hadmin hcaller
  | rejectTierChange admin requestId =>
    obtain ⟨_, hcaller, _⟩ := bind_eq_ok.mp h
    exact hadmin hcaller
  | createPromotion admin promo =>
    obtain ⟨_, hcaller, _⟩ := bind_eq_ok.mp h
    exact hadmin hcaller
  | applyPromoCode user code =>
    simp only [exec, applyPromoCode, map_eq_ok, bind_eq_ok, pure_eq_ok] at h
    obtain ⟨_, ⟨_, _, _, _, _, _, _, _, _, _, _, _, _, _, _, _, _, _, rfl⟩, rfl⟩ := h
    rfl

end Tiers

/-- A setting is written by a call that is accepted whoever the admin is, where it was not there
already. -/
theorem Subscriptions.exec_settings {call : Subscriptions.Call Address}
    (h : Subscriptions.exec env call w = .ok w') (hcall : ¬Usurps env w (.subscriptions call)) :
    w'.store.settings = w.store.settings := by
  cases call with
  | setTierFeatures admin tier features =>
    simp only [exec, setTierFeatures, bind_eq_ok, requireAuth_eq_ok, pure_eq_ok] at h
    obtain ⟨_, hs, rfl⟩ := h
    have hsame : w.store.tierFeatures tier = some features := by
      by_contra hne
      exact hcall ⟨hs, hne⟩
    have hkept : Function.update w.store.tierFeatures tier (some features) =
        w.store.tierFeatures := by rw [← hsame, Function.update_eq_self]
    simp only [Storage.settings, World.setStore_store, hkept]
  | setTier tierId tier =>
    obtain rfl := pure_eq_ok.mp h
    have hsame : w.store.tier tierId = some (.subscription tier) := not_not.mp hcall
    have hkept : Function.update w.store.tier tierId (some (.subscription tier)) =
        w.store.tier := by rw [← hsame, Function.update_eq_self]
    simp only [Storage.settings, setTierRecord, World.setStore_store, hkept]
  | createSubscription user paymentToken amount tierId billingCycle sequence =>
    simp only [exec, createSubscription, map_eq_ok, bind_eq_ok, World.transfer_eq_ok,
      pure_eq_ok] at h
    obtain ⟨_, ⟨_, _, _, _, _, _, _, ⟨_, _, rfl⟩, _, _, rfl⟩, rfl⟩ := h
    rfl
  | cancelSubscription user =>
    simp only [exec, cancelSubscription, bind_eq_ok, pure_eq_ok] at h
    obtain ⟨_, _, _, _, _, _, rfl⟩ := h
    rfl
  | pauseSubscription user reason =>
    simp only [exec, pauseSubscription, bind_eq_ok, pure_eq_ok] at h
    obtain ⟨_, _, _, _, _, _, _, _, _, _, _, _, rfl⟩ := h
    rfl
  | resumeSubscription user =>
    simp only [exec, resumeSubscription, bind_eq_ok, pure_eq_ok] at h
    obtain ⟨_, _, _, _, _, _, _, _, _, _, rfl⟩ := h
    rfl
  | renewSubscription user =>
    simp only [exec, renewSubscription, bind_eq_ok, World.transfer_eq_ok, pure_eq_ok] at h
    obtain ⟨_, _, _, _, _, _, _, ⟨_, _, rfl⟩, _, _, rfl⟩ := h
    rfl

theorem Rewards.exec_settings {call : Rewards.Call Address} (h : Rewards.exec env call w = .ok w')
    (hcall : ¬Usurps env w (.rewards call)) : w'.store.settings = w.store.settings := by
  cases call with
  | commitRewardsRoot admin merkleRoot totalAmount =>
    simp only [exec, commitRewardsRoot, bind_eq_ok, requireAuth_eq_ok, pure_eq_ok] at h
    obtain ⟨_, hs, rfl⟩ := h
    obtain ⟨hroot, hamount⟩ := not_not.mp fun hne => hcall ⟨hs, hne⟩
    simp only [Storage.settings, World.setStore_store, hroot, hamount]
  | claimReward claimant amount proof =>
    simp only [exec, claimReward, bind_eq_ok, World.transfer_eq_ok, pure_eq_ok] at h
    obtain ⟨_, _, _, _, _, _, _, _, _, _, _, ⟨_, _, rfl⟩, rfl⟩ := h
    rfl

theorem Upgrades.exec_settings {call : Upgrades.Call Address}
    (h : Upgrades.exec env call w = .ok w') (hcall : ¬Usurps env w (.upgrades call)) :
    w'.store.settings = w.store.settings := by
  cases call with
  | upgrade admin newWasmHash =>
    simp only [exec, upgrade, bind_eq_ok, requireAuth_eq_ok, pure_eq_ok] at h
    obtain ⟨_, hs, rfl⟩ := h
    have hwasm : w.store.wasm = newWasmHash := not_not.mp fun hne => hcall ⟨hs, hne⟩
    simp only [Storage.settings, World.setStore_store, hwasm]
  | scheduleUpgrade admin newWasmHash executionTime =>
    simp only [exec, scheduleUpgrade, bind_eq_ok, requireAuth_eq_ok, failIf_eq_ok,
      pure_eq_ok] at h
    obtain ⟨_, hs, _, htime, rfl⟩ := h
    have hscheduled : w.store.upgrade = some (newWasmHash, executionTime) :=
      not_not.mp fun hne => hcall ⟨hs, not_le.mp htime, hne⟩
    simp only [Storage.settings, World.setStore_store, hscheduled]
  | executeScheduledUpgrade =>
    simp only [exec, executeScheduledUpgrade, bind_eq_ok, getOr_eq_ok, failIf_eq_ok] at h
    obtain ⟨scheduled, hscheduled, _, htime, _⟩ := h
    exact absurd ⟨scheduled, hscheduled, not_lt.mp htime⟩ hcall
  | migrateV1ToV2 admin =>
    obtain ⟨_, _, hversion⟩ := bind_eq_ok.mp h
    split at hversion
    · rw [← pure_eq_ok.mp hversion]
    · rw [← pure_eq_ok.mp hversion]
      rfl

theorem stakingAdmin_eq_ok {v : Staking.StakingWorld C} {admin : Address} {u : Unit} :
    Staking.requireAdmin env v admin = .ok u ↔
      v.store.admin = some admin ∧ admin ∈ env.signers := by
  simp only [Staking.requireAdmin, bind_eq_ok, getOr_eq_ok, failIf_eq_ok, requireAuth_eq_ok,
    exists_const, not_not]
  constructor
  · rintro ⟨stored, hstored, rfl, hs⟩
    exact ⟨hstored, hs⟩
  · intro h
    exact ⟨admin, h.1, rfl, h.2⟩

/-- The calls on stakes write none of the four settings that this module can see. -/
theorem staking_kept {v v' : Staking.StakingWorld C} {call : Staking.Call Address}
    (h : Staking.exec env call v = .ok v') (hp : v.store.admin = some p)
    (hsigned : p ∉ env.signers)
    (hcall : ∀ admin config, call = .setStakingConfig admin config → admin ∉ env.signers) :
    v'.store.admin = v.store.admin ∧ v'.store.config = v.store.config ∧
      v'.store.tier = v.store.tier ∧ v'.store.cooldownSecs = v.store.cooldownSecs := by
  cases Staking.exec_effect h with
  | configures admin config =>
    obtain ⟨_, hs, _⟩ := bind_eq_ok.mp h
    exact absurd (requireAuth_eq_ok.mp hs) (hcall admin config rfl)
  | addsTier admin tier =>
    obtain ⟨hadmin, hs⟩ := Staking.addStakingTier_admin h
    exact absurd (holder_signed hp hadmin hs) hsigned
  | setsCooldown admin days secs =>
    obtain ⟨_, hcaller, _⟩ := bind_eq_ok.mp h
    obtain ⟨hadmin, hs⟩ := stakingAdmin_eq_ok.mp hcaller
    exact absurd (holder_signed hp hadmin hs) hsigned
  | stakes => exact ⟨rfl, rfl, rfl, rfl⟩
  | unstakes => exact ⟨rfl, rfl, rfl, rfl⟩
  | unstakesPart => exact ⟨rfl, rfl, rfl, rfl⟩
  | withdraws => exact ⟨rfl, rfl, rfl, rfl⟩
  | leaves => exact ⟨rfl, rfl, rfl, rfl⟩
  | claimsStaking => exact ⟨rfl, rfl, rfl, rfl⟩
  | claimsRewards => exact ⟨rfl, rfl, rfl, rfl⟩
  | nothingDue => exact ⟨rfl, rfl, rfl, rfl⟩

omit [DecidableEq Address] in
/-- Tiers put back as they were seen are the tiers there were. -/
theorem stakingPart_tier {Digest : Type} (s : Storage Address Digest) (id : BytesN32) :
    (((stakingPart.get s).tier id).map TierRecord.staking).or (s.tier id) = s.tier id := by
  change (((s.tier id).bind TierRecord.staking?).map TierRecord.staking).or (s.tier id) = s.tier id
  cases s.tier id with
  | none => rfl
  | some record => cases record <;> rfl

theorem staking_settings {call : Staking.Call Address}
    (h : stakingPart.call ModuleError.staking (Staking.exec env call) w = .ok w')
    (hp : w.store.admin = some p) (hsigned : p ∉ env.signers)
    (hcall : ¬Usurps env w (.staking call)) : w'.store.settings = w.store.settings := by
  obtain ⟨v, hv, rfl⟩ := Part.call_eq_ok.mp h
  have hconfig (admin : Address) (config : Staking.StakingConfig)
      (heq : call = .setStakingConfig admin config) : admin ∉ env.signers := by
    subst heq
    exact hcall
  obtain ⟨hadmin, hconfig, htier, hcooldown⟩ := staking_kept hv hp hsigned hconfig
  have htiers : (stakingPart.put w.store v.store).tier = w.store.tier := by
    funext id
    change ((v.store.tier id).map TierRecord.staking).or (w.store.tier id) = w.store.tier id
    rw [htier]
    exact stakingPart_tier w.store id
  rw [withStore_store, Storage.settings, htiers]
  change Settings.mk v.store.admin v.store.config _ v.store.cooldownSecs _ _ _ _ _ = _
  rw [hadmin, hconfig, hcooldown]
  rfl

/-- Without the signature of the stored admin, a call that does not usurp leaves the settings
alone. -/
theorem exec_settings {call : Call Address K.Digest} (h : exec env call w = .ok w')
    (hp : w.store.admin = some p) (hsigned : p ∉ env.signers) (hcall : ¬Usurps env w call) :
    w'.store.settings = w.store.settings := by
  cases call with
  | staking call => exact staking_settings h hp hsigned hcall
  | rewards call => exact Rewards.exec_settings h hcall
  | tokens call => exact Tokens.exec_settings h hp hsigned
  | allowances call => exact Allowances.exec_settings h
  | batch call => exact Batch.exec_settings h hp hsigned
  | tiers call => exact Tiers.exec_settings h hp hsigned hcall
  | subscriptions call => exact Subscriptions.exec_settings h hcall
  | attendance call => exact Attendance.exec_settings h
  | upgrades call => exact Upgrades.exec_settings h hcall
  | fractions call => exact Fractions.exec_settings h

/-- A call that usurps is accepted and changes the settings, whatever the stored admin signs. -/
theorem usurps_moves {call : Call Address K.Digest} (hp : w.store.admin = some p)
    (hsigned : p ∉ env.signers) (hcall : Usurps env w call) :
    ∃ w', exec env call w = .ok w' ∧ w'.store.settings ≠ w.store.settings := by
  -- whoever signs is not the stored admin
  have hother {admin : Address} (hs : admin ∈ env.signers) : some admin ≠ w.store.admin := by
    rw [hp]
    exact fun heq => hsigned (Option.some.inj heq ▸ hs)
  unfold Usurps at hcall
  split at hcall
  · next admin config =>
    refine ⟨_, Part.call_eq_ok.mpr ⟨_, bind_eq_ok.mpr ⟨(), requireAuth_eq_ok.mpr hcall, rfl⟩, rfl⟩,
      fun hsame => hother hcall ?_⟩
    exact congrArg Settings.admin hsame
  · next admin =>
    refine ⟨_, bind_eq_ok.mpr ⟨(), requireAuth_eq_ok.mpr hcall, rfl⟩, fun hsame => hother hcall ?_⟩
    exact congrArg Settings.admin hsame
  · next tierId tier =>
    refine ⟨_, rfl, fun hsame => hcall ?_⟩
    have htier := congrFun (congrArg Settings.tier hsame) tierId
    exact htier.symm.trans (Function.update_self ..)
  · next admin tier features =>
    obtain ⟨hs, hne⟩ := hcall
    refine ⟨_, bind_eq_ok.mpr ⟨(), requireAuth_eq_ok.mpr hs, rfl⟩, fun hsame => hne ?_⟩
    have hfeatures := congrFun (congrArg Settings.tierFeatures hsame) tier
    exact hfeatures.symm.trans (Function.update_self ..)
  · next admin merkleRoot totalAmount =>
    obtain ⟨hs, hne⟩ := hcall
    refine ⟨_, bind_eq_ok.mpr ⟨(), requireAuth_eq_ok.mpr hs, rfl⟩, fun hsame => hne ⟨?_, ?_⟩⟩
    · exact (congrArg Settings.merkleRoot hsame).symm
    · exact (congrArg Settings.merkleRootAmount hsame).symm
  · next admin newWasmHash =>
    obtain ⟨hs, hne⟩ := hcall
    refine ⟨_, bind_eq_ok.mpr ⟨(), requireAuth_eq_ok.mpr hs, rfl⟩, fun hsame => hne ?_⟩
    exact (congrArg Settings.wasm hsame).symm
  · next admin newWasmHash executionTime =>
    obtain ⟨hs, htime, hne⟩ := hcall
    refine ⟨_, bind_eq_ok.mpr ⟨(), requireAuth_eq_ok.mpr hs, bind_eq_ok.mpr
      ⟨(), failIf_eq_ok.mpr (not_le.mpr htime), rfl⟩⟩, fun hsame => hne ?_⟩
    exact (congrArg Settings.upgrade hsame).symm
  · obtain ⟨scheduled, hscheduled, htime⟩ := hcall
    refine ⟨_, bind_eq_ok.mpr ⟨scheduled, getOr_eq_ok.mpr hscheduled, bind_eq_ok.mpr
      ⟨(), failIf_eq_ok.mpr (not_lt.mpr htime), rfl⟩⟩, fun hsame => ?_⟩
    -- the schedule is gone once it has been executed
    have hgone : none = w.store.upgrade := congrArg Settings.upgrade hsame
    exact Option.some_ne_none scheduled (hscheduled.symm.trans hgone.symm)
  · exact hcall.elim

def SignedBy (p : Address) : Action C (Call Address K.Digest) → Prop
  | .invoke env _ => p ∈ env.signers
  | .tick _ | .external _ _ => False

def Takeover (w : ManageWorld C K) : Action C (Call Address K.Digest) → Prop
  | .invoke env call => Usurps env w call
  | .tick _ | .external _ _ => False

theorem step_settings (w : ManageWorld C K) (a : Action C (Call Address K.Digest))
    (hp : w.store.admin = some p) (hsigned : ¬SignedBy p a) :
    (step exec w a).store.settings = w.store.settings ↔ ¬Takeover w a := by
  cases a with
  | tick => exact ⟨fun _ h => h, fun _ => rfl⟩
  | external token next =>
    refine ⟨fun _ h => h, fun _ => ?_⟩
    rw [step_external_store]
  | invoke env call =>
    by_cases hcall : Usurps env w call
    · obtain ⟨w', hok, hmoved⟩ := usurps_moves hp hsigned hcall
      rw [step_invoke_ok hok]
      exact ⟨fun hsame => absurd hsame hmoved, fun h => absurd hcall h⟩
    · refine ⟨fun _ => hcall, fun _ => ?_⟩
      cases hok : exec env call w with
      | ok w' =>
        rw [step_invoke_ok hok]
        exact exec_settings hok hp hsigned hcall
      | error fault => rw [step_invoke_error hok]

/-- The settings are the root of trust of the contract, and the admin among them their holder. -/
def trust (C : Chain Address) (K : Crypto Address) :
    Trust (ManageWorld C K) (Action C (Call Address K.Digest)) (Settings Address) Address where
  step := step exec
  root w := w.store.settings
  holder := Settings.admin
  Authorised := SignedBy
  Takeover := Takeover
  kept_iff w a _ hp hsigned := step_settings w a hp hsigned

/-- In any run, every call that changes the settings is signed by the one who was the stored admin
before it exactly when no other call usurps them. -/
theorem privilege_separation_iff (w : ManageWorld C K)
    (as : List (Action C (Call Address K.Digest))) :
    (trust C K).Sanctioned w as ↔ (trust C K).Respected w as :=
  (trust C K).sanctioned_iff w as

/-- Digests that are the bytes themselves. -/
def plainCrypto : Crypto ℕ where
  Digest := List UInt8
  decEq := inferInstance
  sha256 bytes := bytes
  zeroBytes := List.replicate 32 0
  toBytes bytes := bytes
  addressToXdr a := toLeBytes 8 a
  u32ToXdr n := toLeBytes 4 n

/-- The contract as it is deployed. -/
def smallStart : ManageWorld numberedChain plainCrypto :=
  ⟨Storage.empty 0, fun _ _ => (0 : ℕ), [], 0⟩

/-- Account 1 is made the admin, and account 2 makes itself the admin by a configuration. -/
theorem configuration_not_sanctioned :
    ¬(trust numberedChain plainCrypto).Sanctioned smallStart
      [.invoke (signedBy 0) (.tokens (.setAdmin 1)),
        .invoke (signedBy 1) (.staking (.setStakingConfig 2 ⟨0, 0, 0⟩))] := by
  rintro ⟨_, hsecond, _⟩
  have hmoved : (some 2 : Option ℕ) ≠ some 1 := by decide
  have hsigned := hsecond 1 rfl fun hsame => hmoved (congrArg Settings.admin hsame)
  exact absurd hsigned (by decide : 1 ∉ (signedBy 1).signers)

end HubAssist.ManageHub
