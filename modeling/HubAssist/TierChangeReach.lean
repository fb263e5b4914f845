import HubAssist.TierChangeSteps
import HubAssist.AttendanceLogSteps
import HubAssist.SubscriptionSteps

/-! Changes of tiers in the deployed contract: no user ever has a tier, so no request can be made,
and no module but tier_management writes the tier of a user or a request. -/
namespace HubAssist.ManageHub
open SorobanHost ContractParts RunSystem

variable {Address : Type} [DecidableEq Address] {C : Chain Address} {K : Crypto Address}
variable {env : Env C} {w w' : ManageWorld C K}

/-- The tiers of the users and the requests for a change are left alone. -/
structure Apart (w w' : ManageWorld C K) : Prop where
  userTier : w'.store.userTier = w.store.userTier
  requests : w'.store.tierChangeRequest = w.store.tierChangeRequest

theorem Rewards.exec_apart {call : Rewards.Call Address}
    (h : Rewards.exec env call w = .ok w') : Apart w w' := by
  cases call with
  | commitRewardsRoot admin merkleRoot totalAmount =>
    simp only [exec, commitRewardsRoot, bind_eq_ok, pure_eq_ok] at h
    obtain ⟨_, _, rfl⟩ := h
    exact ⟨rfl, rfl⟩
  | claimReward claimant amount proof =>
    simp only [exec, claimReward, bind_eq_ok, World.transfer_eq_ok, pure_eq_ok] at h
    obtain ⟨_, _, _, _, _, _, _, _, _, _, _, ⟨_, _, rfl⟩, rfl⟩ := h
    exact ⟨rfl, rfl⟩

theorem Tokens.Issues.apart {s : Storage Address K.Digest} (h : Tokens.Issues w.store s) :
    Apart w (w.setStore s) := by
  constructor <;> rw [World.setStore_store, h.rest]

theorem Tokens.exec_apart {call : Tokens.Call Address} (h : Tokens.exec env call w = .ok w') :
    Apart w w' := by
  rcases Tokens.exec_issues h with ⟨admin, _, rfl⟩ | ⟨s, hissues, rfl⟩
  · exact ⟨rfl, rfl⟩
  · exact hissues.apart

theorem Allowances.exec_apart {call : Allowances.Call Address}
    (h : Allowances.exec env call w = .ok w') : Apart w w' := by
  cases call with
  | approve owner spender tokenId expiry =>
    simp only [exec, approve, bind_eq_ok, pure_eq_ok] at h
    obtain ⟨_, _, _, _, rfl⟩ := h
    exact ⟨rfl, rfl⟩
  | transferFrom spender sender receiver tokenId =>
    simp only [exec, transferFrom, bind_eq_ok, pure_eq_ok] at h
    obtain ⟨_, _, _, _, _, _, _, _, _, _, _, _, _, _, rfl⟩ := h
    exact ⟨rfl, rfl⟩
  | revokeAllowance owner spender tokenId =>
    simp only [exec, revokeAllowance, bind_eq_ok, pure_eq_ok] at h
    obtain ⟨_, _, rfl⟩ := h
    exact ⟨rfl, rfl⟩

theorem Batch.exec_apart {call : Batch.Call Address} (h : Batch.exec env call w = .ok w') :
    Apart w w' := by
  cases call with
  | batchMint params =>
    obtain ⟨_, _, hissue⟩ := bind_eq_ok.mp h
    have htokens : Tokens.exec env (.batchIssueTokens params) w = .ok w' := hissue
    exact Tokens.exec_apart htokens
  | batchTransfer params =>
    obtain ⟨_, _, htransfer⟩ := bind_eq_ok.mp h
    have htokens : Tokens.exec env (.batchTransferTokens params) w = .ok w' := htransfer
    exact Tokens.exec_apart htokens
  | batchUpdate params =>
    simp only [exec, batchUpdate, bind_eq_ok, pure_eq_ok] at h
    obtain ⟨_, _, s, hall, rfl⟩ := h
    constructor <;> rw [World.setStore_store, updateAll_rest hall]

theorem Subscriptions.exec_apart {call : Subscriptions.Call Address}
    (h : Subscriptions.exec env call w = .ok w') : Apart w w' := by
  cases call with
  | setTierFeatures admin tier features =>
    simp only [exec, setTierFeatures, bind_eq_ok, pure_eq_ok] at h
    obtain ⟨_, _, rfl⟩ := h
    exact ⟨rfl, rfl⟩
  | setTier tierId tier =>
    obtain rfl := pure_eq_ok.mp h
    exact ⟨rfl, rfl⟩
  | createSubscription user paymentToken amount tierId billingCycle sequence =>
    obtain ⟨_, _, _, _, rfl⟩ := createSubscription_eq_ok.mp h
    exact ⟨rfl, rfl⟩
  | cancelSubscription user =>
    obtain ⟨_, _, _, _, rfl⟩ := cancelSubscription_eq_ok.mp h
    exact ⟨rfl, rfl⟩
  | pauseSubscription user reason =>
    obtain ⟨_, _, _, _, _, _, rfl⟩ := pauseSubscription_eq_ok.mp h
    exact ⟨rfl, rfl⟩
  | resumeSubscription user =>
    obtain ⟨_, _, rfl⟩ := resumeSubscription_eq_ok.mp h
    exact ⟨rfl, rfl⟩
  | renewSubscription user =>
    obtain ⟨_, _, _, _, rfl⟩ := renewSubscription_eq_ok.mp h
    exact ⟨rfl, rfl⟩

theorem Attendance.exec_apart {call : Attendance.Call Address}
    (h : Attendance.exec env call w = .ok w') : Apart w w' := by
  cases Attendance.exec_effect h <;> exact ⟨rfl, rfl⟩

theorem Upgrades.exec_apart {call : Upgrades.Call Address}
    (h : Upgrades.exec env call w = .ok w') : Apart w w' := by
  cases call with
  | upgrade admin newWasmHash =>
    simp only [exec, upgrade, bind_eq_ok, pure_eq_ok] at h
    obtain ⟨_, _, rfl⟩ := h
    exact ⟨rfl, rfl⟩
  | scheduleUpgrade admin newWasmHash executionTime =>
    simp only [exec, scheduleUpgrade, bind_eq_ok, pure_eq_ok] at h
    obtain ⟨_, _, _, _, rfl⟩ := h
    exact ⟨rfl, rfl⟩
  | executeScheduledUpgrade =>
    simp only [exec, executeScheduledUpgrade, bind_eq_ok, pure_eq_ok] at h
    obtain ⟨_, _, _, _, rfl⟩ := h
    exact ⟨rfl, rfl⟩
  | migrateV1ToV2 admin =>
    obtain ⟨_, _, hmigrate⟩ := bind_eq_ok.mp h
    split_ifs at hmigrate
    · obtain rfl := pure_eq_ok.mp hmigrate
      exact ⟨rfl, rfl⟩
    · obtain rfl := pure_eq_ok.mp hmigrate
      exact ⟨rfl, rfl⟩

theorem Fractions.exec_apart {call : Fractions.Call Address}
    (h : Fractions.exec env call w = .ok w') : Apart w w' := by
  cases call with
  | applyRoyaltyOnTransfer transferAmount royaltyPercentage =>
    simp only [exec, applyRoyaltyOnTransfer, map_eq_ok, bind_eq_ok, pure_eq_ok] at h
    obtain ⟨_, ⟨_, _, _, _, _, _, rfl⟩, rfl⟩ := h
    exact ⟨rfl, rfl⟩
  | splitToken owner fractionCount =>
    simp only [exec, splitToken, map_eq_ok, bind_eq_ok, pure_eq_ok] at h
    obtain ⟨_, ⟨_, _, _, _, _, _, rfl⟩, rfl⟩ := h
    exact ⟨rfl, rfl⟩

/-- Nobody has a tier, and there is no request for another one. -/
structure Unreached (w : ManageWorld C K) : Prop where
  userTier : ∀ user, w.store.userTier user = none
  requests : ∀ id, w.store.tierChangeRequest id = none

theorem Unreached.apart (h : Unreached w) (hapart : Apart w w') : Unreached w' := by
  refine ⟨fun user => ?_, fun id => ?_⟩
  · rw [hapart.userTier]
    exact h.userTier user
  · rw [hapart.requests]
    exact h.requests id

/-- The one writer of the tier of a user needs a request, and the one writer of requests needs the
tier of a user. -/
theorem Unreached.tiers (h : Unreached w) {call : Tiers.Call Address K.Digest}
    (hok : Tiers.exec env call w = .ok w') : Unreached w' := by
  cases Tiers.exec_effect hok with
  | requests user newTierId sequence current newTier currentTier hrequest =>
    exact nomatch (h.userTier user).symm.trans hrequest.held
  | approves admin requestId request hanswer =>
    exact nomatch (h.requests requestId).symm.trans hanswer.stored
  | rejects admin requestId request hanswer =>
    exact nomatch (h.requests requestId).symm.trans hanswer.stored
  | adds => exact h.apart ⟨rfl, rfl⟩
  | edits => exact h.apart ⟨rfl, rfl⟩
  | others _ _ hsame _ _ _ => exact h.apart ⟨hsame.userTier, hsame.requests⟩

theorem Unreached.call (h : Unreached w) {call : Call Address K.Digest}
    (hok : exec env call w = .ok w') : Unreached w' := by
  cases call with
  | staking call =>
    obtain ⟨v, _, rfl⟩ := Part.call_eq_ok.mp hok
    exact h.apart ⟨rfl, rfl⟩
  | rewards call => exact h.apart (Rewards.exec_apart hok)
  | tokens call => exact h.apart (Tokens.exec_apart hok)
  | allowances call => exact h.apart (Allowances.exec_apart hok)
  | batch call => exact h.apart (Batch.exec_apart hok)
  | tiers call => exact h.tiers hok
  | subscriptions call => exact h.apart (Subscriptions.exec_apart hok)
  | attendance call => exact h.apart (Attendance.exec_apart hok)
  | upgrades call => exact h.apart (Upgrades.exec_apart hok)
  | fractions call => exact h.apart (Fractions.exec_apart hok)

theorem unreached_run (wasm : BytesN32) (tokens : Address → C.token.State) (now : ℕ)
    (as : List (Action C (Call Address K.Digest))) :
    Unreached (run exec (deployed wasm tokens now : ManageWorld C K) as) := by
  have hstart : Unreached (deployed wasm tokens now : ManageWorld C K) :=
    ⟨fun _ => rfl, fun _ => rfl⟩
  have hstep (v : ManageWorld C K) (a : Action C (Call Address K.Digest)) (hv : Unreached v) :
      Unreached (step exec v a) :=
    step_keeps Unreached hv (fun _ _ _ _ hok => hv.call hok)
      (fun _ _ => ⟨hv.userTier, hv.requests⟩) fun _ _ _ _ => ⟨hv.userTier, hv.requests⟩
  exact run_invariant_all (step exec) hstep hstart as

/-- In every state that any calls of any modules lead the deployed contract to, no user has a tier,
no request for another tier is stored, and every call to make, approve or reject one fails. -/
theorem tier_changes_unreachable (wasm : BytesN32) (tokens : Address → C.token.State) (now : ℕ)
    (as : List (Action C (Call Address K.Digest))) :
    let w : ManageWorld C K := run exec (deployed wasm tokens now) as
    (∀ user, w.store.userTier user = none) ∧ (∀ id, w.store.tierChangeRequest id = none) ∧
      ∀ (env : Env C) (w' : ManageWorld C K),
        (∀ user newTierId sequence,
          Tiers.exec env (.requestTierChange user newTierId sequence) w ≠ .ok w') ∧
        (∀ admin requestId, Tiers.exec env (.approveTierChange admin requestId) w ≠ .ok w') ∧
        ∀ admin requestId, Tiers.exec env (.rejectTierChange admin requestId) w ≠ .ok w' := by
  intro w
  have hw : Unreached w := unreached_run wasm tokens now as
  refine ⟨hw.userTier, hw.requests, fun env w' => ⟨?_, ?_, ?_⟩⟩
  · intro user newTierId sequence hok
    obtain ⟨⟨_, _⟩, hrequest, _⟩ := map_eq_ok.mp hok
    obtain ⟨_, _, _, hrequestable, _⟩ := Tiers.requestTierChange_eq_ok.mp hrequest
    exact nomatch (hw.userTier user).symm.trans hrequestable.held
  · intro admin requestId hok
    obtain ⟨request, hanswer, _⟩ := Tiers.approveTierChange_eq_ok.mp hok
    exact nomatch (hw.requests requestId).symm.trans hanswer.stored
  · intro admin requestId hok
    obtain ⟨request, hanswer, _⟩ := Tiers.rejectTierChange_eq_ok.mp hok
    exact nomatch (hw.requests requestId).symm.trans hanswer.stored

end HubAssist.ManageHub
