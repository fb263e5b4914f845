import HubAssist.StakingSolvency
import HubAssist.StakingAccrual

/-! What one stake yields between the call that makes it and the call that ends it, against
the exact reward of its amount over that time. The four paying functions keep their accounts
by two different checkpoints, and agree as long as no function pays what another has paid. -/
namespace HubAssist.Staking
open SorobanHost CheckedArith RunSystem

variable {Address : Type} [DecidableEq Address] {C : Chain Address}
variable {env : Env C} {w w' : StakingWorld C} {call : Call Address} {staker : Address}

/-- What a stake has yielded, and when the rewards module last paid on it. -/
structure Account where
  yielded : ℤ
  lastClaim : ℕ

/-- The reward part of the withdrawal that joins the queue of `staker`. -/
def queuedReward (w w' : StakingWorld C) (staker : Address) : ℤ :=
  match (getPendingWithdrawals w' staker).getLast? with
  | some withdrawal => withdrawal.amount-(held w staker-held w' staker)
  | none => 0

/-- The account of the stake of `staker` after an accepted call. -/
def Account.after (g : Account) (staker : Address) (w w' : StakingWorld C) :
    Call Address → Account
  | .unstake s | .partialUnstake s _ =>
    if s = staker then { g with yielded := g.yielded+queuedReward w w' staker } else g
  | .claimStakingRewards s =>
    if s = staker then { g with yielded := g.yielded+sent w w' } else g
  | .claimRewards s =>
    if s = staker then
      ⟨g.yielded+sent w w', if 0 < sent w w' then w.now else g.lastClaim⟩
    else g
  | _ => g

def recordYield (staker : Address) :
    StakingWorld C → Action C (Call Address) → Account → Account :=
  recordCalls exec fun call w w' g => g.after staker w w' call

/-- The staking module pays on the stake only if the tier's multiplier takes nothing from the
base rate and the rewards module has not paid since its own checkpoint; the final unstake comes
only when nothing has been claimed. -/
def Undoubled (staker : Address) (s : StakingWorld C × Account) : Action C (Call Address) → Prop
  | .invoke env (.claimStakingRewards claimer) => claimer = staker → staker ∈ env.signers →
    ∀ info tier, s.1.store.stake staker = some info → s.1.store.tier info.tierId = some tier →
      10000 ≤ tier.rewardMultiplierBps ∧ s.2.lastClaim ≤ info.stakeTimestamp
  | .invoke env (.partialUnstake leaver amount) => leaver = staker → staker ∈ env.signers →
    ∀ info tier, s.1.store.stake staker = some info → s.1.store.tier info.tierId = some tier →
      0 < amount → amount ≤ info.amount →
        10000 ≤ tier.rewardMultiplierBps ∧ s.2.lastClaim ≤ info.stakeTimestamp
  | .invoke env (.unstake leaver) => leaver = staker → staker ∈ env.signers →
    ∀ info tier, s.1.store.stake staker = some info → s.1.store.tier info.tierId = some tier →
      info.stakedAt+tier.lockPeriodSeconds ≤ s.1.now → info.claimedRewards = 0
  | _ => True

/-- The stake of `staker` is there, in an unchanged tier. -/
def StakeOpen (staker : Address) (tierId : TierId) (tier : StakingTier) (w : StakingWorld C)
    (_ : Action C (Call Address)) : Prop :=
  w.store.stake staker ≠ none ∧ w.store.tier tierId = some tier

/-- The rate of a tier per unit and second, times `accrualUnit`. -/
def StakingTier.rate (tier : StakingTier) : ℤ := tier.baseRateBps*tier.rewardMultiplierBps

/-- The bounds that an open stake of `amount` units made at `start` keeps. -/
structure OpenAccount (amount : ℤ) (tierId : TierId) (tier : StakingTier) (start now : ℕ)
    (info : StakeInfo Address) (g : Account) : Prop where
  tierId_eq : info.tierId = tierId
  stakedAt_eq : info.stakedAt = start
  checkpoint_ge : start ≤ info.stakeTimestamp
  checkpoint_le : info.stakeTimestamp ≤ now
  lastClaim_le : g.lastClaim ≤ now
  amount_nonneg : 0 ≤ info.amount
  amount_le : info.amount ≤ amount
  sliced : accrualUnit*(g.yielded-info.claimedRewards) ≤
    tier.rate*(amount-info.amount)*((info.stakeTimestamp : ℤ)-start)
  paid : accrualUnit*g.yielded ≤
    tier.rate*amount*((max info.stakeTimestamp g.lastClaim : ℕ)-start)

/-- What holds of the account of a stake from its beginning. -/
structure AccountBounds (staker : Address) (amount : ℤ) (tierId : TierId) (tier : StakingTier)
    (start : ℕ) (s : StakingWorld C × Account) : Prop where
  started : start ≤ s.1.now
  yielded : accrualUnit*s.2.yielded ≤ tier.rate*amount*((s.1.now : ℤ)-start)
  account : ∀ info, s.1.store.stake staker = some info →
    OpenAccount amount tierId tier start s.1.now info s.2

theorem StakingTier.rate_nonneg (tier : StakingTier) : 0 ≤ tier.rate := by
  rw [rate]
  positivity

/-- The base rate pays no more than the tier's rate where the multiplier is at least one. -/
theorem base_le_rate {tier : StakingTier} (hmult : 10000 ≤ tier.rewardMultiplierBps)
    {amount reward elapsed : ℤ} (hamount : 0 ≤ amount) (helapsed : 0 ≤ elapsed)
    (h : yearSecs*10000*reward ≤ amount*tier.baseRateBps*elapsed) :
    accrualUnit*reward ≤ tier.rate*amount*elapsed := by
  have hmult' : (10000 : ℤ) ≤ tier.rewardMultiplierBps := by exact_mod_cast hmult
  calc accrualUnit*reward = 10000*(yearSecs*10000*reward) := by rw [accrualUnit]; ring
    _ ≤ 10000*(amount*tier.baseRateBps*elapsed) := by gcongr
    _ ≤ tier.rewardMultiplierBps*(amount*tier.baseRateBps*elapsed) := by gcongr
    _ = tier.rate*amount*elapsed := by rw [StakingTier.rate]; ring

/-- The removed part of a reward is no more than the rate pays on the removed amount. -/
theorem removed_le_rate {rate amount staked total removed elapsed : ℤ} (hstaked : 0 < staked)
    (hamount : 0 ≤ amount) (htotal : accrualUnit*total ≤ rate*staked*elapsed)
    (hremoved : staked*removed ≤ total*amount) : accrualUnit*removed ≤ rate*amount*elapsed := by
  have hunit : 0 ≤ accrualUnit := by decide
  refine le_of_mul_le_mul_left ?_ hstaked
  calc staked*(accrualUnit*removed) = accrualUnit*(staked*removed) := by ring
    _ ≤ accrualUnit*(total*amount) := by gcongr
    _ = accrualUnit*total*amount := by ring
    _ ≤ rate*staked*elapsed*amount := by gcongr
    _ = staked*(rate*amount*elapsed) := by ring

namespace OpenAccount

variable {amount : ℤ} {tierId : TierId} {tier : StakingTier} {start now later : ℕ}
variable {info : StakeInfo Address} {g : Account}

omit [DecidableEq Address] in
theorem yielded_le (h : OpenAccount amount tierId tier start now info g) :
    accrualUnit*g.yielded ≤ tier.rate*amount*((now : ℤ)-start) := by
  have hrate := tier.rate_nonneg
  have hamount : 0 ≤ amount := h.amount_nonneg.trans h.amount_le
  have hmax : ((max info.stakeTimestamp g.lastClaim : ℕ) : ℤ) ≤ now := by
    exact_mod_cast max_le h.checkpoint_le h.lastClaim_le
  calc accrualUnit*g.yielded
      ≤ tier.rate*amount*((max info.stakeTimestamp g.lastClaim : ℕ)-start) := h.paid
    _ ≤ tier.rate*amount*((now : ℤ)-start) := by gcongr

omit [DecidableEq Address] in
theorem elapse (h : OpenAccount amount tierId tier start now info g) (hlater : now ≤ later) :
    OpenAccount amount tierId tier start later info g :=
  { h with
    checkpoint_le := h.checkpoint_le.trans hlater
    lastClaim_le := h.lastClaim_le.trans hlater }

omit [DecidableEq Address] in
/-- The time since the stake was made. -/
theorem whole (h : OpenAccount amount tierId tier start now info g) (hstarted : start ≤ now) :
    ((now-info.stakedAt : ℕ) : ℤ) = now-start := by
  rw [h.stakedAt_eq]
  exact Nat.cast_sub hstarted

omit [DecidableEq Address] in
/-- The time since the staking module's checkpoint. -/
theorem since (h : OpenAccount amount tierId tier start now info g) :
    ((now-info.stakeTimestamp : ℕ) : ℤ) = now-info.stakeTimestamp := Nat.cast_sub h.checkpoint_le

omit [DecidableEq Address] in
/-- The staking module pays for `removed` units from its checkpoint on. -/
theorem paid_slice (h : OpenAccount amount tierId tier start now info g)
    (hlast : g.lastClaim ≤ info.stakeTimestamp) {removed reward : ℤ}
    (hremoved : removed ≤ info.amount)
    (hreward : accrualUnit*reward ≤ tier.rate*removed*((now : ℤ)-info.stakeTimestamp)) :
    accrualUnit*(g.yielded+reward) ≤ tier.rate*amount*((now : ℤ)-start) := by
  have hrate := tier.rate_nonneg
  have hpaid := h.paid
  rw [max_eq_left hlast] at hpaid
  have hle : removed ≤ amount := hremoved.trans h.amount_le
  have hsince : (0 : ℤ) ≤ now-info.stakeTimestamp := by
    have := h.checkpoint_le
    omega
  calc accrualUnit*(g.yielded+reward)
      = accrualUnit*g.yielded+accrualUnit*reward := by ring
    _ ≤ tier.rate*amount*(info.stakeTimestamp-start)+
        tier.rate*removed*((now : ℤ)-info.stakeTimestamp) := add_le_add hpaid hreward
    _ ≤ tier.rate*amount*(info.stakeTimestamp-start)+
        tier.rate*amount*((now : ℤ)-info.stakeTimestamp) := by gcongr
    _ = tier.rate*amount*((now : ℤ)-start) := by ring

omit [DecidableEq Address] in
/-- What has left in slices, with what `removed` units bear, is covered up to now. -/
theorem sliced_le (h : OpenAccount amount tierId tier start now info g) {removed reward : ℤ}
    {since : ℕ} (hsince : start ≤ since) (hremoved₀ : 0 ≤ removed)
    (hreward : accrualUnit*reward ≤ tier.rate*removed*((now : ℤ)-since)) :
    accrualUnit*(g.yielded-info.claimedRewards+reward) ≤
      tier.rate*(amount-(info.amount-removed))*((now : ℤ)-start) := by
  have hrate := tier.rate_nonneg
  have hleft : 0 ≤ amount-info.amount := sub_nonneg.mpr h.amount_le
  have hcheckpoint : (info.stakeTimestamp : ℤ) ≤ now := by exact_mod_cast h.checkpoint_le
  have hsince' : (start : ℤ) ≤ since := by exact_mod_cast hsince
  calc accrualUnit*(g.yielded-info.claimedRewards+reward)
      = accrualUnit*(g.yielded-info.claimedRewards)+accrualUnit*reward := by ring
    _ ≤ tier.rate*(amount-info.amount)*(info.stakeTimestamp-start)+
        tier.rate*removed*((now : ℤ)-since) := add_le_add h.sliced hreward
    _ ≤ tier.rate*(amount-info.amount)*((now : ℤ)-start)+
        tier.rate*removed*((now : ℤ)-start) := by gcongr
    _ = tier.rate*(amount-(info.amount-removed))*((now : ℤ)-start) := by ring

omit [DecidableEq Address] in
/-- A reward of the whole time since the stake was made, less what has been claimed. -/
theorem paid_whole (h : OpenAccount amount tierId tier start now info g) {total : ℤ}
    (htotal : accrualUnit*total ≤ tier.rate*info.amount*((now : ℤ)-start)) :
    accrualUnit*(g.yielded-info.claimedRewards+total) ≤
      tier.rate*amount*((now : ℤ)-start) := by
  have hle := h.sliced_le le_rfl h.amount_nonneg htotal
  rwa [sub_self, sub_zero] at hle

omit [DecidableEq Address] in
/-- The staking module pays for the whole stake from its checkpoint on. -/
theorem claimed (h : OpenAccount amount tierId tier start now info g)
    (hstarted : start ≤ now) (hlast : g.lastClaim ≤ info.stakeTimestamp) {reward : ℤ}
    (hreward : accrualUnit*reward ≤ tier.rate*info.amount*((now : ℤ)-info.stakeTimestamp)) :
    OpenAccount amount tierId tier start now { info with
      accumulatedRewards := 0
      stakeTimestamp := now
      claimedRewards := info.claimedRewards+reward } { g with yielded := g.yielded+reward } where
  tierId_eq := h.tierId_eq
  stakedAt_eq := h.stakedAt_eq
  checkpoint_ge := hstarted
  checkpoint_le := le_rfl
  lastClaim_le := h.lastClaim_le
  amount_nonneg := h.amount_nonneg
  amount_le := h.amount_le
  sliced := by
    have hnothing : accrualUnit*0 ≤ tier.rate*0*((now : ℤ)-start) := by simp
    have hslice := h.sliced_le le_rfl le_rfl hnothing
    rwa [add_zero, sub_zero, ← add_sub_add_right_eq_sub g.yielded info.claimedRewards reward]
      at hslice
  paid := by
    rw [max_eq_left h.lastClaim_le]
    exact h.paid_slice hlast le_rfl hreward

omit [DecidableEq Address] in
/-- The staking module pays for `removed` units, which leave the stake. -/
theorem slice (h : OpenAccount amount tierId tier start now info g)
    (hstarted : start ≤ now) (hlast : g.lastClaim ≤ info.stakeTimestamp) {removed reward rest : ℤ}
    (hremoved₀ : 0 ≤ removed) (hremoved : removed ≤ info.amount)
    (hreward : accrualUnit*reward ≤ tier.rate*removed*((now : ℤ)-info.stakeTimestamp)) :
    OpenAccount amount tierId tier start now { info with
      amount := info.amount-removed
      accumulatedRewards := rest
      stakeTimestamp := now } { g with yielded := g.yielded+reward } where
  tierId_eq := h.tierId_eq
  stakedAt_eq := h.stakedAt_eq
  checkpoint_ge := hstarted
  checkpoint_le := le_rfl
  lastClaim_le := h.lastClaim_le
  amount_nonneg := sub_nonneg.mpr hremoved
  amount_le := (sub_le_self _ hremoved₀).trans h.amount_le
  sliced := by
    rw [add_sub_right_comm]
    exact h.sliced_le h.checkpoint_ge hremoved₀ hreward
  paid := by
    rw [max_eq_left h.lastClaim_le]
    exact h.paid_slice hlast hremoved hreward

omit [DecidableEq Address] in
/-- The rewards module pays what the whole time bears, less what has been claimed. -/
theorem claimedWhole (h : OpenAccount amount tierId tier start now info g) {total : ℤ}
    (htotal : accrualUnit*total ≤ tier.rate*info.amount*((now : ℤ)-start)) :
    OpenAccount amount tierId tier start now
      { info with claimedRewards := info.claimedRewards+(total-info.claimedRewards) }
      ⟨g.yielded+(total-info.claimedRewards), now⟩ where
  tierId_eq := h.tierId_eq
  stakedAt_eq := h.stakedAt_eq
  checkpoint_ge := h.checkpoint_ge
  checkpoint_le := h.checkpoint_le
  lastClaim_le := le_rfl
  amount_nonneg := h.amount_nonneg
  amount_le := h.amount_le
  sliced := by
    rw [add_sub_add_right_eq_sub]
    exact h.sliced
  paid := by
    rw [max_eq_right h.checkpoint_le, ← add_sub_assoc, add_sub_right_comm]
    exact h.paid_whole htotal

end OpenAccount

section Step
variable {amount : ℤ} {tierId : TierId} {tier : StakingTier} {start : ℕ} {g : Account}

theorem unstake_signed (h : exec env (.unstake staker) w = .ok w') : staker ∈ env.signers := by
  simp only [exec, unstake, bind_eq_ok, requireAuth_eq_ok, exists_const] at h
  exact h.1

theorem claimStakingRewards_signed (h : exec env (.claimStakingRewards staker) w = .ok w') :
    staker ∈ env.signers := by
  obtain ⟨_, hclaim, _⟩ := map_eq_ok.mp h
  simp only [claimStakingRewards, bind_eq_ok, requireAuth_eq_ok, exists_const] at hclaim
  exact hclaim.1

theorem queuedReward_pushPending {info : StakeInfo Address}
    (hinfo : w.store.stake staker = some info) (withdrawal : PendingWithdrawal Address)
    (rest : Option (StakeInfo Address)) :
    queuedReward w (setStake (pushPending w staker withdrawal) staker rest) staker =
      withdrawal.amount-(info.amount-rest.elim 0 (·.amount)) := by
  rw [queuedReward, newest_pushPending, held_of_some hinfo, held, setStake_stake,
    Function.update_self]

theorem AccountBounds.of_open (hstarted : start ≤ w.now) {info : StakeInfo Address}
    (hinfo : w.store.stake staker = some info)
    (h : OpenAccount amount tierId tier start w.now info g) :
    AccountBounds staker amount tierId tier start (w, g) where
  started := hstarted
  yielded := h.yielded_le
  account _ hi := Option.some.inj (hinfo.symm.trans hi) ▸ h

theorem AccountBounds.of_closed (hstarted : start ≤ w.now) (hnone : w.store.stake staker = none)
    (hyielded : accrualUnit*g.yielded ≤ tier.rate*amount*((w.now : ℤ)-start)) :
    AccountBounds staker amount tierId tier start (w, g) where
  started := hstarted
  yielded := hyielded
  account _ hi := absurd (hnone.symm.trans hi) (by simp)

/-- A step that leaves the record and the account alone keeps the bounds. -/
theorem AccountBounds.of_same (h : AccountBounds staker amount tierId tier start (w, g))
    (hnow : w'.now = w.now) (hstake : w'.store.stake staker = w.store.stake staker) :
    AccountBounds staker amount tierId tier start (w', g) where
  started := hnow.symm ▸ h.started
  yielded := hnow.symm ▸ h.yielded
  account i hi := hnow.symm ▸ h.account i (hstake ▸ hi)

theorem AccountBounds.elapse (h : AccountBounds staker amount tierId tier start (w, g)) {d : ℕ}
    {info : StakeInfo Address} (hinfo : w.store.stake staker = some info) :
    AccountBounds staker amount tierId tier start (w.elapse d, g) :=
  .of_open (h.started.trans (Nat.le_add_right _ _)) hinfo
    ((h.account info hinfo).elapse (Nat.le_add_right _ _))

/-- `unstake` pays for the whole time, so nothing may have been paid for it before. -/
theorem AccountBounds.unstaked (h : AccountBounds staker amount tierId tier start (w, g))
    {info : StakeInfo Address} (hinfo : w.store.stake staker = some info) {reward : ℤ}
    (hreward : calcRewards info tier w.now = some reward) (hzero : info.claimedRewards = 0)
    {claimableAt : ℕ} (hw : setStake (pushPending w staker
      ⟨info.amount+reward, claimableAt, staker⟩) staker none = w') :
    AccountBounds staker amount tierId tier start
      (w', g.after staker w w' (.unstake staker)) := by
  subst hw
  have hacc := h.account info hinfo
  obtain ⟨_, hbound⟩ := calcRewards_bounds hreward hacc.amount_nonneg
  rw [hacc.whole h.started] at hbound
  have htotal : accrualUnit*reward ≤ tier.rate*info.amount*((w.now : ℤ)-start) := by
    rw [StakingTier.rate]
    linarith
  have hpaid := hacc.paid_whole htotal
  rw [hzero, sub_zero] at hpaid
  have hqueued := queuedReward_pushPending hinfo ⟨info.amount+reward, claimableAt, staker⟩ none
  refine .of_closed h.started (by simp) ?_
  simp only [Account.after, if_pos, hqueued, Option.elim, sub_zero, add_sub_cancel_left]
  exact hpaid

/-- `partial_unstake` pays for what it removes from the module's own checkpoint on, at the base
rate. -/
theorem AccountBounds.unstakedPart (h : AccountBounds staker amount tierId tier start (w, g))
    {info : StakeInfo Address} (hinfo : w.store.stake staker = some info) {removed total : ℤ}
    (hpos : 0 < removed) (hle : removed ≤ info.amount)
    (htotal : calculateRewards info.amount info.stakeTimestamp w.now tier.baseRateBps = some total)
    (hmult : 10000 ≤ tier.rewardMultiplierBps) (hlast : g.lastClaim ≤ info.stakeTimestamp)
    {claimableAt : ℕ} (hw : setStake (pushPending w staker
        ⟨removed+removedRewards total removed info.amount, claimableAt, staker⟩) staker
      (if info.amount-removed = 0 then none else some { info with
        amount := info.amount-removed
        accumulatedRewards := total-removedRewards total removed info.amount
        stakeTimestamp := w.now }) = w') :
    AccountBounds staker amount tierId tier start
      (w', g.after staker w w' (.partialUnstake staker removed)) := by
  subst hw
  have hacc := h.account info hinfo
  obtain ⟨htotal₀, hbound⟩ := calculateRewards_bounds htotal hacc.amount_nonneg
  have hstaked : 0 < info.amount := hpos.trans_le hle
  obtain ⟨hremoved₀, hremoved⟩ := removedRewards_bounds htotal₀ hpos.le hstaked
  have hrate := base_le_rate hmult hacc.amount_nonneg (Nat.cast_nonneg _) hbound
  rw [hacc.since] at hrate
  have hreward := removed_le_rate hstaked hpos.le hrate hremoved
  have hqueued := queuedReward_pushPending hinfo
    ⟨removed+removedRewards total removed info.amount, claimableAt, staker⟩
    (if info.amount-removed = 0 then none else some { info with
      amount := info.amount-removed
      accumulatedRewards := total-removedRewards total removed info.amount
      stakeTimestamp := w.now })
  simp only [Account.after, if_pos, hqueued]
  split_ifs with hrest
  -- all of it has left: the record is gone and the account closed
  · have htaken : removed+removedRewards total removed info.amount-(info.amount-0) =
        removedRewards total removed info.amount := by omega
    refine .of_closed h.started (by simp) ?_
    simp only [Option.elim, htaken]
    exact hacc.paid_slice hlast hle hreward
  · have htaken : removed+removedRewards total removed info.amount-
        (info.amount-(info.amount-removed)) = removedRewards total removed info.amount := by
      omega
    refine .of_open h.started (by rw [setStake_stake, Function.update_self]) ?_
    simp only [Option.elim, htaken]
    exact hacc.slice h.started hlast hpos.le hle hreward

/-- `claim_staking_rewards` pays for the time since the own checkpoint, at the base rate. -/
theorem AccountBounds.claimedStaking (h : AccountBounds staker amount tierId tier start (w, g))
    {info : StakeInfo Address} (hinfo : w.store.stake staker = some info) {reward : ℤ}
    (hreward : calculateRewards info.amount info.stakeTimestamp w.now tier.baseRateBps =
      some reward)
    (hmult : 10000 ≤ tier.rewardMultiplierBps) (hlast : g.lastClaim ≤ info.stakeTimestamp)
    {token : Address} {t : C.token.State}
    (hw : setStake (w.paid ⟨token, C.self, staker, reward⟩ t) staker (some { info with
      accumulatedRewards := 0
      stakeTimestamp := w.now
      claimedRewards := info.claimedRewards+reward }) = w') :
    AccountBounds staker amount tierId tier start
      (w', g.after staker w w' (.claimStakingRewards staker)) := by
  subst hw
  have hacc := h.account info hinfo
  obtain ⟨_, hbound⟩ := calculateRewards_bounds hreward hacc.amount_nonneg
  have hrate := base_le_rate hmult hacc.amount_nonneg (Nat.cast_nonneg _) hbound
  rw [hacc.since] at hrate
  simp only [Account.after, if_pos]
  rw [sent_of_transfers rfl]
  exact .of_open h.started (by rw [setStake_stake, Function.update_self])
    (hacc.claimed h.started hlast hrate)

/-- `claim_rewards` pays for the whole time less what has been claimed: no checkpoint is needed or
set. -/
theorem AccountBounds.claimedWhole (h : AccountBounds staker amount tierId tier start (w, g))
    {info : StakeInfo Address} (hinfo : w.store.stake staker = some info) {reward : ℤ}
    (hreward : pendingRewards info tier (w.now-info.stakedAt) = some reward) (hpos : 0 < reward)
    {token : Address} {t : C.token.State} {paid : Address → Option ℤ}
    (hw : (w.paid ⟨token, C.self, staker, reward⟩ t).setStore { w.store with
      stake := Function.update w.store.stake staker
        (some { info with claimedRewards := info.claimedRewards+reward })
      totalRewardsPaid := paid } = w') :
    AccountBounds staker amount tierId tier start
      (w', g.after staker w w' (.claimRewards staker)) := by
  subst hw
  have hacc := h.account info hinfo
  obtain ⟨total, _, hbound, hdue⟩ := pendingRewards_bounds hreward hacc.amount_nonneg
  rw [hacc.whole h.started] at hbound
  have htotal : accrualUnit*total ≤ tier.rate*info.amount*((w.now : ℤ)-start) := by
    rw [StakingTier.rate]
    linarith
  obtain rfl : reward = total-info.claimedRewards := by omega
  simp only [Account.after, if_pos]
  rw [sent_of_transfers rfl, if_pos hpos]
  exact .of_open h.started (Function.update_self _ _ _) (hacc.claimedWhole htotal)

/-- Every accepted call keeps the bounds of an open stake. -/
theorem Effect.accountBounds (heffect : Effect w call w') (hcall : exec env call w = .ok w')
    (h : AccountBounds staker amount tierId tier start (w, g))
    (hopen : StakeOpen staker tierId tier w (.invoke env call))
    (hguard : Undoubled staker (w, g) (.invoke env call)) :
    AccountBounds staker amount tierId tier start (w', g.after staker w w' call) := by
  obtain ⟨hsome, htier⟩ := hopen
  obtain ⟨info, hinfo⟩ := Option.ne_none_iff_exists'.mp hsome
  have htier' : w.store.tier info.tierId = some tier := (h.account info hinfo).tierId_eq ▸ htier
  cases heffect with
  | configures => exact h.of_same rfl rfl
  | addsTier => exact h.of_same rfl rfl
  | setsCooldown => exact h.of_same rfl rfl
  | withdraws => exact h.of_same rfl rfl
  | stakes other amount tierId config tier token t _ _ _ _ hnone _ _ =>
    refine h.of_same rfl (Function.update_of_ne ?_ _ _)
    rintro rfl
    exact hsome hnone
  | unstakes other stored storedTier reward _ hstored hstoredTier hlock hreward =>
    by_cases ho : other = staker
    · subst ho
      obtain rfl := Option.some.inj (hinfo.symm.trans hstored)
      obtain rfl := Option.some.inj (htier'.symm.trans hstoredTier)
      have hzero : info.claimedRewards = 0 :=
        hguard rfl (unstake_signed hcall) info tier hinfo htier' hlock
      exact h.unstaked hinfo hreward hzero rfl
    · simp only [Account.after, if_neg ho]
      exact h.of_same rfl (Function.update_of_ne (Ne.symm ho) _ _)
  | unstakesPart other removed stored storedTier total _ hstored hpos hle hstoredTier htotal =>
    by_cases ho : other = staker
    · subst ho
      obtain rfl := Option.some.inj (hinfo.symm.trans hstored)
      obtain rfl := Option.some.inj (htier'.symm.trans hstoredTier)
      have hsigned := (partialUnstake_eq_ok.mp hcall).1
      obtain ⟨hmult, hlast⟩ := hguard rfl hsigned info tier hinfo htier' hpos hle
      exact h.unstakedPart hinfo hpos hle htotal hmult hlast rfl
    · simp only [Account.after, if_neg ho]
      exact h.of_same rfl (Function.update_of_ne (Ne.symm ho) _ _)
  | leaves other stored config payout token t _ _ _ _ _ _ =>
    by_cases ho : other = staker
    · subst ho
      exact .of_closed h.started (by simp) h.yielded
    · exact h.of_same rfl (Function.update_of_ne (Ne.symm ho) _ _)
  | claimsStaking other stored storedTier reward token t _ hstored hstoredTier hreward _ _ _ =>
    by_cases ho : other = staker
    · subst ho
      obtain rfl := Option.some.inj (hinfo.symm.trans hstored)
      obtain rfl := Option.some.inj (htier'.symm.trans hstoredTier)
      obtain ⟨hmult, hlast⟩ := hguard rfl (claimStakingRewards_signed hcall) info tier hinfo htier'
      exact h.claimedStaking hinfo hreward hmult hlast rfl
    · simp only [Account.after, if_neg ho]
      exact h.of_same rfl (Function.update_of_ne (Ne.symm ho) _ _)
  | claimsRewards other stored storedTier reward token t paid _ hstored hstoredTier hreward hpos =>
    by_cases ho : other = staker
    · subst ho
      obtain rfl := Option.some.inj (hinfo.symm.trans hstored)
      obtain rfl := Option.some.inj (htier'.symm.trans hstoredTier)
      exact h.claimedWhole hinfo hreward hpos rfl
    · simp only [Account.after, if_neg ho]
      exact h.of_same rfl (Function.update_of_ne (Ne.symm ho) _ _)
  | nothingDue other _ hnothing =>
    have hsame : g.after staker w w call = g := by
      rcases hnothing with rfl | rfl <;> simp [Account.after, sent_self]
    rw [hsame]
    exact h

theorem AccountBounds.step {s : StakingWorld C × Account}
    (h : AccountBounds staker amount tierId tier start s) {a : Action C (Call Address)}
    (hopen : StakeOpen staker tierId tier s.1 a) (hguard : Undoubled staker s a) :
    AccountBounds staker amount tierId tier start
      (withHistory (step exec) (recordYield staker) s a) := by
  obtain ⟨w, g⟩ := s
  refine recordCalls_keeps _ (fun v g => AccountBounds staker amount tierId tier start (v, g)) h ?_
    ?_ fun _ _ _ _ => h.of_same rfl rfl
  · rintro env call w' rfl hcall
    exact (exec_effect hcall).accountBounds hcall h hopen hguard
  · intro d _
    obtain ⟨info, hinfo⟩ := Option.ne_none_iff_exists'.mp hopen.1
    exact h.elapse hinfo

end Step

/-- The account of a stake that has just been made. -/
def opening (w : StakingWorld C) : StakingWorld C × Account := (w, ⟨0, w.now⟩)

/-- The world and the account of the stake of `staker` that `mid` reaches. -/
abbrev accounted (staker : Address) (w : StakingWorld C) (mid : List (Action C (Call Address))) :
    StakingWorld C × Account :=
  RunSystem.run (withHistory (step exec) (recordYield staker)) (opening w) mid

theorem opening_bounds {amount : ℤ} {tierId : TierId} {tier : StakingTier}
    (hstake : exec env (.stake staker amount tierId) w = .ok w') :
    AccountBounds staker amount tierId tier w'.now (opening w') := by
  cases exec_effect hstake with
  | stakes _ _ _ config _ token t _ _ _ _ _ _ ht =>
    refine .of_open le_rfl (by rw [setStake_stake, Function.update_self]) ?_
    exact
      { tierId_eq := rfl
        stakedAt_eq := rfl
        checkpoint_ge := le_rfl
        checkpoint_le := le_rfl
        lastClaim_le := le_rfl
        amount_nonneg := C.token.transfer_nonneg ht
        amount_le := le_rfl
        sliced := by simp
        paid := by simp }
  | nothingDue _ _ hcall => exact absurd hcall (by simp)

/-- From the call that makes a stake on, and for as long as it is open in an unchanged tier, no
interleaving of calls that meet the condition yields more than the amount bears in the time. -/
theorem rewards_bounded_run {amount : ℤ} {tierId : TierId} {tier : StakingTier}
    (hstake : exec env (.stake staker amount tierId) w = .ok w')
    (mid : List (Action C (Call Address)))
    (hopen : Guarded (step exec) (StakeOpen staker tierId tier) w' mid)
    (hguard : Guarded (withHistory (step exec) (recordYield staker)) (Undoubled staker)
      (opening w') mid) :
    accrualUnit*(accounted staker w' mid).2.yielded ≤
      amount*tier.baseRateBps*tier.rewardMultiplierBps*(((run exec w' mid).now : ℤ)-w'.now) := by
  have hboth := guarded_and _ ((guarded_withHistory (step exec) (recordYield staker)
    (StakeOpen staker tierId tier) (opening w') mid).mpr hopen) hguard
  have hstep (s : StakingWorld C × Account) (a : Action C (Call Address))
      (hs : AccountBounds staker amount tierId tier w'.now s)
      (ha : StakeOpen staker tierId tier s.1 a ∧ Undoubled staker s a) :
      AccountBounds staker amount tierId tier w'.now
        (withHistory (step exec) (recordYield staker) s a) := hs.step ha.1 ha.2
  have hbounds := run_invariant _ hstep (opening_bounds hstake) hboth
  have hyielded := hbounds.yielded
  rw [run_withHistory_fst] at hyielded
  calc accrualUnit*(accounted staker w' mid).2.yielded
      ≤ tier.rate*amount*(((run exec w' mid).now : ℤ)-w'.now) := hyielded
    _ = amount*tier.baseRateBps*tier.rewardMultiplierBps*
        (((run exec w' mid).now : ℤ)-w'.now) := by rw [StakingTier.rate]; ring

/-- The tier and the configuration are set. -/
def tierReady : StakingWorld numberedChain :=
  run exec smallDeployment.start [.invoke (signedBy 0) (.setStakingConfig 1 ⟨1, 1000, 0⟩),
    .invoke (signedBy 0) (.addStakingTier 1 yearlyTier)]

def hundredStaked : StakingWorld numberedChain :=
  step exec tierReady (.invoke (signedBy 1) (.stake 2 100 7))

def claimAfterYear : List (Action numberedChain (Call ℕ)) :=
  [.tick 31536000, .invoke (signedBy 1) (.claimStakingRewards 2)]

theorem rewards_bounded_claimAfterYear :
    accrualUnit*(accounted 2 hundredStaked claimAfterYear).2.yielded ≤
      100*yearlyTier.baseRateBps*yearlyTier.rewardMultiplierBps*
        (((run exec hundredStaked claimAfterYear).now : ℤ)-hundredStaked.now) := by
  have hstake : exec (signedBy 1) (.stake 2 100 7) tierReady = .ok hundredStaked := rfl
  refine rewards_bounded_run hstake claimAfterYear ?_ ?_
  · exact ⟨⟨by decide, by decide⟩, ⟨by decide, by decide⟩, trivial⟩
  · refine ⟨trivial, fun _ _ info tier hinfo htier => ?_, trivial⟩
    obtain rfl := Option.some.inj hinfo
    obtain rfl := Option.some.inj htier
    decide

def claimAndLeave : List (Action numberedChain (Call ℕ)) :=
  claimAfterYear ++ [.invoke (signedBy 1) (.unstake 2)]

/-- The year is paid by the claim and queued once more by the unstake. -/
theorem rewards_doubled :
    Guarded (step exec) (StakeOpen 2 7 yearlyTier) hundredStaked claimAndLeave ∧
      ¬accrualUnit*(accounted 2 hundredStaked claimAndLeave).2.yielded ≤
        100*yearlyTier.baseRateBps*yearlyTier.rewardMultiplierBps*
          (((run exec hundredStaked claimAndLeave).now : ℤ)-hundredStaked.now) := by
  refine ⟨⟨⟨by decide, by decide⟩, ⟨by decide, by decide⟩, ⟨by decide, by decide⟩, trivial⟩, ?_⟩
  decide

end HubAssist.Staking
