import HubAssist.StakingModel
import Mathlib.Algebra.Order.BigOperators.Group.List
import Mathlib.Algebra.Order.Ring.Int

/-! What an accepted call of the staking and rewards modules requires and does. -/
namespace HubAssist.Staking
open SorobanHost CheckedArith

variable {Address : Type} [DecidableEq Address] {C : Chain Address}
variable {env : Env C} {w w' : StakingWorld C} {call : Call Address} {staker : Address}

@[simp] theorem setStake_stake (w : StakingWorld C) (staker : Address)
    (info : Option (StakeInfo Address)) :
    (setStake w staker info).store.stake = Function.update w.store.stake staker info := rfl

@[simp] theorem setStake_pendingWithdrawals (w : StakingWorld C) (staker : Address)
    (info : Option (StakeInfo Address)) :
    (setStake w staker info).store.pendingWithdrawals = w.store.pendingWithdrawals := rfl

@[simp] theorem setStake_transfers (w : StakingWorld C) (staker : Address)
    (info : Option (StakeInfo Address)) : (setStake w staker info).transfers = w.transfers := rfl

@[simp] theorem setStake_now (w : StakingWorld C) (staker : Address)
    (info : Option (StakeInfo Address)) : (setStake w staker info).now = w.now := rfl

@[simp] theorem setStake_balance (w : StakingWorld C) (staker : Address)
    (info : Option (StakeInfo Address)) (token holder : Address) :
    (setStake w staker info).balance token holder = w.balance token holder := rfl

@[simp] theorem setPending_stake (w : StakingWorld C) (staker : Address)
    (pending : Option (List (PendingWithdrawal Address))) :
    (setPending w staker pending).store.stake = w.store.stake := rfl

@[simp] theorem setPending_pendingWithdrawals (w : StakingWorld C) (staker : Address)
    (pending : Option (List (PendingWithdrawal Address))) :
    (setPending w staker pending).store.pendingWithdrawals =
      Function.update w.store.pendingWithdrawals staker pending := rfl

@[simp] theorem setPending_balance (w : StakingWorld C) (staker : Address)
    (pending : Option (List (PendingWithdrawal Address))) (token holder : Address) :
    (setPending w staker pending).balance token holder = w.balance token holder := rfl

/-- The matured withdrawals of a queue. -/
def matured {Address : Type} (now : ℕ) (pending : List (PendingWithdrawal Address)) :
    List (PendingWithdrawal Address) :=
  pending.filter fun withdrawal => withdrawal.claimableAt ≤ now

def immature {Address : Type} (now : ℕ) (pending : List (PendingWithdrawal Address)) :
    List (PendingWithdrawal Address) :=
  pending.filter fun withdrawal => now < withdrawal.claimableAt

def totalAmount {Address : Type} (pending : List (PendingWithdrawal Address)) : ℤ :=
  (pending.map (·.amount)).sum

/-- The loop keeps what is immature in its order and adds up the rest. -/
theorem splitMatured_eq {Address : Type} {now : ℕ}
    {pending kept remaining : List (PendingWithdrawal Address)}
    {start total : ℤ} (h : splitMatured now pending start kept = some (total, remaining)) :
    total = start+totalAmount (matured now pending) ∧ remaining = kept ++ immature now pending := by
  induction pending generalizing start kept with
  | nil =>
    simp only [splitMatured, Option.some.injEq, Prod.mk.injEq] at h
    obtain ⟨rfl, rfl⟩ := h
    simp [matured, immature, totalAmount]
  | cons withdrawal pending ih =>
    rw [splitMatured] at h
    split_ifs at h with hnow
    -- a matured withdrawal goes into the total, an immature one to the end of what is kept
    · obtain ⟨next, hnext, hrest⟩ := Option.bind_eq_some_iff.mp h
      obtain ⟨_, rfl⟩ := i128Add_eq_some.mp hnext
      obtain ⟨rfl, rfl⟩ := ih hrest
      simp [matured, immature, totalAmount, hnow, add_assoc, not_lt.mpr hnow]
    · obtain ⟨rfl, rfl⟩ := ih h
      simp [matured, immature, hnow, not_le.mp hnow]

/-- The loop goes through when no amount is negative and the total fits. -/
theorem splitMatured_isSome {Address : Type} {now : ℕ}
    {pending kept : List (PendingWithdrawal Address)} {start : ℤ}
    (hamount : ∀ withdrawal ∈ pending, 0 ≤ withdrawal.amount) (hstart : 0 ≤ start)
    (hfits : start+totalAmount (matured now pending) < i128Bound) :
    splitMatured now pending start kept =
      some (start+totalAmount (matured now pending), kept ++ immature now pending) := by
  have hsome : ∃ r, splitMatured now pending start kept = some r := by
    induction pending generalizing start kept with
    | nil => exact ⟨_, rfl⟩
    | cons withdrawal pending ih =>
      obtain ⟨hhead, htail⟩ := List.forall_mem_cons.mp hamount
      rw [splitMatured]
      split_ifs with hnow
      · have hsplit : matured now (withdrawal :: pending) = withdrawal :: matured now pending := by
          simp [matured, hnow]
        -- no later amount is negative, so every partial sum is below the total, which fits
        have hrest : 0 ≤ totalAmount (matured now pending) :=
          List.sum_nonneg fun x hx => by
            obtain ⟨v, hv, rfl⟩ := List.mem_map.mp hx
            exact htail v (List.mem_of_mem_filter hv)
        rw [hsplit, totalAmount, List.map_cons, List.sum_cons, ← totalAmount, ← add_assoc] at hfits
        have hadd : i128Add start withdrawal.amount = some (start+withdrawal.amount) := by
          rw [i128Add_eq_some]
          refine ⟨⟨?_, by omega⟩, rfl⟩
          have : 0 ≤ i128Bound := by decide
          omega
        rw [hadd]
        exact ih htail (by omega) hfits
      · have hsplit : matured now (withdrawal :: pending) = matured now pending := by
          simp [matured, hnow]
        rw [hsplit] at hfits
        exact ih htail hstart hfits
  obtain ⟨⟨total, remaining⟩, h⟩ := hsome
  obtain ⟨rfl, rfl⟩ := splitMatured_eq h
  exact h

/-- The part of the rewards that leaves with `amount`, out of those of the whole stake. -/
def removedRewards (total amount staked : ℤ) : ℤ :=
  (total*((amount*rewardPrecision).tdiv staked)).tdiv rewardPrecision

/-- What an accepted call does, with the guards that bear on stakes, rewards and queues. -/
inductive Effect (w : StakingWorld C) : Call Address → StakingWorld C → Prop where
  | configures (admin : Address) (config : StakingConfig) :
      Effect w (.setStakingConfig admin config)
        (w.setStore { w.store with admin := some admin, config := some config })
  | addsTier (admin : Address) (tier : StakingTier) : Effect w (.addStakingTier admin tier)
      (w.setStore { w.store with
        tier := Function.update w.store.tier tier.id (some tier)
        tierList := some (w.store.tierList.getD [] ++ [tier.id]) })
  | setsCooldown (admin : Address) (days secs : ℕ) : Effect w (.setCooldownDays admin days)
      (w.setStore { w.store with cooldownSecs := some secs })
  | stakes (staker : Address) (amount : ℤ) (tierId : TierId) (config : StakingConfig)
      (tier : StakingTier) (token : Address) (t : C.token.State) (hself : staker ≠ C.self)
      (hconfig : w.store.config = some config) (hmin : config.minStakeAmount ≤ amount)
      (htier : w.store.tier tierId = some tier) (hnone : w.store.stake staker = none)
      (htoken : w.store.stakingToken = some token)
      (ht : C.token.transfer (w.tokens token) staker C.self amount = some t) :
      Effect w (.stake staker amount tierId)
        (setStake (w.paid ⟨token, staker, C.self, amount⟩ t) staker
          (some ⟨staker, amount, tierId, w.now, w.now, 0, 0, false⟩))
  | unstakes (staker : Address) (info : StakeInfo Address) (tier : StakingTier) (reward : ℤ)
      (hself : staker ≠ C.self) (hinfo : w.store.stake staker = some info)
      (htier : w.store.tier info.tierId = some tier)
      (hlock : info.stakedAt+tier.lockPeriodSeconds ≤ w.now)
      (hreward : calcRewards info tier w.now = some reward) : Effect w (.unstake staker)
        (setStake (pushPending w staker ⟨info.amount+reward, w.now+getCooldownSecs w, staker⟩)
          staker none)
  | unstakesPart (staker : Address) (amount : ℤ) (info : StakeInfo Address) (tier : StakingTier)
      (total : ℤ) (hself : staker ≠ C.self) (hinfo : w.store.stake staker = some info)
      (hpos : 0 < amount) (hle : amount ≤ info.amount)
      (htier : w.store.tier info.tierId = some tier)
      (htotal : calculateRewards info.amount info.stakeTimestamp w.now tier.baseRateBps =
        some total) : Effect w (.partialUnstake staker amount)
        (setStake (pushPending w staker ⟨amount+removedRewards total amount info.amount,
          w.now+getCooldownSecs w, staker⟩) staker
          (if info.amount-amount = 0 then none else some { info with
            amount := info.amount-amount
            accumulatedRewards := total-removedRewards total amount info.amount
            stakeTimestamp := w.now }))
  | withdraws (staker : Address) (pending : List (PendingWithdrawal Address)) (token : Address)
      (t : C.token.State) (hself : staker ≠ C.self)
      (hpending : w.store.pendingWithdrawals staker = some pending)
      (hpos : 0 < totalAmount (matured w.now pending)) (htoken : w.store.stakingToken = some token)
      (ht : C.token.transfer (w.tokens token) C.self staker
        (totalAmount (matured w.now pending)) = some t) : Effect w (.claimUnstaked staker)
        (setPending (w.paid ⟨token, C.self, staker, totalAmount (matured w.now pending)⟩ t) staker
          (if immature w.now pending = [] then none else some (immature w.now pending)))
  | leaves (staker : Address) (info : StakeInfo Address) (config : StakingConfig) (payout : ℤ)
      (token : Address) (t : C.token.State) (hself : staker ≠ C.self)
      (hinfo : w.store.stake staker = some info) (hconfig : w.store.config = some config)
      (hpayout : payout =
        info.amount-(info.amount*config.emergencyUnstakePenaltyBps).tdiv 10000)
      (htoken : w.store.stakingToken = some token)
      (ht : C.token.transfer (w.tokens token) C.self staker payout = some t) :
      Effect w (.emergencyUnstake staker)
        (setStake (w.paid ⟨token, C.self, staker, payout⟩ t) staker none)
  | claimsStaking (staker : Address) (info : StakeInfo Address) (tier : StakingTier) (reward : ℤ)
      (token : Address) (t : C.token.State) (hself : staker ≠ C.self)
      (hinfo : w.store.stake staker = some info) (htier : w.store.tier info.tierId = some tier)
      (hreward : calculateRewards info.amount info.stakeTimestamp w.now tier.baseRateBps =
        some reward)
      (hpos : 0 < reward) (htoken : w.store.stakingToken = some token)
      (ht : C.token.transfer (w.tokens token) C.self staker reward = some t) :
      Effect w (.claimStakingRewards staker)
        (setStake (w.paid ⟨token, C.self, staker, reward⟩ t) staker (some { info with
          accumulatedRewards := 0
          stakeTimestamp := w.now
          claimedRewards := info.claimedRewards+reward }))
  | claimsRewards (staker : Address) (info : StakeInfo Address) (tier : StakingTier) (reward : ℤ)
      (token : Address) (t : C.token.State) (paid : Address → Option ℤ) (hself : staker ≠ C.self)
      (hinfo : w.store.stake staker = some info) (htier : w.store.tier info.tierId = some tier)
      (hreward : pendingRewards info tier (w.now-info.stakedAt) = some reward)
      (hpos : 0 < reward) (htoken : w.store.stakingToken = some token)
      (ht : C.token.transfer (w.tokens token) C.self staker reward = some t) :
      Effect w (.claimRewards staker)
        ((w.paid ⟨token, C.self, staker, reward⟩ t).setStore { w.store with
          stake := Function.update w.store.stake staker
            (some { info with claimedRewards := info.claimedRewards+reward })
          totalRewardsPaid := paid })
  | nothingDue (staker : Address) (call : Call Address)
      (hcall : call = .claimStakingRewards staker ∨ call = .claimRewards staker) : Effect w call w

/-- No step of the arithmetic of `partialUnstake` overflows. -/
def PartialFits (w : StakingWorld C) (info : StakeInfo Address) (amount total : ℤ) : Prop :=
  InI128 (amount*rewardPrecision) ∧ InI128 ((amount*rewardPrecision).tdiv info.amount) ∧
    InI128 (total*((amount*rewardPrecision).tdiv info.amount)) ∧
    InI128 (removedRewards total amount info.amount) ∧
    InI128 (amount+removedRewards total amount info.amount) ∧
    w.now+getCooldownSecs w < u64Bound ∧ InI128 (info.amount-amount) ∧
    InI128 (total-removedRewards total amount info.amount)

theorem partialUnstake_eq_ok {amount : ℤ} :
    partialUnstake env staker amount w = .ok w' ↔ staker ∈ env.signers ∧ ∃ info,
      w.store.stake staker = some info ∧ (0 < amount ∧ amount ≤ info.amount) ∧ ∃ tier,
        w.store.tier info.tierId = some tier ∧ ∃ total,
          calculateRewards info.amount info.stakeTimestamp w.now tier.baseRateBps = some total ∧
          PartialFits w info amount total ∧
          setStake (pushPending w staker ⟨amount+removedRewards total amount info.amount,
            w.now+getCooldownSecs w, staker⟩) staker
            (if info.amount-amount = 0 then none else some { info with
              amount := info.amount-amount
              accumulatedRewards := total-removedRewards total amount info.amount
              stakeTimestamp := w.now }) = w' := by
  have hprecision : rewardPrecision ≠ 0 := by decide
  simp only [partialUnstake, bind_eq_ok, requireAuth_eq_ok, getOr_eq_ok, failIf_eq_ok,
    checked_eq_ok, i128Mul_eq_some, i128Div_eq_some, i128Add_eq_some, i128Sub_eq_some,
    u64Add_eq_some, pure_eq_ok, exists_const, PartialFits, removedRewards]
  constructor
  · rintro ⟨hs, info, hinfo, hamount, tier, htier, _, ⟨h₁, rfl⟩, _, ⟨h₂, h₃, rfl⟩, total, htotal, _,
      ⟨h₄, rfl⟩, _, ⟨_, h₅, rfl⟩, _, ⟨h₆, rfl⟩, _, ⟨h₇, rfl⟩, _, ⟨h₈, rfl⟩, _, ⟨h₉, rfl⟩, rfl⟩
    exact ⟨hs, info, hinfo, by omega, tier, htier, total, htotal,
      ⟨h₁, h₃, h₄, h₅, h₆, h₇, h₈, h₉⟩, rfl⟩
  · rintro ⟨hs, info, hinfo, hamount, tier, htier, total, htotal,
      ⟨h₁, h₃, h₄, h₅, h₆, h₇, h₈, h₉⟩, rfl⟩
    exact ⟨hs, info, hinfo, by omega, tier, htier, _, ⟨h₁, rfl⟩, _, ⟨by omega, h₃, rfl⟩, total,
      htotal, _, ⟨h₄, rfl⟩, _, ⟨hprecision, h₅, rfl⟩, _, ⟨h₆, rfl⟩, _, ⟨h₇, rfl⟩, _, ⟨h₈, rfl⟩, _,
      ⟨h₉, rfl⟩, rfl⟩

theorem claimUnstaked_eq_ok :
    claimUnstaked env staker w = .ok w' ↔ staker ∈ env.signers ∧ ∃ pending,
      w.store.pendingWithdrawals staker = some pending ∧
        splitMatured w.now pending 0 [] =
          some (totalAmount (matured w.now pending), immature w.now pending) ∧
        0 < totalAmount (matured w.now pending) ∧ ∃ token, w.store.stakingToken = some token ∧ ∃ t,
          C.token.transfer (w.tokens token) C.self staker (totalAmount (matured w.now pending)) =
            some t ∧
          setPending (w.paid ⟨token, C.self, staker, totalAmount (matured w.now pending)⟩ t) staker
            (if immature w.now pending = [] then none else some (immature w.now pending)) = w' := by
  simp only [claimUnstaked, bind_eq_ok, requireAuth_eq_ok, getOr_eq_ok, failIf_eq_ok,
    checked_eq_ok, World.transfer_eq_ok, pure_eq_ok, exists_const, exists_exists_and_eq_and]
  constructor
  · rintro ⟨hs, pending, hpending, _, ⟨total, remaining⟩, hsplit, hpos, token, htoken, t, ht, rfl⟩
    obtain ⟨htotal, hremaining⟩ := splitMatured_eq hsplit
    rw [Int.zero_add] at htotal
    rw [List.nil_append] at hremaining
    subst htotal hremaining
    exact ⟨hs, pending, hpending, hsplit, not_le.mp hpos, token, htoken, t, ht, rfl⟩
  · rintro ⟨hs, pending, hpending, hsplit, hpos, token, htoken, t, ht, rfl⟩
    -- an empty queue would have nothing due
    refine ⟨hs, pending, hpending, ?_, _, hsplit, not_le.mpr hpos, token, htoken, t, ht, rfl⟩
    rintro rfl
    exact lt_irrefl 0 hpos

/-- Every accepted call is one of the effects. -/
theorem exec_effect (h : exec env call w = .ok w') : Effect w call w' := by
  cases call with
  | setStakingConfig admin config =>
    simp only [exec, setStakingConfig, bind_eq_ok, pure_eq_ok] at h
    obtain ⟨_, _, rfl⟩ := h
    exact .configures admin config
  | addStakingTier admin tier =>
    simp only [exec, addStakingTier, bind_eq_ok, pure_eq_ok] at h
    obtain ⟨_, _, rfl⟩ := h
    exact .addsTier admin tier
  | setCooldownDays admin days =>
    simp only [exec, setCooldownDays, bind_eq_ok, pure_eq_ok] at h
    obtain ⟨_, _, _, _, _, _, secs, _, rfl⟩ := h
    exact .setsCooldown admin days secs
  | stake staker amount tierId =>
    simp only [exec, stake, getStakingTier, bind_eq_ok, requireAuth_eq_ok, getOr_eq_ok, failIf_eq_ok,
      World.transfer_eq_ok, pure_eq_ok, exists_const, exists_exists_and_eq_and] at h
    obtain ⟨hs, config, hconfig, hmin, _, tier, htier, _, hnone, token, htoken, t, ht, rfl⟩ := h
    exact .stakes staker amount tierId config tier token t (Env.ne_self hs) hconfig
      (not_lt.mp hmin) htier (Option.not_isSome_iff_eq_none.mp hnone) htoken ht
  | unstake staker =>
    simp only [exec, unstake, getStake, getStakingTier, bind_eq_ok, requireAuth_eq_ok, getOr_eq_ok,
      failIf_eq_ok, checked_eq_ok, u64Add_eq_some, i128Add_eq_some, pure_eq_ok, exists_const] at h
    obtain ⟨hs, info, hinfo, tier, htier, _, ⟨_, rfl⟩, hlock, reward, hreward, _, ⟨_, rfl⟩, _,
      ⟨_, rfl⟩, rfl⟩ := h
    exact .unstakes staker info tier reward (Env.ne_self hs) hinfo htier (not_lt.mp hlock) hreward
  | claimUnstaked staker =>
    obtain ⟨hs, pending, hpending, _, hpos, token, htoken, t, ht, rfl⟩ := claimUnstaked_eq_ok.mp h
    exact .withdraws staker pending token t (Env.ne_self hs) hpending hpos htoken ht
  | emergencyUnstake staker =>
    simp only [exec, emergencyUnstake, getStake, bind_eq_ok, requireAuth_eq_ok, getOr_eq_ok,
      checked_eq_ok, i128Mul_eq_some, i128Div_eq_some, i128Sub_eq_some, World.transfer_eq_ok,
      pure_eq_ok, exists_const, exists_exists_and_eq_and] at h
    obtain ⟨hs, info, hinfo, config, hconfig, _, ⟨_, rfl⟩, _, ⟨_, _, rfl⟩, _, ⟨_, rfl⟩, token,
      htoken, t, ht, rfl⟩ := h
    exact .leaves staker info config _ token t (Env.ne_self hs) hinfo hconfig rfl htoken ht
  | partialUnstake staker amount =>
    obtain ⟨hs, info, hinfo, ⟨hpos, hle⟩, tier, htier, total, htotal, _, rfl⟩ :=
      partialUnstake_eq_ok.mp h
    exact .unstakesPart staker amount info tier total (Env.ne_self hs) hinfo hpos hle htier htotal
  | claimStakingRewards staker =>
    obtain ⟨⟨paid, w₁⟩, hc, rfl⟩ := map_eq_ok.mp h
    simp only [claimStakingRewards, bind_eq_ok, requireAuth_eq_ok, getOr_eq_ok, checked_eq_ok,
      exists_const] at hc
    obtain ⟨hs, info, hinfo, tier, htier, reward, hreward, hrest⟩ := hc
    -- a reward of nothing is a success that writes nothing
    split_ifs at hrest with hdue
    · obtain ⟨_, rfl⟩ := Prod.mk.inj (pure_eq_ok.mp hrest)
      exact .nothingDue staker _ (Or.inl rfl)
    · simp only [bind_eq_ok, getOr_eq_ok, checked_eq_ok, i128Add_eq_some, World.transfer_eq_ok,
        pure_eq_ok, exists_exists_and_eq_and, Prod.mk.injEq] at hrest
      obtain ⟨token, htoken, t, ht, _, ⟨_, rfl⟩, _, rfl⟩ := hrest
      exact .claimsStaking staker info tier reward token t (Env.ne_self hs) hinfo htier hreward
        (not_le.mp hdue) htoken ht
  | claimRewards staker =>
    obtain ⟨⟨paid, w₁⟩, hc, rfl⟩ := map_eq_ok.mp h
    simp only [claimRewards, getStake, bind_eq_ok, requireAuth_eq_ok, getOr_eq_ok,
      exists_const] at hc
    obtain ⟨hs, info, hinfo, reward, hreward, hrest⟩ := hc
    split_ifs at hrest with hdue
    · simp only [bind_eq_ok, getOr_eq_ok, i128Add_eq_some, World.transfer_eq_ok,
        pure_eq_ok, exists_exists_and_eq_and, Prod.mk.injEq] at hrest
      obtain ⟨token, htoken, t, ht, _, ⟨_, rfl⟩, _, _, _, rfl⟩ := hrest
      rw [calculatePendingRewards] at hreward
      split_ifs at hreward with hemergency
      · rw [← pure_eq_ok.mp hreward] at hdue
        -- an emergency exit leaves nothing pending
        exact absurd hdue (lt_irrefl 0)
      · simp only [getStakingTier, bind_eq_ok, getOr_eq_ok, checked_eq_ok, u64Sub_eq_some] at hreward
        obtain ⟨tier, htier, _, ⟨_, rfl⟩, hreward⟩ := hreward
        exact .claimsRewards staker info tier reward token t _ (Env.ne_self hs) hinfo htier hreward
          hdue htoken ht
    · obtain ⟨_, rfl⟩ := Prod.mk.inj (pure_eq_ok.mp hrest)
      exact .nothingDue staker _ (Or.inr rfl)

end HubAssist.Staking
