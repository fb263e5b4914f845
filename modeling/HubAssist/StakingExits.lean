import HubAssist.StakingFormulas

/-! The ways out of a stake. The products of the reward formulas and the end of the cooldown are
computed only when the staker leaves; no call that sets a rate, a multiplier or a cooldown looks at
whether they fit, and neither does `stake`. -/
namespace HubAssist.Staking
open SorobanHost CheckedArith RunSystem

variable {Address : Type} [DecidableEq Address] {C : Chain Address}
variable {env : Env C} {w w' : StakingWorld C} {staker : Address} {info : StakeInfo Address}
variable {tier : StakingTier}

/-- The staker can leave with all of the stake and with any part of it. -/
def ExitsOpen (env : Env C) (staker : Address) (info : StakeInfo Address) (w : StakingWorld C) :
    Prop :=
  (∃ w', unstake env staker w = .ok w') ∧ ∀ amount, 0 < amount → amount ≤ info.amount →
    ∃ w', partialUnstake env staker amount w = .ok w'

/-- The largest products of the formulas fit, and so does the end of the cooldown. -/
structure ExitFits (info : StakeInfo Address) (tier : StakingTier) (now cooldown : ℕ) : Prop where
  scaled : info.amount*rewardPrecision < i128Bound
  rated : info.amount*tier.baseRateBps < i128Bound
  multiplied : info.amount*tier.baseRateBps*tier.rewardMultiplierBps < i128Bound
  whole : info.amount*tier.baseRateBps*tier.rewardMultiplierBps*(now-info.stakedAt : ℕ)*
    rewardPrecision < i128Bound
  since : info.amount*tier.baseRateBps*(now-info.stakeTimestamp : ℕ)*rewardPrecision < i128Bound
  cooled : now+cooldown < u64Bound

theorem unstake_eq_ok : unstake env staker w = .ok w' ↔ staker ∈ env.signers ∧ ∃ info,
    w.store.stake staker = some info ∧ ∃ tier, w.store.tier info.tierId = some tier ∧
      info.stakedAt+tier.lockPeriodSeconds < u64Bound ∧
      info.stakedAt+tier.lockPeriodSeconds ≤ w.now ∧ ∃ reward,
        calcRewards info tier w.now = some reward ∧ InI128 (info.amount+reward) ∧
        w.now+getCooldownSecs w < u64Bound ∧
        setStake (pushPending w staker ⟨info.amount+reward, w.now+getCooldownSecs w, staker⟩)
          staker none = w' := by
  simp only [unstake, getStake, getStakingTier, bind_eq_ok, requireAuth_eq_ok, getOr_eq_ok,
    failIf_eq_ok, checked_eq_ok, u64Add_eq_some, i128Add_eq_some, pure_eq_ok, exists_const]
  constructor
  · rintro ⟨hs, info, hinfo, tier, htier, _, ⟨hunlock, rfl⟩, hlock, reward, hreward, _, ⟨hsum, rfl⟩,
      _, ⟨hcooled, rfl⟩, rfl⟩
    exact ⟨hs, info, hinfo, tier, htier, hunlock, not_lt.mp hlock, reward, hreward, hsum, hcooled,
      rfl⟩
  · rintro ⟨hs, info, hinfo, tier, htier, hunlock, hlock, reward, hreward, hsum, hcooled, rfl⟩
    exact ⟨hs, info, hinfo, tier, htier, _, ⟨hunlock, rfl⟩, not_lt.mpr hlock, reward, hreward, _,
      ⟨hsum, rfl⟩, _, ⟨hcooled, rfl⟩, rfl⟩

omit [DecidableEq Address] in
/-- A reward is far below the product that it comes from. -/
theorem reward_small {product reward unit : ℤ} (hproduct : 0 ≤ product)
    (hfits : product*rewardPrecision < i128Bound) (hunit : 0 < unit)
    (hreward : product/unit = reward) :
    0 ≤ reward ∧ reward*rewardPrecision < i128Bound := by
  have hnonneg : 0 ≤ product/unit := Int.ediv_nonneg hproduct hunit.le
  have hle : product/unit ≤ product := Int.ediv_le_self _ hproduct
  have hprecision : rewardPrecision = 1000000 := rfl
  rw [hprecision] at hfits ⊢
  omega

/-- Once the last products fit, so does every step of a partial unstake: the removed part is a
share of the total. -/
theorem partialFits {amount total : ℤ} (hpos : 0 < amount) (hle : amount ≤ info.amount)
    (hscaled : info.amount*rewardPrecision < i128Bound) (htotal : 0 ≤ total)
    (hreward : total*rewardPrecision < i128Bound) (hcooled : w.now+getCooldownSecs w < u64Bound) :
    PartialFits w info amount total := by
  have hprecision : 0 < rewardPrecision := by decide
  have hstaked : 0 < info.amount := hpos.trans_le hle
  have hamount₀ : 0 ≤ amount*rewardPrecision := mul_nonneg hpos.le hprecision.le
  have hamount : amount*rewardPrecision ≤ info.amount*rewardPrecision := by gcongr
  obtain ⟨hratio₀, hratio₁⟩ := tdiv_bounds hamount₀ hstaked
  -- the ratio is at most one, which the precision stands for, so no share exceeds the total
  have hratio : (amount*rewardPrecision).tdiv info.amount ≤ rewardPrecision :=
    le_of_mul_le_mul_left (hratio₁.trans hamount) hstaked
  have hshare₀ : 0 ≤ total*(amount*rewardPrecision).tdiv info.amount := mul_nonneg htotal hratio₀
  have hshare : total*(amount*rewardPrecision).tdiv info.amount ≤ total*rewardPrecision := by
    gcongr
  obtain ⟨hremoved₀, hremoved₁⟩ := tdiv_bounds hshare₀ hprecision
  rw [← removedRewards] at hremoved₀ hremoved₁
  have hremoved : removedRewards total amount info.amount ≤ total := by
    refine le_of_mul_le_mul_left ?_ hprecision
    rw [Int.mul_comm _ total]
    exact hremoved₁.trans hshare
  have hbound : rewardPrecision < i128Bound := by decide
  have hsmall : info.amount*1000000 < i128Bound := hscaled
  have hsmall' : total*1000000 < i128Bound := hreward
  exact ⟨(inI128_iff hamount₀).mpr (by omega), (inI128_iff hratio₀).mpr (by omega),
    (inI128_iff hshare₀).mpr (by omega), (inI128_iff hremoved₀).mpr (by omega),
    (inI128_iff (by omega)).mpr (by omega), hcooled, (inI128_iff (by omega)).mpr (by omega),
    (inI128_iff (by omega)).mpr (by omega)⟩

theorem ExitFits.exitsOpen (h : ExitFits info tier w.now (getCooldownSecs w))
    (ha : 0 ≤ info.amount) (hs : staker ∈ env.signers) (hinfo : w.store.stake staker = some info)
    (htier : w.store.tier info.tierId = some tier)
    (hlock : info.stakedAt+tier.lockPeriodSeconds ≤ w.now) : ExitsOpen env staker info w := by
  have hcooled := h.cooled
  have hsmall : info.amount*1000000 < i128Bound := h.scaled
  constructor
  · obtain ⟨reward, hreward⟩ : ∃ reward, calcRewards info tier w.now = some reward :=
      ⟨_, (calcRewards_eq_some ha).mpr ⟨by omega, h.rated, h.multiplied, h.whole, rfl⟩⟩
    obtain ⟨_, _, _, _, hquotient⟩ := (calcRewards_eq_some ha).mp hreward
    have hunit : 0 < accrualUnit := by decide
    obtain ⟨hnonneg, hfits⟩ := reward_small (by positivity) h.whole hunit hquotient
    -- amount and reward are each below a millionth of the bound, so their sum fits as well
    have hsmall' : reward*1000000 < i128Bound := hfits
    exact ⟨_, unstake_eq_ok.mpr ⟨hs, info, hinfo, tier, htier, by omega, hlock, reward, hreward,
      (inI128_iff (by omega)).mpr (by omega), hcooled, rfl⟩⟩
  · intro amount hpos hle
    have htotal := (calculateRewards_eq_some ha).mpr ⟨h.since, rfl⟩
    have hunit : 0 < yearSecs*10000 := by decide
    obtain ⟨hnonneg, hfits⟩ := reward_small (by positivity) h.since hunit rfl
    exact ⟨_, partialUnstake_eq_ok.mpr ⟨hs, info, hinfo, ⟨hpos, hle⟩, tier, htier, _, htotal,
      partialFits hpos hle h.scaled hnonneg hfits hcooled, rfl⟩⟩

/-- Taking out the whole by both ways computes every product of the condition. -/
theorem ExitsOpen.fits (h : ExitsOpen env staker info w) (ha : 0 ≤ info.amount)
    (hinfo : w.store.stake staker = some info) (htier : w.store.tier info.tierId = some tier) :
    ExitFits info tier w.now (getCooldownSecs w) := by
  obtain ⟨⟨w', hwhole⟩, hparts⟩ := h
  obtain ⟨_, stored, hstored, storedTier, hstoredTier, _, _, reward, hreward, _, hcooled, _⟩ :=
    unstake_eq_ok.mp hwhole
  obtain rfl := Option.some.inj (hinfo.symm.trans hstored)
  obtain rfl := Option.some.inj (htier.symm.trans hstoredTier)
  obtain ⟨_, hrated, hmultiplied, hfits, _⟩ := (calcRewards_eq_some ha).mp hreward
  have hpart : info.amount*rewardPrecision < i128Bound ∧
      info.amount*tier.baseRateBps*(w.now-info.stakeTimestamp : ℕ)*rewardPrecision <
        i128Bound := by
    rcases ha.eq_or_lt with hzero | hpos
    -- nothing is staked: there is no part to take out, and nothing to multiply
    · rw [← hzero]
      simp only [zero_mul]
      decide
    · obtain ⟨_, hcall⟩ := hparts info.amount hpos le_rfl
      obtain ⟨_, stored, hstored, _, storedTier, hstoredTier, total, htotal, hslice, _⟩ :=
        partialUnstake_eq_ok.mp hcall
      obtain rfl := Option.some.inj (hinfo.symm.trans hstored)
      obtain rfl := Option.some.inj (htier.symm.trans hstoredTier)
      exact ⟨hslice.1.2, ((calculateRewards_eq_some ha).mp htotal).1⟩
  exact ⟨hpart.1, hrated, hmultiplied, hfits, hpart.2, hcooled⟩

/-- In every state that a run reaches, with any configuration, tiers and cooldown that it has
accepted, and at every time from the end of the lock period on, a stake can be left exactly when
the products and the end of the cooldown fit. -/
theorem exits_open_iff (d : Deployment C) (as : List (Action C (Call Address))) {t : ℕ}
    (hs : staker ∈ env.signers) (hinfo : (run exec d.start as).store.stake staker = some info)
    (htier : (run exec d.start as).store.tier info.tierId = some tier)
    (hlock : info.stakedAt+tier.lockPeriodSeconds ≤ t) :
    ExitsOpen env staker info ((run exec d.start as).atTime t) ↔
      ExitFits info tier t (getCooldownSecs (run exec d.start as)) := by
  have ha : 0 ≤ info.amount := (sound_run d as).1.amount_nonneg staker info hinfo
  constructor
  · intro h
    exact h.fits ha hinfo htier
  · intro h
    exact ExitFits.exitsOpen (w := (run exec d.start as).atTime t) h ha hs hinfo htier hlock

/-- A token of eighteen decimals, of which account 2 owns a hundred. -/
def richDeployment : Deployment numberedChain where
  stakingToken := 9
  tokens _ := fun account => if account = 2 then (100000000000000000000 : ℕ) else 0
  now := 1000

/-- Ten per cent a year, doubled, for a lock period of thirty days. -/
def goldTier : StakingTier := ⟨12, "gold", 1, 1000, 20000, 2592000⟩

def stakeGold (amount : ℤ) : List (Action numberedChain (Call ℕ)) :=
  [.invoke (signedBy 0) (.setStakingConfig 1 ⟨1, 100000000000000000000, 500⟩),
   .invoke (signedBy 0) (.addStakingTier 1 goldTier),
   .invoke (signedBy 1) (.stake 2 amount 12)]

/-- A hundredth of a token can be taken out after a year. -/
theorem exits_open_hundredth :
    ExitsOpen (signedBy 1) 2 (freshStake 2 10000000000000000 12 1000)
      ((run exec richDeployment.start (stakeGold 10000000000000000)).atTime 31537000) := by
  have hs : 2 ∈ (signedBy 1).signers := by decide
  have hinfo : (run exec richDeployment.start (stakeGold 10000000000000000)).store.stake 2 =
      some (freshStake 2 10000000000000000 12 1000) := by decide
  have htier : (run exec richDeployment.start (stakeGold 10000000000000000)).store.tier 12 =
      some goldTier := by decide
  refine (exits_open_iff richDeployment _ hs hinfo htier (by decide)).mpr ?_
  constructor <;> decide

/-- Ten tokens cannot, from the very end of the lock period. -/
theorem exits_stuck :
    (run exec richDeployment.start (stakeGold 10000000000000000000)).store.stake 2 =
        some (freshStake 2 10000000000000000000 12 1000) ∧
      1000+goldTier.lockPeriodSeconds ≤ 2593000 ∧
      ¬ExitsOpen (signedBy 1) 2 (freshStake 2 10000000000000000000 12 1000)
        ((run exec richDeployment.start (stakeGold 10000000000000000000)).atTime 2593000) := by
  refine ⟨by decide, by decide, fun h => ?_⟩
  have htier : (run exec richDeployment.start (stakeGold 10000000000000000000)).store.tier 12 =
      some goldTier := by decide
  have hwhole := (h.fits (by decide) (by decide) htier).whole
  revert hwhole
  decide

end HubAssist.Staking
