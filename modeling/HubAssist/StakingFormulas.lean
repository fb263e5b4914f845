import HubAssist.StakingRewards

/-! The exact values of the three reward formulas, and where they agree. What is claimed leaves
out the tier's multiplier, what is queued on leaving applies it, and the rewards module applies it
after two more divisions. -/
namespace HubAssist.Staking
open SorobanHost CheckedArith

variable {Address : Type} [DecidableEq Address] {C : Chain Address}
variable {env : Env C} {w w' v : StakingWorld C} {staker : Address} {info : StakeInfo Address}
variable {tier : StakingTier}

/-- The formula of a claim has a value when its last product fits, which is the largest. -/
theorem calculateRewards_eq_some {amount reward : ℤ} {startTime endTime apyBps : ℕ}
    (ha : 0 ≤ amount) : calculateRewards amount startTime endTime apyBps = some reward ↔
      amount*apyBps*(endTime-startTime : ℕ)*rewardPrecision < i128Bound ∧
        amount*apyBps*(endTime-startTime : ℕ)/(yearSecs*10000) = reward := by
  have hprecision : 0 < rewardPrecision := by decide
  have hunit : 0 < yearSecs*10000*rewardPrecision := by decide
  have hrated : 0 ≤ amount*apyBps := by positivity
  have hproduct : 0 ≤ amount*apyBps*(endTime-startTime : ℕ) := by positivity
  have hscaled : 0 ≤ amount*apyBps*(endTime-startTime : ℕ)*rewardPrecision := by positivity
  rw [calculateRewards]
  split_ifs with htime
  -- no time has passed: the code returns at once, and the formula gives nothing as well
  · rw [Nat.sub_eq_zero_of_le htime, Nat.cast_zero, mul_zero, zero_mul, Int.zero_ediv]
    exact ⟨fun h => ⟨by decide, Option.some.inj h⟩, fun h => congrArg some h.2⟩
  · constructor
    · intro h
      simp only [Option.bind_eq_bind, Option.bind_eq_some_iff, i128Mul_eq_some] at h
      obtain ⟨_, ⟨_, rfl⟩, _, ⟨_, rfl⟩, _, ⟨hlast, rfl⟩, hquotient⟩ := h
      have hfits := (inI128_iff hscaled).mp hlast
      rw [i128Div_of_nonneg hscaled hfits hunit, Int.mul_ediv_mul_of_pos_left _ _ hprecision]
        at hquotient
      exact ⟨hfits, Option.some.inj hquotient⟩
    · rintro ⟨hfits, rfl⟩
      have helapsed : (1 : ℤ) ≤ (endTime-startTime : ℕ) := by omega
      have hle₂ : amount*apyBps*(endTime-startTime : ℕ) ≤
          amount*apyBps*(endTime-startTime : ℕ)*rewardPrecision :=
        le_mul_of_one_le_right hproduct hprecision
      have hle₁ : amount*apyBps ≤ amount*apyBps*(endTime-startTime : ℕ) :=
        le_mul_of_one_le_right hrated helapsed
      simp only [Option.bind_eq_bind, i128Mul_of_nonneg hrated (by omega),
        i128Mul_of_nonneg hproduct (by omega), i128Mul_of_nonneg hscaled hfits,
        i128Div_of_nonneg hscaled hfits hunit, Option.bind_some]
      rw [Int.mul_ediv_mul_of_pos_left _ _ hprecision]

/-- The three divisions of an unstake's formula are one: they cancel the precision again. -/
theorem calcRewards_divisions {product : ℤ} (hproduct : 0 ≤ product)
    (hfits : product*rewardPrecision < i128Bound) :
    ((i128Div (product*rewardPrecision) yearSecs).bind fun yearly =>
      (i128Div yearly 100000000).bind fun rated => i128Div rated rewardPrecision) =
        some (product/accrualUnit) := by
  have hprecision : 0 < rewardPrecision := by decide
  have hyear : 0 < yearSecs := by decide
  have hscaled : 0 ≤ product*rewardPrecision := by positivity
  have hyearly : 0 ≤ product*rewardPrecision/yearSecs := Int.ediv_nonneg hscaled hyear.le
  have hyearly' : product*rewardPrecision/yearSecs ≤ product*rewardPrecision :=
    Int.ediv_le_self _ hscaled
  have hrated : 0 ≤ product*rewardPrecision/yearSecs/100000000 :=
    Int.ediv_nonneg hyearly (by decide)
  have hrated' : product*rewardPrecision/yearSecs/100000000 ≤ product*rewardPrecision/yearSecs :=
    Int.ediv_le_self _ hyearly
  rw [i128Div_of_nonneg hscaled hfits hyear, Option.bind_some,
    i128Div_of_nonneg hyearly (by omega) (by decide), Option.bind_some,
    i128Div_of_nonneg hrated (by omega) hprecision]
  congr 1
  calc product*rewardPrecision/yearSecs/100000000/rewardPrecision
      = product*rewardPrecision/(accrualUnit*rewardPrecision) := by
        rw [Int.ediv_ediv_of_nonneg hyear.le, Int.ediv_ediv_of_nonneg (by decide), accrualUnit]
    _ = product/accrualUnit := Int.mul_ediv_mul_of_pos_left _ _ hprecision

omit [DecidableEq Address] in
/-- The formula of an unstake multiplies by a rate that may be nothing, so three products have to
fit. -/
theorem calcRewards_eq_some {reward : ℤ} {now : ℕ} (ha : 0 ≤ info.amount) :
    calcRewards info tier now = some reward ↔ info.stakedAt ≤ now ∧
      info.amount*tier.baseRateBps < i128Bound ∧
      info.amount*tier.baseRateBps*tier.rewardMultiplierBps < i128Bound ∧
      info.amount*tier.baseRateBps*tier.rewardMultiplierBps*(now-info.stakedAt : ℕ)*
        rewardPrecision < i128Bound ∧
      info.amount*tier.baseRateBps*tier.rewardMultiplierBps*(now-info.stakedAt : ℕ)/
        accrualUnit = reward := by
  have hprecision : 0 < rewardPrecision := by decide
  have hrated : 0 ≤ info.amount*tier.baseRateBps := by positivity
  have hmultiplied : 0 ≤ info.amount*tier.baseRateBps*tier.rewardMultiplierBps := by positivity
  have hproduct : 0 ≤ info.amount*tier.baseRateBps*tier.rewardMultiplierBps*
      (now-info.stakedAt : ℕ) := by positivity
  have hscaled : 0 ≤ info.amount*tier.baseRateBps*tier.rewardMultiplierBps*
      (now-info.stakedAt : ℕ)*rewardPrecision := by positivity
  constructor
  · intro h
    simp only [calcRewards, Option.bind_eq_bind, Option.bind_eq_some_iff (x := u64Sub _ _),
      Option.bind_eq_some_iff (x := i128Mul _ _), i128Mul_eq_some, u64Sub_eq_some] at h
    obtain ⟨_, ⟨hstarted, rfl⟩, _, ⟨h₁, rfl⟩, _, ⟨h₂, rfl⟩, _, ⟨_, rfl⟩, _, ⟨h₄, rfl⟩, hreward⟩ := h
    have hfits := (inI128_iff hscaled).mp h₄
    rw [calcRewards_divisions hproduct hfits] at hreward
    exact ⟨hstarted, (inI128_iff hrated).mp h₁, (inI128_iff hmultiplied).mp h₂, hfits,
      Option.some.inj hreward⟩
  · rintro ⟨hstarted, hfits₁, hfits₂, hfits₄, rfl⟩
    -- the product before the last is no larger, so it need not be asked for
    have hle : info.amount*tier.baseRateBps*tier.rewardMultiplierBps*(now-info.stakedAt : ℕ) ≤
        info.amount*tier.baseRateBps*tier.rewardMultiplierBps*(now-info.stakedAt : ℕ)*
          rewardPrecision := le_mul_of_one_le_right hproduct hprecision
    have helapsed : u64Sub now info.stakedAt = some (now-info.stakedAt) := if_pos hstarted
    simp only [calcRewards, Option.bind_eq_bind, helapsed, i128Mul_of_nonneg hrated hfits₁,
      i128Mul_of_nonneg hmultiplied hfits₂, i128Mul_of_nonneg hproduct (hle.trans_lt hfits₄),
      i128Mul_of_nonneg hscaled hfits₄, Option.bind_some]
    exact calcRewards_divisions hproduct hfits₄

omit [DecidableEq Address] in
/-- The rewards module rounds down three times, between its products. -/
theorem pendingRewards_eq {reward : ℤ} {elapsed : ℕ}
    (h : pendingRewards info tier elapsed = some reward) (ha : 0 ≤ info.amount) :
    reward = max (info.amount*tier.baseRateBps/10000*elapsed/yearSecs*
      tier.rewardMultiplierBps/10000-info.claimedRewards) 0 := by
  simp only [pendingRewards, Option.bind_eq_bind, Option.bind_eq_some_iff, i128Mul_eq_some,
    i128Div_eq_some, i128Sub_eq_some, Option.pure_def, Option.some.injEq] at h
  obtain ⟨_, ⟨_, rfl⟩, based, ⟨_, _, hbase⟩, _, ⟨_, rfl⟩, yearly, ⟨_, _, hyear⟩, _, ⟨_, rfl⟩, total,
    ⟨_, _, htotal⟩, _, ⟨_, rfl⟩, rfl⟩ := h
  have hproduct : 0 ≤ info.amount*tier.baseRateBps := by positivity
  rw [Int.tdiv_eq_ediv_of_nonneg hproduct] at hbase
  have hbased : 0 ≤ based := hbase ▸ Int.ediv_nonneg hproduct (by decide)
  rw [Int.tdiv_eq_ediv_of_nonneg (by positivity)] at hyear
  have hyearly : 0 ≤ yearly := hyear ▸ Int.ediv_nonneg (by positivity) (by decide)
  rw [Int.tdiv_eq_ediv_of_nonneg (by positivity)] at htotal
  rw [hbase, hyear, htotal]

/-- The record that `stake` writes. -/
def freshStake {Address : Type} (staker : Address) (amount : ℤ) (tierId : TierId) (start : ℕ) :
    StakeInfo Address := ⟨staker, amount, tierId, start, start, 0, 0, false⟩

theorem stake_fresh {amount : ℤ} {tierId : TierId} (h : stake env staker amount tierId w = .ok w') :
    0 ≤ amount ∧ w'.store.stake staker = some (freshStake staker amount tierId w.now) := by
  simp only [stake, bind_eq_ok, World.transfer_eq_ok, pure_eq_ok] at h
  obtain ⟨_, _, _, _, _, _, _, _, _, _, _, _, _, _, _, _, _, ⟨t, ht, rfl⟩, rfl⟩ := h
  exact ⟨C.token.transfer_nonneg ht, Function.update_self ..⟩

/-- The exact rewards with and without the multiplier lie in the same whole unit. -/
def SameUnit (tier : StakingTier) (amount : ℤ) (elapsed : ℕ) : Prop :=
  ∃ k : ℤ, (k*accrualUnit ≤ amount*tier.baseRateBps*elapsed*10000 ∧
      amount*tier.baseRateBps*elapsed*10000 < (k+1)*accrualUnit) ∧
    (k*accrualUnit ≤ amount*tier.baseRateBps*elapsed*tier.rewardMultiplierBps ∧
      amount*tier.baseRateBps*elapsed*tier.rewardMultiplierBps < (k+1)*accrualUnit)

/-- A claim pays the first of these amounts and an unstake queues the second, which are equal; the
rewards module finds the third, which falls short of them by its rounding only. -/
structure FormulasAgree (v : StakingWorld C) (staker : Address) (tier : StakingTier) (elapsed : ℕ)
    (claimed queued pending : ℤ) : Prop where
  claims : ∀ env w' paid, claimStakingRewards env staker v = .ok (paid, w') → paid = claimed
  queues : ∀ env w', unstake env staker v = .ok w' → queuedReward v w' staker = queued
  equal : claimed = queued
  below : pending ≤ queued
  close : ((queued-pending : ℤ) : ℚ) <
    elapsed/yearSecs*tier.rewardMultiplierBps/10000+tier.rewardMultiplierBps/10000+2

/-- Two quotients are equal when the dividends lie in the same multiple of the divisor. -/
theorem ediv_eq_ediv_iff {x y d : ℤ} (hd : 0 < d) :
    x/d = y/d ↔ ∃ k : ℤ, (k*d ≤ x ∧ x < (k+1)*d) ∧ (k*d ≤ y ∧ y < (k+1)*d) := by
  have hquotient (x k : ℤ) : k*d ≤ x ∧ x < (k+1)*d ↔ x/d = k := by
    rw [← Int.le_ediv_iff_mul_le hd, ← Int.ediv_lt_iff_lt_mul hd]
    omega
  simp only [hquotient]
  constructor
  · intro h
    exact ⟨y/d, h, rfl⟩
  · rintro ⟨k, hx, hy⟩
    exact hx.trans hy.symm

/-- The amount of a claim is that of an unstake when the multiplier does not show. -/
theorem claimed_eq_queued_iff (tier : StakingTier) (amount : ℤ) (elapsed : ℕ) :
    amount*tier.baseRateBps*elapsed/(yearSecs*10000) =
        amount*tier.baseRateBps*tier.rewardMultiplierBps*elapsed/accrualUnit ↔
      SameUnit tier amount elapsed := by
  have hunit : (0 : ℤ) < accrualUnit := by decide
  have hclaimed : amount*tier.baseRateBps*elapsed/(yearSecs*10000) =
      amount*tier.baseRateBps*elapsed*10000/accrualUnit := by
    have hscale : accrualUnit = yearSecs*10000*10000 := by decide
    rw [hscale, Int.mul_ediv_mul_of_pos_left _ _ (by decide)]
  have hqueued : amount*tier.baseRateBps*tier.rewardMultiplierBps*elapsed =
      amount*tier.baseRateBps*elapsed*tier.rewardMultiplierBps := by ring
  rw [hclaimed, hqueued, ediv_eq_ediv_iff hunit, SameUnit]

/-- Three divisions between the products lose less than one unit each, which the products after
them scale. -/
theorem rounding_lt (x : ℤ) (elapsed multiplier : ℕ) :
    yearSecs*10000*(x*multiplier*elapsed/accrualUnit-
        x/10000*elapsed/yearSecs*multiplier/10000-1) <
      yearSecs*multiplier+elapsed*multiplier := by
  have hyear : 0 < yearSecs := by decide
  have hunit : 0 < accrualUnit := by decide
  have hbase : x ≤ 10000*(x/10000)+10000 := by omega
  have hyearly : x/10000*elapsed ≤ yearSecs*(x/10000*elapsed/yearSecs)+yearSecs :=
    (Int.lt_mul_ediv_self_add hyear).le
  have htotal : x/10000*elapsed/yearSecs*multiplier <
      10000*(x/10000*elapsed/yearSecs*multiplier/10000)+10000 :=
    Int.lt_mul_ediv_self_add (by decide)
  have hqueued : accrualUnit*(x*multiplier*elapsed/accrualUnit) ≤ x*multiplier*elapsed :=
    Int.mul_ediv_self_le hunit.ne'
  generalize x*multiplier*elapsed/accrualUnit = queued at *
  generalize x/10000*elapsed/yearSecs*multiplier/10000 = pending at *
  generalize x/10000*elapsed/yearSecs = yearly at *
  generalize x/10000 = based at *
  -- each floor is replaced by its bound, from the outermost product inwards
  have hscaled : accrualUnit*queued < accrualUnit*(pending+1)+
      10000*(yearSecs*multiplier+elapsed*multiplier) := by
    calc accrualUnit*queued ≤ x*multiplier*elapsed := hqueued
      _ ≤ (10000*based+10000)*multiplier*elapsed := by gcongr
      _ = 10000*multiplier*(based*elapsed)+10000*(elapsed*multiplier) := by ring
      _ ≤ 10000*multiplier*(yearSecs*yearly+yearSecs)+10000*(elapsed*multiplier) := by gcongr
      _ = 10000*yearSecs*(yearly*multiplier)+
          10000*(yearSecs*multiplier+elapsed*multiplier) := by ring
      _ < 10000*yearSecs*(10000*pending+10000)+
          10000*(yearSecs*multiplier+elapsed*multiplier) := by gcongr
      _ = accrualUnit*(pending+1)+10000*(yearSecs*multiplier+elapsed*multiplier) := by
        rw [accrualUnit]
        ring
  rw [accrualUnit] at hscaled
  linarith

theorem calculatePendingRewards_fresh {amount : ℤ} {tierId : TierId} {start : ℕ} {pending : ℤ}
    (htier : v.store.tier tierId = some tier)
    (h : calculatePendingRewards v (freshStake staker amount tierId start) = .ok pending) :
    pendingRewards (freshStake staker amount tierId start) tier (v.now-start) = some pending := by
  simp only [calculatePendingRewards, freshStake, Bool.false_eq_true, if_false, getStakingTier,
    htier, bind_eq_ok, getOr_eq_ok, checked_eq_ok, u64Sub_eq_some, Option.some.injEq] at h
  obtain ⟨_, rfl, _, ⟨_, rfl⟩, h⟩ := h
  exact h

theorem claimed_amount (hinfo : v.store.stake staker = some info)
    (htier : v.store.tier info.tierId = some tier) {claimed : ℤ} (hnonneg : 0 ≤ claimed)
    (hclaimed : calculateRewards info.amount info.stakeTimestamp v.now tier.baseRateBps =
      some claimed) {paid : ℤ} (h : claimStakingRewards env staker v = .ok (paid, w')) :
    paid = claimed := by
  simp only [claimStakingRewards, bind_eq_ok, requireAuth_eq_ok, getOr_eq_ok, checked_eq_ok, hinfo,
    Option.some.injEq, exists_const] at h
  obtain ⟨_, _, rfl, _, htier', _, hreward, hrest⟩ := h
  obtain rfl := Option.some.inj (htier.symm.trans htier')
  obtain rfl := Option.some.inj (hclaimed.symm.trans hreward)
  split_ifs at hrest with hdue
  -- a reward of nothing is returned without a payment
  · obtain ⟨rfl, _⟩ := Prod.mk.inj (pure_eq_ok.mp hrest)
    omega
  · simp only [bind_eq_ok, pure_eq_ok, Prod.mk.injEq] at hrest
    obtain ⟨_, _, _, _, _, _, hpaid, _⟩ := hrest
    exact hpaid.symm

theorem queued_amount (hinfo : v.store.stake staker = some info)
    (htier : v.store.tier info.tierId = some tier) {queued : ℤ}
    (hqueued : calcRewards info tier v.now = some queued) (h : unstake env staker v = .ok w') :
    queuedReward v w' staker = queued := by
  have heffect : Effect v (.unstake staker) w' := exec_effect h
  cases heffect with
  | unstakes _ stored storedTier reward _ hstored hstoredTier _ hreward =>
    obtain rfl := Option.some.inj (hinfo.symm.trans hstored)
    obtain rfl := Option.some.inj (htier.symm.trans hstoredTier)
    obtain rfl := Option.some.inj (hqueued.symm.trans hreward)
    rw [queuedReward_pushPending hinfo]
    simp only [Option.elim, sub_zero, add_sub_cancel_left]
  | nothingDue _ _ hcall => exact absurd hcall (by simp)

/-- The rewards module stays below the amount of an unstake, by its rounding only. -/
theorem pending_close {amount : ℤ} {tierId : TierId} {start : ℕ} {queued pending : ℤ}
    (ha : 0 ≤ amount)
    (hqueued : amount*tier.baseRateBps*tier.rewardMultiplierBps*(v.now-start : ℕ)/accrualUnit =
      queued)
    (hdue : pendingRewards (freshStake staker amount tierId start) tier (v.now-start) =
      some pending) :
    pending ≤ queued ∧ ((queued-pending : ℤ) : ℚ) < ((v.now-start : ℕ) : ℚ)/yearSecs*
      tier.rewardMultiplierBps/10000+tier.rewardMultiplierBps/10000+2 := by
  obtain ⟨total, htotal, hbound, hmax⟩ := pendingRewards_bounds hdue ha
  have heq := pendingRewards_eq hdue ha
  dsimp only [freshStake] at hbound hmax heq
  have hpending : pending = total := by omega
  have hround := rounding_lt (amount*tier.baseRateBps) (v.now-start) tier.rewardMultiplierBps
  rw [hqueued] at hround
  constructor
  · rw [hpending, ← hqueued]
    exact Int.le_ediv_of_mul_le (by decide) (by linarith)
  · have hyear : yearSecs = 31536000 := by decide
    have hfloor : amount*tier.baseRateBps/10000*(v.now-start : ℕ)/yearSecs*
        tier.rewardMultiplierBps/10000 ≤ pending := by
      rw [sub_zero] at heq
      exact heq ▸ le_max_left _ _
    have hlast : yearSecs*10000*(queued-pending-1) < yearSecs*tier.rewardMultiplierBps+
        (v.now-start : ℕ)*tier.rewardMultiplierBps := by
      refine lt_of_le_of_lt ?_ hround
      have hscale : 0 ≤ yearSecs*10000 := by decide
      gcongr
    rw [hyear] at hlast ⊢
    have hcast : ((31536000*10000*(queued-pending-1) : ℤ) : ℚ) <
        ((31536000*tier.rewardMultiplierBps+
          (v.now-start : ℕ)*tier.rewardMultiplierBps : ℤ) : ℚ) := by exact_mod_cast hlast
    push_cast at hcast ⊢
    linarith

/-- For a stake that an accepted call has made and nothing has touched since, and where none of
the three overflows, the formulas agree exactly when the multiplier does not show in whole units. -/
theorem formulas_agree_iff {amount : ℤ} {tierId : TierId} {claimed queued pending : ℤ}
    (hstake : stake env staker amount tierId w = .ok w')
    (hkept : v.store.stake staker = w'.store.stake staker)
    (htier : v.store.tier tierId = some tier)
    (hclaimed : calculateRewards amount w.now v.now tier.baseRateBps = some claimed)
    (hqueued : calcRewards (freshStake staker amount tierId w.now) tier v.now = some queued)
    (hpending : calculatePendingRewards v (freshStake staker amount tierId w.now) = .ok pending) :
    FormulasAgree v staker tier (v.now-w.now) claimed queued pending ↔
      SameUnit tier amount (v.now-w.now) := by
  obtain ⟨ha, hfresh⟩ := stake_fresh hstake
  have hinfo := hkept.trans hfresh
  obtain ⟨_, hclaimed'⟩ := (calculateRewards_eq_some ha).mp hclaimed
  obtain ⟨_, _, _, _, hqueued'⟩ := (calcRewards_eq_some ha).mp hqueued
  have hdue := calculatePendingRewards_fresh htier hpending
  constructor
  · intro h
    rw [← claimed_eq_queued_iff, hclaimed', h.equal]
    exact hqueued'.symm
  · intro hsame
    obtain ⟨hbelow, hclose⟩ := pending_close ha hqueued' hdue
    have hnonneg := (calculateRewards_bounds hclaimed ha).1
    exact ⟨fun env w' paid => claimed_amount hinfo htier hnonneg hclaimed,
      fun env w' => queued_amount hinfo htier hqueued,
      hclaimed'.symm.trans (((claimed_eq_queued_iff ..).mpr hsame).trans hqueued'), hbelow, hclose⟩

/-- A hundred units for a year, at one hundred per cent and without a multiplier. -/
theorem formulas_agree_hundred :
    FormulasAgree (hundredStaked.atTime 31536000) 2 yearlyTier 31536000 100 100 100 := by
  have hstake : stake (signedBy 1) 2 100 7 tierReady = .ok hundredStaked := rfl
  have hclaimed : calculateRewards 100 0 31536000 yearlyTier.baseRateBps = some 100 := by decide
  have hqueued : calcRewards (freshStake 2 100 7 0) yearlyTier 31536000 = some 100 := by decide
  have hpending : calculatePendingRewards (hundredStaked.atTime 31536000) (freshStake 2 100 7 0) =
      .ok 100 := rfl
  have hkept : (hundredStaked.atTime 31536000).store.stake 2 = hundredStaked.store.stake 2 := rfl
  have htier : (hundredStaked.atTime 31536000).store.tier 7 = some yearlyTier := rfl
  have hsame : SameUnit yearlyTier 100 31536000 := ⟨100, by decide⟩
  exact (formulas_agree_iff hstake hkept htier hclaimed hqueued hpending).mpr hsame

/-- A tier of one hundred per cent a year and a multiplier of three. -/
def tripleTier : StakingTier := ⟨11, "triple", 1, 10000, 30000, 0⟩

def tripleReady : StakingWorld numberedChain :=
  step exec tierReady (.invoke (signedBy 0) (.addStakingTier 1 tripleTier))

def tripleStaked : StakingWorld numberedChain :=
  step exec tripleReady (.invoke (signedBy 1) (.stake 2 100 11))

/-- With it a claim pays a third of what an unstake queues. -/
theorem formulas_differ :
    stake (signedBy 1) 2 100 11 tripleReady = .ok tripleStaked ∧
      calculateRewards 100 0 31536000 tripleTier.baseRateBps = some 100 ∧
      calcRewards (freshStake 2 100 11 0) tripleTier 31536000 = some 300 ∧
      calculatePendingRewards (tripleStaked.atTime 31536000) (freshStake 2 100 11 0) = .ok 300 ∧
      ¬FormulasAgree (tripleStaked.atTime 31536000) 2 tripleTier 31536000 100 300 300 := by
  refine ⟨rfl, by decide, by decide, rfl, fun h => ?_⟩
  have hequal := h.equal
  revert hequal
  decide

end HubAssist.Staking
