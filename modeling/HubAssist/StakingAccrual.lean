import HubAssist.StakingSteps
import Mathlib.Tactic.Linarith
import Mathlib.Tactic.Ring

/-! The reward formulas, each against the exact product that it divides. All of them round
down, so that none pays more than the exact rational reward of its amount and time. -/
namespace HubAssist.Staking
open CheckedArith

variable {Address : Type} {info : StakeInfo Address} {tier : StakingTier}

/-- The denominator of the exact reward: a year of seconds, and two rates in basis points. -/
def accrualUnit : ℤ := yearSecs*100000000

theorem calculateRewards_bounds {amount reward : ℤ} {startTime endTime apyBps : ℕ}
    (h : calculateRewards amount startTime endTime apyBps = some reward) (ha : 0 ≤ amount) :
    0 ≤ reward ∧ yearSecs*10000*reward ≤ amount*apyBps*(endTime-startTime : ℕ) := by
  rw [calculateRewards] at h
  split_ifs at h with htime
  · obtain rfl := Option.some.inj h
    exact ⟨le_rfl, by rw [mul_zero]; positivity⟩
  · simp only [Option.bind_eq_bind, Option.bind_eq_some_iff, i128Mul_eq_some, i128Div_eq_some] at h
    obtain ⟨_, ⟨_, rfl⟩, _, ⟨_, rfl⟩, _, ⟨_, rfl⟩, _, _, rfl⟩ := h
    have hprecision : 0 < rewardPrecision := by decide
    have hunit : 0 < yearSecs*10000*rewardPrecision := by decide
    have hproduct : 0 ≤ amount*apyBps*(endTime-startTime : ℕ)*rewardPrecision := by positivity
    obtain ⟨hnonneg, hle⟩ := tdiv_bounds hproduct hunit
    refine ⟨hnonneg, le_of_mul_le_mul_right ?_ hprecision⟩
    calc yearSecs*10000*(amount*apyBps*(endTime-startTime : ℕ)*rewardPrecision).tdiv
          (yearSecs*10000*rewardPrecision)*rewardPrecision
        = yearSecs*10000*rewardPrecision*(amount*apyBps*(endTime-startTime : ℕ)*
          rewardPrecision).tdiv (yearSecs*10000*rewardPrecision) := by ring
      _ ≤ amount*apyBps*(endTime-startTime : ℕ)*rewardPrecision := hle

theorem calcRewards_bounds {reward : ℤ} {now : ℕ} (h : calcRewards info tier now = some reward)
    (ha : 0 ≤ info.amount) : 0 ≤ reward ∧ accrualUnit*reward ≤
      info.amount*tier.baseRateBps*tier.rewardMultiplierBps*(now-info.stakedAt : ℕ) := by
  simp only [calcRewards, Option.bind_eq_bind, Option.bind_eq_some_iff, i128Mul_eq_some,
    i128Div_eq_some, u64Sub_eq_some] at h
  obtain ⟨_, ⟨_, rfl⟩, _, ⟨_, rfl⟩, _, ⟨_, rfl⟩, _, ⟨_, rfl⟩, _, ⟨_, rfl⟩, yearly, ⟨_, _, hyear⟩,
    rated, ⟨_, _, hrate⟩, _, _, hreward⟩ := h
  have hprecision : 0 < rewardPrecision := by decide
  have hproduct : 0 ≤ info.amount*tier.baseRateBps*tier.rewardMultiplierBps*
      (now-info.stakedAt : ℕ)*rewardPrecision := by positivity
  -- three divisions one after the other, each of which rounds down
  obtain ⟨hyear₀, hyear₁⟩ := tdiv_bounds hproduct (by decide : 0 < yearSecs)
  rw [hyear] at hyear₀ hyear₁
  obtain ⟨hrate₀, hrate₁⟩ := tdiv_bounds hyear₀ (by decide : (0 : ℤ) < 100000000)
  rw [hrate] at hrate₀ hrate₁
  obtain ⟨hreward₀, hreward₁⟩ := tdiv_bounds hrate₀ hprecision
  rw [hreward] at hreward₀ hreward₁
  refine ⟨hreward₀, le_of_mul_le_mul_right ?_ hprecision⟩
  calc accrualUnit*reward*rewardPrecision
      = yearSecs*(100000000*(rewardPrecision*reward)) := by rw [accrualUnit]; ring
    _ ≤ yearSecs*(100000000*rated) := by
      have hyears : 0 ≤ yearSecs := by decide
      gcongr
    _ ≤ yearSecs*yearly := by
      have hyears : 0 ≤ yearSecs := by decide
      gcongr
    _ ≤ info.amount*tier.baseRateBps*tier.rewardMultiplierBps*(now-info.stakedAt : ℕ)*
        rewardPrecision := hyear₁

/-- What the rewards module finds due is the reward of the whole time less what has been
claimed, and nothing when that is negative. -/
theorem pendingRewards_bounds {reward : ℤ} {elapsed : ℕ}
    (h : pendingRewards info tier elapsed = some reward) (ha : 0 ≤ info.amount) :
    ∃ total, 0 ≤ total ∧ accrualUnit*total ≤
      info.amount*tier.baseRateBps*tier.rewardMultiplierBps*elapsed ∧
        reward = max (total-info.claimedRewards) 0 := by
  simp only [pendingRewards, Option.bind_eq_bind, Option.bind_eq_some_iff, i128Mul_eq_some,
    i128Div_eq_some, i128Sub_eq_some, Option.pure_def, Option.some.injEq] at h
  obtain ⟨_, ⟨_, rfl⟩, based, ⟨_, _, hbase⟩, _, ⟨_, rfl⟩, yearly, ⟨_, _, hyear⟩, _, ⟨_, rfl⟩, total,
    ⟨_, _, htotal⟩, _, ⟨_, rfl⟩, rfl⟩ := h
  have hproduct : 0 ≤ info.amount*tier.baseRateBps := by positivity
  -- here the divisions stand between the products, so each bound is carried on
  obtain ⟨hbase₀, hbase₁⟩ := tdiv_bounds hproduct (by decide : (0 : ℤ) < 10000)
  rw [hbase] at hbase₀ hbase₁
  have hyears : 0 < yearSecs := by decide
  obtain ⟨hyear₀, hyear₁⟩ := tdiv_bounds (by positivity : 0 ≤ based*elapsed) hyears
  rw [hyear] at hyear₀ hyear₁
  obtain ⟨htotal₀, htotal₁⟩ := tdiv_bounds (by positivity : 0 ≤ yearly*tier.rewardMultiplierBps)
    (by decide : (0 : ℤ) < 10000)
  rw [htotal] at htotal₀ htotal₁
  refine ⟨total, htotal₀, ?_, rfl⟩
  calc accrualUnit*total = yearSecs*10000*(10000*total) := by rw [accrualUnit]; ring
    _ ≤ yearSecs*10000*(yearly*tier.rewardMultiplierBps) := by gcongr
    _ = 10000*(yearSecs*yearly)*tier.rewardMultiplierBps := by ring
    _ ≤ 10000*(based*elapsed)*tier.rewardMultiplierBps := by gcongr
    _ = 10000*based*elapsed*tier.rewardMultiplierBps := by ring
    _ ≤ info.amount*tier.baseRateBps*elapsed*tier.rewardMultiplierBps := by gcongr
    _ = info.amount*tier.baseRateBps*tier.rewardMultiplierBps*elapsed := by ring

/-- The part that leaves with `amount` is at most its share of the total. -/
theorem removedRewards_bounds {total amount staked : ℤ} (htotal : 0 ≤ total) (hamount : 0 ≤ amount)
    (hstaked : 0 < staked) : 0 ≤ removedRewards total amount staked ∧
      staked*removedRewards total amount staked ≤ total*amount := by
  have hprecision : 0 < rewardPrecision := by decide
  obtain ⟨hratio₀, hratio₁⟩ := tdiv_bounds (by positivity : 0 ≤ amount*rewardPrecision) hstaked
  obtain ⟨hremoved₀, hremoved₁⟩ := tdiv_bounds
    (mul_nonneg htotal hratio₀ : 0 ≤ total*(amount*rewardPrecision).tdiv staked) hprecision
  refine ⟨hremoved₀, le_of_mul_le_mul_right ?_ hprecision⟩
  calc staked*removedRewards total amount staked*rewardPrecision
      = staked*(rewardPrecision*removedRewards total amount staked) := by ring
    _ ≤ staked*(total*(amount*rewardPrecision).tdiv staked) := by
      rw [removedRewards]
      gcongr
    _ = total*(staked*(amount*rewardPrecision).tdiv staked) := by ring
    _ ≤ total*(amount*rewardPrecision) := by gcongr
    _ = total*amount*rewardPrecision := by ring

end HubAssist.Staking
