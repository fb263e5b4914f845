import HubAssist.SorobanHost

/-! The staking and rewards modules of the manage_hub contract, which share one storage.
Entries are taken not to expire; the events they publish and the distribution of rewards by
Merkle proofs are left out. -/
namespace HubAssist.Staking
open SorobanHost CheckedArith

inductive StakingModuleError where
  | noActiveStake
  | tierNotFound
  | stakingTokenNotSet
  | invalidUnstakeAmount
  | noPendingWithdrawals
  | cooldownNotElapsed
  deriving DecidableEq, Repr

inductive StakingError where
  | overflow
  deriving DecidableEq, Repr

/-- The errors that the entry points of the two modules return. -/
inductive ModuleError where
  | staking (e : StakingModuleError)
  | rewards (e : StakingError)
  deriving DecidableEq, Repr

abbrev TierId := BitVec 256

structure StakingConfig where
  minStakeAmount : ℤ
  maxStakeAmount : ℤ
  emergencyUnstakePenaltyBps : ℕ
  deriving DecidableEq, Repr

structure StakingTier where
  id : TierId
  name : String
  minAmount : ℤ
  baseRateBps : ℕ
  rewardMultiplierBps : ℕ
  lockPeriodSeconds : ℕ
  deriving DecidableEq, Repr

structure StakeInfo (Address : Type) where
  staker : Address
  amount : ℤ
  tierId : TierId
  stakedAt : ℕ
  stakeTimestamp : ℕ
  accumulatedRewards : ℤ
  claimedRewards : ℤ
  emergencyUnstaked : Bool
  deriving DecidableEq

structure PendingWithdrawal (Address : Type) where
  amount : ℤ
  claimableAt : ℕ
  staker : Address
  deriving DecidableEq

/-- The storage of the two modules, one field for each key that an entry point uses. -/
structure Storage (Address : Type) where
  admin : Option Address
  config : Option StakingConfig
  tier : TierId → Option StakingTier
  tierList : Option (List TierId)
  stake : Address → Option (StakeInfo Address)
  stakingToken : Option Address
  pendingWithdrawals : Address → Option (List (PendingWithdrawal Address))
  cooldownSecs : Option ℕ
  totalRewardsPaid : Address → Option ℤ

def rewardPrecision : ℤ := 1000000

def defaultCooldownSecs : ℕ := 7*24*3600

def yearSecs : ℤ := 365*24*3600

variable {Address : Type} [DecidableEq Address] {C : Chain Address}

abbrev StakingWorld (C : Chain Address) := World C (Storage Address)

abbrev Outcome (C : Chain Address) := Except (Fault ModuleError) (StakingWorld C)

def setStake (w : StakingWorld C) (staker : Address) (info : Option (StakeInfo Address)) :
    StakingWorld C :=
  w.setStore { w.store with stake := Function.update w.store.stake staker info }

def setPending (w : StakingWorld C) (staker : Address)
    (pending : Option (List (PendingWithdrawal Address))) : StakingWorld C :=
  w.setStore { w.store with
    pendingWithdrawals := Function.update w.store.pendingWithdrawals staker pending }

def getPendingWithdrawals (w : StakingWorld C) (staker : Address) :
    List (PendingWithdrawal Address) :=
  (w.store.pendingWithdrawals staker).getD []

def getCooldownSecs (w : StakingWorld C) : ℕ := w.store.cooldownSecs.getD defaultCooldownSecs

def listStakingTiers (w : StakingWorld C) : List StakingTier :=
  (w.store.tierList.getD []).filterMap w.store.tier

def getTotalRewardsPaid (w : StakingWorld C) (staker : Address) : ℤ :=
  (w.store.totalRewardsPaid staker).getD 0

def getStakingTier (w : StakingWorld C) (tierId : TierId) :
    Except (Fault ModuleError) StakingTier :=
  getOr (w.store.tier tierId) (.panic "tier not found")

def getStake (w : StakingWorld C) (staker : Address) :
    Except (Fault ModuleError) (StakeInfo Address) :=
  getOr (w.store.stake staker) (.panic "no active stake")

def requireAdmin (env : Env C) (w : StakingWorld C) (caller : Address) :
    Except (Fault ModuleError) Unit := do
  let admin ← getOr w.store.admin (.panic "admin not set")
  failIf (admin ≠ caller) (.panic "not admin")
  requireAuth env caller

def setStakingConfig (env : Env C) (admin : Address) (config : StakingConfig)
    (w : StakingWorld C) : Outcome C := do
  requireAuth env admin
  return w.setStore { w.store with admin := some admin, config := some config }

def addStakingTier (env : Env C) (admin : Address) (tier : StakingTier) (w : StakingWorld C) :
    Outcome C := do
  requireAdmin env w admin
  return w.setStore { w.store with
    tier := Function.update w.store.tier tier.id (some tier)
    tierList := some (w.store.tierList.getD [] ++ [tier.id]) }

def setCooldownDays (env : Env C) (admin : Address) (days : ℕ) (w : StakingWorld C) :
    Outcome C := do
  requireAdmin env w admin
  failIf (days = 0) (.panic "cooldown days must be greater than zero")
  let hours ← checked (u64Mul days 24)
  let secs ← checked (u64Mul hours 3600)
  return w.setStore { w.store with cooldownSecs := some secs }

def stake (env : Env C) (staker : Address) (amount : ℤ) (tierId : TierId)
    (w : StakingWorld C) : Outcome C := do
  requireAuth env staker
  let config ← getOr w.store.config (.panic "staking not configured")
  failIf (amount < config.minStakeAmount) (.panic "below min stake")
  failIf (config.maxStakeAmount < amount) (.panic "above max stake")
  let tier ← getStakingTier w tierId
  failIf (amount < tier.minAmount) (.panic "below tier min amount")
  failIf ((w.store.stake staker).isSome = true) (.panic "already staking")
  let stakingToken ← getOr w.store.stakingToken (.panic "staking token not set")
  let w ← w.transfer stakingToken staker C.self amount
  return setStake w staker (some ⟨staker, amount, tierId, w.now, w.now, 0, 0, false⟩)

/-- `amount * apy_bps * elapsed * PRECISION / (year * 10_000 * PRECISION)`, every product
checked and the division truncated. -/
def calculateRewards (stakeAmount : ℤ) (startTime endTime apyBps : ℕ) : Option ℤ := do
  if endTime ≤ startTime then return 0
  let x ← i128Mul stakeAmount apyBps
  let x ← i128Mul x (endTime-startTime : ℕ)
  let x ← i128Mul x rewardPrecision
  i128Div x (yearSecs*10000*rewardPrecision)

/-- The reward of the whole time since `staked_at`, with the multiplier of the tier. -/
def calcRewards {Address : Type} (info : StakeInfo Address) (tier : StakingTier) (now : ℕ) :
    Option ℤ := do
  let elapsed ← u64Sub now info.stakedAt
  let x ← i128Mul info.amount tier.baseRateBps
  let x ← i128Mul x tier.rewardMultiplierBps
  let x ← i128Mul x elapsed
  let x ← i128Mul x rewardPrecision
  let x ← i128Div x yearSecs
  let x ← i128Div x 100000000
  i128Div x rewardPrecision

def pushPending (w : StakingWorld C) (staker : Address) (withdrawal : PendingWithdrawal Address) :
    StakingWorld C :=
  setPending w staker (some (getPendingWithdrawals w staker ++ [withdrawal]))

def unstake (env : Env C) (staker : Address) (w : StakingWorld C) : Outcome C := do
  requireAuth env staker
  let info ← getStake w staker
  let tier ← getStakingTier w info.tierId
  let unlock ← checked (u64Add info.stakedAt tier.lockPeriodSeconds)
  failIf (w.now < unlock) (.panic "lock period not elapsed")
  -- of the whole time since `stakedAt`, whatever has been claimed since
  let rewards ← checked (calcRewards info tier w.now)
  let lockedAmount ← checked (i128Add info.amount rewards)
  let claimableAt ← checked (u64Add w.now (getCooldownSecs w))
  return setStake (pushPending w staker ⟨lockedAmount, claimableAt, staker⟩) staker none

/-- The loop of `claimUnstaked`: the total of the matured withdrawals, and those that stay. -/
def splitMatured {Address : Type} (now : ℕ) : List (PendingWithdrawal Address) → ℤ →
    List (PendingWithdrawal Address) → Option (ℤ × List (PendingWithdrawal Address))
  | [], total, remaining => some (total, remaining)
  | withdrawal :: pending, total, remaining =>
    if withdrawal.claimableAt ≤ now then do
      let total ← i128Add total withdrawal.amount
      splitMatured now pending total remaining
    else splitMatured now pending total (remaining ++ [withdrawal])

def claimUnstaked (env : Env C) (staker : Address) (w : StakingWorld C) : Outcome C := do
  requireAuth env staker
  let pending ← getOr (w.store.pendingWithdrawals staker) (.panic "no pending withdrawals")
  failIf (pending = []) (.panic "no pending withdrawals")
  let (claimableTotal, remaining) ← checked (splitMatured w.now pending 0 [])
  -- nothing matured and matured amounts that sum to nothing fail alike
  failIf (claimableTotal ≤ 0) (.panic "cooldown not elapsed")
  let stakingToken ← getOr w.store.stakingToken (.panic "staking token not set")
  let w ← w.transfer stakingToken C.self staker claimableTotal
  return setPending w staker (if remaining = [] then none else some remaining)

def emergencyUnstake (env : Env C) (staker : Address) (w : StakingWorld C) : Outcome C := do
  requireAuth env staker
  let info ← getStake w staker
  let config ← getOr w.store.config (.panic "staking not configured")
  let product ← checked (i128Mul info.amount config.emergencyUnstakePenaltyBps)
  let penalty ← checked (i128Div product 10000)
  let payout ← checked (i128Sub info.amount penalty)
  let stakingToken ← getOr w.store.stakingToken (.panic "staking token not set")
  let w ← w.transfer stakingToken C.self staker payout
  return setStake w staker none

def partialUnstake (env : Env C) (staker : Address) (unstakeAmount : ℤ) (w : StakingWorld C) :
    Outcome C := do
  requireAuth env staker
  let info ← getOr (w.store.stake staker) (.error (.staking .noActiveStake))
  failIf (unstakeAmount ≤ 0 ∨ info.amount < unstakeAmount)
    (.error (.staking .invalidUnstakeAmount))
  -- the tier gives the rate only: its lock period is not looked at
  let tier ← getOr (w.store.tier info.tierId) (.error (.staking .tierNotFound))
  let scaled ← checked (i128Mul unstakeAmount rewardPrecision)
  let removedPortionRatio ← checked (i128Div scaled info.amount)
  let totalRewards ←
    checked (calculateRewards info.amount info.stakeTimestamp w.now tier.baseRateBps)
  let product ← checked (i128Mul totalRewards removedPortionRatio)
  let removedRewards ← checked (i128Div product rewardPrecision)
  let lockedAmount ← checked (i128Add unstakeAmount removedRewards)
  let claimableAt ← checked (u64Add w.now (getCooldownSecs w))
  let amount ← checked (i128Sub info.amount unstakeAmount)
  let accumulatedRewards ← checked (i128Sub totalRewards removedRewards)
  return setStake (pushPending w staker ⟨lockedAmount, claimableAt, staker⟩) staker
    (if amount = 0 then none else some { info with
      amount := amount
      accumulatedRewards := accumulatedRewards
      stakeTimestamp := w.now })

def claimStakingRewards (env : Env C) (staker : Address) (w : StakingWorld C) :
    Except (Fault ModuleError) (ℤ × StakingWorld C) := do
  requireAuth env staker
  let info ← getOr (w.store.stake staker) (.error (.staking .noActiveStake))
  let tier ← getOr (w.store.tier info.tierId) (.error (.staking .tierNotFound))
  let rewards ←
    checked (calculateRewards info.amount info.stakeTimestamp w.now tier.baseRateBps)
  if rewards ≤ 0 then
    return (0, w)
  else
    let stakingToken ← getOr w.store.stakingToken (.error (.staking .stakingTokenNotSet))
    let w ← w.transfer stakingToken C.self staker rewards
    let claimedRewards ← checked (i128Add info.claimedRewards rewards)
    return (rewards, setStake w staker (some { info with
      accumulatedRewards := 0
      stakeTimestamp := w.now
      claimedRewards := claimedRewards }))

/-- The checked steps of `calculate_pending_rewards` after the tier has been read. -/
def pendingRewards {Address : Type} (info : StakeInfo Address) (tier : StakingTier)
    (elapsed : ℕ) : Option ℤ := do
  let x ← i128Mul info.amount tier.baseRateBps
  let x ← i128Div x 10000
  let x ← i128Mul x elapsed
  let x ← i128Div x yearSecs
  let x ← i128Mul x tier.rewardMultiplierBps
  let x ← i128Div x 10000
  let x ← i128Sub x info.claimedRewards
  return max x 0

def calculatePendingRewards (w : StakingWorld C) (info : StakeInfo Address) :
    Except (Fault ModuleError) ℤ :=
  if info.emergencyUnstaked then return 0
  else do
    let tier ← getStakingTier w info.tierId
    let elapsed ← checked (u64Sub w.now info.stakedAt)
    getOr (pendingRewards info tier elapsed) (.error (.rewards .overflow))

def claimRewards (env : Env C) (staker : Address) (w : StakingWorld C) :
    Except (Fault ModuleError) (ℤ × StakingWorld C) := do
  requireAuth env staker
  let info ← getStake w staker
  let pending ← calculatePendingRewards w info
  if 0 < pending then
    let stakingToken ← getOr w.store.stakingToken (.panic "staking token not set")
    let w ← w.transfer stakingToken C.self staker pending
    let claimedRewards ← getOr (i128Add info.claimedRewards pending) (.error (.rewards .overflow))
    -- `stakeTimestamp`, the checkpoint of the staking module, stays as it is
    let newTotal ← getOr (i128Add (getTotalRewardsPaid w staker) pending)
      (.error (.rewards .overflow))
    let w := setStake w staker (some { info with claimedRewards := claimedRewards })
    return (pending, w.setStore { w.store with
      totalRewardsPaid := Function.update w.store.totalRewardsPaid staker (some newTotal) })
  else
    return (pending, w)

/-- The entry points that write, of both modules. -/
inductive Call (Address : Type) where
  | setStakingConfig (admin : Address) (config : StakingConfig)
  | addStakingTier (admin : Address) (tier : StakingTier)
  | setCooldownDays (admin : Address) (days : ℕ)
  | stake (staker : Address) (amount : ℤ) (tierId : TierId)
  | unstake (staker : Address)
  | claimUnstaked (staker : Address)
  | emergencyUnstake (staker : Address)
  | partialUnstake (staker : Address) (unstakeAmount : ℤ)
  | claimStakingRewards (staker : Address)
  | claimRewards (staker : Address)
  deriving DecidableEq

def exec (env : Env C) : Call Address → StakingWorld C → Outcome C
  | .setStakingConfig admin config, w => setStakingConfig env admin config w
  | .addStakingTier admin tier, w => addStakingTier env admin tier w
  | .setCooldownDays admin days, w => setCooldownDays env admin days w
  | .stake staker amount tierId, w => stake env staker amount tierId w
  | .unstake staker, w => unstake env staker w
  | .claimUnstaked staker, w => claimUnstaked env staker w
  | .emergencyUnstake staker, w => emergencyUnstake env staker w
  | .partialUnstake staker amount, w => partialUnstake env staker amount w
  | .claimStakingRewards staker, w => (claimStakingRewards env staker w).map Prod.snd
  | .claimRewards staker, w => (claimRewards env staker w).map Prod.snd

end HubAssist.Staking
