import HubAssist.StakingWithdrawals

/-! The reward that a partial unstake carries over for what stays staked: whether a call that
resets it pays it. No function reads the field in which it is recorded. -/
namespace HubAssist.Staking
open SorobanHost CheckedArith RunSystem

variable {Address : Type} [DecidableEq Address] {C : Chain Address}
variable {env : Env C} {w w' : StakingWorld C} {call : Call Address} {staker : Address}
variable {counts : Bool}

/-- The accumulated reward on record, nothing where there is no stake. -/
def accrued (w : StakingWorld C) (staker : Address) : ℤ :=
  (w.store.stake staker).elim 0 (·.accumulatedRewards)

def queued (w : StakingWorld C) (staker : Address) : ℤ :=
  totalAmount (getPendingWithdrawals w staker)

/-- What the contract has transferred to `staker` between two worlds. -/
def received (w w' : StakingWorld C) (staker : Address) : ℤ :=
  (((w'.transfers.drop w.transfers.length).filter fun event =>
    event.sender = C.self ∧ event.receiver = staker).map (·.amount)).sum

/-- What `staker` gets between two worlds, in its account or in its queue. The principal that
leaves its stake is part of that, or is taken off where it does not count as a payment. -/
def credited (counts : Bool) (w w' : StakingWorld C) (staker : Address) : ℤ :=
  received w w' staker+(queued w' staker-queued w staker)-
    if counts then 0 else held w staker-held w' staker

/-- The recorded reward of every stake drops by no more than what its staker gets. -/
def DropCredited (counts : Bool) (w w' : StakingWorld C) : Prop :=
  ∀ staker, accrued w' staker < accrued w staker →
    accrued w staker-accrued w' staker ≤ credited counts w w' staker

/-- The step takes no recorded reward away, unless it is an emergency. -/
def NothingLost (counts : Bool) (w : StakingWorld C) : Action C (Call Address) → Prop
  | .invoke _ (.emergencyUnstake _) => True
  | a => DropCredited counts w (step exec w a)

/-- The part of a principal that counts. -/
def share (counts : Bool) (amount : ℤ) : ℤ := if counts then amount else 0

/-- The recorded reward is no more than what the call finds due for the time since its own
checkpoint, with the principal where it counts. -/
def ResetCovered (counts : Bool) (w : StakingWorld C) : Call Address → Prop
  -- the record goes with the stake, whose reward counts from its beginning
  | .unstake staker => ∀ info tier reward, w.store.stake staker = some info →
    w.store.tier info.tierId = some tier → calcRewards info tier w.now = some reward →
      0 < info.accumulatedRewards → info.accumulatedRewards ≤ reward+share counts info.amount
  -- what is due is split again between the part that leaves and the record
  | .partialUnstake staker amount => ∀ info tier total, w.store.stake staker = some info →
    w.store.tier info.tierId = some tier →
      calculateRewards info.amount info.stakeTimestamp w.now tier.baseRateBps = some total →
        info.accumulatedRewards ≤ total+share counts amount
  -- the record is cleared only when something is paid
  | .claimStakingRewards staker => ∀ info tier reward, w.store.stake staker = some info →
    w.store.tier info.tierId = some tier →
      calculateRewards info.amount info.stakeTimestamp w.now tier.baseRateBps = some reward →
        0 < reward → 0 < info.accumulatedRewards → info.accumulatedRewards ≤ reward
  | _ => True

/-- An accepted call that resets a recorded reward covers it. -/
def Covered (counts : Bool) (w : StakingWorld C) : Action C (Call Address) → Prop
  | .invoke env call => (∃ w', exec env call w = .ok w') → ResetCovered counts w call
  | _ => True

theorem accrued_of_some {info : StakeInfo Address} (h : w.store.stake staker = some info) :
    accrued w staker = info.accumulatedRewards := by
  rw [accrued, h]
  rfl

theorem received_of_transfers {token : Address} {amount : ℤ}
    (h : w'.transfers = w.transfers ++ [⟨token, C.self, staker, amount⟩]) :
    received w w' staker = amount := by simp [received, h]

theorem received_of_same (h : w'.transfers = w.transfers) : received w w' staker = 0 := by
  simp [received, h]

theorem queued_pushPending (w : StakingWorld C) (withdrawal : PendingWithdrawal Address)
    (info : Option (StakeInfo Address)) :
    queued (setStake (pushPending w staker withdrawal) staker info) staker =
      queued w staker+withdrawal.amount := by
  rw [queued, getPending_push, if_pos rfl, queued, totalAmount, List.map_append, List.sum_append]
  rw [List.map_singleton, List.sum_singleton, ← totalAmount]

/-- What a call credits that pushes a withdrawal of `principal` and `reward`. -/
theorem credited_pushPending {info : StakeInfo Address} (hinfo : w.store.stake staker = some info)
    {principal reward : ℤ} {claimableAt : ℕ} {rest : Option (StakeInfo Address)}
    (hrest : info.amount-rest.elim 0 (·.amount) = principal)
    (hw : setStake (pushPending w staker ⟨principal+reward, claimableAt, staker⟩) staker rest =
      w') : credited counts w w' staker = reward+share counts principal := by
  have hheld : held w staker-held w' staker = principal := by
    rw [← hw, held_of_some hinfo, held, setStake_stake, Function.update_self, hrest]
  have hqueued : queued w' staker = queued w staker+(principal+reward) := by
    rw [← hw, queued_pushPending]
  have hreceived : received w w' staker = 0 := received_of_same (hw ▸ rfl)
  rw [credited, hreceived, hqueued, hheld, share]
  cases counts
  · simp only [Bool.false_eq_true, if_false]
    omega
  · simp only [if_true]
    omega

/-- A claim credits what it transfers. -/
theorem credited_claim {info info' : StakeInfo Address} {token : Address} {reward : ℤ}
    {t : C.token.State} (hinfo : w.store.stake staker = some info)
    (hamount : info'.amount = info.amount)
    (hw : setStake (w.paid ⟨token, C.self, staker, reward⟩ t) staker (some info') = w') :
    credited counts w w' staker = reward := by
  have hheld : held w staker-held w' staker = 0 := by
    rw [← hw, held_of_some hinfo, held, setStake_stake, Function.update_self]
    exact sub_eq_zero.mpr hamount.symm
  have hqueued : queued w' staker = queued w staker := by
    rw [← hw]
    rfl
  have htransfers : w'.transfers = w.transfers ++ [⟨token, C.self, staker, reward⟩] := hw ▸ rfl
  have hreceived : received w w' staker = reward := received_of_transfers htransfers
  rw [credited, hreceived, hqueued, hheld, ite_self]
  omega

/-- The whole of a stake takes the whole of its reward with it. -/
theorem removedRewards_whole {total staked : ℤ} (hstaked : 0 < staked) :
    removedRewards total staked staked = total := by
  have hprecision : rewardPrecision ≠ 0 := by decide
  rw [removedRewards, Int.mul_tdiv_cancel_left _ hstaked.ne', Int.mul_tdiv_cancel _ hprecision]

/-- A claim that leaves the world as it is has found nothing due. -/
theorem claimStakingRewards_idle (h : exec env (.claimStakingRewards staker) w = .ok w)
    {info : StakeInfo Address} {tier : StakingTier} {reward : ℤ}
    (hinfo : w.store.stake staker = some info) (htier : w.store.tier info.tierId = some tier)
    (hreward : calculateRewards info.amount info.stakeTimestamp w.now tier.baseRateBps =
      some reward) : reward ≤ 0 := by
  obtain ⟨⟨paid, w₁⟩, hc, hw₁⟩ := map_eq_ok.mp h
  obtain rfl : w₁ = w := hw₁
  simp only [claimStakingRewards, bind_eq_ok, requireAuth_eq_ok, getOr_eq_ok, checked_eq_ok,
    exists_const] at hc
  obtain ⟨_, stored, hstored, storedTier, hstoredTier, due, hdue, hrest⟩ := hc
  obtain rfl := Option.some.inj (hstored.symm.trans hinfo)
  obtain rfl := Option.some.inj (hstoredTier.symm.trans htier)
  obtain rfl := Option.some.inj (hdue.symm.trans hreward)
  by_contra hpos
  rw [if_neg hpos] at hrest
  simp only [bind_eq_ok, getOr_eq_ok, checked_eq_ok, World.transfer_eq_ok, pure_eq_ok,
    exists_exists_and_eq_and, Prod.mk.injEq] at hrest
  obtain ⟨token, _, t, _, _, _, _, hw⟩ := hrest
  -- a payment would show among the transfers
  have hlength := congrArg (fun v : StakingWorld C => v.transfers.length) hw
  simp at hlength

/-- Where only the stake of `staker` changes, only its record has to be looked at. -/
theorem dropCredited_update {info : Option (StakeInfo Address)}
    (hstake : w'.store.stake = Function.update w.store.stake staker info) :
    DropCredited counts w w' ↔ (info.elim 0 (·.accumulatedRewards) < accrued w staker →
      accrued w staker-info.elim 0 (·.accumulatedRewards) ≤ credited counts w w' staker) := by
  have hafter : accrued w' staker = info.elim 0 (·.accumulatedRewards) := by
    rw [accrued, hstake, Function.update_self]
  constructor
  · intro h
    have hstaker := h staker
    rwa [hafter] at hstaker
  · intro h other hlt
    by_cases ho : other = staker
    · subst ho
      rw [hafter] at hlt ⊢
      exact h hlt
    · rw [accrued, accrued, hstake, Function.update_of_ne ho] at hlt
      exact absurd hlt (lt_irrefl _)

theorem dropCredited_unstake {info : StakeInfo Address} {tier : StakingTier} {reward : ℤ}
    {claimableAt : ℕ} (hinfo : w.store.stake staker = some info)
    (htier : w.store.tier info.tierId = some tier)
    (hreward : calcRewards info tier w.now = some reward)
    (hw : setStake (pushPending w staker ⟨info.amount+reward, claimableAt, staker⟩) staker none =
      w') : DropCredited counts w w' ↔ ResetCovered counts w (.unstake staker) := by
  have hrest : info.amount-(none : Option (StakeInfo Address)).elim 0 (·.amount) = info.amount :=
    sub_zero info.amount
  have hcredited : credited counts w w' staker = reward+share counts info.amount :=
    credited_pushPending hinfo hrest hw
  have hstake : w'.store.stake = Function.update w.store.stake staker none := hw ▸ rfl
  rw [dropCredited_update hstake, accrued_of_some hinfo, hcredited, Option.elim, sub_zero]
  constructor
  · intro h stored storedTier due hstored hstoredTier hdue
    obtain rfl := Option.some.inj (hinfo.symm.trans hstored)
    obtain rfl := Option.some.inj (htier.symm.trans hstoredTier)
    obtain rfl := Option.some.inj (hreward.symm.trans hdue)
    exact h
  · intro h
    exact h info tier reward hinfo htier hreward

theorem dropCredited_partialUnstake {info : StakeInfo Address} {tier : StakingTier}
    {amount total : ℤ} {claimableAt : ℕ} (hinfo : w.store.stake staker = some info)
    (htier : w.store.tier info.tierId = some tier) (hpos : 0 < amount) (hle : amount ≤ info.amount)
    (htotal : calculateRewards info.amount info.stakeTimestamp w.now tier.baseRateBps = some total)
    (hw : setStake (pushPending w staker
        ⟨amount+removedRewards total amount info.amount, claimableAt, staker⟩) staker
      (if info.amount-amount = 0 then none else some { info with
        amount := info.amount-amount
        accumulatedRewards := total-removedRewards total amount info.amount
        stakeTimestamp := w.now }) = w') :
    DropCredited counts w w' ↔ ResetCovered counts w (.partialUnstake staker amount) := by
  have hstaked : 0 < info.amount := hpos.trans_le hle
  have htotal₀ := (calculateRewards_bounds htotal hstaked.le).1
  have hremoved₀ := (removedRewards_bounds htotal₀ hpos.le hstaked).1
  have hshare : 0 ≤ share counts amount := by
    rw [share]
    split_ifs
    · exact hpos.le
    · exact le_rfl
  -- the record that is left holds what is left, of the amount and of the reward
  generalize hrest : (if info.amount-amount = 0 then none else some { info with
    amount := info.amount-amount
    accumulatedRewards := total-removedRewards total amount info.amount
    stakeTimestamp := w.now }) = rest at hw
  have hrestAmount : info.amount-rest.elim 0 (·.amount) = amount := by
    rw [← hrest]
    split_ifs with hwhole
    · exact (sub_zero _).trans (sub_eq_zero.mp hwhole)
    · exact sub_sub_cancel _ _
  have hrestReward : rest.elim 0 (·.accumulatedRewards) =
      total-removedRewards total amount info.amount := by
    rw [← hrest]
    split_ifs with hwhole
    · rw [← sub_eq_zero.mp hwhole, removedRewards_whole hstaked, sub_self]
      rfl
    · rfl
  have hcredited : credited counts w w' staker =
      removedRewards total amount info.amount+share counts amount :=
    credited_pushPending hinfo hrestAmount hw
  have hstake : w'.store.stake = Function.update w.store.stake staker rest := hw ▸ rfl
  rw [dropCredited_update hstake, accrued_of_some hinfo, hrestReward, hcredited]
  constructor
  · intro h stored storedTier due hstored hstoredTier hdue
    obtain rfl := Option.some.inj (hinfo.symm.trans hstored)
    obtain rfl := Option.some.inj (htier.symm.trans hstoredTier)
    obtain rfl := Option.some.inj (htotal.symm.trans hdue)
    by_cases hlt : total-removedRewards total amount info.amount < info.accumulatedRewards
    · have hdrop := h hlt
      omega
    · -- the new record is not below the old one, and no more than what was due
      omega
  · intro h _
    have hcovered := h info tier total hinfo htier htotal
    omega

theorem dropCredited_claim {info info' : StakeInfo Address} {tier : StakingTier} {token : Address}
    {reward : ℤ} {t : C.token.State} (hinfo : w.store.stake staker = some info)
    (htier : w.store.tier info.tierId = some tier)
    (hreward : calculateRewards info.amount info.stakeTimestamp w.now tier.baseRateBps =
      some reward) (hpos : 0 < reward)
    (hw : setStake (w.paid ⟨token, C.self, staker, reward⟩ t) staker (some info') = w')
    (hamount : info'.amount = info.amount) (hzero : info'.accumulatedRewards = 0) :
    DropCredited counts w w' ↔ ResetCovered counts w (.claimStakingRewards staker) := by
  have hcredited : credited counts w w' staker = reward := credited_claim hinfo hamount hw
  have hstake : w'.store.stake = Function.update w.store.stake staker (some info') := hw ▸ rfl
  rw [dropCredited_update hstake, accrued_of_some hinfo, hcredited, Option.elim, hzero, sub_zero]
  constructor
  · intro h stored storedTier due hstored hstoredTier hdue _
    obtain rfl := Option.some.inj (hinfo.symm.trans hstored)
    obtain rfl := Option.some.inj (htier.symm.trans hstoredTier)
    obtain rfl := Option.some.inj (hreward.symm.trans hdue)
    exact h
  · intro h
    exact h info tier reward hinfo htier hreward hpos

theorem dropCredited_of_same (hstake : w'.store.stake = w.store.stake) :
    DropCredited counts w w' := by
  intro other hlt
  rw [accrued, accrued, hstake] at hlt
  exact absurd hlt (lt_irrefl _)

/-- An accepted call other than the emergency takes no recorded reward away exactly when what
it resets is covered. -/
theorem dropCredited_iff (h : exec env call w = .ok w')
    (hcall : ∀ staker, call ≠ .emergencyUnstake staker) :
    DropCredited counts w w' ↔ ResetCovered counts w call := by
  cases exec_effect h with
  | configures => exact iff_of_true (dropCredited_of_same rfl) trivial
  | addsTier => exact iff_of_true (dropCredited_of_same rfl) trivial
  | setsCooldown => exact iff_of_true (dropCredited_of_same rfl) trivial
  | withdraws => exact iff_of_true (dropCredited_of_same rfl) trivial
  | leaves staker => exact absurd rfl (hcall staker)
  | stakes staker amount tierId config tier token t _ _ _ _ hnone _ _ =>
    refine iff_of_true ((dropCredited_update rfl).mpr fun hlt => ?_) trivial
    rw [accrued, hnone] at hlt
    exact absurd hlt (lt_irrefl _)
  | unstakes staker info tier reward _ hinfo htier _ hreward =>
    exact dropCredited_unstake hinfo htier hreward rfl
  | unstakesPart staker amount info tier total _ hinfo hpos hle htier htotal =>
    exact dropCredited_partialUnstake hinfo htier hpos hle htotal rfl
  | claimsStaking staker info tier reward token t _ hinfo htier hreward hpos _ _ =>
    exact dropCredited_claim hinfo htier hreward hpos rfl rfl rfl
  | claimsRewards staker info tier reward token t paid _ hinfo htier hreward hpos _ _ =>
    refine iff_of_true ((dropCredited_update rfl).mpr fun hlt => ?_) trivial
    rw [accrued_of_some hinfo] at hlt
    exact absurd hlt (lt_irrefl _)
  | nothingDue staker _ hnothing =>
    refine iff_of_true (dropCredited_of_same rfl) ?_
    rcases hnothing with rfl | rfl
    · intro info tier reward hinfo htier hreward hpos
      exact absurd hpos (not_lt.mpr (claimStakingRewards_idle h hinfo htier hreward))
    · trivial

theorem nothingLost_iff_covered (w : StakingWorld C) (a : Action C (Call Address)) :
    NothingLost counts w a ↔ Covered counts w a := by
  cases a with
  | tick => exact iff_of_true (dropCredited_of_same rfl) trivial
  | external token next =>
    refine iff_of_true (dropCredited_of_same ?_) trivial
    rw [step_external_store]
  | invoke env call =>
    by_cases hemergency : ∃ staker, call = .emergencyUnstake staker
    · obtain ⟨staker, rfl⟩ := hemergency
      exact iff_of_true trivial fun _ => trivial
    · have hcall (staker : Address) : call ≠ .emergencyUnstake staker :=
        fun h => hemergency ⟨staker, h⟩
      have hlost : NothingLost counts w (.invoke env call) ↔
          DropCredited counts w (step exec w (.invoke env call)) := by
        cases call with
        | emergencyUnstake staker => exact absurd rfl (hcall staker)
        | _ => exact Iff.rfl
      rw [hlost, step_invoke_keeps_iff (DropCredited counts w) (dropCredited_of_same rfl)]
      constructor
      · rintro h ⟨w', hok⟩
        exact (dropCredited_iff hok hcall).mp (h w' hok)
      · intro h w' hok
        exact (dropCredited_iff hok hcall).mpr (h ⟨w', hok⟩)

/-- The step is not the emergency of `staker`. -/
def Staying (staker : Address) (_ : StakingWorld C) : Action C (Call Address) → Prop
  | .invoke _ (.emergencyUnstake other) => other ≠ staker
  | _ => True

/-- What a run adds to the recorded reward of `staker`. -/
def carriedOver (staker : Address) (w : StakingWorld C) (as : List (Action C (Call Address))) : ℤ :=
  (trace (step exec)
    (fun w a => [max 0 (accrued (step exec w a) staker-accrued w staker)]) w as).sum

/-- What the calls of a run that reset the recorded reward of `staker` credit beside principal. -/
def paidAtResets (staker : Address) (w : StakingWorld C)
    (as : List (Action C (Call Address))) : ℤ :=
  (trace (step exec) (fun w a => [if accrued (step exec w a) staker < accrued w staker then
    credited false w (step exec w a) staker else 0]) w as).sum

/-- The emergency of somebody else leaves the record of `staker` alone. -/
theorem accrued_emergency {other : Address} (hother : other ≠ staker) :
    accrued (step exec w (.invoke env (.emergencyUnstake other))) staker = accrued w staker := by
  rw [step_invoke_keeps_iff (fun v => accrued v staker = accrued w staker) rfl]
  intro w' hok
  cases exec_effect hok with
  | leaves =>
    rw [accrued, setStake_stake, Function.update_of_ne hother.symm]
    rfl
  | nothingDue _ _ hcall => exact absurd hcall (by simp)

theorem NothingLost.drop_le {a : Action C (Call Address)} (h : NothingLost false w a)
    (hstay : Staying staker w a)
    (hlt : accrued (step exec w a) staker < accrued w staker) :
    accrued w staker-accrued (step exec w a) staker ≤ credited false w (step exec w a) staker := by
  cases a with
  | tick => exact h staker hlt
  | external => exact h staker hlt
  | invoke env call =>
    cases call with
    | emergencyUnstake other =>
      rw [accrued_emergency hstay] at hlt
      exact absurd hlt (lt_irrefl _)
    | _ => exact h staker hlt

theorem NothingLost.step_le {a : Action C (Call Address)} (h : NothingLost false w a)
    (hstay : Staying staker w a) :
    max 0 (accrued (step exec w a) staker-accrued w staker) ≤
      (if accrued (step exec w a) staker < accrued w staker then
        credited false w (step exec w a) staker else 0)+
          (accrued (step exec w a) staker-accrued w staker) := by
  split_ifs with hlt
  · have hdrop := h.drop_le hstay hlt
    rw [max_eq_left (by omega)]
    omega
  · rw [max_eq_right (by omega), zero_add]

/-- Where nothing is lost, all that has been carried over is still on record or has been paid by
the calls that reset it. -/
theorem carriedOver_paid_run (as : List (Action C (Call Address)))
    (hlost : Guarded (step exec) (NothingLost false) w as)
    (hstay : Guarded (step exec) (Staying staker) w as) :
    accrued w staker+carriedOver staker w as ≤
      paidAtResets staker w as+accrued (run exec w as) staker := by
  induction as generalizing w with
  | nil => simp [carriedOver, paidAtResets, trace]
  | cons a as ih =>
    have hstep := hlost.1.step_le hstay.1
    have hrest := ih hlost.2 hstay.2
    simp only [carriedOver, paidAtResets, trace, List.singleton_append, List.sum_cons, run_cons,
      SorobanHost.run] at hrest ⊢
    omega

/-- Along every run no recorded reward is lost exactly when each call that resets one covers it
by what it finds due, whether or not the principal that leaves counts as well: what the call pays
for the time since its own checkpoint counts as the payment. Where they cover it without the
principal, all that has been carried over for a staker who does not leave in an emergency is still
on record or has been paid by the calls that reset it. -/
theorem accrued_kept_iff (d : Deployment C) (counts : Bool) (as : List (Action C (Call Address))) :
    (Guarded (step exec) (NothingLost counts) d.start as ↔
      Guarded (step exec) (Covered counts) d.start as) ∧
    (Guarded (step exec) (Covered false) d.start as → ∀ staker,
      Guarded (step exec) (Staying staker) d.start as →
        carriedOver staker d.start as ≤
          paidAtResets staker d.start as+accrued (run exec d.start as) staker) := by
  have hiff (counts : Bool) : Guarded (step exec) (NothingLost counts) d.start as ↔
      Guarded (step exec) (Covered counts) d.start as := by
    simp only [guarded_iff_steps, nothingLost_iff_covered]
  refine ⟨hiff counts, fun hcovered staker hstay => ?_⟩
  have hpaid := carriedOver_paid_run as ((hiff false).mpr hcovered) hstay
  have hstart : accrued d.start staker = 0 := rfl
  omega

/-- Half of a stake leaves after a year. -/
def firstYear : List (Action numberedChain (Call ℕ)) :=
  [.invoke (signedBy 0) (.setStakingConfig 1 ⟨1, 1000, 0⟩),
   .invoke (signedBy 0) (.addStakingTier 1 yearlyTier),
   .invoke (signedBy 1) (.stake 2 100 7), .tick 31536000,
   .invoke (signedBy 1) (.partialUnstake 2 50)]

/-- A claim a year later. -/
def secondYear : List (Action numberedChain (Call ℕ)) :=
  firstYear ++ [.tick 31536000, .invoke (signedBy 1) (.claimStakingRewards 2)]

/-- The claim of the second year pays as much as the first has left on record. -/
theorem accrued_kept_secondYear :
    Guarded (step exec) (NothingLost false) smallDeployment.start secondYear ∧
      carriedOver 2 smallDeployment.start secondYear ≤
        paidAtResets 2 smallDeployment.start secondYear+
          accrued (run exec smallDeployment.start secondYear) 2 := by
  have hcovered : Guarded (step exec) (Covered false) smallDeployment.start secondYear := by
    refine ⟨fun _ => trivial, fun _ => trivial, fun _ => trivial, trivial, fun _ => ?_, trivial,
      fun _ => ?_, trivial⟩
    · -- the first year's record is still empty
      intro info tier total hinfo _ htotal
      have hstored : (run exec smallDeployment.start (firstYear.take 4)).store.stake 2 =
          some ⟨2, 100, 7, 0, 0, 0, 0, false⟩ := by decide
      obtain rfl := Option.some.inj (hstored.symm.trans hinfo)
      have hbounds := (calculateRewards_bounds htotal (by decide)).1
      exact hbounds.trans_eq (add_zero total).symm
    · intro info tier reward hinfo htier hreward _ _
      have hstored : (run exec smallDeployment.start (secondYear.take 6)).store.stake 2 =
          some ⟨2, 50, 7, 0, 31536000, 50, 0, false⟩ := by decide
      have htiers : (run exec smallDeployment.start (secondYear.take 6)).store.tier 7 =
          some yearlyTier := by decide
      have hdue : calculateRewards 50 31536000 63072000 10000 = some 50 := by decide
      obtain rfl := Option.some.inj (hstored.symm.trans hinfo)
      obtain rfl := Option.some.inj (htiers.symm.trans htier)
      obtain rfl := Option.some.inj (hdue.symm.trans hreward)
      exact le_rfl
  have hkept := accrued_kept_iff smallDeployment false secondYear
  refine ⟨hkept.1.mpr hcovered, hkept.2 hcovered 2 ?_⟩
  exact ⟨trivial, trivial, trivial, trivial, trivial, trivial, trivial, trivial⟩

/-- Half of the first year's reward is carried over for the rest of the stake. -/
def halfLeft : List (Action numberedChain (Call ℕ)) := firstYear ++ [.tick 6307200]

/-- The next claim pays ten units and erases the fifty that were carried over. -/
theorem accrued_not_kept : (run exec smallDeployment.start halfLeft).store.stake 2 ≠ none ∧
    ¬∃ counts, Guarded (step exec) (NothingLost counts) smallDeployment.start
      (halfLeft ++ [.invoke (signedBy 1) (.claimStakingRewards 2)]) := by
  refine ⟨by decide, ?_⟩
  rintro ⟨counts, h⟩
  have hlast : DropCredited counts (run exec smallDeployment.start halfLeft)
      (step exec (run exec smallDeployment.start halfLeft)
        (.invoke (signedBy 1) (.claimStakingRewards 2))) :=
    (guarded_iff_steps (step exec) _ _ _).mp h halfLeft _ [] rfl
  have hdrop := hlast 2 (by decide)
  revert hdrop
  cases counts <;> decide

end HubAssist.Staking
