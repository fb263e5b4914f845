import HubAssist.StakingExits

/-! The emergency exit. The penalty is a rate that the admin may set to anything, before or after
the stake is made; what it gives is in bounds as long as it takes no more than the stake. -/
namespace HubAssist.Staking
open SorobanHost CheckedArith RunSystem TokenLedger

variable {Address : Type} [DecidableEq Address] {C : Chain Address}
variable {env : Env C} {w w' : StakingWorld C} {call : Call Address} {staker : Address}
variable {info : StakeInfo Address}

/-- The penalty and the payout of `emergency_unstake`, line by line. -/
def emergencyAmounts (amount : ℤ) (emergencyUnstakePenaltyBps : ℕ) : Option (ℤ × ℤ) := do
  let product ← i128Mul amount emergencyUnstakePenaltyBps
  let penalty ← i128Div product 10000
  let payout ← i128Sub amount penalty
  return (penalty, payout)

theorem emergencyUnstake_eq_ok : emergencyUnstake env staker w = .ok w' ↔ staker ∈ env.signers ∧
    ∃ info, w.store.stake staker = some info ∧ ∃ config, w.store.config = some config ∧
      ∃ penalty payout, emergencyAmounts info.amount config.emergencyUnstakePenaltyBps =
          some (penalty, payout) ∧
        ∃ token, w.store.stakingToken = some token ∧ ∃ t,
          C.token.transfer (w.tokens token) C.self staker payout = some t ∧
          setStake (w.paid ⟨token, C.self, staker, payout⟩ t) staker none = w' := by
  simp only [emergencyUnstake, getStake, emergencyAmounts, bind_eq_ok, requireAuth_eq_ok,
    getOr_eq_ok, checked_eq_ok, World.transfer_eq_ok, pure_eq_ok, exists_const,
    exists_exists_and_eq_and, Option.bind_eq_bind, Option.bind_eq_some_iff, Option.pure_def,
    Option.some.injEq, Prod.mk.injEq]
  constructor
  · rintro ⟨hs, info, hinfo, config, hconfig, product, hproduct, penalty, hpenalty, payout, hpayout,
      hrest⟩
    exact ⟨hs, info, hinfo, config, hconfig, penalty, payout,
      ⟨product, hproduct, penalty, hpenalty, payout, hpayout, rfl, rfl⟩, hrest⟩
  · rintro ⟨hs, info, hinfo, config, hconfig, _, _, ⟨product, hproduct, penalty, hpenalty, payout,
      hpayout, rfl, rfl⟩, hrest⟩
    exact ⟨hs, info, hinfo, config, hconfig, product, hproduct, penalty, hpenalty, payout, hpayout,
      hrest⟩

/-- Penalty and payout are computed, neither is negative and they make up the stake; the exit
succeeds whenever the contract holds the stake. -/
structure EmergencyBounded (env : Env C) (staker : Address) (info : StakeInfo Address)
    (config : StakingConfig) (w : StakingWorld C) : Prop where
  bounds : ∃ penalty payout, emergencyAmounts info.amount config.emergencyUnstakePenaltyBps =
    some (penalty, payout) ∧ 0 ≤ payout ∧ payout ≤ info.amount ∧ 0 ≤ penalty ∧
      payout+penalty = info.amount
  succeeds : ∀ token, w.store.stakingToken = some token →
    info.amount ≤ w.balance token C.self → ∃ w', emergencyUnstake env staker w = .ok w'

/-- The penalty's product fits, and the penalty rounds down to no more than the stake. -/
structure PenaltyFits (config : StakingConfig) (amount : ℤ) : Prop where
  product : amount*config.emergencyUnstakePenaltyBps < i128Bound
  penalty : amount*config.emergencyUnstakePenaltyBps < 10000*(amount+1)

/-- Whoever has a stake has made it under a configuration, and there is one ever since. -/
def Configured (w : StakingWorld C) : Prop :=
  ∀ staker info, w.store.stake staker = some info → ∃ config, w.store.config = some config

theorem Configured.of_stake (h : Configured w) (hconfig : w'.store.config = w.store.config)
    {rest : Option (StakeInfo Address)}
    (hstake : w'.store.stake = Function.update w.store.stake staker rest)
    (hrest : ∀ i, rest = some i → ∃ old, w.store.stake staker = some old) : Configured w' := by
  intro other i hi
  rw [hstake] at hi
  rw [hconfig]
  rcases StorageMap.update_cases hi with ⟨_, hnew⟩ | ⟨_, hold⟩
  · obtain ⟨old, hold⟩ := hrest i hnew
    exact h staker old hold
  · exact h other i hold

theorem Effect.configured (heffect : Effect w call w') (h : Configured w) : Configured w' := by
  cases heffect with
  | configures admin config => exact fun _ _ _ => ⟨config, rfl⟩
  | addsTier => exact h
  | setsCooldown => exact h
  | stakes _ _ _ config _ _ _ _ hconfig => exact fun _ _ _ => ⟨config, hconfig⟩
  | unstakes => exact h.of_stake rfl (setStake_stake ..) fun _ hrest => by simp at hrest
  | unstakesPart _ _ info _ _ _ hinfo =>
    exact h.of_stake rfl (setStake_stake ..) fun _ _ => ⟨info, hinfo⟩
  | withdraws => exact h
  | leaves => exact h.of_stake rfl (setStake_stake ..) fun _ hrest => by simp at hrest
  | claimsStaking _ info _ _ _ _ _ hinfo =>
    exact h.of_stake rfl (setStake_stake ..) fun _ _ => ⟨info, hinfo⟩
  | claimsRewards _ info _ _ _ _ _ _ hinfo => exact h.of_stake rfl rfl fun _ _ => ⟨info, hinfo⟩
  | nothingDue => exact h

theorem configured_run (d : Deployment C) (as : List (Action C (Call Address))) :
    Configured (run exec d.start as) := by
  have hstart : Configured d.start := fun _ _ h => by simp [Deployment.start] at h
  refine run_invariant_all (step exec) (I := Configured) ?_ hstart as
  intro v a hv
  refine step_keeps Configured hv ?_ (fun _ _ => hv) fun _ _ _ _ => hv
  intro env call w' _ hcall
  exact (exec_effect hcall).configured hv

omit [DecidableEq Address] in
/-- The amounts are computed and in bounds exactly when the penalty fits. -/
theorem emergencyAmounts_bounds_iff {config : StakingConfig} {amount : ℤ} (ha : 0 < amount)
    (hamount : amount < i128Bound) :
    (∃ penalty payout, emergencyAmounts amount config.emergencyUnstakePenaltyBps =
        some (penalty, payout) ∧ 0 ≤ payout ∧ payout ≤ amount ∧ 0 ≤ penalty ∧
          payout+penalty = amount) ↔ PenaltyFits config amount := by
  have hproduct : 0 ≤ amount*config.emergencyUnstakePenaltyBps := by positivity
  constructor
  · rintro ⟨penalty, payout, hamounts, hpayout, _⟩
    simp only [emergencyAmounts, Option.bind_eq_bind, Option.bind_eq_some_iff, i128Mul_eq_some,
      i128Sub_eq_some, Option.pure_def, Option.some.injEq, Prod.mk.injEq] at hamounts
    obtain ⟨_, ⟨hin, rfl⟩, quotient, hquotient, _, ⟨_, rfl⟩, rfl, rfl⟩ := hamounts
    have hfits := (inI128_iff hproduct).mp hin
    rw [i128Div_of_nonneg hproduct hfits (by decide)] at hquotient
    have hdiv := Option.some.inj hquotient
    exact ⟨hfits, by omega⟩
  · rintro ⟨hfits, hpenalty⟩
    have hnonneg : 0 ≤ amount*config.emergencyUnstakePenaltyBps/10000 := by omega
    have hle : amount*config.emergencyUnstakePenaltyBps/10000 ≤ amount := by omega
    have hdiv := i128Div_of_nonneg hproduct hfits (by decide : (0 : ℤ) < 10000)
    have hpayout := i128Sub_eq_some.mpr ⟨(inI128_iff (sub_nonneg.mpr hle)).mpr (by omega), rfl⟩
    refine ⟨amount*config.emergencyUnstakePenaltyBps/10000,
      amount-amount*config.emergencyUnstakePenaltyBps/10000, ?_, by omega, by omega, hnonneg,
      by omega⟩
    simp only [emergencyAmounts, Option.bind_eq_bind, i128Mul_of_nonneg hproduct hfits, hdiv,
      hpayout, Option.bind_some, Option.pure_def]

/-- In every state that a run reaches, and under whatever configuration it has then, the emergency
exit of a stake of something is in bounds exactly when the penalty fits. -/
theorem emergency_bounded_iff (d : Deployment C) (htoken : C.token.Live)
    (as : List (Action C (Call Address))) (hs : staker ∈ env.signers)
    (hinfo : (run exec d.start as).store.stake staker = some info) (hpos : 0 < info.amount)
    (hamount : info.amount < i128Bound) :
    ∃ config, (run exec d.start as).store.config = some config ∧
      (EmergencyBounded env staker info config (run exec d.start as) ↔
        PenaltyFits config info.amount) := by
  obtain ⟨config, hconfig⟩ := configured_run d as staker info hinfo
  refine ⟨config, hconfig, ?_⟩
  rw [← emergencyAmounts_bounds_iff hpos hamount]
  constructor
  · exact fun h => h.bounds
  · intro hbounds
    refine ⟨hbounds, fun token hset hbalance => ?_⟩
    obtain ⟨penalty, payout, hamounts, hpayout₀, hpayout, _⟩ := hbounds
    -- the payout is no more than the stake, which the contract holds
    obtain ⟨t, ht⟩ := Option.isSome_iff_exists.mp
      (htoken ((run exec d.start as).tokens token) C.self staker payout hpayout₀
        (hpayout.trans hbalance))
    exact ⟨_, emergencyUnstake_eq_ok.mpr ⟨hs, info, hinfo, config, hconfig, penalty, payout,
      hamounts, token, hset, t, ht, rfl⟩⟩

/-- A stake of a hundred units, after which the penalty is set anew. -/
def penaltyRaised (emergencyUnstakePenaltyBps : ℕ) : List (Action numberedChain (Call ℕ)) :=
  [.invoke (signedBy 0) (.setStakingConfig 1 ⟨1, 1000, 500⟩),
   .invoke (signedBy 0) (.addStakingTier 1 yearlyTier),
   .invoke (signedBy 1) (.stake 2 100 7),
   .invoke (signedBy 0) (.setStakingConfig 1 ⟨1, 1000, emergencyUnstakePenaltyBps⟩)]

/-- With a penalty of the whole stake the exit succeeds and pays nothing. -/
theorem emergency_bounded_whole :
    EmergencyBounded (signedBy 1) 2 (freshStake 2 100 7 0) ⟨1, 1000, 10000⟩
      (run exec smallDeployment.start (penaltyRaised 10000)) := by
  have hs : 2 ∈ (signedBy 1).signers := by decide
  have hinfo : (run exec smallDeployment.start (penaltyRaised 10000)).store.stake 2 =
      some (freshStake 2 100 7 0) := by decide
  have hset : (run exec smallDeployment.start (penaltyRaised 10000)).store.config =
      some ⟨1, 1000, 10000⟩ := by decide
  obtain ⟨config, hconfig, hiff⟩ := emergency_bounded_iff smallDeployment mapToken_live
    (penaltyRaised 10000) hs hinfo (by decide) (by decide)
  obtain rfl := Option.some.inj (hconfig.symm.trans hset)
  exact hiff.mpr ⟨by decide, by decide⟩

/-- With one of twice the stake the payout is negative. -/
theorem emergency_unbounded :
    (run exec smallDeployment.start (penaltyRaised 20000)).store.config = some ⟨1, 1000, 20000⟩ ∧
      ¬EmergencyBounded (signedBy 1) 2 (freshStake 2 100 7 0) ⟨1, 1000, 20000⟩
        (run exec smallDeployment.start (penaltyRaised 20000)) := by
  refine ⟨by decide, fun h => ?_⟩
  have hpenalty := ((emergencyAmounts_bounds_iff (by decide) (by decide)).mp h.bounds).penalty
  revert hpenalty
  decide

end HubAssist.Staking
