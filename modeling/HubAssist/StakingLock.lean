import HubAssist.StakingSolvency

/-! The lock period. When a stake is made, a history keeps the time at which its tier unlocks
it; until then its principal should stay where it is, unless by an emergency exit. -/
namespace HubAssist.Staking
open SorobanHost CheckedArith RunSystem

variable {Address : Type} [DecidableEq Address] {C : Chain Address}
variable {env : Env C} {w w' : StakingWorld C} {call : Call Address} {staker : Address}

/-- The time at which the stake of each address is unlocked, set when it is made. -/
def recordUnlock : StakingWorld C → Action C (Call Address) → (Address → ℕ) → Address → ℕ :=
  recordCalls exec fun call w _ unlock =>
    match call with
    | .stake staker _ tierId =>
      Function.update unlock staker (w.now+(w.store.tier tierId).elim 0 (·.lockPeriodSeconds))
    | _ => unlock

/-- No principal leaves a stake in this step before its time, unless by an emergency exit. -/
def LockHonoured (s : StakingWorld C × (Address → ℕ)) : Action C (Call Address) → Prop
  | .invoke env call => ∀ staker w', call ≠ .emergencyUnstake staker → exec env call s.1 = .ok w' →
    held w' staker < held s.1 staker → s.2 staker ≤ s.1.now
  | .tick _ | .external _ _ => True

/-- No tier is replaced by another one. -/
def TiersKept (w : StakingWorld C) : Action C (Call Address) → Prop
  | .invoke env (.addStakingTier admin tier) => w.store.admin = some admin → admin ∈ env.signers →
    w.store.tier tier.id = none ∨ w.store.tier tier.id = some tier
  | _ => True

/-- The guards of `partialUnstake`. -/
def SliceAllowed (w : StakingWorld C) (env : Env C) (staker : Address) (amount : ℤ)
    (info : StakeInfo Address) (tier : StakingTier) : Prop :=
  staker ∈ env.signers ∧ w.store.stake staker = some info ∧ (0 < amount ∧ amount ≤ info.amount) ∧
    w.store.tier info.tierId = some tier ∧ ∃ total,
      calculateRewards info.amount info.stakeTimestamp w.now tier.baseRateBps = some total ∧
        PartialFits w info amount total

/-- Whatever slice this step takes out of a stake, it takes after the lock period. -/
def SlicesUnlocked (w : StakingWorld C) : Action C (Call Address) → Prop
  | .invoke env (.partialUnstake staker amount) => ∀ info tier,
    SliceAllowed w env staker amount info tier → info.stakedAt+tier.lockPeriodSeconds ≤ w.now
  | _ => True

/-- The recorded times are those that the stakes and their tiers give. -/
def LockKnown (s : StakingWorld C × (Address → ℕ)) : Prop :=
  ∀ staker info, s.1.store.stake staker = some info → ∃ tier,
    s.1.store.tier info.tierId = some tier ∧ s.2 staker = info.stakedAt+tier.lockPeriodSeconds

theorem held_update {info : Option (StakeInfo Address)}
    (h : w'.store.stake = Function.update w.store.stake staker info) (other : Address) :
    held w' other = if other = staker then info.elim 0 (·.amount) else held w other := by
  rw [held, h]
  split_ifs with ho
  · rw [ho, Function.update_self]
  · rw [Function.update_of_ne ho, held]

theorem addStakingTier_admin {admin : Address} {tier : StakingTier}
    (h : addStakingTier env admin tier w = .ok w') :
    w.store.admin = some admin ∧ admin ∈ env.signers := by
  simp only [addStakingTier, requireAdmin, bind_eq_ok, getOr_eq_ok, failIf_eq_ok, requireAuth_eq_ok,
    exists_const, not_not] at h
  obtain ⟨⟨stored, hadmin, heq, hs⟩, _⟩ := h
  exact ⟨heq ▸ hadmin, hs⟩

/-- A stake that keeps its time and tier, or is removed, leaves the recorded times right. -/
theorem LockKnown.of_stake {unlock : Address → ℕ} (h : LockKnown (w, unlock))
    (htier : w'.store.tier = w.store.tier) {info : Option (StakeInfo Address)}
    (hstake : w'.store.stake = Function.update w.store.stake staker info)
    (hinfo : ∀ i, info = some i → ∃ old, w.store.stake staker = some old ∧
      i.stakedAt = old.stakedAt ∧ i.tierId = old.tierId) : LockKnown (w', unlock) := by
  intro other i hi
  dsimp only at hi ⊢
  rw [hstake] at hi
  rw [htier]
  rcases StorageMap.update_cases hi with ⟨rfl, hnew⟩ | ⟨_, hold⟩
  · obtain ⟨old, hold, hat, hid⟩ := hinfo i hnew
    rw [hat, hid]
    exact h other old hold
  · exact h other i hold

theorem LockKnown.step {s : StakingWorld C × (Address → ℕ)} (h : LockKnown s)
    {a : Action C (Call Address)} (htiers : TiersKept s.1 a) :
    LockKnown (withHistory (step exec) recordUnlock s a) := by
  obtain ⟨w, unlock⟩ := s
  refine recordCalls_keeps _ (fun v unlock => LockKnown (v, unlock)) h ?_ (fun _ _ => h)
    fun _ _ _ _ => h
  rintro env call w' rfl (hcall : exec env call w = .ok w')
  cases exec_effect hcall with
  | configures => exact h
  | setsCooldown => exact h
  | addsTier admin tier =>
    intro staker info hinfo
    obtain ⟨old, hold, hunlock⟩ := h staker info hinfo
    refine ⟨old, ?_, hunlock⟩
    obtain ⟨hadmin, hs⟩ := addStakingTier_admin hcall
    change Function.update w.store.tier tier.id (some tier) info.tierId = some old
    by_cases hid : info.tierId = tier.id
    · rw [hid, Function.update_self]
      dsimp only at hold
      rw [hid] at hold
      rcases htiers hadmin hs with hnone | hsome
      -- a stake refers to a tier that exists, so this one was there and is the same
      · rw [hnone] at hold
        exact absurd hold (by simp)
      · exact hsome.symm.trans hold
    · rw [Function.update_of_ne hid]
      exact hold
  | stakes staker amount tierId config tier token t _ _ _ htier _ _ _ =>
    intro other info hinfo
    simp only [htier, Option.elim]
    by_cases ho : other = staker
    · subst ho
      simp only [setStake_stake, Function.update_self] at hinfo
      obtain rfl := Option.some.inj hinfo
      exact ⟨tier, htier, by rw [Function.update_self]⟩
    · simp only [setStake_stake, Function.update_of_ne ho] at hinfo
      rw [Function.update_of_ne ho]
      exact h other info hinfo
  | unstakes => exact h.of_stake rfl (setStake_stake ..) fun _ h => nomatch h
  | unstakesPart staker amount info tier total _ hinfo _ _ _ _ =>
    refine h.of_stake rfl (setStake_stake ..) fun i hi => ?_
    split_ifs at hi
    obtain rfl := Option.some.inj hi
    exact ⟨info, hinfo, rfl, rfl⟩
  | withdraws => exact h
  | leaves => exact h.of_stake rfl (setStake_stake ..) fun _ h => nomatch h
  | claimsStaking staker info tier reward token t _ hinfo _ _ _ _ _ =>
    refine h.of_stake rfl (setStake_stake ..) fun i hi => ?_
    obtain rfl := Option.some.inj hi
    exact ⟨info, hinfo, rfl, rfl⟩
  | claimsRewards staker info tier reward token t paid _ hinfo _ _ _ _ _ =>
    refine h.of_stake rfl rfl fun i hi => ?_
    obtain rfl := Option.some.inj hi
    exact ⟨info, hinfo, rfl, rfl⟩
  | nothingDue staker _ hcall' =>
    rcases hcall' with rfl | rfl <;> exact h

theorem SlicesUnlocked.honoured {unlock : Address → ℕ} (h : LockKnown (w, unlock))
    {a : Action C (Call Address)} (hslices : SlicesUnlocked w a) : LockHonoured (w, unlock) a := by
  cases a with
  | tick d => trivial
  | external token next => trivial
  | invoke env call =>
    intro staker w' hexit hcall hless
    dsimp only at hcall hless ⊢
    -- an effect that leaves a stake no smaller takes principal from nobody
    have hkeep {info : Option (StakeInfo Address)} {other : Address}
        (hstake : w'.store.stake = Function.update w.store.stake other info)
        (hle : held w other ≤ info.elim 0 (·.amount)) : False := by
      rw [held_update hstake] at hless
      split_ifs at hless with ho
      · rw [ho] at hless
        exact absurd hless (not_lt.mpr hle)
      · exact lt_irrefl _ hless
    cases exec_effect hcall with
    | configures => exact absurd hless (lt_irrefl _)
    | addsTier => exact absurd hless (lt_irrefl _)
    | setsCooldown => exact absurd hless (lt_irrefl _)
    | withdraws => exact absurd hless (lt_irrefl _)
    | nothingDue => exact absurd hless (lt_irrefl _)
    | stakes other amount tierId config tier token t _ _ _ _ hnone _ ht =>
      -- a new stake adds principal
      refine (hkeep (setStake_stake ..) ?_).elim
      rw [held, hnone]
      exact C.token.transfer_nonneg ht
    | unstakes other info tier reward _ hinfo htier hlock _ =>
      by_cases ho : staker = other
      · subst ho
        obtain ⟨tier', htier', hunlock⟩ := h staker info hinfo
        obtain rfl := Option.some.inj (htier.symm.trans htier')
        rw [show unlock staker = _ from hunlock]
        exact hlock
      · rw [held_update (setStake_stake ..), if_neg ho] at hless
        exact absurd hless (lt_irrefl _)
    | unstakesPart other amount info tier total _ hinfo hpos hle htier htotal =>
      by_cases ho : staker = other
      · subst ho
        obtain ⟨tier', htier', hunlock⟩ := h staker info hinfo
        obtain rfl := Option.some.inj (htier.symm.trans htier')
        rw [show unlock staker = _ from hunlock]
        obtain ⟨hs, info', hinfo', hamount, tier', htier'', total', htotal', hfits, _⟩ :=
          partialUnstake_eq_ok.mp hcall
        obtain rfl := Option.some.inj (hinfo.symm.trans hinfo')
        obtain rfl := Option.some.inj (htier.symm.trans htier'')
        -- `partialUnstake` checks no lock: that the period is over comes from the condition
        exact hslices info tier ⟨hs, hinfo, hamount, htier, total', htotal', hfits⟩
      · rw [held_update (setStake_stake ..), if_neg ho] at hless
        exact absurd hless (lt_irrefl _)
    | leaves other info config payout token t _ _ _ _ _ _ =>
      by_cases ho : staker = other
      · exact absurd (ho ▸ rfl) hexit
      · rw [held_update (setStake_stake ..), if_neg ho] at hless
        exact absurd hless (lt_irrefl _)
    | claimsStaking other info tier reward token t _ hinfo _ _ _ _ _ =>
      exact (hkeep (setStake_stake ..) (held_of_some hinfo).le).elim
    | claimsRewards other info tier reward token t paid _ hinfo _ _ _ _ _ =>
      exact (hkeep rfl (held_of_some hinfo).le).elim

theorem LockHonoured.slices {unlock : Address → ℕ} (h : LockKnown (w, unlock))
    {a : Action C (Call Address)} (hlock : LockHonoured (w, unlock) a) : SlicesUnlocked w a := by
  cases a with
  | tick d => trivial
  | external token next => trivial
  | invoke env call =>
    cases call with
    | partialUnstake staker amount =>
      rintro info tier ⟨hs, hinfo, hamount, htier, total, htotal, hfits⟩
      obtain ⟨tier', htier', hunlock⟩ := h staker info hinfo
      obtain rfl := Option.some.inj (htier.symm.trans htier')
      have hcall := partialUnstake_eq_ok.mpr
        ⟨hs, info, hinfo, hamount, tier, htier, total, htotal, hfits, rfl⟩
      -- the slice is accepted and takes principal, so the law applies to it
      have hnow : unlock staker ≤ w.now := by
        refine hlock staker _ (by simp) hcall ?_
        rw [held_update (setStake_stake ..), if_pos rfl, held_of_some hinfo]
        have hleft := hamount.1
        split_ifs <;> simp only [Option.elim] <;> omega
      rwa [show unlock staker = _ from hunlock] at hnow
    | _ => trivial

/-- Where tiers are not replaced, no principal leaves a stake before its time along a run, the
emergency exits apart, exactly when no slice is taken out of a locked stake. -/
theorem lock_honoured_run (d : Deployment C) (as : List (Action C (Call Address)))
    (htiers : Guarded (step exec) TiersKept d.start as) :
    Guarded (withHistory (step exec) recordUnlock) LockHonoured (d.start, fun _ => 0) as ↔
      Guarded (step exec) SlicesUnlocked d.start as := by
  have hstart : LockKnown (d.start, fun _ : Address => 0) := fun _ _ h => nomatch h
  have hkept := (guarded_withHistory (step exec) recordUnlock TiersKept
    (d.start, fun _ => 0) as).mpr htiers
  rw [← guarded_withHistory (step exec) recordUnlock SlicesUnlocked (d.start, fun _ => 0) as]
  constructor
  · exact guarded_of_guarded _ (fun s a hs ha => hs.step ha) (fun s a hs ha => ha.slices hs)
      hstart hkept
  · exact guarded_of_guarded _ (fun s a hs ha => hs.step ha) (fun s a hs ha => ha.honoured hs)
      hstart hkept

/-- A tier of the same rate that locks a stake for a thousand seconds. -/
def lockedTier : StakingTier := ⟨7, "locked", 1, 10000, 10000, 1000⟩

def stakeLocked : List (Action numberedChain (Call ℕ)) :=
  [.invoke (signedBy 0) (.setStakingConfig 1 ⟨1, 1000, 0⟩),
   .invoke (signedBy 0) (.addStakingTier 1 lockedTier),
   .invoke (signedBy 1) (.stake 2 100 7)]

theorem stakeLocked_tiersKept (a : Action numberedChain (Call ℕ))
    (ha : ∀ env admin tier, a ≠ .invoke env (.addStakingTier admin tier)) (seconds : ℕ) :
    Guarded (step exec) TiersKept smallDeployment.start (stakeLocked ++ [.tick seconds, a]) := by
  refine ⟨trivial, fun _ _ => Or.inl rfl, trivial, trivial, ?_, trivial⟩
  cases a with
  | tick => trivial
  | external => trivial
  | invoke env call =>
    cases call with
    | addStakingTier admin tier => exact absurd rfl (ha env admin tier)
    | _ => trivial

theorem lock_honoured_afterLock :
    Guarded (withHistory (step exec) recordUnlock) LockHonoured (smallDeployment.start, fun _ => 0)
      (stakeLocked ++ [.tick 1000, .invoke (signedBy 1) (.partialUnstake 2 40)]) := by
  refine (lock_honoured_run smallDeployment _ (stakeLocked_tiersKept _ (by simp) 1000)).mpr ?_
  refine ⟨trivial, trivial, trivial, trivial, fun info tier hallowed => ?_, trivial⟩
  obtain ⟨_, hinfo, _, htier, _⟩ := hallowed
  obtain rfl := Option.some.inj hinfo
  obtain rfl := Option.some.inj htier
  decide

def lockedStake : StakeInfo ℕ := ⟨2, 100, 7, 0, 0, 0, 0, false⟩

/-- Right after the stake is made all of it moves to the queue by a partial unstake. -/
theorem lock_not_honoured :
    ¬Guarded (withHistory (step exec) recordUnlock) LockHonoured (smallDeployment.start, fun _ => 0)
      (stakeLocked ++ [.tick 1, .invoke (signedBy 1) (.partialUnstake 2 100)]) := by
  intro h
  have hlast := (guarded_iff_steps _ _ _ _).mp h (stakeLocked ++ [.tick 1])
    (.invoke (signedBy 1) (.partialUnstake 2 100)) [] rfl
  have hfits : PartialFits (run exec smallDeployment.start (stakeLocked ++ [.tick 1]))
      lockedStake 100 0 := by
    unfold PartialFits
    decide
  have hcall := partialUnstake_eq_ok.mpr ⟨(by decide : 2 ∈ (signedBy 1).signers), lockedStake,
    (by decide), (by decide), lockedTier, (by decide), 0, (by decide), hfits, rfl⟩
  have hunlocked := hlast 2 _ (by simp) hcall (by decide)
  revert hunlocked
  decide

end HubAssist.Staking
