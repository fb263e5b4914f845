import HubAssist.StakingBooks

/-! Where the principal is: the contract's balance together with the rewards it has paid out
accounts for the active stakes, the principal in the queues and the penalties it has kept.
Rewards come out of the same balance, so it covers the principal only up to what was paid. -/
namespace HubAssist.Staking
open SorobanHost CheckedArith RunSystem StorageMap TokenLedger

variable {Address : Type} [DecidableEq Address] {C : Chain Address}
variable {w w' : StakingWorld C} {call : Call Address} {staker token : Address}

/-- The principal in all active stakes. -/
noncomputable def stakedTotal (w : StakingWorld C) : ℤ := tally (·.amount) w.store.stake

/-- The principal in all queued withdrawals. -/
noncomputable def queuedPrincipal (b : Books Address) : ℤ :=
  tally (fun entries => (entries.map Entry.principal).sum) b.queue

/-- What the balance and the rewards paid have over the principal and the penalties. -/
noncomputable def slack (token : Address) (w : StakingWorld C) (b : Books Address) : ℤ :=
  w.balance token C.self+b.rewardsPaid-b.penalties-stakedTotal w-queuedPrincipal b

/-- What the accounts rest on in every state of a run. -/
structure Sound (token : Address) (w : StakingWorld C) (b : Books Address) : Prop where
  stakingToken : w.store.stakingToken = some token
  mirrors : Mirrors w b
  stakes_finite : FiniteKeys w.store.stake
  queues_finite : FiniteKeys b.queue
  amount_nonneg : ∀ staker info, w.store.stake staker = some info → 0 ≤ info.amount
  penalties_nonneg : 0 ≤ b.penalties

omit [DecidableEq Address] in
theorem weigh_queue (b : Books Address) (staker : Address) :
    weigh (fun entries : List Entry => (entries.map Entry.principal).sum) b.queue staker =
      ((b.entries staker).map Entry.principal).sum := by
  rw [weigh, Books.entries]
  cases b.queue staker <;> rfl

/-- A sum over the entries splits into the one over those due and the one over the rest. -/
theorem sum_due_kept {Address : Type} (b : Books Address) (staker : Address) (now : ℕ)
    (f : Entry → ℤ) : ((b.entries staker).map f).sum =
      ((b.due staker now).map f).sum+((b.kept staker now).map f).sum := by
  rw [Books.due, Books.kept]
  induction b.entries staker with
  | nil => rfl
  | cons e entries ih =>
    by_cases h : e.claimableAt ≤ now
    · simp [h, ih, add_assoc]
    · simp only [h, List.map_cons, List.sum_cons, ih, decide_false, Bool.false_eq_true,
        not_false_eq_true, List.filter_cons_of_neg, not_le.mp h, decide_true,
        List.filter_cons_of_pos]
      omega

theorem queuedPrincipal_enqueue {b : Books Address} (hb : FiniteKeys b.queue) (staker : Address)
    (principal : ℤ) (withdrawal : PendingWithdrawal Address) :
    queuedPrincipal (b.enqueue staker principal withdrawal) = queuedPrincipal b+principal := by
  rw [queuedPrincipal, Books.enqueue, tally_set hb, weigh_queue, queuedPrincipal]
  simp only [Option.elim, List.map_append, List.map_singleton, List.sum_append, List.sum_singleton]
  omega

theorem queuedPrincipal_settle {b : Books Address} (hb : FiniteKeys b.queue) (staker : Address)
    (now : ℕ) : queuedPrincipal (b.settle staker now) =
      queuedPrincipal b-((b.due staker now).map Entry.principal).sum := by
  have hkept : (if b.kept staker now = [] then none else some (b.kept staker now)).elim 0
      (fun entries => (entries.map Entry.principal).sum) =
        ((b.kept staker now).map Entry.principal).sum := by
    split_ifs with h
    · simp [h]
    · rfl
  rw [queuedPrincipal, Books.settle, tally_set hb, weigh_queue, hkept, queuedPrincipal,
    sum_due_kept b staker now]
  omega

/-- Replacing a stake changes the total by the difference. -/
theorem stakedTotal_set (hw : FiniteKeys w.store.stake) {info : Option (StakeInfo Address)}
    (h : w'.store.stake = Function.update w.store.stake staker info) :
    stakedTotal w' = stakedTotal w-held w staker+info.elim 0 (·.amount) := by
  rw [stakedTotal, h, tally_set hw]
  rfl

omit [DecidableEq Address] in
theorem penalty_nonneg {info : StakeInfo Address} (h : 0 ≤ info.amount) (bps : ℕ) :
    0 ≤ info.amount-(info.amount-(info.amount*bps).tdiv 10000) := by
  have hb := (tdiv_bounds (mul_nonneg h (Int.natCast_nonneg bps)) (by decide : (0 : ℤ) < 10000)).1
  omega

/-- No stake is negative after one has been written that is not. -/
theorem Sound.amount_nonneg_set {b : Books Address} (h : Sound token w b) (staker : Address)
    (info : Option (StakeInfo Address)) (hinfo : ∀ i, info = some i → 0 ≤ i.amount)
    (other : Address) (i : StakeInfo Address)
    (hi : Function.update w.store.stake staker info other = some i) : 0 ≤ i.amount := by
  rcases update_cases hi with ⟨_, hnew⟩ | ⟨_, hold⟩
  · exact hinfo i hnew
  · exact h.amount_nonneg other i hold

theorem queues_finite_enqueue {b : Books Address} (hb : FiniteKeys b.queue) (staker : Address)
    (principal : ℤ) (withdrawal : PendingWithdrawal Address) :
    FiniteKeys (b.enqueue staker principal withdrawal).queue := hb.set staker _

theorem Effect.sound (h : Effect w call w') {b : Books Address} (hb : Sound token w b) :
    Sound token w' (b.after w w' call) := by
  have hmirrors := h.mirrors hb.mirrors
  -- every effect writes at most one stake, by an amount that is not negative
  have hset := hb.amount_nonneg_set
  have hqueue (staker : Address) (principal : ℤ) (withdrawal : PendingWithdrawal Address) :=
    queues_finite_enqueue hb.queues_finite staker principal withdrawal
  cases h with
  | configures =>
    exact ⟨hb.stakingToken, hmirrors, hb.stakes_finite, hb.queues_finite, hb.amount_nonneg,
      hb.penalties_nonneg⟩
  | addsTier =>
    exact ⟨hb.stakingToken, hmirrors, hb.stakes_finite, hb.queues_finite, hb.amount_nonneg,
      hb.penalties_nonneg⟩
  | setsCooldown =>
    exact ⟨hb.stakingToken, hmirrors, hb.stakes_finite, hb.queues_finite, hb.amount_nonneg,
      hb.penalties_nonneg⟩
  | stakes staker amount tierId config tier token t _ _ _ _ _ _ ht =>
    refine ⟨hb.stakingToken, hmirrors, hb.stakes_finite.set staker _, hb.queues_finite,
      hset staker _ ?_, hb.penalties_nonneg⟩
    intro i hi
    obtain rfl := Option.some.inj hi
    exact C.token.transfer_nonneg ht
  | unstakes staker info tier reward _ hinfo _ _ _ =>
    rw [after_unstakes b hinfo] at hmirrors ⊢
    exact ⟨hb.stakingToken, hmirrors, hb.stakes_finite.set staker _, hqueue _ _ _,
      hset staker none (fun _ h => nomatch h), hb.penalties_nonneg⟩
  | unstakesPart staker amount info tier total _ hinfo _ hle _ _ =>
    rw [after_unstakesPart b hinfo] at hmirrors ⊢
    refine ⟨hb.stakingToken, hmirrors, hb.stakes_finite.set staker _, hqueue _ _ _,
      hset staker _ ?_, hb.penalties_nonneg⟩
    intro i hi
    split_ifs at hi
    obtain rfl := Option.some.inj hi
    exact sub_nonneg.mpr hle
  | withdraws staker pending token t _ _ _ _ _ =>
    exact ⟨hb.stakingToken, hmirrors, hb.stakes_finite, hb.queues_finite.set staker _,
      hb.amount_nonneg, hb.penalties_nonneg⟩
  | leaves staker info config payout token t _ hinfo _ hpayout _ _ =>
    rw [after_leaves b hinfo] at hmirrors ⊢
    refine ⟨hb.stakingToken, hmirrors, hb.stakes_finite.set staker _, hb.queues_finite,
      hset staker none (fun _ h => nomatch h), ?_⟩
    have hpenalty := penalty_nonneg (hb.amount_nonneg staker info hinfo)
      config.emergencyUnstakePenaltyBps
    rw [← hpayout] at hpenalty
    exact add_nonneg hb.penalties_nonneg hpenalty
  | claimsStaking staker info tier reward token t _ hinfo _ _ _ _ _ =>
    refine ⟨hb.stakingToken, hmirrors, hb.stakes_finite.set staker _, hb.queues_finite,
      hset staker _ ?_, hb.penalties_nonneg⟩
    intro i hi
    obtain rfl := Option.some.inj hi
    exact hb.amount_nonneg staker info hinfo
  | claimsRewards staker info tier reward token t paid _ hinfo _ _ _ _ _ =>
    refine ⟨hb.stakingToken, hmirrors, hb.stakes_finite.set staker _, hb.queues_finite,
      hset staker _ ?_, hb.penalties_nonneg⟩
    intro i hi
    obtain rfl := Option.some.inj hi
    exact hb.amount_nonneg staker info hinfo
  | nothingDue staker _ hcall =>
    rw [after_nothingDue b hcall]
    exact hb

/-- The slack of two worlds that differ in one stake. -/
theorem slack_eq_of_stake {b b' : Books Address} (hw : FiniteKeys w.store.stake)
    {info : Option (StakeInfo Address)}
    (hstake : w'.store.stake = Function.update w.store.stake staker info)
    (hsum : w'.balance token C.self+b'.rewardsPaid-b'.penalties-info.elim 0 (·.amount)-
      queuedPrincipal b' =
        w.balance token C.self+b.rewardsPaid-b.penalties-held w staker-queuedPrincipal b) :
    slack token w' b' = slack token w b := by
  rw [slack, slack, stakedTotal_set hw hstake]
  omega

/-- No accepted call changes the slack. -/
theorem Effect.slack_eq (h : Effect w call w') {b : Books Address} (hb : Sound token w b) :
    slack token w' (b.after w w' call) = slack token w b := by
  have htok {token' : Address} (h : w.store.stakingToken = some token') : token' = token :=
    Option.some.inj (h.symm.trans hb.stakingToken)
  have hfin := hb.stakes_finite
  cases h with
  | configures => rfl
  | addsTier => rfl
  | setsCooldown => rfl
  | stakes staker amount tierId config tier token' t hself _ _ _ hnone htoken ht =>
    obtain rfl := htok htoken
    have hbalance := World.paid_in_balance ht hself
    -- the address had no stake, so the total grows by what the balance does
    have hheld : held w staker = 0 := by simp [held, hnone]
    refine slack_eq_of_stake hfin (setStake_stake ..) ?_
    simp only [Books.after, setStake_balance, hbalance, hheld, Option.elim]
    omega
  | unstakes staker info tier reward _ hinfo _ _ _ =>
    rw [after_unstakes b hinfo]
    refine slack_eq_of_stake hfin (setStake_stake ..) ?_
    rw [queuedPrincipal_enqueue hb.queues_finite, held_of_some hinfo]
    simp only [Books.enqueue_rewardsPaid, Books.enqueue_penalties, pushPending, setStake_balance,
      setPending_balance, Option.elim]
    omega
  | unstakesPart staker amount info tier total _ hinfo _ hle _ _ =>
    rw [after_unstakesPart b hinfo]
    refine slack_eq_of_stake hfin (setStake_stake ..) ?_
    rw [queuedPrincipal_enqueue hb.queues_finite, held_of_some hinfo]
    simp only [Books.enqueue_rewardsPaid, Books.enqueue_penalties, pushPending, setStake_balance,
      setPending_balance]
    split_ifs <;> simp only [Option.elim] <;> omega
  | withdraws staker pending token' t hself hpending _ htoken ht =>
    obtain rfl := htok htoken
    have hbalance := World.paid_out_balance ht hself
    -- what is transferred is the principal due, which leaves the queue, and the reward due
    have hpaid : totalAmount (matured w.now pending) =
        ((b.due staker w.now).map Entry.principal).sum +
          ((b.due staker w.now).map (·.reward)).sum := by
      have hentries := hb.mirrors.pending staker
      rw [getPendingWithdrawals, hpending, Option.getD_some] at hentries
      rw [hentries, matured_map, totalAmount_map]
      rfl
    simp only [slack, Books.after, stakedTotal, queuedPrincipal_settle hb.queues_finite,
      setPending_balance, setPending_stake, World.paid_store, hbalance,
      Books.settle_rewardsPaid, Books.settle_penalties]
    omega
  | leaves staker info config payout token' t hself hinfo _ hpayout htoken ht =>
    obtain rfl := htok htoken
    have hbalance := World.paid_out_balance ht hself
    rw [after_leaves b hinfo]
    refine slack_eq_of_stake hfin (setStake_stake ..) ?_
    simp only [setStake_balance, hbalance, held_of_some hinfo, Option.elim, queuedPrincipal]
    omega
  | claimsStaking staker info tier reward token' t hself hinfo _ _ _ htoken ht =>
    obtain rfl := htok htoken
    have hbalance := World.paid_out_balance ht hself
    rw [after_reward b (setStake_transfers ..) (Or.inl rfl)]
    refine slack_eq_of_stake hfin (setStake_stake ..) ?_
    simp only [setStake_balance, hbalance, held_of_some hinfo, Option.elim, queuedPrincipal]
    omega
  | claimsRewards staker info tier reward token' t paid hself hinfo _ _ _ htoken ht =>
    obtain rfl := htok htoken
    have hbalance := World.paid_out_balance ht hself
    rw [after_reward b (World.setStore_transfers ..) (Or.inr rfl)]
    refine slack_eq_of_stake hfin rfl ?_
    simp only [World.setStore_balance, hbalance, held_of_some hinfo, Option.elim, queuedPrincipal]
    omega
  | nothingDue staker _ hcall =>
    rw [after_nothingDue b hcall]

/-- A fresh storage over a set staking token. -/
structure Deployment (C : Chain Address) where
  stakingToken : Address
  tokens : Address → C.token.State
  now : ℕ

namespace Deployment

def start (d : Deployment C) : StakingWorld C where
  store :=
    { admin := none
      config := none
      tier := fun _ => none
      tierList := none
      stake := fun _ => none
      stakingToken := some d.stakingToken
      pendingWithdrawals := fun _ => none
      cooldownSecs := none
      totalRewardsPaid := fun _ => none }
  tokens := d.tokens
  transfers := []
  now := d.now

def opened (d : Deployment C) : StakingWorld C × Books Address := (d.start, Books.empty)

/-- The books after a run. -/
def booksAfter (d : Deployment C) (as : List (Action C (Call Address))) : Books Address :=
  (RunSystem.run booked d.opened as).2

theorem start_sound (d : Deployment C) : Sound d.stakingToken d.start Books.empty where
  stakingToken := rfl
  mirrors _ := rfl
  stakes_finite := finiteKeys_empty
  queues_finite := finiteKeys_empty
  amount_nonneg _ _ h := nomatch h
  penalties_nonneg := le_rfl

theorem start_slack (d : Deployment C) (token : Address) :
    slack token d.start Books.empty = d.start.balance token C.self := by
  have hstaked : stakedTotal d.start = 0 := tally_empty StakeInfo.amount
  have hqueued : queuedPrincipal (Books.empty : Books Address) = 0 := tally_empty _
  rw [slack, hstaked, hqueued]
  simp [Books.empty]

end Deployment

theorem Sound.of_store {b : Books Address} (h : Sound token w b) (hw : w'.store = w.store) :
    Sound token w' b where
  stakingToken := hw ▸ h.stakingToken
  mirrors := by
    intro staker
    rw [hw]
    exact h.mirrors staker
  stakes_finite := hw ▸ h.stakes_finite
  queues_finite := h.queues_finite
  amount_nonneg := hw ▸ h.amount_nonneg
  penalties_nonneg := h.penalties_nonneg

/-- One step keeps the accounts sound and takes nothing from the slack. -/
theorem Sound.step {b : Books Address} (h : Sound token w b) (a : Action C (Call Address)) :
    Sound token (booked (w, b) a).1 (booked (w, b) a).2 ∧
      slack token w b ≤ slack token (booked (w, b) a).1 (booked (w, b) a).2 := by
  refine booked_keeps (fun v c => Sound token v c ∧ slack token w b ≤ slack token v c)
    ⟨h, le_rfl⟩ ?_ (fun _ _ => ⟨h.of_store rfl, le_rfl⟩) ?_
  · intro env call w' _ heff
    exact ⟨heff.sound h, (heff.slack_eq h).ge⟩
  · intro other next _ hle
    have hbalance := World.balance_le_reledger w hle token
    refine ⟨h.of_store rfl, ?_⟩
    simp only [slack, stakedTotal, World.reledger_store]
    omega

/-- Where nobody sends the contract tokens, it is worth the same after each step. -/
theorem Sound.step_eq {b : Books Address} (h : Sound token w b) {a : Action C (Call Address)}
    (hu : Ungifted w a) :
    slack token (booked (w, b) a).1 (booked (w, b) a).2 = slack token w b := by
  refine booked_keeps (fun v c => slack token v c = slack token w b) rfl ?_ (fun _ _ => rfl) ?_
  · intro env call w' _ heff
    exact heff.slack_eq h
  · rintro other next rfl hle
    -- an outside step takes nothing from the contract, and here it gives nothing
    have heq : C.token.balance next C.self = w.balance other C.self := le_antisymm hu hle
    by_cases ho : token = other
    · subst ho
      simp [slack, stakedTotal, World.balance, World.reledger, heq]
    · simp [slack, stakedTotal, World.balance, World.reledger, ho]

/-- The principal of the active stakes and of the queued withdrawals is accounted for in the
state `w` that a run has reached with the books `b`. -/
structure Accounted (d : Deployment C) (as : List (Action C (Call Address)))
    (w : StakingWorld C) (b : Books Address) : Prop where
  mirrors : Mirrors w b
  covered : stakedTotal w+queuedPrincipal b ≤ w.balance d.stakingToken C.self+b.rewardsPaid
  balanced : d.start.balance d.stakingToken C.self = 0 →
    Guarded (step exec) Ungifted d.start as →
      w.balance d.stakingToken C.self+b.rewardsPaid =
        stakedTotal w+queuedPrincipal b+b.penalties
  penalties_nonneg : 0 ≤ b.penalties

theorem opened_sound (d : Deployment C) : Sound d.stakingToken d.opened.1 d.opened.2 ∧
    slack d.stakingToken d.opened.1 d.opened.2 = d.start.balance d.stakingToken C.self :=
  ⟨d.start_sound, d.start_slack d.stakingToken⟩

theorem sound_run (d : Deployment C) (as : List (Action C (Call Address))) :
    Sound d.stakingToken (run exec d.start as) (d.booksAfter as) ∧
      d.start.balance d.stakingToken C.self ≤
        slack d.stakingToken (run exec d.start as) (d.booksAfter as) := by
  have hstep (s : StakingWorld C × Books Address) (a : Action C (Call Address))
      (hs : Sound d.stakingToken s.1 s.2 ∧
        d.start.balance d.stakingToken C.self ≤ slack d.stakingToken s.1 s.2) :
      Sound d.stakingToken (booked s a).1 (booked s a).2 ∧
        d.start.balance d.stakingToken C.self ≤
          slack d.stakingToken (booked s a).1 (booked s a).2 :=
    ⟨(hs.1.step a).1, hs.2.trans (hs.1.step a).2⟩
  obtain ⟨hsound, hslack⟩ := opened_sound d
  have hrun := run_invariant_all booked hstep ⟨hsound, hslack.ge⟩ as
  rwa [run_withHistory_fst] at hrun

theorem slack_run_eq (d : Deployment C) (as : List (Action C (Call Address)))
    (hu : Guarded (step exec) Ungifted d.start as) :
    slack d.stakingToken (run exec d.start as) (d.booksAfter as) =
      d.start.balance d.stakingToken C.self := by
  have hstep (s : StakingWorld C × Books Address) (a : Action C (Call Address))
      (hs : Sound d.stakingToken s.1 s.2 ∧
        slack d.stakingToken s.1 s.2 = d.start.balance d.stakingToken C.self)
      (hu : Ungifted s.1 a) :
      Sound d.stakingToken (booked s a).1 (booked s a).2 ∧
        slack d.stakingToken (booked s a).1 (booked s a).2 =
          d.start.balance d.stakingToken C.self :=
    ⟨(hs.1.step a).1, (hs.1.step_eq hu).trans hs.2⟩
  have hbooked := (guarded_withHistory (step exec) Books.record Ungifted d.opened as).mpr hu
  have hrun := run_invariant booked hstep (opened_sound d) hbooked
  rw [run_withHistory_fst] at hrun
  exact hrun.2

/-- In every run the balance covers the principal that has not been paid out as rewards; where
nobody sends the contract tokens, the two differ by exactly the penalties it has kept. -/
theorem principal_accounted_run (d : Deployment C) (as : List (Action C (Call Address))) :
    Accounted d as (run exec d.start as) (d.booksAfter as) := by
  obtain ⟨hsound, hslack⟩ := sound_run d as
  have hstart : 0 ≤ d.start.balance d.stakingToken C.self := C.token.balance_nonneg _ _
  have hpenalties := hsound.penalties_nonneg
  refine ⟨hsound.mirrors, ?_, fun hzero hu => ?_, hpenalties⟩
  · rw [slack] at hslack
    omega
  · have heq := slack_run_eq d as hu
    rw [slack] at heq
    omega

/-- The staking token 9, of which account 2 owns a hundred units. -/
def smallDeployment : Deployment numberedChain where
  stakingToken := 9
  tokens _ := fun account => if account = 2 then (100 : ℕ) else 0
  now := 0

/-- A tier of one hundred per cent a year, without multiplier and without a lock period. -/
def yearlyTier : StakingTier := ⟨7, "yearly", 1, 10000, 10000, 0⟩

/-- The only stake earns its own amount in a year and the reward is claimed. -/
def stakeAndClaim : List (Action numberedChain (Call ℕ)) :=
  [.invoke (signedBy 0) (.setStakingConfig 1 ⟨1, 1000, 0⟩),
   .invoke (signedBy 0) (.addStakingTier 1 yearlyTier),
   .invoke (signedBy 1) (.stake 2 100 7),
   .tick 31536000,
   .invoke (signedBy 1) (.claimStakingRewards 2)]

/-- After that the contract holds nothing, while the stake of a hundred units is active. -/
theorem principal_uncovered :
    ¬stakedTotal (run exec smallDeployment.start stakeAndClaim)+
        queuedPrincipal (smallDeployment.booksAfter stakeAndClaim) ≤
      (run exec smallDeployment.start stakeAndClaim).balance 9 numberedChain.self := by
  have hu : Guarded (step exec) Ungifted smallDeployment.start stakeAndClaim :=
    ⟨trivial, trivial, trivial, trivial, trivial, trivial⟩
  have heq := slack_run_eq smallDeployment stakeAndClaim hu
  have hpaid : (smallDeployment.booksAfter stakeAndClaim).rewardsPaid = 100 := by decide
  have hpenalties : (smallDeployment.booksAfter stakeAndClaim).penalties = 0 := by decide
  have hstart : smallDeployment.start.balance 9 numberedChain.self = 0 := by decide
  rw [slack, hpaid, hpenalties] at heq
  change _ = smallDeployment.start.balance 9 numberedChain.self at heq
  rw [hstart] at heq
  change ¬_ ≤ (run exec smallDeployment.start stakeAndClaim).balance smallDeployment.stakingToken _
  omega

end HubAssist.Staking
