import HubAssist.StakingSolvency
import HubAssist.StakingAccrual

/-! Withdrawals from the queue: what `claimUnstaked` pays and keeps, exactly, and that over a
run every queued withdrawal is paid at most once and not before its time. -/
namespace HubAssist.Staking
open SorobanHost CheckedArith RunSystem StorageMap TokenLedger

variable {Address : Type} [DecidableEq Address] {C : Chain Address}
variable {env : Env C} {w w' : StakingWorld C} {call : Call Address} {staker token : Address}

/-- An accepted configuration asks for a stake of at least one unit. -/
def MinimumPositive : Action C (Call Address) → Prop
  | .invoke env (.setStakingConfig admin config) =>
    admin ∈ env.signers → 1 ≤ config.minStakeAmount
  | _ => True

/-- Every stake and every queued withdrawal is of at least one unit. -/
structure Positive (w : StakingWorld C) : Prop where
  config : ∀ config, w.store.config = some config → 1 ≤ config.minStakeAmount
  stakes : ∀ staker info, w.store.stake staker = some info → 1 ≤ info.amount
  pending : ∀ staker, ∀ withdrawal ∈ getPendingWithdrawals w staker, 1 ≤ withdrawal.amount

theorem getPending_push (w : StakingWorld C) (staker : Address)
    (withdrawal : PendingWithdrawal Address) (info : Option (StakeInfo Address)) (other : Address) :
    getPendingWithdrawals (setStake (pushPending w staker withdrawal) staker info) other =
      if other = staker then getPendingWithdrawals w other ++ [withdrawal]
      else getPendingWithdrawals w other := by
  by_cases h : other = staker
  · subst h
    simp [getPendingWithdrawals, pushPending]
  · simp [getPendingWithdrawals, pushPending, h]

theorem getPending_setPending (w : StakingWorld C) (staker : Address)
    (pending : List (PendingWithdrawal Address)) (other : Address) :
    getPendingWithdrawals (setPending w staker (if pending = [] then none else some pending)) other =
      if other = staker then pending else getPendingWithdrawals w other := by
  by_cases h : other = staker
  · subst h
    by_cases hp : pending = [] <;> simp [getPendingWithdrawals, hp]
  · simp [getPendingWithdrawals, h]

/-- A new withdrawal and what is left of the stake are again of at least one unit. -/
theorem Positive.push (hw : Positive w) {withdrawal : PendingWithdrawal Address}
    (hamount : 1 ≤ withdrawal.amount) {info : Option (StakeInfo Address)}
    (hinfo : ∀ i, info = some i → 1 ≤ i.amount) :
    Positive (setStake (pushPending w staker withdrawal) staker info) := by
  refine ⟨hw.config, fun other i hi => ?_, fun other p hp => ?_⟩
  · rcases update_cases hi with ⟨_, hnew⟩ | ⟨_, hold⟩
    · exact hinfo i hnew
    · exact hw.stakes other i hold
  · rw [getPending_push] at hp
    split_ifs at hp with ho
    · rcases List.mem_append.mp hp with hp | hp
      · exact hw.pending other p hp
      · rwa [List.mem_singleton.mp hp]
    · exact hw.pending other p hp

/-- Replacing one stake by none or by one of at least one unit. -/
theorem Positive.setStake (hw : Positive w) (hstore : w'.store.config = w.store.config)
    (hpending : w'.store.pendingWithdrawals = w.store.pendingWithdrawals)
    {info : Option (StakeInfo Address)}
    (hstake : w'.store.stake = Function.update w.store.stake staker info)
    (hinfo : ∀ i, info = some i → 1 ≤ i.amount) : Positive w' := by
  refine ⟨hstore ▸ hw.config, fun other i hi => ?_, fun other p hp => ?_⟩
  · rw [hstake] at hi
    rcases update_cases hi with ⟨_, hnew⟩ | ⟨_, hold⟩
    · exact hinfo i hnew
    · exact hw.stakes other i hold
  · rw [getPendingWithdrawals, hpending] at hp
    exact hw.pending other p hp

theorem Effect.positive (h : Effect w call w') (hw : Positive w)
    (hmin : ∀ admin config, call = .setStakingConfig admin config → 1 ≤ config.minStakeAmount) :
    Positive w' := by
  cases h with
  | configures admin config =>
    refine ⟨fun c hc => ?_, hw.stakes, hw.pending⟩
    obtain rfl := Option.some.inj hc
    exact hmin admin config rfl
  | addsTier => exact ⟨hw.config, hw.stakes, hw.pending⟩
  | setsCooldown => exact ⟨hw.config, hw.stakes, hw.pending⟩
  | stakes staker amount tierId config tier token t _ hconfig hle _ _ _ _ =>
    refine hw.setStake rfl rfl (setStake_stake ..) fun i hi => ?_
    obtain rfl := Option.some.inj hi
    exact (hw.config config hconfig).trans hle
  | unstakes staker info tier reward _ hinfo _ _ hreward =>
    have hamount := hw.stakes staker info hinfo
    -- no reward is negative, so what is queued is at least the principal
    have hnonneg := (calcRewards_bounds hreward (by omega)).1
    exact hw.push (by dsimp only; omega) fun _ h => nomatch h
  | unstakesPart staker amount info tier total _ hinfo hpos hle _ htotal =>
    have hamount := hw.stakes staker info hinfo
    have htotal₀ := (calculateRewards_bounds htotal (by omega)).1
    have hremoved := (removedRewards_bounds htotal₀ hpos.le (by omega : 0 < info.amount)).1
    refine hw.push (by dsimp only; omega) fun i hi => ?_
    split_ifs at hi with hzero
    obtain rfl := Option.some.inj hi
    dsimp only
    omega
  | withdraws staker pending token t _ hpending _ _ _ =>
    refine ⟨hw.config, hw.stakes, fun other p hp => ?_⟩
    rw [getPending_setPending] at hp
    split_ifs at hp with ho
    · have hold := hw.pending staker p
      rw [getPendingWithdrawals, hpending] at hold
      exact hold (List.mem_of_mem_filter hp)
    · exact hw.pending other p hp
  | leaves staker info config payout token t _ _ _ _ _ _ =>
    exact hw.setStake rfl rfl (setStake_stake ..) fun _ h => nomatch h
  | claimsStaking staker info tier reward token t _ hinfo _ _ _ _ _ =>
    refine hw.setStake rfl rfl (setStake_stake ..) fun i hi => ?_
    obtain rfl := Option.some.inj hi
    exact hw.stakes staker info hinfo
  | claimsRewards staker info tier reward token t paid _ hinfo _ _ _ _ _ =>
    refine hw.setStake rfl rfl rfl fun i hi => ?_
    obtain rfl := Option.some.inj hi
    exact hw.stakes staker info hinfo
  | nothingDue => exact hw

theorem Positive.step (hw : Positive w) {a : Action C (Call Address)} (hmin : MinimumPositive a) :
    Positive (step exec w a) := by
  refine step_keeps Positive hw ?_ (fun _ _ => ⟨hw.config, hw.stakes, hw.pending⟩)
    fun _ _ _ _ => ⟨hw.config, hw.stakes, hw.pending⟩
  rintro env call w' rfl hcall
  refine (exec_effect hcall).positive hw ?_
  rintro admin config rfl
  simp only [exec, setStakingConfig, bind_eq_ok, requireAuth_eq_ok, exists_const] at hcall
  exact hmin hcall.1

theorem positive_run (d : Deployment C) {as : List (Action C (Call Address))}
    (hmin : ∀ a ∈ as, MinimumPositive a) : Positive (run exec d.start as) := by
  have hguard : Guarded (step exec) (fun _ a => MinimumPositive a) d.start as :=
    guarded_of_forall_mem (SorobanHost.step exec) hmin
  have hstart : Positive d.start := by
    refine ⟨fun _ h => (nomatch h), fun _ _ h => (nomatch h), fun _ p hp => ?_⟩
    exact absurd hp List.not_mem_nil
  exact run_invariant (SorobanHost.step exec) (fun _ _ hv ha => hv.step ha) hstart hguard

/-- What a withdrawal does: it pays the matured total and keeps the rest of the queue in its
order, and nothing else of the storage changes. -/
structure Withdrawn (token staker : Address) (w w' : StakingWorld C) : Prop where
  transfers : w'.transfers = w.transfers ++ [⟨token, C.self, staker,
    totalAmount (matured w.now (getPendingWithdrawals w staker))⟩]
  balance : ∀ holder, w'.balance token holder = w.balance token holder-
    (if holder = C.self then totalAmount (matured w.now (getPendingWithdrawals w staker)) else 0)+
    (if holder = staker then totalAmount (matured w.now (getPendingWithdrawals w staker)) else 0)
  kept : getPendingWithdrawals w' staker = immature w.now (getPendingWithdrawals w staker)
  others : ∀ other, other ≠ staker →
    w'.store.pendingWithdrawals other = w.store.pendingWithdrawals other
  storage : ∃ queues, w'.store = { w.store with pendingWithdrawals := queues }

theorem claimUnstaked_withdrawn (htoken : w.store.stakingToken = some token)
    (h : claimUnstaked env staker w = .ok w') : Withdrawn token staker w w' := by
  obtain ⟨_, pending, hpending, _, _, token', htoken', t, ht, rfl⟩ := claimUnstaked_eq_ok.mp h
  obtain rfl := Option.some.inj (htoken'.symm.trans htoken)
  have hqueue : getPendingWithdrawals w staker = pending := by
    rw [getPendingWithdrawals, hpending, Option.getD_some]
  rw [← hqueue] at ht ⊢
  refine ⟨rfl, fun holder => ?_, ?_, fun other ho => ?_, ⟨_, rfl⟩⟩
  · rw [setPending_balance]
    exact (World.paid_balance_self w ⟨token', C.self, staker, _⟩ t holder).trans
      (C.token.transfer_balance ht holder)
  · rw [getPending_setPending, if_pos rfl]
  · rw [setPending_pendingWithdrawals, Function.update_of_ne ho]
    rfl

omit [DecidableEq Address] in
theorem totalAmount_pos {pending : List (PendingWithdrawal Address)}
    (h : ∀ withdrawal ∈ pending, 1 ≤ withdrawal.amount) (hne : pending ≠ []) :
    0 < totalAmount pending := by
  obtain ⟨withdrawal, rest, rfl⟩ := List.exists_cons_of_ne_nil hne
  obtain ⟨hhead, htail⟩ := List.forall_mem_cons.mp h
  have hrest : 0 ≤ totalAmount rest := List.sum_nonneg fun x hx => by
    obtain ⟨v, hv, rfl⟩ := List.mem_map.mp hx
    exact zero_le_one.trans (htail v hv)
  rw [totalAmount, List.map_cons, List.sum_cons, ← totalAmount]
  omega

/-- A withdrawal is accepted exactly when something is due and the balance covers it. -/
theorem Positive.claimUnstaked_iff (hw : Positive w) (hlive : C.token.Live)
    (htoken : w.store.stakingToken = some token) (hsigned : staker ∈ env.signers)
    (hfits : totalAmount (matured w.now (getPendingWithdrawals w staker)) < i128Bound) :
    (∃ w', claimUnstaked env staker w = .ok w') ↔
      matured w.now (getPendingWithdrawals w staker) ≠ [] ∧
        totalAmount (matured w.now (getPendingWithdrawals w staker)) ≤ w.balance token C.self := by
  constructor
  · rintro ⟨w', h⟩
    obtain ⟨_, pending, hpending, _, hpos, token', htoken', t, ht, _⟩ := claimUnstaked_eq_ok.mp h
    obtain rfl := Option.some.inj (htoken'.symm.trans htoken)
    rw [getPendingWithdrawals, hpending, Option.getD_some]
    refine ⟨fun hnil => ?_, Token.transfer_covered ht (Env.ne_self hsigned).symm⟩
    rw [hnil] at hpos
    exact lt_irrefl 0 hpos
  · rintro ⟨hne, hcovered⟩
    -- something is due, so the queue is stored
    have hpending : w.store.pendingWithdrawals staker = some (getPendingWithdrawals w staker) := by
      rw [getPendingWithdrawals] at hne ⊢
      cases h : w.store.pendingWithdrawals staker with
      | none => simp [h, matured] at hne
      | some pending => rfl
    have hnonneg : ∀ withdrawal ∈ getPendingWithdrawals w staker, 0 ≤ withdrawal.amount :=
      fun withdrawal h => zero_le_one.trans (hw.pending staker withdrawal h)
    have hsplit : splitMatured w.now (getPendingWithdrawals w staker) 0 [] = some _ :=
      splitMatured_isSome hnonneg le_rfl (by rwa [zero_add])
    rw [zero_add, List.nil_append] at hsplit
    have hpos := totalAmount_pos
      (fun withdrawal h => hw.pending staker withdrawal (List.mem_of_mem_filter h)) hne
    obtain ⟨t, ht⟩ := Option.isSome_iff_exists.mp
      (hlive (w.tokens token) C.self staker _ hpos.le hcovered)
    exact ⟨_, claimUnstaked_eq_ok.mpr ⟨hsigned, _, hpending, hsplit, hpos, token, htoken, t, ht, rfl⟩⟩

/-- Serial numbers tell all withdrawals apart, queued or paid, and what is paid was due. -/
structure Serials (b : Books Address) : Prop where
  queued_lt : ∀ staker, ∀ e ∈ b.entries staker, e.serial < b.issued
  queue_nodup : ∀ staker, ((b.entries staker).map (·.serial)).Nodup
  queues_apart : ∀ staker other, staker ≠ other → ∀ e ∈ b.entries staker,
    ∀ e' ∈ b.entries other, e.serial ≠ e'.serial
  queued_unpaid : ∀ staker, ∀ e ∈ b.entries staker, ∀ p ∈ b.paid, p.entry.serial ≠ e.serial
  paid_lt : ∀ p ∈ b.paid, p.entry.serial < b.issued
  paid_nodup : (b.paid.map (·.entry.serial)).Nodup
  paid_due : ∀ p ∈ b.paid, p.entry.claimableAt ≤ p.time

theorem entries_enqueue (b : Books Address) (staker : Address) (principal : ℤ)
    (withdrawal : PendingWithdrawal Address) (other : Address) :
    (b.enqueue staker principal withdrawal).entries other =
      if other = staker then b.entries other ++
        [⟨b.issued, principal, withdrawal.amount-principal, withdrawal.claimableAt⟩]
      else b.entries other := by
  by_cases h : other = staker
  · subst h
    simp [Books.entries, Books.enqueue]
  · simp [Books.entries, Books.enqueue, h]

theorem entries_settle (b : Books Address) (staker : Address) (now : ℕ) (other : Address) :
    (b.settle staker now).entries other =
      if other = staker then b.kept staker now else b.entries other := by
  by_cases h : other = staker
  · subst h
    by_cases hk : b.kept other now = [] <;> simp [Books.entries, Books.settle, hk]
  · simp [Books.entries, Books.settle, h]

theorem mem_entries_enqueue {b : Books Address} {principal : ℤ}
    {withdrawal : PendingWithdrawal Address} {other : Address} {e : Entry}
    (h : e ∈ (b.enqueue staker principal withdrawal).entries other) :
    e ∈ b.entries other ∨ other = staker ∧ e.serial = b.issued := by
  rw [entries_enqueue] at h
  split_ifs at h with ho
  · rcases List.mem_append.mp h with h | h
    · exact Or.inl h
    · exact Or.inr ⟨ho, by rw [List.mem_singleton.mp h]⟩
  · exact Or.inl h

theorem mem_entries_settle {b : Books Address} {now : ℕ} {other : Address} {e : Entry}
    (h : e ∈ (b.settle staker now).entries other) : e ∈ b.entries other := by
  rw [entries_settle] at h
  split_ifs at h with ho
  · exact ho ▸ List.mem_of_mem_filter h
  · exact h

theorem Serials.enqueue {b : Books Address} (h : Serials b) (staker : Address) (principal : ℤ)
    (withdrawal : PendingWithdrawal Address) : Serials (b.enqueue staker principal withdrawal) where
  queued_lt other e he := by
    rcases mem_entries_enqueue he with he | ⟨_, hserial⟩
    · exact (h.queued_lt other e he).trans (Nat.lt_succ_self _)
    · rw [hserial]
      exact Nat.lt_succ_self _
  queue_nodup other := by
    rw [entries_enqueue]
    split_ifs with ho
    · rw [List.map_append, List.map_singleton, List.nodup_append]
      refine ⟨h.queue_nodup other, List.nodup_singleton _, fun n hn m hm => ?_⟩
      obtain ⟨e, he, rfl⟩ := List.mem_map.mp hn
      rw [List.mem_singleton.mp hm]
      exact (h.queued_lt other e he).ne
    · exact h.queue_nodup other
  queues_apart s s' hs e he e' he' := by
    rcases mem_entries_enqueue he with he | ⟨rfl, hserial⟩
    · rcases mem_entries_enqueue he' with he' | ⟨_, hserial'⟩
      · exact h.queues_apart s s' hs e he e' he'
      · rw [hserial']
        exact (h.queued_lt s e he).ne
    · rcases mem_entries_enqueue he' with he' | ⟨rfl, _⟩
      · rw [hserial]
        exact (h.queued_lt s' e' he').ne'
      · exact absurd rfl hs
  queued_unpaid other e he p hp := by
    rcases mem_entries_enqueue he with he | ⟨_, hserial⟩
    · exact h.queued_unpaid other e he p hp
    · rw [hserial]
      exact (h.paid_lt p hp).ne
  paid_lt p hp := (h.paid_lt p hp).trans (Nat.lt_succ_self _)
  paid_nodup := h.paid_nodup
  paid_due := h.paid_due

theorem Serials.settle {b : Books Address} (h : Serials b) (staker : Address) (now : ℕ) :
    Serials (b.settle staker now) := by
  have hdue (p : Payment Address)
      (hp : p ∈ (b.due staker now).map fun e => (⟨staker, e, now⟩ : Payment Address)) :
      p.entry ∈ b.entries staker ∧ p.entry.claimableAt ≤ now ∧ p.time = now := by
    obtain ⟨e, he, rfl⟩ := List.mem_map.mp hp
    obtain ⟨hmem, hnow⟩ := List.mem_filter.mp he
    exact ⟨hmem, by simpa using hnow, rfl⟩
  refine ⟨fun other e he => h.queued_lt other e (mem_entries_settle he), fun other => ?_, ?_, ?_, ?_,
    ?_, ?_⟩
  · rw [entries_settle]
    split_ifs with ho
    · exact (h.queue_nodup staker).sublist (List.filter_sublist.map _)
    · exact h.queue_nodup other
  · intro s s' hs e he e' he'
    exact h.queues_apart s s' hs e (mem_entries_settle he) e' (mem_entries_settle he')
  · intro other e he p hp
    rcases List.mem_append.mp hp with hp | hp
    · exact h.queued_unpaid other e (mem_entries_settle he) p hp
    · obtain ⟨hmem, hnow, _⟩ := hdue p hp
      by_cases ho : other = staker
      · -- what stays in the queue is not due, so it is another entry of the same queue
        rw [entries_settle, if_pos ho] at he
        obtain ⟨hkept, hlater⟩ := List.mem_filter.mp he
        intro hserial
        have heq := List.inj_on_of_nodup_map (h.queue_nodup staker) hmem hkept hserial
        rw [heq] at hnow
        exact absurd hnow (not_le.mpr (by simpa using hlater))
      · exact h.queues_apart staker other (Ne.symm ho) p.entry hmem e (mem_entries_settle he)
  · intro p hp
    rcases List.mem_append.mp hp with hp | hp
    · exact h.paid_lt p hp
    · exact h.queued_lt staker p.entry (hdue p hp).1
  · change ((b.paid ++ (b.due staker now).map _).map _).Nodup
    rw [List.map_append, List.map_map, List.nodup_append]
    refine ⟨h.paid_nodup, (h.queue_nodup staker).sublist (List.filter_sublist.map _), ?_⟩
    intro n hn m hm
    obtain ⟨p, hp, rfl⟩ := List.mem_map.mp hn
    obtain ⟨e, he, rfl⟩ := List.mem_map.mp hm
    exact h.queued_unpaid staker e (List.mem_of_mem_filter he) p hp
  · intro p hp
    rcases List.mem_append.mp hp with hp | hp
    · exact h.paid_due p hp
    · obtain ⟨_, hnow, htime⟩ := hdue p hp
      rwa [htime]

omit [DecidableEq Address] in
theorem Serials.of_queue {b b' : Books Address} (h : Serials b) (hqueue : b'.queue = b.queue)
    (hissued : b'.issued = b.issued) (hpaid : b'.paid = b.paid) : Serials b' := by
  have hentries (staker : Address) : b'.entries staker = b.entries staker := by
    rw [Books.entries, hqueue, Books.entries]
  obtain ⟨h₁, h₂, h₃, h₄, h₅, h₆, h₇⟩ := h
  constructor <;> simp only [hentries, hissued, hpaid] <;> assumption

theorem Effect.serials (h : Effect w call w') {b : Books Address} (hb : Serials b) :
    Serials (b.after w w' call) := by
  cases h with
  | unstakes staker info tier reward _ hinfo _ _ _ =>
    rw [after_unstakes b hinfo]
    exact hb.enqueue staker _ _
  | unstakesPart staker amount info tier total _ hinfo _ _ _ _ =>
    rw [after_unstakesPart b hinfo]
    exact hb.enqueue staker _ _
  | withdraws staker => exact hb.settle staker w.now
  | nothingDue staker _ hcall =>
    rw [after_nothingDue b hcall]
    exact hb
  | _ => exact hb.of_queue rfl rfl rfl

theorem serials_run (d : Deployment C) (as : List (Action C (Call Address))) :
    Serials (d.booksAfter as) := by
  have hstep (s : StakingWorld C × Books Address) (a : Action C (Call Address))
      (hs : Serials s.2) : Serials (booked s a).2 :=
    booked_keeps (fun _ b => Serials b) hs (fun _ _ _ _ heff => heff.serials hs) (fun _ _ => hs)
      fun _ _ _ _ => hs
  have hstart : Serials d.opened.2 := by
    constructor <;> simp [Deployment.opened, Books.empty, Books.entries]
  exact run_invariant_all booked hstep hstart as

/-- What holds of withdrawals in the state `w` that a run has reached with the books `b`. -/
structure WithdrawalsExact (d : Deployment C) (w : StakingWorld C) (b : Books Address) : Prop where
  accepted : ∀ env staker, staker ∈ env.signers →
    totalAmount (matured w.now (getPendingWithdrawals w staker)) < i128Bound →
      ((∃ w', exec env (.claimUnstaked staker) w = .ok w') ↔
        matured w.now (getPendingWithdrawals w staker) ≠ [] ∧
          totalAmount (matured w.now (getPendingWithdrawals w staker)) ≤
            w.balance d.stakingToken C.self)
  withdrawn : ∀ env staker w', exec env (.claimUnstaked staker) w = .ok w' →
    Withdrawn d.stakingToken staker w w'
  mirrors : Mirrors w b
  paid_once : (b.paid.map (·.entry.serial)).Nodup
  paid_due : ∀ p ∈ b.paid, p.entry.claimableAt ≤ p.time
  queued_unpaid : ∀ staker, ∀ e ∈ b.entries staker, ∀ p ∈ b.paid, p.entry.serial ≠ e.serial

/-- Withdrawals pay exactly what has matured, each queued one at most once. -/
theorem withdrawals_exact_run (hlive : C.token.Live) (d : Deployment C)
    (as : List (Action C (Call Address))) (hmin : ∀ a ∈ as, MinimumPositive a) :
    WithdrawalsExact d (run exec d.start as) (d.booksAfter as) := by
  have hsound := (sound_run d as).1
  have hpositive := positive_run d hmin
  have hserials := serials_run d as
  exact
    { accepted := fun env staker hs hfits =>
        hpositive.claimUnstaked_iff hlive hsound.stakingToken hs hfits
      withdrawn := fun env staker w' h => claimUnstaked_withdrawn hsound.stakingToken h
      mirrors := hsound.mirrors
      paid_once := hserials.paid_nodup
      paid_due := hserials.paid_due
      queued_unpaid := hserials.queued_unpaid }

/-- Forty of a hundred units are unstaked, and a week passes. -/
def unstakeAndWait : List (Action numberedChain (Call ℕ)) :=
  [.invoke (signedBy 0) (.setStakingConfig 1 ⟨1, 1000, 0⟩),
   .invoke (signedBy 0) (.addStakingTier 1 yearlyTier),
   .invoke (signedBy 1) (.stake 2 100 7),
   .invoke (signedBy 1) (.partialUnstake 2 40),
   .tick 604800]

theorem withdrawals_exact_unstakeAndWait :
    ∃ w', exec (signedBy 1) (.claimUnstaked 2) (run exec smallDeployment.start unstakeAndWait) =
        .ok w' ∧
      Withdrawn 9 2 (run exec smallDeployment.start unstakeAndWait) w' := by
  have hmin : ∀ a ∈ unstakeAndWait, MinimumPositive a := by
    simp only [unstakeAndWait, List.forall_mem_cons, MinimumPositive]
    exact ⟨fun _ => le_rfl, trivial, trivial, trivial, trivial, fun _ h => absurd h List.not_mem_nil⟩
  have hexact := withdrawals_exact_run mapToken_live smallDeployment unstakeAndWait hmin
  obtain ⟨w', hw'⟩ := (hexact.accepted (signedBy 1) 2 (by decide) (by decide)).mpr
    ⟨by decide, by decide⟩
  exact ⟨w', hw', hexact.withdrawn (signedBy 1) 2 w' hw'⟩

end HubAssist.Staking
