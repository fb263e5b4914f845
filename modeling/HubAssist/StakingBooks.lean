import HubAssist.StakingSteps
import HubAssist.StorageMap

/-! The books of the staking contract: a history kept beside its state that splits every
queued withdrawal into the principal taken out of a stake and the reward added to it, and
counts the rewards and penalties. The queues of the contract are the image of the books. -/
namespace HubAssist.Staking
open SorobanHost CheckedArith RunSystem StorageMap TokenLedger

variable {Address : Type} [DecidableEq Address] {C : Chain Address}
variable {env : Env C} {w w' : StakingWorld C} {call : Call Address} {staker : Address}

/-- One queued withdrawal; no two ever queued have the same serial number. -/
structure Entry where
  serial : ℕ
  principal : ℤ
  reward : ℤ
  claimableAt : ℕ
  deriving DecidableEq

/-- An entry that has been paid to `staker` at `time`. -/
structure Payment (Address : Type) where
  staker : Address
  entry : Entry
  time : ℕ
  deriving DecidableEq

structure Books (Address : Type) where
  queue : Address → Option (List Entry)
  issued : ℕ
  paid : List (Payment Address)
  rewardsPaid : ℤ
  penalties : ℤ

def Books.empty {Address : Type} : Books Address := ⟨fun _ => none, 0, [], 0, 0⟩

def Entry.withdrawal {Address : Type} (staker : Address) (e : Entry) : PendingWithdrawal Address :=
  ⟨e.principal+e.reward, e.claimableAt, staker⟩

namespace Books

def entries {Address : Type} (b : Books Address) (staker : Address) : List Entry :=
  (b.queue staker).getD []

def due {Address : Type} (b : Books Address) (staker : Address) (now : ℕ) : List Entry :=
  (b.entries staker).filter fun e => e.claimableAt ≤ now

def kept {Address : Type} (b : Books Address) (staker : Address) (now : ℕ) : List Entry :=
  (b.entries staker).filter fun e => now < e.claimableAt

/-- A withdrawal joins the queue, `principal` of it out of the stake. -/
def enqueue (b : Books Address) (staker : Address) (principal : ℤ)
    (withdrawal : PendingWithdrawal Address) : Books Address :=
  { b with
    queue := Function.update b.queue staker (some (b.entries staker ++
      [⟨b.issued, principal, withdrawal.amount-principal, withdrawal.claimableAt⟩]))
    issued := b.issued+1 }

/-- What is due is paid. -/
def settle (b : Books Address) (staker : Address) (now : ℕ) : Books Address :=
  { b with
    queue := Function.update b.queue staker
      (if b.kept staker now = [] then none else some (b.kept staker now))
    paid := b.paid ++ (b.due staker now).map fun e => ⟨staker, e, now⟩
    rewardsPaid := b.rewardsPaid+((b.due staker now).map (·.reward)).sum }

@[simp] theorem enqueue_rewardsPaid (b : Books Address) (staker : Address) (principal : ℤ)
    (withdrawal : PendingWithdrawal Address) :
    (b.enqueue staker principal withdrawal).rewardsPaid = b.rewardsPaid := rfl

@[simp] theorem enqueue_penalties (b : Books Address) (staker : Address) (principal : ℤ)
    (withdrawal : PendingWithdrawal Address) :
    (b.enqueue staker principal withdrawal).penalties = b.penalties := rfl

@[simp] theorem settle_rewardsPaid (b : Books Address) (staker : Address) (now : ℕ) :
    (b.settle staker now).rewardsPaid =
      b.rewardsPaid+((b.due staker now).map (·.reward)).sum := rfl

@[simp] theorem settle_penalties (b : Books Address) (staker : Address) (now : ℕ) :
    (b.settle staker now).penalties = b.penalties := rfl

end Books

/-- The principal in an address's active stake. -/
def held (w : StakingWorld C) (staker : Address) : ℤ := (w.store.stake staker).elim 0 (·.amount)

/-- What the contract has transferred out between two worlds. -/
def sent (w w' : StakingWorld C) : ℤ :=
  (((w'.transfers.drop w.transfers.length).filter fun event => event.sender = C.self).map
    (·.amount)).sum

/-- The books after an accepted call, which has led from `w` to `w'`. -/
def Books.after (b : Books Address) (w w' : StakingWorld C) : Call Address → Books Address
  | .unstake staker | .partialUnstake staker _ =>
    match (getPendingWithdrawals w' staker).getLast? with
    | some withdrawal => b.enqueue staker (held w staker-held w' staker) withdrawal
    | none => b
  | .claimUnstaked staker => b.settle staker w.now
  | .emergencyUnstake staker =>
    { b with penalties := b.penalties+(held w staker-sent w w') }
  | .claimStakingRewards _ | .claimRewards _ =>
    { b with rewardsPaid := b.rewardsPaid+sent w w' }
  | _ => b

def Books.record : StakingWorld C → Action C (Call Address) → Books Address → Books Address :=
  recordCalls exec fun call w w' b => b.after w w' call

/-- The contract together with its books. -/
abbrev booked (s : StakingWorld C × Books Address) (a : Action C (Call Address)) :
    StakingWorld C × Books Address :=
  withHistory (step exec) Books.record s a

/-- The queues that the contract stores are those of the books. -/
def Mirrors (w : StakingWorld C) (b : Books Address) : Prop :=
  ∀ staker, w.store.pendingWithdrawals staker =
    (b.queue staker).map fun entries => entries.map (Entry.withdrawal staker)

theorem Mirrors.pending {b : Books Address} (h : Mirrors w b) (staker : Address) :
    getPendingWithdrawals w staker = (b.entries staker).map (Entry.withdrawal staker) := by
  rw [getPendingWithdrawals, h staker, Books.entries]
  cases b.queue staker <;> rfl

theorem Mirrors.of_queue {b b' : Books Address} (h : Mirrors w b)
    (hw : w'.store.pendingWithdrawals = w.store.pendingWithdrawals) (hb : b'.queue = b.queue) :
    Mirrors w' b' := by
  intro staker
  rw [hw, hb]
  exact h staker

omit [DecidableEq Address] in
theorem matured_map (staker : Address) (entries : List Entry) (now : ℕ) :
    matured now (entries.map (Entry.withdrawal staker)) =
      (entries.filter fun e => e.claimableAt ≤ now).map (Entry.withdrawal staker) := by
  rw [matured, List.filter_map]
  rfl

omit [DecidableEq Address] in
theorem immature_map (staker : Address) (entries : List Entry) (now : ℕ) :
    immature now (entries.map (Entry.withdrawal staker)) =
      (entries.filter fun e => now < e.claimableAt).map (Entry.withdrawal staker) := by
  rw [immature, List.filter_map]
  rfl

omit [DecidableEq Address] in
theorem totalAmount_map (staker : Address) (entries : List Entry) :
    totalAmount (entries.map (Entry.withdrawal staker)) =
      (entries.map (·.principal)).sum+(entries.map (·.reward)).sum := by
  rw [totalAmount, List.map_map, ← List.sum_map_add]
  rfl

theorem Mirrors.enqueue {b : Books Address} (h : Mirrors w b) (staker : Address) (principal : ℤ)
    (withdrawal : PendingWithdrawal Address) (hstaker : withdrawal.staker = staker)
    (info : Option (StakeInfo Address)) :
    Mirrors (setStake (pushPending w staker withdrawal) staker info)
      (b.enqueue staker principal withdrawal) := by
  intro other
  by_cases ho : other = staker
  · subst ho
    -- the split into principal and reward adds up to the queued amount
    have hentry : Entry.withdrawal other
        ⟨b.issued, principal, withdrawal.amount-principal, withdrawal.claimableAt⟩ = withdrawal := by
      rw [Entry.withdrawal, add_sub_cancel, ← hstaker]
    simp only [pushPending, setStake_pendingWithdrawals, setPending_pendingWithdrawals, Books.enqueue,
      Function.update_self, h.pending, Option.map_some, List.map_append, List.map_singleton, hentry]
  · simpa [pushPending, Books.enqueue, ho] using h other

theorem Mirrors.settle {b : Books Address} (h : Mirrors w b)
    {pending : List (PendingWithdrawal Address)}
    (hpending : w.store.pendingWithdrawals staker = some pending)
    (hw : w'.store.pendingWithdrawals = w.store.pendingWithdrawals) (now : ℕ) :
    Mirrors (setPending w' staker
      (if immature now pending = [] then none else some (immature now pending)))
        (b.settle staker now) := by
  intro other
  by_cases ho : other = staker
  · subst ho
    have hentries : pending = (b.entries other).map (Entry.withdrawal other) := by
      rw [← h.pending, getPendingWithdrawals, hpending, Option.getD_some]
    have hkept : immature now pending = (b.kept other now).map (Entry.withdrawal other) := by
      rw [hentries, immature_map, Books.kept]
    simp only [setPending_pendingWithdrawals, Books.settle, Function.update_self, hkept,
      List.map_eq_nil_iff]
    split_ifs <;> rfl
  · simpa [Books.settle, ho, hw] using h other

theorem newest_pushPending (w : StakingWorld C) (staker : Address)
    (withdrawal : PendingWithdrawal Address) (info : Option (StakeInfo Address)) :
    (getPendingWithdrawals (setStake (pushPending w staker withdrawal) staker info)
      staker).getLast? = some withdrawal := by
  simp [getPendingWithdrawals, pushPending]

theorem sent_of_transfers {token : Address} {amount : ℤ}
    (h : w'.transfers = w.transfers ++ [⟨token, C.self, staker, amount⟩]) : sent w w' = amount := by
  simp [sent, h]

theorem sent_self (w : StakingWorld C) : sent w w = 0 := by simp [sent]

theorem held_of_some {info : StakeInfo Address} (h : w.store.stake staker = some info) :
    held w staker = info.amount := by simp [held, h]

/-- What the books record of each effect. -/
theorem after_unstakes (b : Books Address) {info : StakeInfo Address} {reward : ℤ} {claimableAt : ℕ}
    (hinfo : w.store.stake staker = some info) :
    b.after w (setStake (pushPending w staker ⟨info.amount+reward, claimableAt, staker⟩) staker none)
        (.unstake staker) =
      b.enqueue staker info.amount ⟨info.amount+reward, claimableAt, staker⟩ := by
  simp [Books.after, newest_pushPending, held, hinfo]

theorem after_unstakesPart (b : Books Address) {info : StakeInfo Address} {amount removed rest : ℤ}
    {claimableAt : ℕ} (hinfo : w.store.stake staker = some info) :
    b.after w (setStake (pushPending w staker ⟨amount+removed, claimableAt, staker⟩) staker
        (if info.amount-amount = 0 then none else some { info with
          amount := info.amount-amount
          accumulatedRewards := rest
          stakeTimestamp := w.now })) (.partialUnstake staker amount) =
      b.enqueue staker amount ⟨amount+removed, claimableAt, staker⟩ := by
  -- a stake of which nothing is left is removed, and holds nothing either way
  have hheld : (if info.amount-amount = 0 then none else some { info with
      amount := info.amount-amount
      accumulatedRewards := rest
      stakeTimestamp := w.now }).elim 0 (·.amount) = info.amount-amount := by
    split_ifs with h
    · exact h.symm
    · rfl
  have htaken : info.amount-(info.amount-amount) = amount := by omega
  simp only [Books.after, newest_pushPending, held_of_some hinfo]
  rw [held, setStake_stake, Function.update_self, hheld, htaken]

theorem after_leaves (b : Books Address) {info : StakeInfo Address} {token : Address} {payout : ℤ}
    {t : C.token.State} (hinfo : w.store.stake staker = some info) :
    b.after w (setStake (w.paid ⟨token, C.self, staker, payout⟩ t) staker none)
        (.emergencyUnstake staker) = { b with penalties := b.penalties+(info.amount-payout) } := by
  have hsent : sent w (setStake (w.paid ⟨token, C.self, staker, payout⟩ t) staker none) = payout :=
    sent_of_transfers rfl
  rw [Books.after, held_of_some hinfo, hsent]

theorem after_reward (b : Books Address) {token : Address} {reward : ℤ}
    (hw : w'.transfers = w.transfers ++ [⟨token, C.self, staker, reward⟩])
    (hcall : call = .claimStakingRewards staker ∨ call = .claimRewards staker) :
    b.after w w' call = { b with rewardsPaid := b.rewardsPaid+reward } := by
  rcases hcall with rfl | rfl <;> rw [Books.after, sent_of_transfers hw]

theorem after_nothingDue (b : Books Address)
    (hcall : call = .claimStakingRewards staker ∨ call = .claimRewards staker) :
    b.after w w call = b := by
  rcases hcall with rfl | rfl <;> rw [Books.after, sent_self, add_zero]

/-- The books go on mirroring the queues. -/
theorem Effect.mirrors (h : Effect w call w') {b : Books Address} (hb : Mirrors w b) :
    Mirrors w' (b.after w w' call) := by
  cases h with
  | configures => exact hb.of_queue rfl rfl
  | addsTier => exact hb.of_queue rfl rfl
  | setsCooldown => exact hb.of_queue rfl rfl
  | stakes => exact hb.of_queue rfl rfl
  | unstakes staker info tier reward _ hinfo _ _ _ =>
    rw [after_unstakes b hinfo]
    exact hb.enqueue staker _ _ rfl _
  | unstakesPart staker amount info tier total _ hinfo _ _ _ _ =>
    rw [after_unstakesPart b hinfo]
    exact hb.enqueue staker _ _ rfl _
  | withdraws staker pending token t _ hpending _ _ _ => exact hb.settle hpending rfl w.now
  | leaves => exact hb.of_queue rfl rfl
  | claimsStaking => exact hb.of_queue rfl rfl
  | claimsRewards => exact hb.of_queue rfl rfl
  | nothingDue staker _ hcall =>
    rw [after_nothingDue b hcall]
    exact hb

/-- A property of the contract and its books is kept by a step if the accepted call, the
passing of time or the outside change of a ledger keeps it. -/
theorem booked_keeps (I : StakingWorld C → Books Address → Prop) {b : Books Address}
    {a : Action C (Call Address)} (hI : I w b)
    (hcall : ∀ env call w', a = .invoke env call → Effect w call w' → I w' (b.after w w' call))
    (htick : ∀ d, a = .tick d → I (w.elapse d) b)
    (hext : ∀ token next, a = .external token next →
      w.balance token C.self ≤ C.token.balance next C.self → I (w.reledger token next) b) :
    I (booked (w, b) a).1 (booked (w, b) a).2 := by
  change I (step exec w a) (Books.record w a b)
  exact recordCalls_keeps (fun call w w' b => b.after w w' call) I hI
    (fun env call w' ha h => hcall env call w' ha (exec_effect h)) htick hext

end HubAssist.Staking
