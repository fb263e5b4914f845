import HubAssist.EscrowSteps
import Mathlib.Order.Interval.Finset.Nat
import Mathlib.Algebra.Order.Ring.Int

/-! Solvency of the escrow contract and exactly-once payout, over runs of any length. The
surplus of the contract's balance over what its live escrows hold never falls, and the
transfers out of the contract are those that the records owe, one for each settled escrow. -/
namespace HubAssist.Escrow
open SorobanHost RunSystem StorageMap TokenLedger

variable {Address : Type} [DecidableEq Address] {C : Chain Address}
variable {w w' : EscrowWorld C} {call : Call Address}

/-- What a record still holds of a token. -/
def heldAmount (token : Address) (e : EscrowRecord Address) : ℤ :=
  if e.Live ∧ e.paymentToken = token then e.amount else 0

/-- What the live escrows hold of a token together. -/
noncomputable def locked (w : EscrowWorld C) (token : Address) : ℤ :=
  tally (heldAmount token) w.store.escrow

noncomputable def surplus (w : EscrowWorld C) (token : Address) : ℤ :=
  w.balance token C.self-locked w token

/-- Escrow ids do not exceed the counter. -/
def Numbered (w : EscrowWorld C) : Prop :=
  ∀ id, w.store.escrow id ≠ none → id ≤ w.store.escrowCount.getD 0

theorem Numbered.finiteKeys (h : Numbered w) : FiniteKeys w.store.escrow :=
  (Set.finite_Iic (w.store.escrowCount.getD 0)).subset h

theorem Numbered.fresh (h : Numbered w) : w.store.escrow (w.store.escrowCount.getD 0+1) = none := by
  by_contra hne
  have := h _ hne
  omega

theorem Effect.numbered (h : Effect w call w') (hn : Numbered w) : Numbered w' := by
  intro id hid
  cases h with
  | configure s _ hescrow hcount _ =>
    rw [World.setStore_store, hcount]
    exact hn id (by simpa [hescrow] using hid)
  | deposit e type s t _ heid _ _ _ _ hescrow hcount _ =>
    rw [World.setStore_store, hcount]
    by_cases h : id = e.id
    · exact h.le
    · have := hn id (by simpa [hescrow, h] using hid)
      omega
  | amend k e since votes h₁ h₂ _ he hlive =>
    rw [setEscrow_escrowCount]
    by_cases h : id = k
    · exact hn id (by simp [h, he])
    · exact hn id (by simpa [h] using hid)
  | settle k e r votes _ _ he hlive hpay =>
    obtain ⟨t, _, rfl⟩ := hpay
    rw [setEscrow_escrowCount]
    by_cases h : id = k
    · exact hn id (by simp [h, he])
    · exact hn id (by simpa [h] using hid)

/-- What an escrow is given when it is opened and keeps from then on. -/
structure Terms (Address : Type) where
  id : ℕ
  depositor : Address
  beneficiary : Address
  paymentToken : Address
  amount : ℤ
  createdAt : ℕ
  releaseTime : ℕ
  disputeWindow : ℕ

def EscrowRecord.terms (e : EscrowRecord Address) : Terms Address where
  id := e.id
  depositor := e.depositor
  beneficiary := e.beneficiary
  paymentToken := e.paymentToken
  amount := e.amount
  createdAt := e.createdAt
  releaseTime := e.releaseTime
  disputeWindow := e.disputeWindow

/-- A record after a call has the terms it had before, or the call has opened it. -/
theorem Effect.terms (h : Effect w call w') {id : ℕ} {e' : EscrowRecord Address}
    (he' : w'.store.escrow id = some e') :
    (∃ e, w.store.escrow id = some e ∧ e'.terms = e.terms) ∨
      (0 ≤ e'.amount ∧ e'.depositor ≠ C.self ∧ w.store.paymentToken = some e'.paymentToken ∧
        ∃ type, call = .createEscrow e'.depositor e'.beneficiary e'.amount e'.releaseTime type) := by
  cases h with
  | configure s _ hescrow _ _ =>
    rw [World.setStore_store, hescrow] at he'
    exact Or.inl ⟨e', he', rfl⟩
  | deposit e type s t hcall _ _ hself htoken ht hescrow _ _ =>
    rw [World.setStore_store, hescrow] at he'
    rcases update_cases he' with ⟨_, hnew⟩ | ⟨_, hold⟩
    · obtain rfl := Option.some.inj hnew
      exact Or.inr ⟨C.token.transfer_nonneg ht, hself, htoken, type, hcall⟩
    · exact Or.inl ⟨e', hold, rfl⟩
  | amend k e since votes h₁ h₂ _ he _ =>
    rcases setEscrow_cases he' with ⟨rfl, rfl⟩ | hold
    · exact Or.inl ⟨e, he, rfl⟩
    · exact Or.inl ⟨e', hold, rfl⟩
  | settle k e r votes _ _ he _ hpay =>
    obtain ⟨t, _, rfl⟩ := hpay
    rcases setEscrow_cases he' with ⟨rfl, rfl⟩ | hold
    · exact Or.inl ⟨e, he, rfl⟩
    · exact Or.inl ⟨e', hold, rfl⟩

theorem heldAmount_live {e : EscrowRecord Address} (h : e.Live) (token : Address) :
    heldAmount token e = if token = e.paymentToken then e.amount else 0 := by
  simp [heldAmount, h, eq_comm]

omit [DecidableEq Address] in
theorem not_live_settled (e : EscrowRecord Address) (r : Resolution)
    (votes : List (ArbitrationVote Address)) :
    ¬({ e with arbitrationVotes := votes, status := settledStatus r } : EscrowRecord Address).Live := by
  cases r <;> simp [EscrowRecord.Live, settledStatus]

/-- Paying an escrow out takes from the contract what the escrow held, less what comes
straight back when the contract itself is the receiver. -/
theorem settle_balance {e : EscrowRecord Address} {r : Resolution} {t : C.token.State}
    (hlive : e.Live)
    (ht : C.token.transfer (w.tokens e.paymentToken) C.self (e.receiver r) e.amount = some t)
    (token : Address) : (w.paid (payout C e r) t).balance token C.self =
      w.balance token C.self-heldAmount token e+
        (if C.self = e.receiver r then heldAmount token e else 0) := by
  by_cases htok : token = e.paymentToken
  · subst htok
    have hb := C.token.transfer_balance ht C.self
    rw [heldAmount_live hlive, if_pos rfl]
    rw [if_pos rfl] at hb
    exact (World.paid_balance_self w (payout C e r) t C.self).trans hb
  · rw [heldAmount_live hlive, if_neg htok, World.paid_balance_of_ne w (payout C e r) t htok]
    split_ifs <;> omega

theorem deposit_balance {e : EscrowRecord Address} {t : C.token.State} (hlive : e.Live)
    (hself : e.depositor ≠ C.self)
    (ht : C.token.transfer (w.tokens e.paymentToken) e.depositor C.self e.amount = some t)
    (token : Address) :
    (w.paid ⟨e.paymentToken, e.depositor, C.self, e.amount⟩ t).balance token C.self =
      w.balance token C.self+heldAmount token e := by
  by_cases htok : token = e.paymentToken
  · subst htok
    rw [heldAmount_live hlive, if_pos rfl]
    exact World.paid_in_balance ht hself
  · rw [heldAmount_live hlive, if_neg htok, add_zero,
      World.paid_balance_of_ne w ⟨e.paymentToken, e.depositor, C.self, e.amount⟩ t htok]

/-- The surplus stays as it is, unless an escrow is paid out to the contract itself. -/
theorem Effect.surplus_cases (h : Effect w call w') (hn : Numbered w) (token : Address) :
    surplus w' token = surplus w token ∨
      surplus w token ≤ surplus w' token ∧
        ∃ id e r, w.store.escrow id = some e ∧ e.receiver r = C.self := by
  have hfin := hn.finiteKeys
  cases h with
  | configure s _ hescrow _ _ =>
    left
    simp [surplus, locked, hescrow]
  | deposit e type s t _ heid hactive hself _ ht hescrow _ _ =>
    left
    have hlive : e.Live := Or.inl hactive
    -- the new id had no entry, so the sum grows by the whole amount, as the balance does
    have hfresh : weigh (heldAmount token) w.store.escrow e.id = 0 := by
      simp [weigh, heid, hn.fresh]
    have hsum := tally_set hfin (heldAmount token) e.id (some e)
    have hbal := deposit_balance hlive hself ht token
    simp only [surplus, locked, World.setStore_store, World.setStore_balance, hescrow, hsum, hfresh,
      hbal, Option.elim]
    omega
  | amend id e since votes h₁ h₂ _ he hlive =>
    left
    have hsum := tally_set hfin (heldAmount token) id (some { e with
      status := .disputed
      disputeTimestamp := since
      arbitrationVotes := votes
      depositorEvidenceHash := h₁
      beneficiaryEvidenceHash := h₂ })
    -- a live escrow that moves on in its dispute holds what it held
    have hsame : heldAmount token { e with
        status := .disputed
        disputeTimestamp := since
        arbitrationVotes := votes
        depositorEvidenceHash := h₁
        beneficiaryEvidenceHash := h₂ } = heldAmount token e := by
      simp [heldAmount, EscrowRecord.Live] at hlive ⊢
      simp [hlive]
    simp only [surplus, locked, setEscrow_escrow, setEscrow_balance, hsum, weigh, he, Option.elim,
      hsame]
    omega
  | settle id e r votes _ _ he hlive hpay =>
    obtain ⟨t, ht, rfl⟩ := hpay
    have hsum := tally_set hfin (heldAmount token) id
      (some { e with arbitrationVotes := votes, status := settledStatus r })
    -- a settled record holds nothing, and the balance has lost what it held
    have hzero : heldAmount token
        { e with arbitrationVotes := votes, status := settledStatus r } = 0 := by
      rw [heldAmount, if_neg fun h => not_live_settled e r votes h.1]
    have hbal := settle_balance hlive ht token
    have hnonneg : 0 ≤ heldAmount token e := by
      rw [heldAmount]
      split_ifs
      · exact C.token.transfer_nonneg ht
      · exact le_rfl
    simp only [surplus, locked, setEscrow_escrow, setEscrow_balance, World.paid_store, hsum, weigh,
      he, Option.elim, hzero, hbal]
    -- a payout to the contract itself comes straight back: the surplus grows
    by_cases hr : C.self = e.receiver r
    · right
      rw [if_pos hr]
      exact ⟨by omega, id, e, r, he, hr.symm⟩
    · left
      rw [if_neg hr]
      omega

/-- In every run the surplus never falls, whoever calls and whatever the parties are. -/
theorem surplus_run (hn : Numbered w) (as : List (Action C (Call Address))) (token : Address) :
    Numbered (run exec w as) ∧ surplus w token ≤ surplus (run exec w as) token := by
  have hstep (v : EscrowWorld C) (a : Action C (Call Address))
      (hv : Numbered v ∧ surplus w token ≤ surplus v token) :
      Numbered (step exec v a) ∧ surplus w token ≤ surplus (step exec v a) token := by
    obtain ⟨hv, hle⟩ := hv
    refine step_keeps (fun v => Numbered v ∧ surplus w token ≤ surplus v token) ⟨hv, hle⟩ ?_
      (fun d _ => ⟨hv, hle⟩) ?_
    · intro env call v' _ hcall
      have heff := exec_effect hcall
      refine ⟨heff.numbered hv, ?_⟩
      rcases heff.surplus_cases hv token with h | ⟨h, _⟩ <;> omega
    · intro t next _ hext
      have hb := World.balance_le_reledger v hext token
      exact ⟨hv, hle.trans (by simp only [surplus, locked, World.reledger_store]; omega)⟩
  exact run_invariant_all (step exec) hstep ⟨hn, le_rfl⟩ as

/-- The contract can pay every live escrow out. -/
structure Solvent (w : EscrowWorld C) : Prop where
  numbered : Numbered w
  records : ∀ id e, w.store.escrow id = some e → 0 ≤ e.amount ∧ e.depositor ≠ C.self
  covered : ∀ token, 0 ≤ surplus w token

theorem Effect.solvent (h : Effect w call w') (hs : Solvent w) : Solvent w' := by
  refine ⟨h.numbered hs.numbered, fun id e' he' => ?_, fun token => ?_⟩
  · rcases h.terms he' with ⟨e, he, hterms⟩ | ⟨hamount, hself, _⟩
    · have hamount : e'.amount = e.amount := congrArg Terms.amount hterms
      have hdepositor : e'.depositor = e.depositor := congrArg Terms.depositor hterms
      rw [hamount, hdepositor]
      exact hs.records id e he
    · exact ⟨hamount, hself⟩
  · have hcovered := hs.covered token
    rcases h.surplus_cases hs.numbered token with h | ⟨h, _⟩ <;> omega

theorem Solvent.step (hs : Solvent w) (a : Action C (Call Address)) :
    Solvent (step exec w a) := by
  refine step_keeps Solvent hs (fun _ _ _ _ hcall => (exec_effect hcall).solvent hs)
    (fun _ _ => ⟨hs.numbered, hs.records, hs.covered⟩) fun tok next _ hle => ?_
  refine ⟨hs.numbered, hs.records, fun token => ?_⟩
  have hcovered := hs.covered token
  have hb := World.balance_le_reledger w hle token
  simp only [surplus, locked, World.reledger_store] at hcovered ⊢
  omega

theorem solvent_run (hs : Solvent w) (as : List (Action C (Call Address))) :
    Solvent (run exec w as) :=
  run_invariant_all (SorobanHost.step exec) (fun _ a hv => hv.step a) hs as

theorem Solvent.covers (hs : Solvent w) {id : ℕ} {e : EscrowRecord Address}
    (he : w.store.escrow id = some e) (hlive : e.Live) :
    e.amount ≤ w.balance e.paymentToken C.self := by
  -- one weight is at most the sum, and the balance covers the sum
  have hweigh : weigh (heldAmount e.paymentToken) w.store.escrow id = e.amount := by
    simp [weigh, he, heldAmount_live hlive]
  have hnonneg (k : ℕ) (v : EscrowRecord Address) (hv : w.store.escrow k = some v) :
      0 ≤ heldAmount e.paymentToken v := by
    rw [heldAmount]
    split_ifs
    · exact (hs.records k v hv).1
    · exact le_rfl
  have hle := weigh_le_tally hs.numbered.finiteKeys hnonneg id
  have hcovered := hs.covered e.paymentToken
  simp only [surplus, locked] at hcovered
  omega

/-- A token that rejects no covered transfer lets the contract settle any live escrow. -/
theorem Solvent.settles (hs : Solvent w) (htoken : C.token.Live) {id : ℕ}
    {e : EscrowRecord Address} (he : w.store.escrow id = some e) (hlive : e.Live)
    (r : Resolution) (votes : List (ArbitrationVote Address)) : ∃ w', Settles w id e r votes w' := by
  obtain ⟨t, ht⟩ := Option.isSome_iff_exists.mp
    (htoken (w.tokens e.paymentToken) C.self (e.receiver r) e.amount (hs.records id e he).1
      (hs.covers he hlive))
  exact ⟨_, t, ht, rfl⟩

end HubAssist.Escrow
