import HubAssist.EscrowModel
import HubAssist.StorageMap

/-! What an accepted call of the escrow contract requires and does: one equivalence for each
entry point, and over them the four effects that a call can have on the escrows. -/
namespace HubAssist.Escrow
open SorobanHost CheckedArith StorageMap

variable {Address : Type} [DecidableEq Address] {C : Chain Address}
variable {env : Env C} {w w' : EscrowWorld C}

@[simp] theorem setEscrow_escrow (w : EscrowWorld C) (id : ℕ) (e : EscrowRecord Address) :
    (setEscrow w id e).store.escrow = Function.update w.store.escrow id (some e) := rfl

@[simp] theorem setEscrow_escrowCount (w : EscrowWorld C) (id : ℕ) (e : EscrowRecord Address) :
    (setEscrow w id e).store.escrowCount = w.store.escrowCount := rfl

@[simp] theorem setEscrow_balance (w : EscrowWorld C) (id : ℕ) (e : EscrowRecord Address)
    (token holder : Address) :
    (setEscrow w id e).balance token holder = w.balance token holder := rfl

@[simp] theorem setEscrow_transfers (w : EscrowWorld C) (id : ℕ) (e : EscrowRecord Address) :
    (setEscrow w id e).transfers = w.transfers := rfl

/-- A record found after one escrow has been written is the written one or an old one. -/
theorem setEscrow_cases {id k : ℕ} {e e' : EscrowRecord Address}
    (h : (setEscrow w k e).store.escrow id = some e') :
    (id = k ∧ e' = e) ∨ w.store.escrow id = some e' := by
  rcases update_cases h with ⟨hid, hnew⟩ | ⟨_, hold⟩
  · exact Or.inl ⟨hid, (Option.some.inj hnew).symm⟩
  · exact Or.inr hold

def Paused (w : EscrowWorld C) : Prop := w.store.paused.getD false = true

/-- The party that a resolution pays. -/
def EscrowRecord.receiver (e : EscrowRecord Address) : Resolution → Address
  | .release => e.beneficiary
  | .refund => e.depositor

def settledStatus : Resolution → EscrowStatus
  | .release => .released
  | .refund => .refunded

/-- The transfer that settles an escrow. -/
def payout (C : Chain Address) (e : EscrowRecord Address) (r : Resolution) :
    TransferEvent Address :=
  ⟨e.paymentToken, C.self, e.receiver r, e.amount⟩

/-- The escrow still holds its amount. -/
def EscrowRecord.Live (e : EscrowRecord Address) : Prop :=
  e.status = .active ∨ e.status = .disputed

instance (e : EscrowRecord Address) : Decidable e.Live :=
  inferInstanceAs (Decidable (e.status = .active ∨ e.status = .disputed))

/-- The contract pays escrow `id` out by the resolution `r` and records `votes` on it. -/
def Settles (w : EscrowWorld C) (id : ℕ) (e : EscrowRecord Address) (r : Resolution)
    (votes : List (ArbitrationVote Address)) (w' : EscrowWorld C) : Prop :=
  ∃ t, C.token.transfer (w.tokens e.paymentToken) C.self (e.receiver r) e.amount = some t ∧
    setEscrow (w.paid (payout C e r) t) id
      { e with arbitrationVotes := votes, status := settledStatus r } = w'

theorem requireAdmin_eq_ok {caller : Address} {u : Unit} :
    requireAdmin env w caller = .ok u ↔ caller ∈ env.signers ∧ w.store.admin = some caller := by
  simp only [requireAdmin, bind_eq_ok, requireAuth_eq_ok, getOr_eq_ok, failIf_eq_ok, exists_const,
    not_not]
  constructor
  · rintro ⟨admin, hadmin, hs, rfl⟩
    exact ⟨hs, hadmin⟩
  · rintro ⟨hs, hadmin⟩
    exact ⟨caller, hadmin, hs, rfl⟩

theorem createEscrow_eq_ok {depositor beneficiary : Address} {amount : ℤ}
    {releaseTime bookingType id : ℕ} :
    createEscrow env depositor beneficiary amount releaseTime bookingType w = .ok (id, w') ↔
      ¬Paused w ∧ depositor ∈ env.signers ∧ 0 < amount ∧ ∃ token,
        w.store.paymentToken = some token ∧ ∃ t,
          C.token.transfer (w.tokens token) depositor C.self amount = some t ∧
          w.store.escrowCount.getD 0+1 < u64Bound ∧ w.store.escrowCount.getD 0+1 = id ∧
          (w.paid ⟨token, depositor, C.self, amount⟩ t).setStore { w.store with
            escrow := Function.update w.store.escrow id
              (some (newEscrow w id depositor beneficiary token amount releaseTime bookingType))
            escrowCount := some id
            depositorEscrows := pushToList w.store.depositorEscrows depositor id
            beneficiaryEscrows := pushToList w.store.beneficiaryEscrows beneficiary id } = w' := by
  simp only [createEscrow, requireNotPaused, bind_eq_ok, failIf_eq_ok, getOr_eq_ok,
    requireAuth_eq_ok, checked_eq_ok, u64Add_eq_some, World.transfer_eq_ok, pure_eq_ok,
    exists_const, exists_exists_and_eq_and, Paused, Prod.mk.injEq]
  constructor
  · rintro ⟨hp, hs, ha, token, ht, t, htr, _, ⟨hlt, rfl⟩, rfl, rfl⟩
    exact ⟨hp, hs, Int.not_le.mp ha, token, ht, t, htr, hlt, rfl, rfl⟩
  · rintro ⟨hp, hs, ha, token, ht, t, htr, hlt, rfl, rfl⟩
    exact ⟨hp, hs, Int.not_le.mpr ha, token, ht, t, htr, _, ⟨hlt, rfl⟩, rfl, rfl⟩

theorem release_eq_ok {caller : Address} {id : ℕ} :
    release env caller id w = .ok w' ↔
      ¬Paused w ∧ caller ∈ env.signers ∧ ∃ e, w.store.escrow id = some e ∧
        (∃ admin, w.store.admin = some admin ∧ (caller = e.beneficiary ∨ caller = admin)) ∧
        e.status = .active ∧ e.releaseTime+e.disputeWindow < u64Bound ∧
        e.releaseTime+e.disputeWindow ≤ w.now ∧ Settles w id e .release e.arbitrationVotes w' := by
  simp only [release, requireNotPaused, getEscrow, bind_eq_ok, failIf_eq_ok, getOr_eq_ok,
    requireAuth_eq_ok, checked_eq_ok, u64Add_eq_some, World.transfer_eq_ok, pure_eq_ok,
    exists_const, exists_exists_and_eq_and, Paused, Settles]
  constructor
  · rintro ⟨hp, hs, e, he, admin, ha, hc, h1, h2, _, ⟨hlt, rfl⟩, hnow, t, ht, rfl⟩
    -- of the four statuses the two guards leave `active`
    have hstatus : e.status = .active := by
      cases h : e.status <;> simp_all
    exact ⟨hp, hs, e, he, ⟨admin, ha, by tauto⟩, hstatus, hlt, not_lt.mp hnow, t, ht, rfl⟩
  · rintro ⟨hp, hs, e, he, ⟨admin, ha, hc⟩, hstatus, hlt, hnow, t, ht, rfl⟩
    exact ⟨hp, hs, e, he, admin, ha, by tauto, by simp [hstatus], by simp [hstatus], _,
      ⟨hlt, rfl⟩, not_lt.mpr hnow, t, ht, rfl⟩

theorem refund_eq_ok {caller : Address} {id : ℕ} :
    refund env caller id w = .ok w' ↔
      caller ∈ env.signers ∧ ∃ e, w.store.escrow id = some e ∧
        (∃ admin, w.store.admin = some admin ∧ (caller = admin ∨ caller = e.depositor)) ∧
        e.Live ∧ Settles w id e .refund e.arbitrationVotes w' := by
  simp only [refund, getEscrow, bind_eq_ok, failIf_eq_ok, getOr_eq_ok, requireAuth_eq_ok,
    World.transfer_eq_ok, pure_eq_ok, exists_const, exists_exists_and_eq_and, Settles]
  constructor
  · rintro ⟨hs, e, he, admin, ha, hc, h1, t, ht, rfl⟩
    have hlive : e.Live := by
      cases h : e.status <;> simp_all [EscrowRecord.Live]
    exact ⟨hs, e, he, ⟨admin, ha, by tauto⟩, hlive, t, ht, rfl⟩
  · rintro ⟨hs, e, he, ⟨admin, ha, hc⟩, hlive, t, ht, rfl⟩
    have h1 : ¬(e.status = .released ∨ e.status = .refunded) := by
      rcases hlive with h | h <;> simp [h]
    exact ⟨hs, e, he, admin, ha, by tauto, h1, t, ht, rfl⟩

theorem dispute_eq_ok {depositor : Address} {id : ℕ} {evidenceHash : Hash} :
    dispute env depositor id evidenceHash w = .ok w' ↔
      ¬Paused w ∧ depositor ∈ env.signers ∧ ∃ e, w.store.escrow id = some e ∧
        e.depositor = depositor ∧ e.status = .active ∧
        e.releaseTime+e.disputeWindow < u64Bound ∧ w.now ≤ e.releaseTime+e.disputeWindow ∧
        setEscrow w id { e with
          status := .disputed
          disputeTimestamp := w.now
          depositorEvidenceHash := evidenceHash } = w' := by
  simp only [dispute, requireNotPaused, getEscrow, bind_eq_ok, failIf_eq_ok, getOr_eq_ok,
    requireAuth_eq_ok, checked_eq_ok, u64Add_eq_some, pure_eq_ok, exists_const, Paused, not_not]
  constructor
  · rintro ⟨hp, hs, e, he, hd, hstatus, _, ⟨hlt, rfl⟩, hnow, rfl⟩
    exact ⟨hp, hs, e, he, hd, hstatus, hlt, not_lt.mp hnow, rfl⟩
  · rintro ⟨hp, hs, e, he, hd, hstatus, hlt, hnow, rfl⟩
    exact ⟨hp, hs, e, he, hd, hstatus, _, ⟨hlt, rfl⟩, not_lt.mpr hnow, rfl⟩

theorem submitEvidence_eq_ok {caller : Address} {id : ℕ} {evidenceHash : Hash} :
    submitEvidence env caller id evidenceHash w = .ok w' ↔
      ¬Paused w ∧ caller ∈ env.signers ∧ ∃ e, w.store.escrow id = some e ∧
        e.status = .disputed ∧ (caller = e.depositor ∨ caller = e.beneficiary) ∧
        setEscrow w id (if caller = e.depositor then { e with depositorEvidenceHash := evidenceHash }
          else { e with beneficiaryEvidenceHash := evidenceHash }) = w' := by
  simp only [submitEvidence, requireNotPaused, getEscrow, bind_eq_ok, failIf_eq_ok, getOr_eq_ok,
    requireAuth_eq_ok, pure_eq_ok, exists_const, Paused, not_not]
  constructor
  · rintro ⟨hp, hs, e, he, hstatus, hc, rfl⟩
    exact ⟨hp, hs, e, he, hstatus, by tauto, rfl⟩
  · rintro ⟨hp, hs, e, he, hstatus, hc, rfl⟩
    exact ⟨hp, hs, e, he, hstatus, by tauto, rfl⟩

/-- What the votes decide against a list of arbitrators: the release count is looked at
first. -/
def decided (arbitrators : List Address) (votes : List (ArbitrationVote Address)) :
    Option Resolution :=
  if majorityThreshold arbitrators ≤ (tallyVotes votes).1 then some .release
  else if majorityThreshold arbitrators ≤ (tallyVotes votes).2 then some .refund
  else none

theorem voteResolution_eq_ok {arbitrator : Address} {id : ℕ} {decision : Resolution} :
    voteResolution env arbitrator id decision w = .ok w' ↔
      ¬Paused w ∧ arbitrator ∈ env.signers ∧ ∃ e, w.store.escrow id = some e ∧
        e.status = .disputed ∧ arbitrator ∈ getArbitrators w ∧
        (∀ vote ∈ e.arbitrationVotes, vote.arbitrator ≠ arbitrator) ∧
        match decided (getArbitrators w) (e.arbitrationVotes ++ [⟨arbitrator, decision, w.now⟩]) with
        | some r => Settles w id e r (e.arbitrationVotes ++ [⟨arbitrator, decision, w.now⟩]) w'
        | none => setEscrow w id { e with
            arbitrationVotes := e.arbitrationVotes ++ [⟨arbitrator, decision, w.now⟩] } = w' := by
  -- the branch after the vote is pushed, once for all three outcomes
  have hpush (e : EscrowRecord Address) (votes : List (ArbitrationVote Address)) :
      (if majorityThreshold (getArbitrators w) ≤ (tallyVotes votes).1 then do
          let w ← w.transfer e.paymentToken C.self e.beneficiary e.amount
          return setEscrow w id { e with arbitrationVotes := votes, status := .released }
        else if majorityThreshold (getArbitrators w) ≤ (tallyVotes votes).2 then do
          let w ← w.transfer e.paymentToken C.self e.depositor e.amount
          return setEscrow w id { e with arbitrationVotes := votes, status := .refunded }
        else return setEscrow w id { e with arbitrationVotes := votes } : Outcome C) = .ok w' ↔
      match decided (getArbitrators w) votes with
      | some r => Settles w id e r votes w'
      | none => setEscrow w id { e with arbitrationVotes := votes } = w' := by
    unfold decided
    split_ifs <;> simp only [bind_eq_ok, World.transfer_eq_ok, pure_eq_ok,
      exists_exists_and_eq_and, Settles, payout, settledStatus, EscrowRecord.receiver]
  simp only [voteResolution, requireNotPaused, getEscrow, bind_eq_ok, failIf_eq_ok, getOr_eq_ok,
    requireAuth_eq_ok, exists_const, Paused, not_not, not_exists, not_and, hpush, ne_eq]

theorem expireDispute_eq_ok {id : ℕ} :
    expireDispute id w = .ok w' ↔
      ¬Paused w ∧ ∃ e, w.store.escrow id = some e ∧ e.status = .disputed ∧
        e.disputeTimestamp+disputeTimeoutSeconds < u64Bound ∧
        e.disputeTimestamp+disputeTimeoutSeconds ≤ w.now ∧
        Settles w id e .refund e.arbitrationVotes w' := by
  simp only [expireDispute, requireNotPaused, getEscrow, bind_eq_ok, failIf_eq_ok, getOr_eq_ok,
    checked_eq_ok, u64Add_eq_some, World.transfer_eq_ok, pure_eq_ok, exists_const,
    exists_exists_and_eq_and, Paused, Settles, not_not]
  constructor
  · rintro ⟨hp, e, he, hstatus, _, ⟨hlt, rfl⟩, hnow, t, ht, rfl⟩
    exact ⟨hp, e, he, hstatus, hlt, not_lt.mp hnow, t, ht, rfl⟩
  · rintro ⟨hp, e, he, hstatus, hlt, hnow, t, ht, rfl⟩
    exact ⟨hp, e, he, hstatus, _, ⟨hlt, rfl⟩, not_lt.mpr hnow, t, ht, rfl⟩

theorem tryAutoRelease_eq_ok {caller : Address} {id : ℕ} :
    tryAutoRelease env caller id w = .ok w' ↔
      caller ∈ env.signers ∧ ∃ e, w.store.escrow id = some e ∧ e.status = .active ∧
        e.releaseTime ≤ w.now ∧ Settles w id e .release e.arbitrationVotes w' := by
  simp only [tryAutoRelease, getEscrow, bind_eq_ok, failIf_eq_ok, getOr_eq_ok, requireAuth_eq_ok,
    World.transfer_eq_ok, pure_eq_ok, exists_const, exists_exists_and_eq_and, Settles, not_not]
  constructor
  · rintro ⟨hs, e, he, hstatus, hnow, t, ht, rfl⟩
    exact ⟨hs, e, he, hstatus, not_lt.mp hnow, t, ht, rfl⟩
  · rintro ⟨hs, e, he, hstatus, hnow, t, ht, rfl⟩
    exact ⟨hs, e, he, hstatus, not_lt.mpr hnow, t, ht, rfl⟩

/-- The escrow that a call is about; opening one is about none that exists. -/
def Call.subject : Call Address → Option ℕ
  | .release _ id | .refund _ id | .dispute _ id _ | .submitEvidence _ id _
  | .voteResolution _ id _ | .expireDispute id | .tryAutoRelease _ id => some id
  | _ => none

/-- The call sets the contract up. -/
def Call.SetsUp (call : Call Address) : Prop :=
  ∃ admin token window, call = .initializeContract admin token window

/-- The four things a call can do to the escrows and the money: nothing, take a deposit into
a new escrow, move a live escrow on in its dispute, or pay a live escrow out. -/
inductive Effect (w : EscrowWorld C) (call : Call Address) : EscrowWorld C → Prop where
  | configure (s : Storage Address) (hsubject : call.subject = none)
      (hescrow : s.escrow = w.store.escrow)
      (hcount : s.escrowCount.getD 0 = w.store.escrowCount.getD 0)
      (htoken : call.SetsUp ∨ s.paymentToken = w.store.paymentToken) : Effect w call (w.setStore s)
  | deposit (e : EscrowRecord Address) (type : ℕ) (s : Storage Address) (t : C.token.State)
      (hcall : call = .createEscrow e.depositor e.beneficiary e.amount e.releaseTime type)
      (hid : e.id = w.store.escrowCount.getD 0+1) (hactive : e.status = .active)
      (hself : e.depositor ≠ C.self) (htoken : w.store.paymentToken = some e.paymentToken)
      (ht : C.token.transfer (w.tokens e.paymentToken) e.depositor C.self e.amount = some t)
      (hescrow : s.escrow = Function.update w.store.escrow e.id (some e))
      (hcount : s.escrowCount.getD 0 = e.id) (hkeep : s.paymentToken = w.store.paymentToken) :
      Effect w call ((w.paid ⟨e.paymentToken, e.depositor, C.self, e.amount⟩ t).setStore s)
  | amend (id : ℕ) (e : EscrowRecord Address) (since : ℕ)
      (votes : List (ArbitrationVote Address)) (h₁ h₂ : Hash) (hsubject : call.subject = some id)
      (he : w.store.escrow id = some e) (hlive : e.Live) :
      Effect w call (setEscrow w id { e with
        status := .disputed
        disputeTimestamp := since
        arbitrationVotes := votes
        depositorEvidenceHash := h₁
        beneficiaryEvidenceHash := h₂ })
  | settle (id : ℕ) (e : EscrowRecord Address) (r : Resolution)
      (votes : List (ArbitrationVote Address)) (w' : EscrowWorld C)
      (hsubject : call.subject = some id) (he : w.store.escrow id = some e) (hlive : e.Live)
      (h : Settles w id e r votes w') : Effect w call w'

/-- A call about an escrow writes nothing but the records. -/
theorem Effect.records_only {call : Call Address} (h : Effect w call w')
    (hsubject : call.subject ≠ none) :
    ∃ records, w'.store = { w.store with escrow := records } := by
  cases h with
  | configure _ hnone => exact absurd hnone hsubject
  | deposit _ _ _ _ hcall =>
    rw [hcall] at hsubject
    exact absurd rfl hsubject
  | amend id e since votes h₁ h₂ => exact ⟨_, rfl⟩
  | settle id e r votes _ _ _ _ hpay =>
    obtain ⟨t, _, rfl⟩ := hpay
    exact ⟨_, rfl⟩

theorem setEscrow_disputed (w : EscrowWorld C) (id : ℕ) (e : EscrowRecord Address)
    (h : e.status = .disputed) :
    setEscrow w id e = setEscrow w id { e with status := .disputed } := by
  rw [← h]

/-- Every accepted call has one of the four effects, on the escrow it is about. -/
theorem exec_effect {call : Call Address} (h : exec env call w = .ok w') :
    Effect w call w' := by
  cases call with
  | initializeContract admin token window =>
    simp only [exec, initializeContract, bind_eq_ok, pure_eq_ok] at h
    obtain ⟨_, _, rfl⟩ := h
    exact .configure _ rfl rfl rfl (Or.inl ⟨admin, token, window, rfl⟩)
  | setArbitrators admin arbitrators =>
    simp only [exec, setArbitrators, bind_eq_ok, pure_eq_ok] at h
    obtain ⟨_, _, rfl⟩ := h
    exact .configure _ rfl rfl rfl (Or.inr rfl)
  | setDisputeWindow admin type window =>
    simp only [exec, setDisputeWindow, bind_eq_ok, pure_eq_ok] at h
    obtain ⟨_, _, rfl⟩ := h
    exact .configure _ rfl rfl rfl (Or.inr rfl)
  | pause admin =>
    simp only [exec, pause, bind_eq_ok, pure_eq_ok] at h
    obtain ⟨_, _, rfl⟩ := h
    exact .configure _ rfl rfl rfl (Or.inr rfl)
  | unpause admin =>
    simp only [exec, unpause, bind_eq_ok, pure_eq_ok] at h
    obtain ⟨_, _, rfl⟩ := h
    exact .configure _ rfl rfl rfl (Or.inr rfl)
  | createEscrow depositor beneficiary amount time type =>
    obtain ⟨⟨id, w₁⟩, hc, rfl⟩ := map_eq_ok.mp h
    obtain ⟨_, hs, _, token, htoken, t, ht, _, rfl, rfl⟩ := createEscrow_eq_ok.mp hc
    exact .deposit (newEscrow w _ depositor beneficiary token amount time type) type _ t rfl rfl rfl
      (Env.ne_self hs) htoken ht rfl rfl rfl
  | release caller id =>
    obtain ⟨_, _, e, he, _, hstatus, _, _, hpay⟩ := release_eq_ok.mp h
    exact .settle id e .release _ w' rfl he (Or.inl hstatus) hpay
  | refund caller id =>
    obtain ⟨_, e, he, _, hlive, hpay⟩ := refund_eq_ok.mp h
    exact .settle id e .refund _ w' rfl he hlive hpay
  | dispute depositor id hash =>
    obtain ⟨_, _, e, he, _, hstatus, _, _, rfl⟩ := dispute_eq_ok.mp h
    exact .amend id e _ _ _ _ rfl he (Or.inl hstatus)
  | submitEvidence caller id hash =>
    obtain ⟨_, _, e, he, hstatus, _, rfl⟩ := submitEvidence_eq_ok.mp h
    -- the record is disputed before and after; which hash changes depends on the caller
    rw [setEscrow_disputed w id _ (by split_ifs <;> exact hstatus)]
    split_ifs
    · exact .amend id e _ _ _ _ rfl he (Or.inr hstatus)
    · exact .amend id e _ _ _ _ rfl he (Or.inr hstatus)
  | voteResolution arbitrator id decision =>
    obtain ⟨_, _, e, he, hstatus, _, _, hvote⟩ := voteResolution_eq_ok.mp h
    split at hvote
    · next r _ => exact .settle id e r _ w' rfl he (Or.inr hstatus) hvote
    · next =>
      subst hvote
      rw [setEscrow_disputed w id { e with
        arbitrationVotes := e.arbitrationVotes ++ [⟨arbitrator, decision, w.now⟩] } hstatus]
      exact .amend id e _ _ _ _ rfl he (Or.inr hstatus)
  | expireDispute id =>
    obtain ⟨_, e, he, hstatus, _, _, hpay⟩ := expireDispute_eq_ok.mp h
    exact .settle id e .refund _ w' rfl he (Or.inr hstatus) hpay
  | tryAutoRelease caller id =>
    obtain ⟨_, e, he, hstatus, _, hpay⟩ := tryAutoRelease_eq_ok.mp h
    exact .settle id e .release _ w' rfl he (Or.inl hstatus) hpay

/-- A call that is about no escrow and opens none leaves all records alone. -/
theorem Effect.escrow_kept (h : Effect w call w') (hsubject : call.subject = none)
    (hopen : ∀ depositor beneficiary amount releaseTime type,
      call ≠ .createEscrow depositor beneficiary amount releaseTime type) :
    w'.store.escrow = w.store.escrow := by
  cases h with
  | configure s _ hescrow _ _ => exact hescrow
  | deposit e type s t hcall => exact absurd hcall (hopen _ _ _ _ _)
  | amend id e since votes h₁ h₂ hsome => exact absurd (hsubject.symm.trans hsome) (by simp)
  | settle id e r votes _ hsome => exact absurd (hsubject.symm.trans hsome) (by simp)

end HubAssist.Escrow
