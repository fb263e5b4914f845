import HubAssist.EscrowAuthority
import HubAssist.EscrowCustody

/-! The pause: which calls leave the deposits alone while the contract is paused. -/
namespace HubAssist.Escrow
open SorobanHost RunSystem

variable {Address : Type} [DecidableEq Address] {C : Chain Address}
variable {env : Env C} {w w' : EscrowWorld C} {call : Call Address}
variable {id : ℕ} {e : EscrowRecord Address} {caller : Address}

/-- The escrow records, both index lists and the contract's balance in every token are the
same in two worlds. -/
structure SameHoldings (w w' : EscrowWorld C) : Prop where
  escrow : w'.store.escrow = w.store.escrow
  depositorEscrows : w'.store.depositorEscrows = w.store.depositorEscrows
  beneficiaryEscrows : w'.store.beneficiaryEscrows = w.store.beneficiaryEscrows
  balance : ∀ token, w'.balance token C.self = w.balance token C.self

theorem SameHoldings.refl (w : EscrowWorld C) : SameHoldings w w :=
  ⟨rfl, rfl, rfl, fun _ => rfl⟩

/-- A call made during the pause changes no holdings. -/
def Frozen (w : EscrowWorld C) : Action C (Call Address) → Prop
  | .invoke env call => Paused w → SameHoldings w (step exec w (.invoke env call))
  | .tick _ | .external _ _ => True

/-- What `refund` tests before it pays. -/
def Refundable (w : EscrowWorld C) (env : Env C) (caller : Address) (e : EscrowRecord Address) :
    Prop :=
  caller ∈ env.signers ∧ e.Live ∧
    ∃ admin, w.store.admin = some admin ∧ (caller = admin ∨ caller = e.depositor)

/-- What `tryAutoRelease` tests before it pays. -/
def AutoReleasable (w : EscrowWorld C) (env : Env C) (caller : Address)
    (e : EscrowRecord Address) : Prop :=
  caller ∈ env.signers ∧ e.status = .active ∧ e.releaseTime ≤ w.now

/-- No refund and no automatic release goes through during the pause: the tests of the call
are not met, or the token refuses the transfer. -/
def Halted (w : EscrowWorld C) : Action C (Call Address) → Prop
  | .invoke env (.refund caller id) => Paused w → ∀ e, w.store.escrow id = some e →
    Refundable w env caller e →
      C.token.transfer (w.tokens e.paymentToken) C.self e.depositor e.amount = none
  | .invoke env (.tryAutoRelease caller id) => Paused w → ∀ e, w.store.escrow id = some e →
    AutoReleasable w env caller e →
      C.token.transfer (w.tokens e.paymentToken) C.self e.beneficiary e.amount = none
  | _ => True

/-- A payout shows in the record of its escrow. -/
theorem Settles.not_sameHoldings {r : Resolution} {votes : List (ArbitrationVote Address)}
    (h : Settles w id e r votes w') (he : w.store.escrow id = some e) (hlive : e.Live) :
    ¬SameHoldings w w' := by
  intro hsame
  have hrecord := h.record
  rw [hsame.escrow, he] at hrecord
  have heq := Option.some.inj hrecord
  rw [heq] at hlive
  exact not_live_settled e r votes hlive

/-- The calls that test for the pause are rejected in it, and those of the admin touch no
holdings. -/
theorem sameHoldings_of_paused (hp : Paused w) (hrefund : ∀ caller id, call ≠ .refund caller id)
    (hauto : ∀ caller id, call ≠ .tryAutoRelease caller id) (h : exec env call w = .ok w') :
    SameHoldings w w' := by
  cases call with
  | initializeContract admin token window =>
    simp only [exec, initializeContract, bind_eq_ok, pure_eq_ok] at h
    obtain ⟨_, _, rfl⟩ := h
    exact ⟨rfl, rfl, rfl, fun _ => rfl⟩
  | setArbitrators admin arbitrators =>
    simp only [exec, setArbitrators, bind_eq_ok, pure_eq_ok] at h
    obtain ⟨_, _, rfl⟩ := h
    exact ⟨rfl, rfl, rfl, fun _ => rfl⟩
  | setDisputeWindow admin type window =>
    simp only [exec, setDisputeWindow, bind_eq_ok, pure_eq_ok] at h
    obtain ⟨_, _, rfl⟩ := h
    exact ⟨rfl, rfl, rfl, fun _ => rfl⟩
  | pause admin =>
    simp only [exec, pause, bind_eq_ok, pure_eq_ok] at h
    obtain ⟨_, _, rfl⟩ := h
    exact ⟨rfl, rfl, rfl, fun _ => rfl⟩
  | unpause admin =>
    simp only [exec, unpause, bind_eq_ok, pure_eq_ok] at h
    obtain ⟨_, _, rfl⟩ := h
    exact ⟨rfl, rfl, rfl, fun _ => rfl⟩
  | createEscrow depositor beneficiary amount time type =>
    obtain ⟨⟨id, w₁⟩, hc, rfl⟩ := map_eq_ok.mp h
    exact absurd hp (createEscrow_eq_ok.mp hc).1
  | release caller id => exact absurd hp (release_eq_ok.mp h).1
  | refund caller id => exact absurd rfl (hrefund caller id)
  | dispute depositor id hash => exact absurd hp (dispute_eq_ok.mp h).1
  | submitEvidence caller id hash => exact absurd hp (submitEvidence_eq_ok.mp h).1
  | voteResolution arbitrator id decision => exact absurd hp (voteResolution_eq_ok.mp h).1
  | expireDispute id => exact absurd hp (expireDispute_eq_ok.mp h).1
  | tryAutoRelease caller id => exact absurd rfl (hauto caller id)

/-- A rejected call changes nothing, so only the accepted ones are looked at. -/
theorem frozen_of_accepted (h : Paused w → ∀ w', exec env call w = .ok w' → SameHoldings w w') :
    Frozen w (.invoke env call) := by
  intro hp
  cases hcall : exec env call w with
  | ok w' =>
    rw [step_invoke_ok hcall]
    exact h hp w' hcall
  | error fault =>
    rw [step_invoke_error hcall]
    exact SameHoldings.refl w

theorem frozen_refund_iff :
    Frozen w (.invoke env (.refund caller id)) ↔ Halted w (.invoke env (.refund caller id)) := by
  constructor
  · intro hfrozen hp e he ⟨hs, hlive, hcaller⟩
    by_contra hsome
    obtain ⟨t, ht⟩ := Option.ne_none_iff_exists'.mp hsome
    have hok := refund_eq_ok.mpr ⟨hs, e, he, hcaller, hlive, t, ht, rfl⟩
    have hsame := hfrozen hp
    rw [step_invoke_ok hok] at hsame
    have hpay : Settles w id e .refund e.arbitrationVotes _ := ⟨t, ht, rfl⟩
    exact hpay.not_sameHoldings he hlive hsame
  · intro hhalted
    apply frozen_of_accepted
    intro hp w' hcall
    obtain ⟨hs, e, he, hcaller, hlive, t, ht, rfl⟩ := refund_eq_ok.mp hcall
    exact absurd (ht.symm.trans (hhalted hp e he ⟨hs, hlive, hcaller⟩)) (Option.some_ne_none t)

theorem frozen_tryAutoRelease_iff : Frozen w (.invoke env (.tryAutoRelease caller id)) ↔
    Halted w (.invoke env (.tryAutoRelease caller id)) := by
  constructor
  · intro hfrozen hp e he ⟨hs, hactive, hnow⟩
    by_contra hsome
    obtain ⟨t, ht⟩ := Option.ne_none_iff_exists'.mp hsome
    have hok := tryAutoRelease_eq_ok.mpr ⟨hs, e, he, hactive, hnow, t, ht, rfl⟩
    have hsame := hfrozen hp
    rw [step_invoke_ok hok] at hsame
    have hpay : Settles w id e .release e.arbitrationVotes _ := ⟨t, ht, rfl⟩
    exact hpay.not_sameHoldings he (Or.inl hactive) hsame
  · intro hhalted
    apply frozen_of_accepted
    intro hp w' hcall
    obtain ⟨hs, e, he, hactive, hnow, t, ht, rfl⟩ := tryAutoRelease_eq_ok.mp hcall
    exact absurd (ht.symm.trans (hhalted hp e he ⟨hs, hactive, hnow⟩)) (Option.some_ne_none t)

theorem frozen_iff_halted (w : EscrowWorld C) (a : Action C (Call Address)) :
    Frozen w a ↔ Halted w a := by
  cases a with
  | tick => exact Iff.rfl
  | external => exact Iff.rfl
  | invoke env call =>
    by_cases hrefund : ∃ caller id, call = .refund caller id
    · obtain ⟨caller, id, rfl⟩ := hrefund
      exact frozen_refund_iff
    by_cases hauto : ∃ caller id, call = .tryAutoRelease caller id
    · obtain ⟨caller, id, rfl⟩ := hauto
      exact frozen_tryAutoRelease_iff
    have hrefund' (caller : Address) (id : ℕ) : call ≠ .refund caller id :=
      fun h => hrefund ⟨caller, id, h⟩
    have hauto' (caller : Address) (id : ℕ) : call ≠ .tryAutoRelease caller id :=
      fun h => hauto ⟨caller, id, h⟩
    constructor
    · intro _
      cases call with
      | refund caller id => exact absurd rfl (hrefund' caller id)
      | tryAutoRelease caller id => exact absurd rfl (hauto' caller id)
      | _ => trivial
    · intro _
      apply frozen_of_accepted
      intro hp w' hcall
      exact sameHoldings_of_paused hp hrefund' hauto' hcall

/-- The pause freezes the deposits along a run exactly when no refund and no automatic
release goes through while it lasts. -/
theorem frozen_run_iff (d : Deployment C) (as : List (Action C (Call Address))) :
    Guarded (step exec) Frozen d.start as ↔ Guarded (step exec) Halted d.start as := by
  simp only [guarded_iff_steps, frozen_iff_halted]

/-- A deposit in a contract that its admin has paused. -/
def pausedDeposit : List (Action numberedChain (Call ℕ)) :=
  [.invoke (signedBy 1) (.createEscrow 2 3 40 5 0), .invoke (signedBy 0) (.pause 1)]

/-- The depositor takes the money out of the paused contract. -/
theorem not_frozen_refund : ¬Guarded (step exec) Frozen smallDeployment.start
    (pausedDeposit ++ [.invoke (signedBy 1) (.refund 2 1)]) := by
  intro h
  have hlast := (guarded_iff_steps (step exec) _ _ _).mp h pausedDeposit
    (.invoke (signedBy 1) (.refund 2 1)) [] rfl
  have hsame := (hlast (by simp only [Paused]; decide)).balance 9
  revert hsame
  decide

end HubAssist.Escrow
