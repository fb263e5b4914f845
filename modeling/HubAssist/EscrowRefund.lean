import HubAssist.EscrowWindow

/-! Protection of the beneficiary: who takes the money back for the depositor once the escrow
is disputed or its window has passed. -/
namespace HubAssist.Escrow
open SorobanHost RunSystem TokenLedger

variable {Address : Type} [DecidableEq Address] {C : Chain Address}
variable {w : EscrowWorld C} {id : ℕ} {e : EscrowRecord Address}

/-- The depositor can no longer take the money back alone. -/
def EscrowRecord.Secured (e : EscrowRecord Address) (now : ℕ) : Prop :=
  e.status = .disputed ∨ e.status = .active ∧ e.releaseTime+e.disputeWindow ≤ now

/-- The call refunds by the admin's decision, a majority of votes or the expiry of the
dispute. -/
def RefundAuthorised (w : EscrowWorld C) (e : EscrowRecord Address) : Call Address → Prop
  | .refund caller _ => w.store.admin = some caller
  | .voteResolution arbitrator _ decision =>
    decided (getArbitrators w) (e.arbitrationVotes ++ [⟨arbitrator, decision, w.now⟩]) =
      some .refund
  | .expireDispute _ => e.disputeTimestamp+disputeTimeoutSeconds ≤ w.now
  | _ => False

/-- Whatever refund of a secured escrow this step makes is authorised. -/
def BeneficiaryProtected (w : EscrowWorld C) : Action C (Call Address) → Prop
  | .invoke env call => ∀ id e, w.store.escrow id = some e → e.Secured w.now →
    PaysOut w env call id e .refund → RefundAuthorised w e call
  | .tick _ | .external _ _ => True

/-- The step is no `refund` signed by the depositor of a secured escrow, unless that is the
admin. -/
def RefundTimely (w : EscrowWorld C) : Action C (Call Address) → Prop
  | .invoke env (.refund caller id) => ∀ e admin, w.store.escrow id = some e →
    w.store.admin = some admin → caller ∈ env.signers → caller = e.depositor →
    e.Secured w.now → caller = admin
  | _ => True

omit [DecidableEq Address] in
theorem EscrowRecord.Secured.live {now : ℕ} (h : e.Secured now) : e.Live := by
  rcases h with h | ⟨h, _⟩
  · exact Or.inr h
  · exact Or.inl h

theorem RefundTimely.protected (hs : Solvent w) {a : Action C (Call Address)}
    (h : RefundTimely w a) : BeneficiaryProtected w a := by
  cases a with
  | tick => trivial
  | external => trivial
  | invoke env call =>
    intro id e he hsecured hpay
    cases ((paysOut_iff hs.numbered he hsecured.live).mp hpay).1 with
    | refund caller hsigned hcaller =>
      obtain ⟨admin, hadmin, rfl | hdepositor⟩ := hcaller
      · exact hadmin
      -- the depositor's refund of a secured escrow is timely only if it is the admin's
      · have heq := h e admin he hadmin hsigned hdepositor hsecured
        rw [RefundAuthorised, heq, hadmin]
    | vote _ _ _ _ _ _ _ _ hdecided => exact hdecided
    | expire _ _ _ hnow => exact hnow

theorem BeneficiaryProtected.timely (hs : Solvent w) (htoken : C.token.Live)
    {a : Action C (Call Address)} (h : BeneficiaryProtected w a) : RefundTimely w a := by
  cases a with
  | tick => trivial
  | external => trivial
  | invoke env call =>
    cases call with
    | refund caller id =>
      intro e admin he hadmin hsigned hdepositor hsecured
      have hauth : Authority w env id e (.refund caller id) .refund :=
        .refund caller hsigned ⟨admin, hadmin, Or.inr hdepositor⟩ hsecured.live
      have hpay := (hs.paysOut_iff htoken he hsecured.live).mpr hauth
      have hcaller : w.store.admin = some caller := h id e he hsecured hpay
      exact Option.some.inj (hcaller.symm.trans hadmin)
    | _ => trivial

/-- Along a run the beneficiary is protected in every step if no depositor refunds a secured
escrow, and only then where the token rejects no covered transfer. -/
theorem beneficiary_protected_run (d : Deployment C) (as : List (Action C (Call Address))) :
    (Guarded (step exec) RefundTimely d.start as →
        Guarded (step exec) BeneficiaryProtected d.start as) ∧
      (C.token.Live → Guarded (step exec) BeneficiaryProtected d.start as →
        Guarded (step exec) RefundTimely d.start as) := by
  have hstep (v : EscrowWorld C) (a : Action C (Call Address)) (hv : Solvent v) :
      Solvent (step exec v a) := hv.step a
  constructor
  · exact guarded_of_invariant (step exec) hstep (fun _ _ hv h => h.protected hv) d.start_solvent
  · intro htoken
    exact guarded_of_invariant (step exec) hstep (fun _ _ hv h => h.timely hv htoken)
      d.start_solvent

/-- The depositor disputes within the window. -/
def disputedDeposit : List (Action numberedChain (Call ℕ)) :=
  oneDeposit ++ [.tick 7, .invoke (signedBy 1) (.dispute 2 1 0)]

/-- The admin's refund of a disputed deposit is authorised. -/
theorem beneficiary_protected_adminRefund :
    Guarded (step exec) BeneficiaryProtected smallDeployment.start
        (disputedDeposit ++ [.invoke (signedBy 0) (.refund 1 1)]) ∧
      ((run exec smallDeployment.start
        (disputedDeposit ++ [.invoke (signedBy 0) (.refund 1 1)])).store.escrow 1).map (·.status) =
          some .refunded := by
  refine ⟨(beneficiary_protected_run smallDeployment _).1 ?_, by decide⟩
  refine ⟨trivial, trivial, trivial, fun e admin _ hadmin _ _ _ => ?_, trivial⟩
  exact Option.some.inj hadmin

/-- The depositor who has disputed takes the money back alone. -/
theorem beneficiary_unprotected :
    ¬Guarded (step exec) BeneficiaryProtected smallDeployment.start
      (disputedDeposit ++ [.invoke (signedBy 1) (.refund 2 1)]) := by
  intro h
  have hs := solvent_run smallDeployment.start_solvent disputedDeposit
  have hlast := (guarded_iff_steps (step exec) _ _ _).mp h disputedDeposit
    (.invoke (signedBy 1) (.refund 2 1)) [] rfl
  have htimely := hlast.timely hs mapToken_live
  have hadmin := htimely { depositedRecord with status := .disputed, disputeTimestamp := 7 } 1
    (by decide) (by decide) (by decide) rfl (Or.inl rfl)
  exact absurd hadmin (by decide)

end HubAssist.Escrow
