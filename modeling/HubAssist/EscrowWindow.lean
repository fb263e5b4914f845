import HubAssist.EscrowAuthority
import HubAssist.EscrowCustody

/-! The dispute window: when the depositor can dispute, against when somebody can release the
escrow to the beneficiary without a vote. -/
namespace HubAssist.Escrow
open SorobanHost CheckedArith TokenLedger

variable {Address : Type} [DecidableEq Address] {C : Chain Address}
variable {w : EscrowWorld C} {id : ℕ} {e : EscrowRecord Address}

def Call.Votes : Call Address → Prop
  | .voteResolution _ _ _ => True
  | _ => False

/-- The depositor's `dispute` is accepted now. -/
def Disputable (w : EscrowWorld C) (id : ℕ) (e : EscrowRecord Address) : Prop :=
  ∃ env hash w', exec env (.dispute e.depositor id hash) w = .ok w'

/-- Some call other than a vote can pay the beneficiary now. -/
def Releasable (w : EscrowWorld C) (id : ℕ) (e : EscrowRecord Address) : Prop :=
  ∃ env call, ¬call.Votes ∧ PaysOut w env call id e .release

/-- The escrow can be disputed exactly as long as nobody can release it without a vote, and
nobody can before its window has passed. -/
def WindowHonoured (w : EscrowWorld C) (id : ℕ) (e : EscrowRecord Address) : Prop :=
  (Disputable w id e ↔ ¬Releasable w id e) ∧
    (Releasable w id e → e.releaseTime+e.disputeWindow ≤ w.now)

theorem disputable_iff (hp : ¬Paused w) (he : w.store.escrow id = some e)
    (hactive : e.status = .active) (hself : e.depositor ≠ C.self) :
    Disputable w id e ↔ e.releaseTime+e.disputeWindow < u64Bound ∧
      w.now ≤ e.releaseTime+e.disputeWindow := by
  constructor
  · rintro ⟨env, hash, w', h⟩
    obtain ⟨_, _, e', he', _, _, hlt, hnow, _⟩ := dispute_eq_ok.mp h
    obtain rfl := Option.some.inj (he.symm.trans he')
    exact ⟨hlt, hnow⟩
  · rintro ⟨hlt, hnow⟩
    exact ⟨Env.single e.depositor hself, 0, _, dispute_eq_ok.mpr
      ⟨hp, List.mem_singleton.mpr rfl, e, he, rfl, hactive, hlt, hnow, rfl⟩⟩

/-- Automatic release opens at the release time, and the window plays no part in it. A
disputed escrow is released by votes only. -/
theorem releasable_iff (hs : Solvent w) (htoken : C.token.Live)
    (he : w.store.escrow id = some e) (hlive : e.Live) :
    Releasable w id e ↔ e.status = .active ∧ e.releaseTime ≤ w.now := by
  constructor
  · rintro ⟨env, call, hvote, hpay⟩
    cases (hs.paysOut_iff htoken he hlive).mp hpay with
    | release caller _ _ _ hactive _ hnow => exact ⟨hactive, by omega⟩
    | vote => exact absurd trivial hvote
    | autoRelease caller _ hactive hnow => exact ⟨hactive, hnow⟩
  · rintro ⟨hactive, hnow⟩
    -- anybody may call `tryAutoRelease`; the depositor stands for a caller that exists
    have hself := (hs.records id e he).2
    exact ⟨Env.single e.depositor hself, .tryAutoRelease e.depositor id, fun h => h,
      (hs.paysOut_iff htoken he hlive).mpr
        (.autoRelease e.depositor (List.mem_singleton.mpr rfl) hactive hnow)⟩

theorem Solvent.windowHonoured_iff (hs : Solvent w) (htoken : C.token.Live) (hp : ¬Paused w)
    (hnow : w.now < u64Bound) (he : w.store.escrow id = some e) (hactive : e.status = .active) :
    WindowHonoured w id e ↔ e.releaseTime+e.disputeWindow < u64Bound ∧
      (w.now < e.releaseTime ∨ e.releaseTime+e.disputeWindow < w.now) := by
  -- both sides are comparisons of `now` with the release time and the end of the window
  rw [WindowHonoured, disputable_iff hp he hactive (hs.records id e he).2,
    releasable_iff hs htoken he (Or.inl hactive), and_iff_right hactive]
  omega

theorem Solvent.atTime (hs : Solvent w) (t : ℕ) : Solvent (w.atTime t) :=
  ⟨hs.numbered, hs.records, hs.covered⟩

/-- The window of an active escrow is honoured at time `t` exactly when `t` lies before the
release time or after the end of the window, and that end is a time at all. -/
theorem windowHonoured_iff_outside (d : Deployment C) (htoken : C.token.Live)
    (as : List (Action C (Call Address))) (hp : ¬Paused (run exec d.start as)) (id : ℕ)
    (e : EscrowRecord Address) (he : (run exec d.start as).store.escrow id = some e)
    (hactive : e.status = .active) (t : ℕ) (ht : t < u64Bound) :
    WindowHonoured ((run exec d.start as).atTime t) id e ↔
      e.releaseTime+e.disputeWindow < u64Bound ∧
        (t < e.releaseTime ∨ e.releaseTime+e.disputeWindow < t) := by
  have hs := (solvent_run d.start_solvent as).atTime t
  exact hs.windowHonoured_iff htoken hp ht he hactive

/-- One escrow of forty units, to be released at time 5 with a window of ten seconds. -/
def oneDeposit : List (Action numberedChain (Call ℕ)) :=
  [.invoke (signedBy 1) (.createEscrow 2 3 40 5 0)]

def depositedRecord : EscrowRecord ℕ where
  id := 1
  depositor := 2
  beneficiary := 3
  paymentToken := 9
  amount := 40
  status := .active
  createdAt := 0
  releaseTime := 5
  disputeWindow := 10
  disputeTimestamp := 0
  arbitrationVotes := []
  depositorEvidenceHash := 0
  beneficiaryEvidenceHash := 0

theorem oneDeposit_record :
    (run exec smallDeployment.start oneDeposit).store.escrow 1 = some depositedRecord := by
  decide

theorem oneDeposit_unpaused : ¬Paused (run exec smallDeployment.start oneDeposit) := by
  simp only [Paused]
  decide

theorem windowHonoured_iff_outside_oneDeposit :
    WindowHonoured ((run exec smallDeployment.start oneDeposit).atTime 4) 1 depositedRecord ↔
      5+10 < u64Bound ∧ (4 < 5 ∨ 5+10 < 4) :=
  windowHonoured_iff_outside smallDeployment mapToken_live oneDeposit oneDeposit_unpaused 1
    depositedRecord oneDeposit_record rfl 4 (by decide)

/-- At time 7 anybody can release the deposit, eight seconds before its window closes. -/
theorem window_not_honoured : 7 < u64Bound ∧
    ¬Paused (run exec smallDeployment.start oneDeposit) ∧
    (run exec smallDeployment.start oneDeposit).store.escrow 1 = some depositedRecord ∧
    depositedRecord.status = .active ∧
    ¬WindowHonoured ((run exec smallDeployment.start oneDeposit).atTime 7) 1 depositedRecord := by
  refine ⟨by decide, oneDeposit_unpaused, oneDeposit_record, rfl, fun h => ?_⟩
  have hs := (solvent_run smallDeployment.start_solvent oneDeposit).atTime 7
  have hcond := (hs.windowHonoured_iff mapToken_live oneDeposit_unpaused (by decide)
    oneDeposit_record rfl).mp h
  revert hcond
  decide

end HubAssist.Escrow
