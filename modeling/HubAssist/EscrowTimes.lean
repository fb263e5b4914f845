import HubAssist.EscrowCustody

/-! The sums of times that the escrow contract computes: the end of the window, in a release and in
a dispute, and the end of a dispute. Neither is looked at when the escrow is opened or disputed, and
an overflow traps. -/
namespace HubAssist.Escrow
open SorobanHost CheckedArith RunSystem TokenLedger
open Checks (ok_bind)

variable {Address : Type} [DecidableEq Address] {C : Chain Address}
variable {env : Env C} {w w' : EscrowWorld C} {call : Call Address} {id : ℕ}

/-- The calls that compute the end of a window or of a dispute. -/
def Call.Timed : Call Address → Prop
  | .release _ _ | .dispute _ _ _ | .expireDispute _ => True
  | _ => False

/-- No such call traps on an overflow, whenever it is made. -/
def TrapFree (w : EscrowWorld C) : Prop :=
  ∀ env call t, call.Timed → t < u64Bound → exec env call (w.atTime t) ≠ .error .overflow

/-- The depositor's own signature takes the amount of a live escrow out of the contract. -/
def HasExit (w : EscrowWorld C) : Prop :=
  ∀ id e, w.store.escrow id = some e → e.Live → ∃ env : Env C, env.signers = [e.depositor] ∧
    ∃ w', exec env (.refund e.depositor id) w = .ok w' ∧
      Settles w id e .refund e.arbitrationVotes w'

/-- An escrow that this step opens has a window whose end is a time, and so has a dispute that this
step raises. -/
def TimesFit (w : EscrowWorld C) : Action C (Call Address) → Prop
  | .invoke env (.createEscrow depositor beneficiary amount releaseTime bookingType) =>
    (∃ result, createEscrow env depositor beneficiary amount releaseTime bookingType w =
      .ok result) → releaseTime+windowFor w.store bookingType < u64Bound
  | .invoke env (.dispute depositor id evidenceHash) =>
    (∃ w', dispute env depositor id evidenceHash w = .ok w') →
      w.now+disputeTimeoutSeconds < u64Bound
  | _ => True

/-- The time that is computed from a record next is one. -/
def EscrowRecord.Fits (e : EscrowRecord Address) : Prop :=
  (e.status = .active → e.releaseTime+e.disputeWindow < u64Bound) ∧
    (e.status = .disputed → e.disputeTimestamp+disputeTimeoutSeconds < u64Bound)

def AllFit (w : EscrowWorld C) : Prop := ∀ id e, w.store.escrow id = some e → e.Fits

omit [DecidableEq Address] in
theorem settled_fits (e : EscrowRecord Address) (r : Resolution)
    (votes : List (ArbitrationVote Address)) :
    EscrowRecord.Fits { e with arbitrationVotes := votes, status := settledStatus r } := by
  cases r <;> exact ⟨fun h => EscrowStatus.noConfusion h, fun h => EscrowStatus.noConfusion h⟩

theorem AllFit.setEscrow (h : AllFit w) {v : EscrowWorld C} (hv : v.store.escrow = w.store.escrow)
    {e : EscrowRecord Address} (he : e.Fits) : AllFit (setEscrow v id e) := by
  intro k e' he'
  rcases setEscrow_cases he' with ⟨_, rfl⟩ | hold
  · exact he
  · exact h k e' (hv ▸ hold)

theorem AllFit.settles (h : AllFit w) {e : EscrowRecord Address} {r : Resolution}
    {votes : List (ArbitrationVote Address)} (hpay : Settles w id e r votes w') : AllFit w' := by
  obtain ⟨t, _, rfl⟩ := hpay
  exact h.setEscrow rfl (settled_fits e r votes)

omit [DecidableEq Address] in
/-- A disputed record that stays disputed since the same time fits as before. -/
theorem EscrowRecord.Fits.of_disputed {e e' : EscrowRecord Address} (h : e.Fits)
    (hstatus : e.status = .disputed) (hstatus' : e'.status = .disputed)
    (hsince : e'.disputeTimestamp = e.disputeTimestamp) : e'.Fits := by
  refine ⟨fun hactive => absurd (hstatus'.symm.trans hactive) (by decide), fun _ => ?_⟩
  rw [hsince]
  exact h.2 hstatus

/-- A step whose times fit leaves only records that do. -/
theorem AllFit.exec (h : AllFit w) (hcall : Escrow.exec env call w = .ok w')
    (hfit : TimesFit w (.invoke env call)) : AllFit w' := by
  cases call with
  | createEscrow depositor beneficiary amount time type =>
    obtain ⟨⟨id, w₁⟩, hc, rfl⟩ := map_eq_ok.mp hcall
    have hsum := hfit ⟨_, hc⟩
    obtain ⟨_, _, _, token, _, t, _, _, rfl, rfl⟩ := createEscrow_eq_ok.mp hc
    intro k e he
    rcases StorageMap.update_cases he with ⟨_, hnew⟩ | ⟨_, hold⟩
    · obtain rfl := Option.some.inj hnew
      exact ⟨fun _ => hsum, fun hdisputed => EscrowStatus.noConfusion hdisputed⟩
    · exact h k e hold
  | release caller id =>
    obtain ⟨_, _, _, _, _, _, _, _, hpay⟩ := release_eq_ok.mp hcall
    exact h.settles hpay
  | refund caller id =>
    obtain ⟨_, _, _, _, _, hpay⟩ := refund_eq_ok.mp hcall
    exact h.settles hpay
  | dispute depositor id hash =>
    have hend := hfit ⟨w', hcall⟩
    obtain ⟨_, _, e, _, _, _, _, _, rfl⟩ := dispute_eq_ok.mp hcall
    exact h.setEscrow rfl ⟨fun hactive => EscrowStatus.noConfusion hactive, fun _ => hend⟩
  | submitEvidence caller id hash =>
    obtain ⟨_, _, e, he, hstatus, _, rfl⟩ := submitEvidence_eq_ok.mp hcall
    apply h.setEscrow rfl
    split_ifs <;> exact (h id e he).of_disputed hstatus hstatus rfl
  | voteResolution arbitrator id decision =>
    obtain ⟨_, _, e, he, hstatus, _, _, hvote⟩ := voteResolution_eq_ok.mp hcall
    split at hvote
    · exact h.settles hvote
    · subst hvote
      exact h.setEscrow rfl ((h id e he).of_disputed hstatus hstatus rfl)
  | expireDispute id =>
    obtain ⟨_, _, _, _, _, _, hpay⟩ := expireDispute_eq_ok.mp hcall
    exact h.settles hpay
  | tryAutoRelease caller id =>
    obtain ⟨_, _, _, _, _, hpay⟩ := tryAutoRelease_eq_ok.mp hcall
    exact h.settles hpay
  | _ =>
    -- the other calls write no record
    have hkept := (exec_effect hcall).escrow_kept rfl (by simp)
    intro k e he
    exact h k e (hkept ▸ he)

/-- The only overflow of a release is that of the window's end. -/
theorem release_overflow {caller : Address} (h : release env caller id w = .error .overflow) :
    ∃ e, w.store.escrow id = some e ∧ e.status = .active ∧
      u64Bound ≤ e.releaseTime+e.disputeWindow := by
  have hfails : FailsWith (fun fault => fault = .overflow) (release env caller id w) := ⟨_, h, rfl⟩
  simp only [release, requireNotPaused, getEscrow, failsWith_bind, failsWith_failIf,
    failsWith_getOr, failsWith_requireAuth, failsWith_checked, World.failsWith_transfer,
    failsWith_pure, getOr_eq_ok, failIf_eq_ok, reduceCtorEq, and_false, and_true, or_false,
    false_or, exists_false] at hfails
  obtain ⟨_, _, _, _, e, he, _, _, _, _, _, hsettled, _, hdisputed, hsum⟩ := hfails
  refine ⟨e, he, ?_, ?_⟩
  · cases hstatus : e.status <;> simp_all
  · simpa [u64Add] using hsum

/-- So is that of a dispute. -/
theorem dispute_overflow {depositor : Address} {hash : Hash}
    (h : dispute env depositor id hash w = .error .overflow) :
    ∃ e, w.store.escrow id = some e ∧ e.status = .active ∧
      u64Bound ≤ e.releaseTime+e.disputeWindow := by
  have hfails : FailsWith (fun fault => fault = .overflow) (dispute env depositor id hash w) :=
    ⟨_, h, rfl⟩
  simp only [dispute, requireNotPaused, getEscrow, failsWith_bind, failsWith_failIf,
    failsWith_getOr, failsWith_requireAuth, failsWith_checked, failsWith_pure, getOr_eq_ok,
    failIf_eq_ok, reduceCtorEq, and_false, and_true, or_false, false_or, exists_false,
    not_not] at hfails
  obtain ⟨_, _, _, _, e, he, _, _, _, hstatus, hsum⟩ := hfails
  exact ⟨e, he, hstatus, by simpa [u64Add] using hsum⟩

theorem expireDispute_overflow (h : expireDispute id w = .error .overflow) :
    ∃ e, w.store.escrow id = some e ∧ e.status = .disputed ∧
      u64Bound ≤ e.disputeTimestamp+disputeTimeoutSeconds := by
  have hfails : FailsWith (fun fault => fault = .overflow) (expireDispute id w) := ⟨_, h, rfl⟩
  simp only [expireDispute, requireNotPaused, getEscrow, failsWith_bind, failsWith_failIf,
    failsWith_getOr, failsWith_checked, World.failsWith_transfer, failsWith_pure, getOr_eq_ok,
    failIf_eq_ok, reduceCtorEq, and_false, and_true, or_false, false_or, exists_false,
    not_not] at hfails
  obtain ⟨_, _, e, he, _, hstatus, hsum⟩ := hfails
  exact ⟨e, he, hstatus, by simpa [u64Add] using hsum⟩

theorem AllFit.trapFree (h : AllFit w) : TrapFree w := by
  intro env call t htimed _ hfault
  cases call with
  | release caller id =>
    obtain ⟨e, he, hstatus, hsum⟩ := release_overflow hfault
    exact absurd ((h id e he).1 hstatus) (Nat.not_lt.mpr hsum)
  | dispute depositor id hash =>
    obtain ⟨e, he, hstatus, hsum⟩ := dispute_overflow hfault
    exact absurd ((h id e he).1 hstatus) (Nat.not_lt.mpr hsum)
  | expireDispute id =>
    obtain ⟨e, he, hstatus, hsum⟩ := expireDispute_overflow hfault
    exact absurd ((h id e he).2 hstatus) (Nat.not_lt.mpr hsum)
  | _ => exact htimed.elim

/-- Where the contract is not paused, an escrow whose times do not fit traps one of the calls. -/
theorem TrapFree.fits (h : TrapFree w) (hp : ¬Paused w) {e : EscrowRecord Address}
    (he : w.store.escrow id = some e) (hself : e.depositor ≠ C.self) : e.Fits := by
  have hunpaused (t : ℕ) : requireNotPaused (w.atTime t) = .ok () := if_neg hp
  have hfound (t : ℕ) : getEscrow (w.atTime t) id = .ok e := getOr_eq_ok.mpr he
  constructor
  · intro hactive
    by_contra hsum
    apply h (Env.single e.depositor hself) (.dispute e.depositor id 0) 0 trivial (by decide)
    have hsigned : (requireAuth (Env.single e.depositor hself) e.depositor :
        Except (Fault ContractError) Unit) = .ok () :=
      requireAuth_eq_ok.mpr (List.mem_singleton.mpr rfl)
    have hover : u64Add e.releaseTime e.disputeWindow = none := if_neg hsum
    rw [exec, dispute, hunpaused, hfound, ok_bind, hsigned, ok_bind, ok_bind]
    simp only [failIf, hactive, ne_eq, not_true_eq_false, if_false, ok_bind, hover]
    rfl
  · intro hdisputed
    by_contra hsum
    apply h (Env.single e.depositor hself) (.expireDispute id) 0 trivial (by decide)
    have hover : u64Add e.disputeTimestamp disputeTimeoutSeconds = none := if_neg hsum
    rw [exec, expireDispute, hunpaused, hfound, ok_bind, ok_bind]
    simp only [failIf, hdisputed, ne_eq, not_true_eq_false, if_false, ok_bind, hover]
    rfl

/-- A step after which no call traps has opened and disputed what fits. -/
theorem TrapFree.timesFit {a : Action C (Call Address)} (h : TrapFree (step exec w a)) :
    TimesFit w a := by
  cases a with
  | tick => trivial
  | external => trivial
  | invoke env call =>
    cases call with
    | createEscrow depositor beneficiary amount time type =>
      rintro ⟨⟨id, w'⟩, hc⟩
      have hcall : exec env (.createEscrow depositor beneficiary amount time type) w = .ok w' := by
        rw [exec, hc]
        rfl
      rw [step_invoke_ok hcall] at h
      obtain ⟨hp, hs, _, token, _, t, _, _, rfl, rfl⟩ := createEscrow_eq_ok.mp hc
      exact (h.fits hp (Function.update_self ..) (Env.ne_self hs)).1 rfl
    | dispute depositor id hash =>
      rintro ⟨w', hdispute⟩
      have hcall : exec env (.dispute depositor id hash) w = .ok w' := hdispute
      rw [step_invoke_ok hcall] at h
      obtain ⟨hp, hs, e, _, rfl, _, _, _, rfl⟩ := dispute_eq_ok.mp hdispute
      exact (h.fits hp (Function.update_self ..) (Env.ne_self hs)).2 rfl
    | _ => trivial

/-- The contract keeps an admin once it has one. -/
theorem exec_admin (h : exec env call w = .ok w') (hw : ∃ admin, w.store.admin = some admin) :
    ∃ admin, w'.store.admin = some admin := by
  cases call with
  | initializeContract admin token window =>
    simp only [exec, initializeContract, bind_eq_ok, pure_eq_ok] at h
    obtain ⟨_, _, rfl⟩ := h
    exact ⟨admin, rfl⟩
  | setArbitrators admin arbitrators =>
    simp only [exec, setArbitrators, bind_eq_ok, pure_eq_ok] at h
    obtain ⟨_, _, rfl⟩ := h
    exact hw
  | setDisputeWindow admin type window =>
    simp only [exec, setDisputeWindow, bind_eq_ok, pure_eq_ok] at h
    obtain ⟨_, _, rfl⟩ := h
    exact hw
  | pause admin =>
    simp only [exec, pause, bind_eq_ok, pure_eq_ok] at h
    obtain ⟨_, _, rfl⟩ := h
    exact hw
  | unpause admin =>
    simp only [exec, unpause, bind_eq_ok, pure_eq_ok] at h
    obtain ⟨_, _, rfl⟩ := h
    exact hw
  | createEscrow depositor beneficiary amount time type =>
    obtain ⟨⟨id, w₁⟩, hc, rfl⟩ := map_eq_ok.mp h
    obtain ⟨_, _, _, _, _, _, _, _, _, rfl⟩ := createEscrow_eq_ok.mp hc
    exact hw
  | _ =>
    -- the other calls are about an escrow
    obtain ⟨records, hstore⟩ := (exec_effect h).records_only (by simp [Call.subject])
    rw [hstore]
    exact hw

theorem step_admin (hw : ∃ admin, w.store.admin = some admin) (a : Action C (Call Address)) :
    ∃ admin, (step exec w a).store.admin = some admin :=
  step_keeps (fun v => ∃ admin, v.store.admin = some admin) hw (fun _ _ _ _ h => exec_admin h hw)
    (fun _ _ => hw) fun _ _ _ _ => hw

/-- Every deposit can be taken back by who has made it, with no time to be computed. -/
theorem Solvent.hasExit (hs : Solvent w) (htoken : C.token.Live)
    (hadmin : ∃ admin, w.store.admin = some admin) : HasExit w := by
  intro id e he hlive
  obtain ⟨admin, hadmin⟩ := hadmin
  obtain ⟨w', hpay⟩ := hs.settles htoken he hlive .refund e.arbitrationVotes
  refine ⟨Env.single e.depositor (hs.records id e he).2, rfl, w', ?_, hpay⟩
  have hsigned : e.depositor ∈ (Env.single e.depositor (hs.records id e he).2).signers :=
    List.mem_singleton.mpr rfl
  exact refund_eq_ok.mpr ⟨hsigned, e, he, ⟨admin, hadmin, Or.inr rfl⟩, hlive, hpay⟩

/-- In every state of a run the timed calls are free of traps and every depositor has a way out
exactly when what the run opens and disputes fits; the way out is there in any case. -/
theorem escrow_times_iff (d : Deployment C) (htoken : C.token.Live)
    (as : List (Action C (Call Address))) :
    (Always (step exec) (fun w => TrapFree w ∧ HasExit w) d.start as ↔
        Guarded (step exec) TimesFit d.start as) ∧
      Always (step exec) HasExit d.start as := by
  have hexits (v : EscrowWorld C) (hv : Solvent v ∧ ∃ admin, v.store.admin = some admin) :
      HasExit v := hv.1.hasExit htoken hv.2
  have hkeeps (v : EscrowWorld C) (a : Action C (Call Address))
      (hv : Solvent v ∧ ∃ admin, v.store.admin = some admin) :
      Solvent (step exec v a) ∧ ∃ admin, (step exec v a).store.admin = some admin :=
    ⟨hv.1.step a, step_admin hv.2 a⟩
  have hstart : Solvent d.start ∧ ∃ admin, d.start.store.admin = some admin :=
    ⟨d.start_solvent, d.admin, rfl⟩
  have hfit : AllFit d.start := fun _ _ he => absurd he (by simp [Deployment.start,
    Deployment.deployed, Storage.empty])
  refine ⟨?_, always_of_invariant (step exec) hkeeps hexits hstart as⟩
  refine always_iff_guarded_of_kept (step exec)
    (J := fun v => AllFit v ∧ Solvent v ∧ ∃ admin, v.store.admin = some admin)
    (fun v hv => ⟨hv.1.trapFree, hexits v hv.2⟩) ?_ (fun v a _ h => h.1.timesFit) ⟨hfit, hstart⟩
  rintro v a ⟨hv, hrest⟩ hguard
  refine ⟨step_keeps AllFit hv ?_ (fun _ _ => hv) fun _ _ _ _ => hv, hkeeps v a hrest⟩
  rintro env call v' rfl hcall
  exact hv.exec hcall hguard

/-- One escrow of thirty units that is to be released at the last time there is. -/
def lateDeposit : List (Action numberedChain (Call ℕ)) :=
  [.invoke (signedBy 1) (.createEscrow 2 3 30 18446744073709551615 0)]

def lateRecord : EscrowRecord ℕ where
  id := 1
  depositor := 2
  beneficiary := 3
  paymentToken := 9
  amount := 30
  status := .active
  createdAt := 0
  releaseTime := 18446744073709551615
  disputeWindow := 10
  disputeTimestamp := 0
  arbitrationVotes := []
  depositorEvidenceHash := 0
  beneficiaryEvidenceHash := 0

theorem escrow_times_iff_lateDeposit :
    (Always (step exec) (fun w => TrapFree w ∧ HasExit w) smallDeployment.start lateDeposit ↔
        Guarded (step exec) TimesFit smallDeployment.start lateDeposit) ∧
      Always (step exec) HasExit smallDeployment.start lateDeposit :=
  escrow_times_iff smallDeployment mapToken_live lateDeposit

/-- The escrow is accepted, and its depositor's dispute traps. -/
theorem escrow_traps :
    ¬Always (step exec) (fun w => TrapFree w ∧ HasExit w) smallDeployment.start lateDeposit := by
  intro h
  have hend := (always_iff_prefixes (step exec) _ _ _).mp h lateDeposit [] (by simp)
  have hrecord : (run exec smallDeployment.start lateDeposit).store.escrow 1 = some lateRecord := by
    decide
  have hp : ¬Paused (run exec smallDeployment.start lateDeposit) := by
    unfold Paused
    decide
  have hsum := (hend.1.fits hp hrecord (by decide)).1 rfl
  revert hsum
  decide

end HubAssist.Escrow
