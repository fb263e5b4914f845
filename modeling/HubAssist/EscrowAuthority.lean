import HubAssist.EscrowPayouts

/-! Who can settle a live escrow, and when: the five entry points that pay an escrow out,
each with its own guards, as one relation between a call and the resolution it brings. -/
namespace HubAssist.Escrow
open SorobanHost CheckedArith

variable {Address : Type} [DecidableEq Address] {C : Chain Address}
variable {env : Env C} {w w' : EscrowWorld C} {call : Call Address}
variable {id : ℕ} {e : EscrowRecord Address} {r : Resolution}

/-- The guards under which a call pays the escrow `e` with the number `id` out. -/
inductive Authority (w : EscrowWorld C) (env : Env C) (id : ℕ) (e : EscrowRecord Address) :
    Call Address → Resolution → Prop where
  | release (caller : Address) (hpaused : ¬Paused w) (hsigned : caller ∈ env.signers)
      (hcaller : ∃ admin, w.store.admin = some admin ∧ (caller = e.beneficiary ∨ caller = admin))
      (hstatus : e.status = .active) (hbound : e.releaseTime+e.disputeWindow < u64Bound)
      (hnow : e.releaseTime+e.disputeWindow ≤ w.now) :
      Authority w env id e (.release caller id) .release
  | refund (caller : Address) (hsigned : caller ∈ env.signers)
      (hcaller : ∃ admin, w.store.admin = some admin ∧ (caller = admin ∨ caller = e.depositor))
      (hlive : e.Live) : Authority w env id e (.refund caller id) .refund
  | vote (arbitrator : Address) (decision r : Resolution) (hpaused : ¬Paused w)
      (hsigned : arbitrator ∈ env.signers) (hstatus : e.status = .disputed)
      (harbitrator : arbitrator ∈ getArbitrators w)
      (hfresh : ∀ vote ∈ e.arbitrationVotes, vote.arbitrator ≠ arbitrator)
      (hdecided : decided (getArbitrators w)
        (e.arbitrationVotes ++ [⟨arbitrator, decision, w.now⟩]) = some r) :
      Authority w env id e (.voteResolution arbitrator id decision) r
  | expire (hpaused : ¬Paused w) (hstatus : e.status = .disputed)
      (hbound : e.disputeTimestamp+disputeTimeoutSeconds < u64Bound)
      (hnow : e.disputeTimestamp+disputeTimeoutSeconds ≤ w.now) :
      Authority w env id e (.expireDispute id) .refund
  | autoRelease (caller : Address) (hsigned : caller ∈ env.signers)
      (hstatus : e.status = .active) (hnow : e.releaseTime ≤ w.now) :
      Authority w env id e (.tryAutoRelease caller id) .release

/-- The call is accepted and pays the escrow out by the resolution `r`. -/
def PaysOut (w : EscrowWorld C) (env : Env C) (call : Call Address) (id : ℕ)
    (e : EscrowRecord Address) (r : Resolution) : Prop :=
  ∃ w' votes, exec env call w = .ok w' ∧ Settles w id e r votes w'

theorem Settles.record {votes : List (ArbitrationVote Address)}
    (h : Settles w id e r votes w') : w'.store.escrow id =
      some { e with arbitrationVotes := votes, status := settledStatus r } := by
  obtain ⟨t, _, rfl⟩ := h
  rw [setEscrow_escrow, Function.update_self]

theorem Settles.with_votes {votes : List (ArbitrationVote Address)}
    (h : Settles w id e r votes w') (votes' : List (ArbitrationVote Address)) :
    ∃ w'', Settles w id e r votes' w'' := by
  obtain ⟨t, ht, _⟩ := h
  exact ⟨_, t, ht, rfl⟩

theorem Settles.resolution_eq {r' : Resolution} {votes votes' : List (ArbitrationVote Address)}
    (h : Settles w id e r votes w') (h' : Settles w id e r' votes' w') : r = r' := by
  have hrecord := h.record.symm.trans h'.record
  have hstatus : settledStatus r = settledStatus r' :=
    congrArg EscrowRecord.status (Option.some.inj hrecord)
  cases r <;> cases r' <;> first | rfl | exact EscrowStatus.noConfusion hstatus

theorem Settles.ne_setEscrow {votes : List (ArbitrationVote Address)} {e' : EscrowRecord Address}
    (h : Settles w id e r votes w') (hlive : e'.Live) : setEscrow w id e' ≠ w' := by
  rintro rfl
  have hrecord := h.record
  rw [setEscrow_escrow, Function.update_self] at hrecord
  rw [Option.some.inj hrecord] at hlive
  exact not_live_settled e r votes hlive

/-- The call that pays a live escrow out has met its guards. -/
theorem PaysOut.authority (h : PaysOut w env call id e r) (hn : Numbered w)
    (he : w.store.escrow id = some e) (hlive : e.Live) : Authority w env id e call r := by
  obtain ⟨w', votes, hcall, hpay⟩ := h
  -- a call about another escrow leaves this record live, so it pays nothing out here
  have hsubject : call.subject = some id := by
    by_contra hne
    have hrecord := (exec_effect hcall).frame hn he hne
    rw [Option.some.inj (hrecord.symm.trans hpay.record)] at hlive
    exact not_live_settled e r votes hlive
  cases call with
  | release caller k =>
    obtain rfl : k = id := Option.some.inj hsubject
    obtain ⟨hp, hs, e', he', hc, hstatus, hlt, hnow, hpay'⟩ := release_eq_ok.mp hcall
    obtain rfl := Option.some.inj (he.symm.trans he')
    obtain rfl := hpay'.resolution_eq hpay
    exact .release caller hp hs hc hstatus hlt hnow
  | refund caller k =>
    obtain rfl : k = id := Option.some.inj hsubject
    obtain ⟨hs, e', he', hc, _, hpay'⟩ := refund_eq_ok.mp hcall
    obtain rfl := Option.some.inj (he.symm.trans he')
    obtain rfl := hpay'.resolution_eq hpay
    exact .refund caller hs hc hlive
  | dispute depositor k hash =>
    obtain rfl : k = id := Option.some.inj hsubject
    obtain ⟨_, _, e', _, _, _, _, _, hset⟩ := dispute_eq_ok.mp hcall
    -- a dispute writes a live record, which no payout does
    exact absurd hset (hpay.ne_setEscrow (Or.inr rfl))
  | submitEvidence caller k hash =>
    obtain rfl : k = id := Option.some.inj hsubject
    obtain ⟨_, _, e', _, hstatus, _, hset⟩ := submitEvidence_eq_ok.mp hcall
    exact absurd hset (hpay.ne_setEscrow (Or.inr (by split_ifs <;> exact hstatus)))
  | voteResolution arbitrator k decision =>
    obtain rfl : k = id := Option.some.inj hsubject
    obtain ⟨hp, hs, e', he', hstatus, ha, hfresh, hvote⟩ := voteResolution_eq_ok.mp hcall
    obtain rfl := Option.some.inj (he.symm.trans he')
    split at hvote
    · next r' hdecided =>
      obtain rfl := Settles.resolution_eq hvote hpay
      exact .vote arbitrator decision r' hp hs hstatus ha hfresh hdecided
    · exact absurd hvote (hpay.ne_setEscrow (Or.inr hstatus))
  | expireDispute k =>
    obtain rfl : k = id := Option.some.inj hsubject
    obtain ⟨hp, e', he', hstatus, hlt, hnow, hpay'⟩ := expireDispute_eq_ok.mp hcall
    obtain rfl := Option.some.inj (he.symm.trans he')
    obtain rfl := hpay'.resolution_eq hpay
    exact .expire hp hstatus hlt hnow
  | tryAutoRelease caller k =>
    obtain rfl : k = id := Option.some.inj hsubject
    obtain ⟨hs, e', he', hstatus, hnow, hpay'⟩ := tryAutoRelease_eq_ok.mp hcall
    obtain rfl := Option.some.inj (he.symm.trans he')
    obtain rfl := hpay'.resolution_eq hpay
    exact .autoRelease caller hs hstatus hnow
  | _ => simp [Call.subject] at hsubject

/-- Under its guards a call pays the escrow out once the token accepts the transfer. -/
theorem Authority.paysOut (hauth : Authority w env id e call r)
    (he : w.store.escrow id = some e) (hlive : e.Live) {votes : List (ArbitrationVote Address)}
    (hpay : Settles w id e r votes w') : PaysOut w env call id e r := by
  -- whether the token accepts the transfer does not depend on the votes recorded with it
  obtain ⟨w₁, hkept⟩ := hpay.with_votes e.arbitrationVotes
  cases hauth with
  | release caller hp hs hc hstatus hlt hnow =>
    exact ⟨w₁, _, release_eq_ok.mpr ⟨hp, hs, e, he, hc, hstatus, hlt, hnow, hkept⟩, hkept⟩
  | refund caller hs hc _ =>
    exact ⟨w₁, _, refund_eq_ok.mpr ⟨hs, e, he, hc, hlive, hkept⟩, hkept⟩
  | vote arbitrator decision _ hp hs hstatus ha hfresh hdecided =>
    obtain ⟨w₂, hvoted⟩ := hpay.with_votes (e.arbitrationVotes ++ [⟨arbitrator, decision, w.now⟩])
    refine ⟨w₂, _, voteResolution_eq_ok.mpr ⟨hp, hs, e, he, hstatus, ha, hfresh, ?_⟩, hvoted⟩
    rw [hdecided]
    exact hvoted
  | expire hp hstatus hlt hnow =>
    exact ⟨w₁, _, expireDispute_eq_ok.mpr ⟨hp, e, he, hstatus, hlt, hnow, hkept⟩, hkept⟩
  | autoRelease caller hs hstatus hnow =>
    exact ⟨w₁, _, tryAutoRelease_eq_ok.mpr ⟨hs, e, he, hstatus, hnow, hkept⟩, hkept⟩

/-- A call pays a live escrow out exactly when its guards hold and the token accepts the
transfer. -/
theorem paysOut_iff (hn : Numbered w) (he : w.store.escrow id = some e) (hlive : e.Live) :
    PaysOut w env call id e r ↔
      Authority w env id e call r ∧ ∃ w' votes, Settles w id e r votes w' := by
  constructor
  · intro h
    have hauth := h.authority hn he hlive
    obtain ⟨w', votes, _, hpay⟩ := h
    exact ⟨hauth, w', votes, hpay⟩
  · rintro ⟨hauth, w', votes, hpay⟩
    exact hauth.paysOut he hlive hpay

/-- In a solvent contract over a token that rejects no covered transfer the guards decide. -/
theorem Solvent.paysOut_iff (hs : Solvent w) (htoken : C.token.Live)
    (he : w.store.escrow id = some e) (hlive : e.Live) :
    PaysOut w env call id e r ↔ Authority w env id e call r := by
  rw [Escrow.paysOut_iff hs.numbered he hlive, and_iff_left_iff_imp]
  intro _
  obtain ⟨w', h⟩ := hs.settles htoken he hlive r e.arbitrationVotes
  exact ⟨w', _, h⟩

end HubAssist.Escrow
