import HubAssist.EscrowCustody

/-! What becomes of one escrow record in a run: what it is given stays, its status moves one way,
its votes only grow, and the times written on it are in order. -/
namespace HubAssist.Escrow
open SorobanHost RunSystem StorageMap TokenLedger

variable {Address : Type} [DecidableEq Address] {C : Chain Address}
variable {env : Env C} {w w' : EscrowWorld C} {call : Call Address}
variable {now : ℕ} {e e' : EscrowRecord Address}

/-- What a call at the time `now` makes of a record. -/
inductive Moves (now : ℕ) (e : EscrowRecord Address) : EscrowRecord Address → Prop where
  | dispute (hash : Hash) (hactive : e.status = .active)
      (hwindow : now ≤ e.releaseTime+e.disputeWindow) :
      Moves now e { e with
        status := .disputed
        disputeTimestamp := now
        depositorEvidenceHash := hash }
  | evidence (h₁ h₂ : Hash) (hdisputed : e.status = .disputed) :
      Moves now e { e with depositorEvidenceHash := h₁, beneficiaryEvidenceHash := h₂ }
  | vote (v : ArbitrationVote Address) (hdisputed : e.status = .disputed)
      (hnow : v.timestamp = now) :
      Moves now e { e with arbitrationVotes := e.arbitrationVotes ++ [v] }
  | settle (r : Resolution) (votes : List (ArbitrationVote Address)) (hlive : e.Live)
      (hvotes : votes = e.arbitrationVotes ∨ e.status = .disputed ∧
        ∃ v, votes = e.arbitrationVotes ++ [v] ∧ v.timestamp = now) :
      Moves now e { e with arbitrationVotes := votes, status := settledStatus r }

/-- A record as it is opened. -/
structure Fresh (now : ℕ) (e : EscrowRecord Address) : Prop where
  active : e.status = .active
  created : e.createdAt = now
  undisputed : e.disputeTimestamp = 0
  votes : e.arbitrationVotes = []

/-- What a call at the time `now` makes of what is stored under one id. -/
inductive Turn (now : ℕ) :
    Option (EscrowRecord Address) → Option (EscrowRecord Address) → Prop where
  | same (o : Option (EscrowRecord Address)) : Turn now o o
  | opened (e : EscrowRecord Address) (hfresh : Fresh now e) : Turn now none (some e)
  | moved (e e' : EscrowRecord Address) (hmove : Moves now e e') : Turn now (some e) (some e')

theorem turn_setEscrow {v : EscrowWorld C} {k : ℕ} (hv : v.store.escrow = w.store.escrow)
    (he : w.store.escrow k = some e) (hmove : Moves now e e') (id : ℕ) :
    Turn now (w.store.escrow id) ((setEscrow v k e').store.escrow id) := by
  rw [setEscrow_escrow, hv]
  by_cases hid : id = k
  · rw [hid, Function.update_self, he]
    exact .moved e e' hmove
  · rw [Function.update_of_ne hid]
    exact .same _

theorem turn_settles {k : ℕ} {r : Resolution} {votes : List (ArbitrationVote Address)}
    (h : Settles w k e r votes w') (he : w.store.escrow k = some e) (hlive : e.Live)
    (hvotes : votes = e.arbitrationVotes ∨ e.status = .disputed ∧
      ∃ v, votes = e.arbitrationVotes ++ [v] ∧ v.timestamp = now) (id : ℕ) :
    Turn now (w.store.escrow id) (w'.store.escrow id) := by
  obtain ⟨t, _, rfl⟩ := h
  exact turn_setEscrow (v := w.paid (payout C e r) t) rfl he (.settle r votes hlive hvotes) id

theorem exec_turn (hn : Numbered w) (h : exec env call w = .ok w') (id : ℕ) :
    Turn w.now (w.store.escrow id) (w'.store.escrow id) := by
  cases call with
  | createEscrow depositor beneficiary amount time type =>
    obtain ⟨⟨k, w₁⟩, hc, rfl⟩ := map_eq_ok.mp h
    obtain ⟨_, _, _, token, _, t, _, _, rfl, rfl⟩ := createEscrow_eq_ok.mp hc
    by_cases hid : id = w.store.escrowCount.getD 0+1
    · have hnone : w.store.escrow id = none := hid ▸ hn.fresh
      rw [hnone]
      simp only [World.setStore_store, hid, Function.update_self]
      exact .opened _ ⟨rfl, rfl, rfl, rfl⟩
    · simp only [World.setStore_store, Function.update_of_ne hid]
      exact .same _
  | release caller k =>
    obtain ⟨_, _, e, he, _, hstatus, _, _, hpay⟩ := release_eq_ok.mp h
    exact turn_settles hpay he (Or.inl hstatus) (Or.inl rfl) id
  | refund caller k =>
    obtain ⟨_, e, he, _, hlive, hpay⟩ := refund_eq_ok.mp h
    exact turn_settles hpay he hlive (Or.inl rfl) id
  | dispute depositor k hash =>
    obtain ⟨_, _, e, he, _, hstatus, _, hnow, rfl⟩ := dispute_eq_ok.mp h
    exact turn_setEscrow rfl he (.dispute hash hstatus hnow) id
  | submitEvidence caller k hash =>
    obtain ⟨_, _, e, he, hstatus, _, rfl⟩ := submitEvidence_eq_ok.mp h
    apply turn_setEscrow rfl he
    split_ifs
    · exact .evidence hash e.beneficiaryEvidenceHash hstatus
    · exact .evidence e.depositorEvidenceHash hash hstatus
  | expireDispute k =>
    obtain ⟨_, e, he, hstatus, _, _, hpay⟩ := expireDispute_eq_ok.mp h
    exact turn_settles hpay he (Or.inr hstatus) (Or.inl rfl) id
  | tryAutoRelease caller k =>
    obtain ⟨_, e, he, hstatus, _, hpay⟩ := tryAutoRelease_eq_ok.mp h
    exact turn_settles hpay he (Or.inl hstatus) (Or.inl rfl) id
  | voteResolution arbitrator k decision =>
    obtain ⟨_, _, e, he, hstatus, _, _, hvote⟩ := voteResolution_eq_ok.mp h
    split at hvote
    · exact turn_settles hvote he (Or.inr hstatus) (Or.inr ⟨hstatus, _, rfl, rfl⟩) id
    · subst hvote
      exact turn_setEscrow rfl he (.vote ⟨arbitrator, decision, w.now⟩ hstatus rfl) id
  | _ =>
    -- what is left configures the contract
    rw [(exec_effect h).escrow_kept rfl (by simp)]
    exact .same _

/-- What may have become of the record `e`. -/
structure Follows (e e' : EscrowRecord Address) : Prop where
  terms : e'.terms = e.terms
  active : e'.status = .active → e' = e
  settled : ¬e.Live → e' = e
  votes : e.arbitrationVotes <+: e'.arbitrationVotes
  since : e.status ≠ .active → e'.disputeTimestamp = e.disputeTimestamp

omit [DecidableEq Address] in
theorem Follows.refl (e : EscrowRecord Address) : Follows e e :=
  ⟨rfl, fun _ => rfl, fun _ => rfl, List.prefix_rfl, fun _ => rfl⟩

omit [DecidableEq Address] in
theorem Follows.trans {e'' : EscrowRecord Address} (h : Follows e e') (h' : Follows e' e'') :
    Follows e e'' := by
  refine ⟨h'.terms.trans h.terms, fun hactive => ?_, fun hsettled => ?_, h.votes.trans h'.votes,
    fun hstatus => ?_⟩
  · obtain rfl := h'.active hactive
    exact h.active hactive
  · obtain rfl := h.settled hsettled
    exact h'.settled hsettled
  · by_cases hactive : e'.status = .active
    · obtain rfl := h.active hactive
      exact absurd hactive hstatus
    · exact (h'.since hactive).trans (h.since hstatus)

omit [DecidableEq Address] in
theorem Moves.follows (h : Moves now e e') : Follows e e' := by
  cases h with
  | dispute hash hactive _ =>
    exact ⟨rfl, fun h => absurd h (by simp), fun h => absurd (Or.inl hactive) h, List.prefix_rfl,
      fun h => absurd hactive h⟩
  | evidence h₁ h₂ hdisputed =>
    exact ⟨rfl, fun h => absurd (hdisputed.symm.trans h) (by simp),
      fun h => absurd (Or.inr hdisputed) h, List.prefix_rfl, fun _ => rfl⟩
  | vote v hdisputed _ =>
    exact ⟨rfl, fun h => absurd (hdisputed.symm.trans h) (by simp),
      fun h => absurd (Or.inr hdisputed) h, List.prefix_append _ _, fun _ => rfl⟩
  | settle r votes hlive hvotes =>
    refine ⟨rfl, fun h => ?_, fun h => absurd hlive h, ?_, fun _ => rfl⟩
    · cases r <;> exact EscrowStatus.noConfusion h
    · rcases hvotes with rfl | ⟨_, v, rfl, _⟩
      · exact List.prefix_rfl
      · exact List.prefix_append _ _

omit [DecidableEq Address] in
theorem Turn.follows {o o' : Option (EscrowRecord Address)} (h : Turn now o o')
    (ho : o = some e) : ∃ e', o' = some e' ∧ Follows e e' := by
  cases h with
  | same o => exact ⟨e, ho, .refl e⟩
  | opened e₁ hfresh => exact absurd ho (by simp)
  | moved e₁ e' hmove =>
    obtain rfl := Option.some.inj ho
    exact ⟨e', rfl, hmove.follows⟩

/-- The records of `w'` are what has become of those of `w`. -/
def RecordsFollow (w w' : EscrowWorld C) : Prop :=
  ∀ id e, w.store.escrow id = some e → ∃ e', w'.store.escrow id = some e' ∧ Follows e e'

theorem recordsFollow_step (hn : Numbered w) (a : Action C (Call Address)) :
    Numbered (step exec w a) ∧ RecordsFollow w (step exec w a) := by
  have hsame : Numbered w ∧ RecordsFollow w w := ⟨hn, fun id e he => ⟨e, he, .refl e⟩⟩
  refine step_keeps (fun v => Numbered v ∧ RecordsFollow w v) hsame ?_ (fun _ _ => hsame)
    fun _ _ _ _ => hsame
  intro env call w' _ hcall
  refine ⟨(exec_effect hcall).numbered hn, fun id e he => ?_⟩
  exact (exec_turn hn hcall id).follows he

/-- Once opened, an escrow keeps its terms, is disputed at most once and at one time, keeps every
vote that it was given, and is final when it is settled. -/
theorem record_history_run (d : Deployment C) (as bs : List (Action C (Call Address))) :
    RecordsFollow (run exec d.start as) (run exec d.start (as ++ bs)) := by
  change RecordsFollow (RunSystem.run (step exec) d.start as)
    (RunSystem.run (step exec) d.start (as ++ bs))
  rw [run_append]
  have hnumbered : Numbered (RunSystem.run (step exec) d.start as) :=
    run_invariant_all (step exec) (I := Numbered) (fun _ a h => (recordsFollow_step h a).1)
      d.start_numbered as
  generalize RunSystem.run (step exec) d.start as = v at hnumbered ⊢
  have hstart : Numbered v ∧ RecordsFollow v v := ⟨hnumbered, fun id e he => ⟨e, he, .refl e⟩⟩
  refine (run_invariant_all (step exec) (I := fun u => Numbered u ∧ RecordsFollow v u)
    (fun u a hu => ?_) hstart bs).2
  obtain ⟨hn, hstep⟩ := recordsFollow_step hu.1 a
  refine ⟨hn, fun id e he => ?_⟩
  obtain ⟨e', he', hfollows⟩ := hu.2 id e he
  obtain ⟨e'', he'', hfollows'⟩ := hstep id e' he'
  exact ⟨e'', he'', hfollows.trans hfollows'⟩

/-- The times on a record are in order: it is opened, disputed in its window, and voted on. -/
structure Dated (now : ℕ) (e : EscrowRecord Address) : Prop where
  created : e.createdAt ≤ now
  active : e.status = .active → e.arbitrationVotes = []
  disputed : e.status = .disputed ∨ e.arbitrationVotes ≠ [] →
    e.createdAt ≤ e.disputeTimestamp ∧ e.disputeTimestamp ≤ now ∧
      e.disputeTimestamp ≤ e.releaseTime+e.disputeWindow
  votes : ∀ vote ∈ e.arbitrationVotes, e.disputeTimestamp ≤ vote.timestamp ∧ vote.timestamp ≤ now
  order : e.arbitrationVotes.Pairwise fun v v' => v.timestamp ≤ v'.timestamp

omit [DecidableEq Address] in
theorem Dated.later {now' : ℕ} (h : Dated now e) (hle : now ≤ now') : Dated now' e := by
  refine ⟨h.created.trans hle, h.active, fun hd => ?_, fun vote hvote => ?_, h.order⟩
  · obtain ⟨hafter, hbefore, hwindow⟩ := h.disputed hd
    exact ⟨hafter, hbefore.trans hle, hwindow⟩
  · obtain ⟨hafter, hbefore⟩ := h.votes vote hvote
    exact ⟨hafter, hbefore.trans hle⟩

omit [DecidableEq Address] in
/-- A vote cast now comes after all others. -/
theorem Dated.vote (h : Dated now e) (hdisputed : e.status = .disputed)
    {v : ArbitrationVote Address} (hnow : v.timestamp = now) (status : EscrowStatus)
    (hstatus : status ≠ .active) :
    Dated now { e with arbitrationVotes := e.arbitrationVotes ++ [v], status := status } := by
  have hd := h.disputed (Or.inl hdisputed)
  refine ⟨h.created, fun h => absurd h hstatus, fun _ => hd, fun vote hvote => ?_, ?_⟩
  · rcases List.mem_append.mp hvote with hold | hnew
    · exact h.votes vote hold
    · rw [List.mem_singleton.mp hnew, hnow]
      exact ⟨hd.2.1, Nat.le_refl now⟩
  · rw [List.pairwise_append]
    refine ⟨h.order, List.pairwise_singleton _ _, fun vote hvote v' hv' => ?_⟩
    rw [List.mem_singleton.mp hv', hnow]
    exact (h.votes vote hvote).2

omit [DecidableEq Address] in
theorem settledStatus_ne_active (r : Resolution) : settledStatus r ≠ .active := by
  cases r <;> simp [settledStatus]

omit [DecidableEq Address] in
theorem Dated.moves (h : Dated now e) (hmove : Moves now e e') : Dated now e' := by
  cases hmove with
  | dispute hash hactive hwindow =>
    have hnone := h.active hactive
    refine ⟨h.created, fun _ => hnone, fun _ => ⟨h.created, Nat.le_refl now, hwindow⟩,
      fun vote hvote => ?_, h.order⟩
    exact absurd hvote (by simp [hnone])
  | evidence h₁ h₂ hdisputed => exact ⟨h.created, h.active, h.disputed, h.votes, h.order⟩
  | vote v hdisputed hnow =>
    exact h.vote hdisputed hnow e.status (by simp [hdisputed])
  | settle r votes hlive hvotes =>
    have hsettled := settledStatus_ne_active r
    rcases hvotes with rfl | ⟨hdisputed, v, rfl, hnow⟩
    · refine ⟨h.created, fun hactive => absurd hactive hsettled, fun hd => ?_, h.votes, h.order⟩
      rcases hd with hd | hd
      · cases r <;> exact EscrowStatus.noConfusion hd
      · exact h.disputed (Or.inr hd)
    · exact h.vote hdisputed hnow (settledStatus r) hsettled

theorem Effect.now_eq (h : Effect w call w') : w'.now = w.now := by
  cases h with
  | configure => rfl
  | deposit => rfl
  | amend => rfl
  | settle id e r votes _ _ _ _ hpay =>
    obtain ⟨t, _, rfl⟩ := hpay
    rfl

def RecordsDated (w : EscrowWorld C) : Prop :=
  ∀ id e, w.store.escrow id = some e → Dated w.now e

theorem RecordsDated.accepted (h : RecordsDated w) (hn : Numbered w)
    (hcall : exec env call w = .ok w') : RecordsDated w' := by
  intro id e' he'
  rw [(exec_effect hcall).now_eq]
  have hturn := exec_turn hn hcall id
  rw [he'] at hturn
  cases hold : w.store.escrow id with
  | none =>
    rw [hold] at hturn
    cases hturn with
    | opened e hfresh =>
      refine ⟨hfresh.created.le, fun _ => hfresh.votes, fun hd => ?_, ?_, ?_⟩
      · rcases hd with hd | hd
        · exact absurd (hfresh.active.symm.trans hd) (by simp)
        · exact absurd hfresh.votes hd
      · simp [hfresh.votes]
      · simp [hfresh.votes]
  | some e =>
    have hdated := h id e hold
    rw [hold] at hturn
    cases hturn with
    | same => exact hdated
    | moved _ _ hmove => exact hdated.moves hmove

/-- In every state that is reached, the times on every record are in order. -/
theorem records_dated_run (d : Deployment C) (as : List (Action C (Call Address))) :
    RecordsDated (run exec d.start as) := by
  have hstart : Numbered d.start ∧ RecordsDated d.start :=
    ⟨d.start_numbered,
      fun id e he => absurd he (by simp [Deployment.start, Deployment.deployed, Storage.empty])⟩
  have hstep (v : EscrowWorld C) (a : Action C (Call Address)) (hv : Numbered v ∧ RecordsDated v) :
      Numbered (step exec v a) ∧ RecordsDated (step exec v a) := by
    refine step_keeps (fun v => Numbered v ∧ RecordsDated v) hv ?_ ?_ fun _ _ _ _ => hv
    · intro env call v' _ hcall
      exact ⟨(exec_effect hcall).numbered hv.1, hv.2.accepted hv.1 hcall⟩
    · intro seconds _
      exact ⟨hv.1, fun id e he => (hv.2 id e he).later (Nat.le_add_right _ _)⟩
  exact (run_invariant_all (step exec) hstep hstart as).2

end HubAssist.Escrow
