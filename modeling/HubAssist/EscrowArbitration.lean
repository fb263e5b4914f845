import HubAssist.EscrowWindow
import Mathlib.Data.Finset.Card

/-! Arbitration: the votes on an escrow against the arbitrators registered when they are
counted. Each vote is cast once and by a registered arbitrator; the list of arbitrators may
change between two votes. -/
namespace HubAssist.Escrow
open SorobanHost RunSystem TokenLedger

variable {Address : Type} [DecidableEq Address] {C : Chain Address}
variable {env : Env C} {w w' : EscrowWorld C} {call : Call Address}
variable {votes : List (ArbitrationVote Address)}

/-- Who has voted for `r`. -/
def voters (votes : List (ArbitrationVote Address)) (r : Resolution) : List Address :=
  (votes.filter fun vote => vote.decision = r).map (·.arbitrator)

/-- More than half of the distinct registered arbitrators have a vote for `r`. -/
def Majority (registered : List Address) (votes : List (ArbitrationVote Address))
    (r : Resolution) : Prop :=
  registered.toFinset.card < 2*(registered.toFinset.filter (· ∈ voters votes r)).card

/-- The votes are by different addresses. -/
def OnePerVoter (votes : List (ArbitrationVote Address)) : Prop :=
  (votes.map (·.arbitrator)).Nodup

omit [DecidableEq Address] in
theorem tallyVotes_eq (votes : List (ArbitrationVote Address)) :
    tallyVotes votes = ((voters votes .release).length, (voters votes .refund).length) := by
  have hloop (n : ℕ × ℕ) : votes.foldl countVote n =
      (n.1+(voters votes .release).length, n.2+(voters votes .refund).length) := by
    induction votes generalizing n with
    | nil => simp [voters]
    | cons vote votes ih =>
      rw [List.foldl_cons, ih]
      cases h : vote.decision <;> simp [voters, countVote, h] <;> omega
  exact (hloop (0, 0)).trans (by simp)

omit [DecidableEq Address] in
/-- What the votes decide has at least half of the list of arbitrators plus one behind it,
counted with whoever voted. -/
theorem decided_threshold {arbitrators : List Address} {r : Resolution}
    (h : decided arbitrators votes = some r) :
    majorityThreshold arbitrators ≤ (voters votes r).length := by
  rw [decided, tallyVotes_eq] at h
  split_ifs at h with h₁ h₂
  · obtain rfl := Option.some.inj h
    exact h₁
  · obtain rfl := Option.some.inj h
    exact h₂

/-- Votes that are all by registered arbitrators, one for each, decide by a majority. -/
theorem majority_of_decided {arbitrators : List Address} {r : Resolution}
    (hone : OnePerVoter votes) (hregistered : ∀ vote ∈ votes, vote.arbitrator ∈ arbitrators)
    (h : decided arbitrators votes = some r) : Majority arbitrators votes r := by
  -- the voters for `r` are distinct and registered, so the threshold counts distinct
  -- registered addresses; duplicates in the list only raise the threshold
  have hnodup : (voters votes r).Nodup := hone.sublist (List.filter_sublist.map _)
  have hsub : (voters votes r).toFinset ⊆ arbitrators.toFinset.filter (· ∈ voters votes r) := by
    intro a ha
    rw [List.mem_toFinset] at ha
    obtain ⟨vote, hvote, rfl⟩ := List.mem_map.mp ha
    rw [Finset.mem_filter, List.mem_toFinset]
    exact ⟨hregistered vote (List.mem_of_mem_filter hvote), ha⟩
  have hcard := Finset.card_le_card hsub
  rw [List.toFinset_card_of_nodup hnodup] at hcard
  have hlist := arbitrators.toFinset_card_le
  have hthreshold := decided_threshold h
  unfold majorityThreshold at hthreshold
  unfold Majority
  omega

/-- The arbitrator may vote on the escrow, and this is its first vote on it. -/
def Votable (w : EscrowWorld C) (arbitrator : Address) (e : EscrowRecord Address) : Prop :=
  e.status = .disputed ∧ arbitrator ∈ getArbitrators w ∧
    ∀ vote ∈ e.arbitrationVotes, vote.arbitrator ≠ arbitrator

theorem setEscrow_votes {id k : ℕ} {e e₁ e' : EscrowRecord Address}
    (he : w.store.escrow k = some e) (hvotes : e₁.arbitrationVotes = e.arbitrationVotes)
    (he' : (setEscrow w k e₁).store.escrow id = some e') :
    ∃ e, w.store.escrow id = some e ∧ e'.arbitrationVotes = e.arbitrationVotes := by
  rcases setEscrow_cases he' with ⟨rfl, rfl⟩ | hold
  · exact ⟨e, he, hvotes⟩
  · exact ⟨e', hold, rfl⟩

theorem Settles.votes_cases {id k : ℕ} {e e' : EscrowRecord Address} {r : Resolution}
    (h : Settles w k e r votes w') (he' : w'.store.escrow id = some e') :
    (id = k ∧ e'.arbitrationVotes = votes) ∨ w.store.escrow id = some e' := by
  obtain ⟨t, _, rfl⟩ := h
  rcases setEscrow_cases he' with ⟨rfl, rfl⟩ | hold
  · exact Or.inl ⟨rfl, rfl⟩
  · exact Or.inr hold

theorem Settles.votes_kept {id k : ℕ} {e e' : EscrowRecord Address} {r : Resolution}
    (h : Settles w k e r e.arbitrationVotes w') (he : w.store.escrow k = some e)
    (he' : w'.store.escrow id = some e') :
    ∃ e, w.store.escrow id = some e ∧ e'.arbitrationVotes = e.arbitrationVotes := by
  rcases h.votes_cases he' with ⟨rfl, hvotes⟩ | hkept
  · exact ⟨e, he, hvotes⟩
  · exact ⟨e', hkept, rfl⟩

/-- Only a vote changes the votes on an escrow that exists: it adds one. -/
theorem exec_votes (h : exec env call w = .ok w') {id : ℕ} {e' : EscrowRecord Address}
    (he' : w'.store.escrow id = some e') :
    e'.arbitrationVotes = [] ∨
      (∃ e, w.store.escrow id = some e ∧ e'.arbitrationVotes = e.arbitrationVotes) ∨
      ∃ arbitrator decision e, call = .voteResolution arbitrator id decision ∧
        w.store.escrow id = some e ∧ Votable w arbitrator e ∧
        e'.arbitrationVotes = e.arbitrationVotes ++ [⟨arbitrator, decision, w.now⟩] := by
  cases call with
  | createEscrow depositor beneficiary amount time type =>
    obtain ⟨⟨k, w₁⟩, hc, rfl⟩ := map_eq_ok.mp h
    obtain ⟨_, _, _, token, _, t, _, _, _, rfl⟩ := createEscrow_eq_ok.mp hc
    rcases StorageMap.update_cases he' with ⟨_, hnew⟩ | ⟨_, hold⟩
    · obtain rfl := Option.some.inj hnew
      exact Or.inl rfl
    · exact Or.inr (Or.inl ⟨e', hold, rfl⟩)
  | release caller k =>
    obtain ⟨_, _, e, he, _, _, _, _, hpay⟩ := release_eq_ok.mp h
    exact Or.inr (Or.inl (hpay.votes_kept he he'))
  | refund caller k =>
    obtain ⟨_, e, he, _, _, hpay⟩ := refund_eq_ok.mp h
    exact Or.inr (Or.inl (hpay.votes_kept he he'))
  | dispute depositor k hash =>
    obtain ⟨_, _, e, he, _, _, _, _, rfl⟩ := dispute_eq_ok.mp h
    exact Or.inr (Or.inl (setEscrow_votes he (by rfl) he'))
  | submitEvidence caller k hash =>
    obtain ⟨_, _, e, he, _, _, rfl⟩ := submitEvidence_eq_ok.mp h
    exact Or.inr (Or.inl (setEscrow_votes he (by split_ifs <;> rfl) he'))
  | expireDispute k =>
    obtain ⟨_, e, he, _, _, _, hpay⟩ := expireDispute_eq_ok.mp h
    exact Or.inr (Or.inl (hpay.votes_kept he he'))
  | tryAutoRelease caller k =>
    obtain ⟨_, e, he, _, _, hpay⟩ := tryAutoRelease_eq_ok.mp h
    exact Or.inr (Or.inl (hpay.votes_kept he he'))
  | voteResolution arbitrator k decision =>
    obtain ⟨_, _, e, he, hstatus, ha, hfresh, hvote⟩ := voteResolution_eq_ok.mp h
    right
    by_cases hid : id = k
    · subst hid
      refine Or.inr ⟨arbitrator, decision, e, rfl, he, ⟨hstatus, ha, hfresh⟩, ?_⟩
      split at hvote
      · rw [Option.some.inj (he'.symm.trans (Settles.record hvote))]
      · subst hvote
        rw [setEscrow_escrow, Function.update_self] at he'
        rw [← Option.some.inj he']
    -- another escrow than the one voted on keeps its votes
    · refine Or.inl ⟨e', ?_, rfl⟩
      split at hvote
      · exact (Settles.votes_cases hvote he').resolve_left fun h => hid h.1
      · subst hvote
        rwa [setEscrow_escrow, Function.update_of_ne hid] at he'
  | _ =>
    -- what is left configures the contract
    rw [(exec_effect h).escrow_kept rfl (by simp)] at he'
    exact Or.inr (Or.inl ⟨e', he', rfl⟩)

/-- Whenever a vote settles the escrow, a majority of the arbitrators registered at that
moment has voted for what it settled. -/
def MajorityDecides (w : EscrowWorld C) : Action C (Call Address) → Prop
  | .invoke env (.voteResolution arbitrator id decision) => ∀ w' e' r,
    exec env (.voteResolution arbitrator id decision) w = .ok w' →
      w'.store.escrow id = some e' → e'.status = settledStatus r →
        Majority (getArbitrators w) e'.arbitrationVotes r
  | _ => True

/-- When a vote is cast on a disputed escrow, whoever has voted on it before is still
registered. -/
def ElectorateKept (w : EscrowWorld C) : Action C (Call Address) → Prop
  | .invoke env (.voteResolution arbitrator id _) => ∀ e, w.store.escrow id = some e →
    ¬Paused w → arbitrator ∈ env.signers → Votable w arbitrator e →
      ∀ vote ∈ e.arbitrationVotes, vote.arbitrator ∈ getArbitrators w
  | _ => True

/-- The action casts `vote` on escrow `id`, by an arbitrator registered at that moment. -/
def VoteCast (id : ℕ) (vote : ArbitrationVote Address) (w : EscrowWorld C)
    (a : Action C (Call Address)) : Prop :=
  ∃ env w', a = .invoke env (.voteResolution vote.arbitrator id vote.decision) ∧
    exec env (.voteResolution vote.arbitrator id vote.decision) w = .ok w' ∧
    vote.timestamp = w.now ∧ vote.arbitrator ∈ getArbitrators w

/-- The votes on each escrow are by different addresses. -/
def VotesDistinct (w : EscrowWorld C) : Prop :=
  ∀ id e, w.store.escrow id = some e → OnePerVoter e.arbitrationVotes

omit [DecidableEq Address] in
theorem OnePerVoter.concat {vote : ArbitrationVote Address} (h : OnePerVoter votes)
    (hfresh : ∀ v ∈ votes, v.arbitrator ≠ vote.arbitrator) : OnePerVoter (votes ++ [vote]) := by
  rw [OnePerVoter, List.map_append, List.map_singleton, List.nodup_append]
  refine ⟨h, List.nodup_singleton _, fun a ha b hb => ?_⟩
  obtain ⟨v, hv, rfl⟩ := List.mem_map.mp ha
  rw [List.mem_singleton.mp hb]
  exact hfresh v hv

theorem VotesDistinct.kept (hw : VotesDistinct w) (h : exec env call w = .ok w') :
    VotesDistinct w' := by
  intro id e' he'
  rcases exec_votes h he' with hnil | ⟨e, he, hvotes⟩ | ⟨a, d, e, _, he, hv, hvotes⟩
  · rw [hnil]
    exact List.nodup_nil
  · rw [hvotes]
    exact hw id e he
  · rw [hvotes]
    exact (hw id e he).concat hv.2.2

theorem VotesDistinct.step (hw : VotesDistinct w) (a : Action C (Call Address)) :
    VotesDistinct (step exec w a) :=
  step_keeps VotesDistinct hw (fun _ _ _ _ h => hw.kept h) (fun _ _ => hw) fun _ _ _ _ => hw

theorem ElectorateKept.majority (hw : VotesDistinct w) {a : Action C (Call Address)}
    (h : ElectorateKept w a) : MajorityDecides w a := by
  cases a with
  | tick => trivial
  | external => trivial
  | invoke env call =>
    cases call with
    | voteResolution arbitrator id decision =>
      intro w' e' r hcall he' hstatus
      obtain ⟨hp, hs, e, he, hdisputed, ha, hfresh, hvote⟩ := voteResolution_eq_ok.mp hcall
      split at hvote
      · next r' hdecided =>
        obtain rfl := Option.some.inj (he'.symm.trans (Settles.record hvote))
        have hr : settledStatus r' = settledStatus r := hstatus
        obtain rfl : r' = r := by
          cases r' <;> cases r <;> first | rfl | exact EscrowStatus.noConfusion hr
        refine majority_of_decided ((hw id e he).concat hfresh) (fun vote hmem => ?_) hdecided
        rcases List.mem_append.mp hmem with hmem | hmem
        · exact h e he hp hs ⟨hdisputed, ha, hfresh⟩ vote hmem
        · rw [List.mem_singleton.mp hmem]
          exact ha
      · subst hvote
        rw [setEscrow_escrow, Function.update_self] at he'
        rw [← Option.some.inj he', hdisputed] at hstatus
        cases r <;> exact EscrowStatus.noConfusion hstatus
    | _ => trivial

/-- Every recorded vote has been cast in the run by an arbitrator registered at that time. -/
def VotesCast (d : Deployment C) (w : EscrowWorld C) (as : List (Action C (Call Address))) : Prop :=
  ∀ id e, w.store.escrow id = some e → ∀ vote ∈ e.arbitrationVotes,
    Occurred (step exec) (VoteCast id vote) d.start as

theorem VotesCast.step {d : Deployment C} {as : List (Action C (Call Address))}
    (h : VotesCast d (run exec d.start as) as) (a : Action C (Call Address)) :
    VotesCast d (step exec (run exec d.start as) a) (as ++ [a]) := by
  -- what has occurred stays so when the run goes on
  have hold : VotesCast d (run exec d.start as) (as ++ [a]) :=
    fun id e he vote hvote => (h id e he vote hvote).append _ [a]
  refine step_keeps (VotesCast d · (as ++ [a])) hold ?_ (fun _ _ => hold) fun _ _ _ _ => hold
  rintro env call w' rfl hcall id e' he' vote hvote
  rcases exec_votes hcall he' with hnil | ⟨e, he, hvotes⟩ | ⟨b, dec, e, rfl, he, hv, hvotes⟩
  · simp [hnil] at hvote
  · exact hold id e he vote (hvotes ▸ hvote)
  · rw [hvotes] at hvote
    rcases List.mem_append.mp hvote with hvote | hvote
    · exact hold id e he vote hvote
    · rw [List.mem_singleton.mp hvote]
      exact occurred_last (SorobanHost.step exec) ⟨env, w', rfl, hcall, rfl, hv.2.1⟩

theorem votesCast_run (d : Deployment C) (as : List (Action C (Call Address))) :
    VotesCast d (run exec d.start as) as := by
  have hstart : VotesCast d d.start [] :=
    fun id e he => absurd he (by simp [Deployment.start, Deployment.deployed, Storage.empty])
  exact history_invariant (step exec) hstart (fun _ a h => h.step a) as

theorem votesDistinct_run (d : Deployment C) (as : List (Action C (Call Address))) :
    VotesDistinct (run exec d.start as) := by
  have hstart : VotesDistinct d.start :=
    fun id e he => absurd he (by simp [Deployment.start, Deployment.deployed, Storage.empty])
  exact run_invariant_all (step exec) (fun _ a hv => hv.step a) hstart as

/-- Votes are by different addresses that were registered when they voted, in every run; and
they decide by a majority of the registered arbitrators in every run in which no vote is
counted after its arbitrator has been removed. -/
theorem arbitration_majority_run (d : Deployment C) (as : List (Action C (Call Address))) :
    (Guarded (step exec) ElectorateKept d.start as →
        Guarded (step exec) MajorityDecides d.start as) ∧
      VotesDistinct (run exec d.start as) ∧ VotesCast d (run exec d.start as) as := by
  refine ⟨fun hkept => ?_, votesDistinct_run d as, votesCast_run d as⟩
  exact guarded_of_invariant (step exec) (fun _ a hv => hv.step a) (fun _ _ hv h => h.majority hv)
    (votesDistinct_run d []) hkept

/-- The deposit in dispute before the arbitrators 5, 6 and 7, one of whom has voted. -/
def firstVote : List (Action numberedChain (Call ℕ)) :=
  oneDeposit ++ [.invoke (signedBy 0) (.setArbitrators 1 [5, 6, 7]),
    .invoke (signedBy 1) (.dispute 2 1 0), .invoke (signedBy 4) (.voteResolution 5 1 .release)]

def firstVoteRecord : EscrowRecord ℕ :=
  { depositedRecord with status := .disputed, arbitrationVotes := [⟨5, .release, 0⟩] }

theorem arbitration_majority_secondVote :
    MajorityDecides (run exec smallDeployment.start firstVote)
        (.invoke (signedBy 5) (.voteResolution 6 1 .release)) ∧
      ((run exec smallDeployment.start
        (firstVote ++ [.invoke (signedBy 5) (.voteResolution 6 1 .release)])).store.escrow 1).map
          (·.status) = some .released := by
  refine ⟨?_, by decide⟩
  have hkept : Guarded (step exec) ElectorateKept smallDeployment.start
      (firstVote ++ [.invoke (signedBy 5) (.voteResolution 6 1 .release)]) := by
    refine ⟨trivial, trivial, trivial, fun e he _ _ _ vote hvote => ?_,
      fun e he _ _ _ vote hvote => ?_, trivial⟩
    · have hrecord : e.arbitrationVotes = [] := by rw [← Option.some.inj he]; rfl
      simp [hrecord] at hvote
    · have hrecord : e = firstVoteRecord := (Option.some.inj he).symm
      rw [hrecord] at hvote
      rw [List.mem_singleton.mp hvote]
      decide
  have hmajority := (arbitration_majority_run smallDeployment _).1 hkept
  exact (guarded_iff_steps (step exec) _ _ _).mp hmajority firstVote _ [] rfl

/-- Once 5 has been removed, the vote of 6 releases the deposit, though 7 has not voted and
no other registered arbitrator has. -/
theorem majority_of_removed :
    ¬Guarded (step exec) MajorityDecides smallDeployment.start
      (firstVote ++ [.invoke (signedBy 0) (.setArbitrators 1 [6, 7]),
        .invoke (signedBy 5) (.voteResolution 6 1 .release)]) := by
  intro h
  have hlast := (guarded_iff_steps (step exec) _ _ _).mp h
    (firstVote ++ [.invoke (signedBy 0) (.setArbitrators 1 [6, 7])])
    (.invoke (signedBy 5) (.voteResolution 6 1 .release)) [] rfl
  have hmajority := hlast _ { firstVoteRecord with
    status := .released
    arbitrationVotes := [⟨5, .release, 0⟩, ⟨6, .release, 0⟩] } .release rfl (by decide) rfl
  revert hmajority
  unfold Majority
  decide

end HubAssist.Escrow
