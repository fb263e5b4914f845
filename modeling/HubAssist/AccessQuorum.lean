import HubAssist.AccessCoalition

/-! Who stands behind an executed proposal: each of its approvals goes back to a call that the
approver signed as staff, no approver is counted twice, and no proposal is executed twice. -/
namespace HubAssist.Access
open SorobanHost RunSystem StorageMap

variable {Address : Type} [DecidableEq Address] {C : Chain Address}
variable {env : Env C} {w w' : AccessWorld C} {call : Call Address}
variable {id n : ℕ} {approver : Address} {d : Deployment C} {as : List (Action C (Call Address))}

@[simp] theorem applyAction_proposal (s : Storage Address) (now : ℕ)
    (action : ProposalAction Address) : (applyAction s now action).proposal = s.proposal := by
  cases action <;> rfl

@[simp] theorem applyAction_proposalCount (s : Storage Address) (now : ℕ)
    (action : ProposalAction Address) :
    (applyAction s now action).proposalCount = s.proposalCount := by
  cases action <;> rfl

@[simp] theorem applyAction_config (s : Storage Address) (now : ℕ)
    (action : ProposalAction Address) : (applyAction s now action).config = s.config := by
  cases action <;> rfl

/-- The number of the latest proposal. -/
def lastProposalId (w : AccessWorld C) : ℕ := w.store.proposalCount.getD 0

/-- The step is an accepted call that gives the proposal `id` its `n`-th approval, the one of
`approver`: it opens the proposal or approves it. -/
def AddsApproval (id n : ℕ) (approver : Address) (w : AccessWorld C) :
    Action C (Call Address) → Prop
  | .invoke env (.createProposal proposer action) => proposer = approver ∧ n = 1 ∧
    id = lastProposalId w+1 ∧ ∃ w', exec env (.createProposal proposer action) w = .ok w'
  | .invoke env (.approveProposal caller k) => caller = approver ∧ k = id ∧
    (∃ p, w.store.proposal id = some p ∧ n = p.approvals.length+1) ∧
      ∃ w', exec env (.approveProposal caller k) w = .ok w'
  | _ => False

/-- `approver` has given the proposal `id` its approval, signed and with a role of at least
staff at that moment. -/
def ApprovedAsStaff (d : Deployment C) (as : List (Action C (Call Address))) (id : ℕ)
    (approver : Address) : Prop :=
  ∃ n, Occurred (step exec) (fun w a => AddsApproval id n approver w a ∧
    (∃ env call, a = .invoke env call ∧ approver ∈ env.signers) ∧ checkAccess w approver .staff)
      d.start as

/-- The step is an accepted execution of the proposal `id`. -/
def Executes (id : ℕ) (w : AccessWorld C) : Action C (Call Address) → Prop
  | .invoke env (.executeProposal executor k) =>
    k = id ∧ ∃ w', exec env (.executeProposal executor k) w = .ok w'
  | _ => False

/-- Whenever a proposal is executed, its approvals are of different addresses and no fewer than
the configuration asks for at that moment, and each approver `stands` behind it. -/
def QuorumStands (d : Deployment C) (as : List (Action C (Call Address)))
    (stands : List (Action C (Call Address)) → ℕ → Address → Prop) : Prop :=
  ∀ pre a post id, as = pre ++ a :: post → Executes id (run exec d.start pre) a →
    ∃ p, (run exec d.start pre).store.proposal id = some p ∧ p.approvals.Nodup ∧
      required (loadConfig (run exec d.start pre)).multisig p.action ≤ p.approvals.length ∧
      ∀ approver ∈ p.approvals, stands pre id approver

/-- No two steps of the run execute the same proposal. -/
def ExecutedOnce (d : Deployment C) (as : List (Action C (Call Address))) : Prop :=
  ∀ pre a mid b post id, as = pre ++ a :: (mid ++ b :: post) →
    Executes id (run exec d.start pre) a → ¬Executes id (run exec d.start (pre ++ a :: mid)) b

/-- What an accepted execution has found. -/
theorem Executes.proposal {a : Action C (Call Address)} (h : Executes id w a) :
    ∃ env executor p, a = .invoke env (.executeProposal executor id) ∧
      Executable env w executor id p := by
  cases a with
  | tick => exact False.elim h
  | external => exact False.elim h
  | invoke env call =>
    cases call with
    | executeProposal executor k =>
      obtain ⟨rfl, w', hok⟩ := h
      obtain ⟨p, hp, _⟩ := executeProposal_eq_ok.mp hok
      exact ⟨env, executor, p, rfl, hp⟩
    | _ => exact False.elim h

/-- The numbers given out so far bound those of the stored proposals. -/
def Numbered (w : AccessWorld C) : Prop :=
  ∀ id p, w.store.proposal id = some p → id ≤ lastProposalId w

/-- What a step does to the proposals: nothing, or it opens, approves or removes one. -/
inductive ProposalStep (w : AccessWorld C) (a : Action C (Call Address)) : Prop where
  | same (hproposal : (step exec w a).store.proposal = w.store.proposal)
      (hlast : lastProposalId (step exec w a) = lastProposalId w)
      (hadds : ∀ id n approver, ¬AddsApproval id n approver w a)
  | opened (proposer : Address) (action : ProposalAction Address)
      (hadds : AddsApproval (lastProposalId w+1) 1 proposer w a)
      (hlast : lastProposalId (step exec w a) = lastProposalId w+1)
      (hproposal : (step exec w a).store.proposal =
        Function.update w.store.proposal (lastProposalId w+1)
          (some (newProposal w (lastProposalId w+1) proposer action)))
  | approved (approver : Address) (id : ℕ) (p : PendingProposal Address)
      (hstored : w.store.proposal id = some p) (hfresh : approver ∉ p.approvals)
      (hadds : AddsApproval id (p.approvals.length+1) approver w a)
      (hlast : lastProposalId (step exec w a) = lastProposalId w)
      (hproposal : (step exec w a).store.proposal = Function.update w.store.proposal id
        (some { p with approvals := p.approvals ++ [approver] }))
  | removed (id : ℕ) (p : PendingProposal Address) (hstored : w.store.proposal id = some p)
      (hadds : ∀ id n approver, ¬AddsApproval id n approver w a)
      (hlast : lastProposalId (step exec w a) = lastProposalId w)
      (hproposal : (step exec w a).store.proposal = Function.update w.store.proposal id none)

/-- An accepted call takes one of these steps. -/
theorem proposalStep_of_ok (h : exec env call w = .ok w') :
    ProposalStep w (.invoke env call) := by
  have hstep := step_invoke_ok h
  cases call with
  | createProposal proposer action =>
    obtain ⟨⟨id, w₁⟩, hc, heq⟩ := map_eq_ok.mp h
    obtain ⟨_, _, _, _, rfl, _, rfl⟩ := createProposal_eq_ok.mp hc
    subst heq
    exact .opened proposer action ⟨rfl, rfl, rfl, _, h⟩ (by rw [hstep]; rfl) (by rw [hstep]; rfl)
  | approveProposal approver id =>
    obtain ⟨_, _, _, p, hstored, hfresh, rfl⟩ := approveProposal_eq_ok.mp h
    exact .approved approver id p hstored hfresh ⟨rfl, rfl, ⟨p, hstored, rfl⟩, _, h⟩
      (by rw [hstep]; rfl) (by rw [hstep]; rfl)
  | executeProposal executor id =>
    obtain ⟨p, hexec, rfl⟩ := executeProposal_eq_ok.mp h
    refine .removed id p hexec.stored (fun _ _ _ hadds => hadds) ?_ ?_
    · rw [hstep, lastProposalId, World.setStore_store, applyAction_proposalCount, lastProposalId]
    · rw [hstep, World.setStore_store, applyAction_proposal]
  | _ =>
    -- the setup, the admin's calls and the transfer of the admin do not reach the proposals
    cases exec_effect h <;>
      exact .same (by rw [hstep]; rfl) (by rw [hstep]; rfl) fun _ _ _ hadds => hadds

theorem AddsApproval.accepted (h : AddsApproval id n approver w (.invoke env call)) :
    ∃ w', exec env call w = .ok w' := by
  cases call with
  | createProposal proposer action => exact h.2.2.2
  | approveProposal caller k => exact h.2.2.2
  | _ => exact False.elim h

theorem proposalStep (w : AccessWorld C) (a : Action C (Call Address)) : ProposalStep w a := by
  cases a with
  | tick seconds => exact .same rfl rfl fun _ _ _ hadds => hadds
  | external token next =>
    have hstore : (step exec w (.external token next)).store = w.store := step_external_store
    exact .same (by rw [hstore]) (by rw [lastProposalId, hstore, lastProposalId])
      fun _ _ _ hadds => hadds
  | invoke env call =>
    cases hcall : exec env call w with
    | ok w' => exact proposalStep_of_ok hcall
    | error fault =>
      have hstep := step_invoke_error hcall
      refine .same (by rw [hstep]) (by rw [hstep]) fun id n approver hadds => ?_
      obtain ⟨w', hok⟩ := hadds.accepted
      exact absurd (hok.symm.trans hcall) (by simp)

/-- A step adds at most one approval. -/
theorem AddsApproval.unique {a : Action C (Call Address)} {k m : ℕ} {other : Address}
    (h : AddsApproval id n approver w a) (h' : AddsApproval k m other w a) : id = k ∧ n = m := by
  cases a with
  | tick => exact False.elim h
  | external => exact False.elim h
  | invoke env call =>
    cases call with
    | createProposal proposer action =>
      obtain ⟨_, hn, hid, _⟩ := h
      obtain ⟨_, hm, hk, _⟩ := h'
      exact ⟨hid.trans hk.symm, hn.trans hm.symm⟩
    | approveProposal caller j =>
      obtain ⟨_, rfl, ⟨p, hp, hn⟩, _⟩ := h
      obtain ⟨_, rfl, ⟨q, hq, hm⟩, _⟩ := h'
      obtain rfl := Option.some.inj (hp.symm.trans hq)
      exact ⟨rfl, hn.trans hm.symm⟩
    | _ => exact False.elim h

/-- Whoever adds an approval signs the call, and is staff in that moment. -/
theorem AddsApproval.signed_staff {a : Action C (Call Address)}
    (h : AddsApproval id n approver w a) :
    (∃ env call, a = .invoke env call ∧ approver ∈ env.signers) ∧
      checkAccess w approver .staff := by
  cases a with
  | tick => exact False.elim h
  | external => exact False.elim h
  | invoke env call =>
    cases call with
    | createProposal proposer action =>
      obtain ⟨rfl, _, _, w', hok⟩ := h
      obtain ⟨⟨_, _⟩, hc, _⟩ := map_eq_ok.mp hok
      obtain ⟨_, hs, hstaff, _⟩ := createProposal_eq_ok.mp hc
      exact ⟨⟨env, _, rfl, hs⟩, hstaff⟩
    | approveProposal caller k =>
      obtain ⟨rfl, rfl, _, w', hok⟩ := h
      obtain ⟨_, hs, hstaff, _⟩ := approveProposal_eq_ok.mp hok
      exact ⟨⟨env, _, rfl, hs⟩, hstaff⟩
    | _ => exact False.elim h

/-- Where a proposal that is stored after the step `a` comes from: it was stored before and has
got no approval, it has just been opened, or it has just been approved. -/
inductive StoredAfter (w : AccessWorld C) (a : Action C (Call Address)) (id : ℕ) :
    PendingProposal Address → Prop where
  | kept (p : PendingProposal Address) (hstored : w.store.proposal id = some p)
      (hnone : ∀ n approver, ¬AddsApproval id n approver w a) : StoredAfter w a id p
  | opened (proposer : Address) (action : ProposalAction Address)
      (hid : id = lastProposalId w+1) (hadds : AddsApproval id 1 proposer w a) :
      StoredAfter w a id (newProposal w id proposer action)
  | approved (approver : Address) (q : PendingProposal Address)
      (hstored : w.store.proposal id = some q) (hfresh : approver ∉ q.approvals)
      (hadds : AddsApproval id (q.approvals.length+1) approver w a) :
      StoredAfter w a id { q with approvals := q.approvals ++ [approver] }

theorem storedAfter {a : Action C (Call Address)} {p : PendingProposal Address}
    (hp : (step exec w a).store.proposal id = some p) : StoredAfter w a id p := by
  cases proposalStep w a with
  | same hproposal _ hnone =>
    rw [hproposal] at hp
    exact .kept p hp fun n approver => hnone id n approver
  | opened proposer action hadds _ hproposal =>
    rw [hproposal] at hp
    rcases update_cases hp with ⟨rfl, hnew⟩ | ⟨hne, hold⟩
    · obtain rfl := Option.some.inj hnew
      exact .opened proposer action rfl hadds
    · exact .kept p hold fun n approver h => hne (h.unique hadds).1
  | approved caller k q hstored hfresh hadds _ hproposal =>
    rw [hproposal] at hp
    rcases update_cases hp with ⟨rfl, hnew⟩ | ⟨hne, hold⟩
    · obtain rfl := Option.some.inj hnew
      exact .approved caller q hstored hfresh hadds
    · exact .kept p hold fun n approver h => hne (h.unique hadds).1
  | removed k q _ hnone _ hproposal =>
    rw [hproposal] at hp
    rcases update_cases hp with ⟨_, hnew⟩ | ⟨_, hold⟩
    · exact absurd hnew.symm (Option.some_ne_none p)
    · exact .kept p hold fun n approver => hnone id n approver

/-- Numbers are only given out, never taken back. -/
theorem lastProposalId_le_step (w : AccessWorld C) (a : Action C (Call Address)) :
    lastProposalId w ≤ lastProposalId (step exec w a) := by
  cases proposalStep w a with
  | same _ hlast _ => exact hlast.ge
  | opened _ _ _ hlast _ => exact hlast ▸ Nat.le_succ _
  | approved _ _ _ _ _ _ hlast _ => exact hlast.ge
  | removed _ _ _ _ hlast _ => exact hlast.ge

theorem AddsApproval.le_last {a : Action C (Call Address)} (h : AddsApproval id n approver w a)
    (hw : Numbered w) : id ≤ lastProposalId (step exec w a) := by
  cases proposalStep w a with
  | same _ _ hnone => exact absurd h (hnone id n approver)
  | opened _ _ hadds hlast _ => exact (h.unique hadds).1.le.trans hlast.ge
  | approved _ k q hstored _ hadds hlast _ =>
    rw [hlast, (h.unique hadds).1]
    exact hw k q hstored
  | removed _ _ _ hnone _ _ => exact absurd h (hnone id n approver)

theorem Numbered.step (hw : Numbered w) (a : Action C (Call Address)) :
    Numbered (SorobanHost.step exec w a) := by
  intro id p hp
  cases storedAfter hp with
  | kept _ hstored => exact (hw id p hstored).trans (lastProposalId_le_step w a)
  | opened _ _ _ hadds => exact hadds.le_last hw
  | approved _ q hstored => exact (hw id q hstored).trans (lastProposalId_le_step w a)

theorem numbered_run (d : Deployment C) (as : List (Action C (Call Address))) :
    Numbered (run exec d.start as) := by
  -- the setup opens no proposal
  have hstart : Numbered d.start := fun id p hp => absurd hp.symm (Option.some_ne_none p)
  exact run_invariant_all (step exec) (fun w a hw => hw.step a) hstart as

/-- The stored proposals after the run `as`: their approvers are different, and the approval at
each place has been given in the run. -/
structure Attested (d : Deployment C) (as : List (Action C (Call Address))) (w : AccessWorld C) :
    Prop where
  distinct : ∀ id p, w.store.proposal id = some p → p.approvals.Nodup
  given : ∀ id p n approver, w.store.proposal id = some p → p.approvals[n]? = some approver →
    Occurred (step exec) (AddsApproval id (n+1) approver) d.start as

theorem Attested.step (h : Attested d as (run exec d.start as)) (a : Action C (Call Address)) :
    Attested d (as ++ [a]) (SorobanHost.step exec (run exec d.start as) a) := by
  constructor
  · intro id p hp
    cases storedAfter hp with
    | kept _ hstored => exact h.distinct id p hstored
    | opened proposer => exact List.nodup_singleton proposer
    | approved caller q hstored hfresh =>
      have hconcat := (h.distinct id q hstored).concat hfresh
      rwa [List.concat_eq_append] at hconcat
  · intro id p n approver hp hn
    cases storedAfter hp with
    | kept _ hstored =>
      exact (h.given id p n approver hstored hn).append (SorobanHost.step exec) [a]
    | opened proposer action _ hadds =>
      -- the proposer's own approval is the only one
      rw [newProposal, List.getElem?_singleton] at hn
      split_ifs at hn with hzero
      obtain rfl := Option.some.inj hn
      subst hzero
      exact occurred_last (SorobanHost.step exec) hadds
    | approved caller q hstored _ hadds =>
      -- the new approval stands last, those before it are the old ones
      by_cases hlt : n < q.approvals.length
      · rw [List.getElem?_append_left hlt] at hn
        exact (h.given id q n approver hstored hn).append (SorobanHost.step exec) [a]
      · rw [List.getElem?_append_right (not_lt.mp hlt), List.getElem?_singleton] at hn
        split_ifs at hn with hzero
        obtain rfl := Option.some.inj hn
        have hlength : n = q.approvals.length := by omega
        subst hlength
        exact occurred_last (SorobanHost.step exec) hadds

theorem attested_run (d : Deployment C) (as : List (Action C (Call Address))) :
    Attested d as (run exec d.start as) := by
  have hstart : Attested d [] d.start := by
    refine ⟨fun id p hp => ?_, fun id p n approver hp => ?_⟩
    all_goals exact absurd hp.symm (Option.some_ne_none p)
  exact history_invariant (I := fun w as => Attested d as w) (step exec) hstart
    (fun as a h => h.step a) as

/-- A proposal that is stored no more and whose number is not given out again. -/
def Retired (id : ℕ) (w : AccessWorld C) : Prop :=
  id ≤ lastProposalId w ∧ w.store.proposal id = none

theorem Retired.step (h : Retired id w) (a : Action C (Call Address)) :
    Retired id (SorobanHost.step exec w a) := by
  obtain ⟨hle, hnone⟩ := h
  cases proposalStep w a with
  | same hproposal hlast _ =>
    rw [Retired, hlast, hproposal]
    exact ⟨hle, hnone⟩
  | opened proposer action _ hlast hproposal =>
    -- the next number has never been given out
    have hne : id ≠ lastProposalId w+1 := by omega
    rw [Retired, hlast, hproposal, Function.update_of_ne hne]
    exact ⟨hle.trans (Nat.le_succ _), hnone⟩
  | approved caller k q hstored _ _ hlast hproposal =>
    have hne : id ≠ k := by
      rintro rfl
      exact absurd (hstored.symm.trans hnone) (Option.some_ne_none q)
    rw [Retired, hlast, hproposal, Function.update_of_ne hne]
    exact ⟨hle, hnone⟩
  | removed k q hstored _ hlast hproposal =>
    have hne : id ≠ k := by
      rintro rfl
      exact absurd (hstored.symm.trans hnone) (Option.some_ne_none q)
    rw [Retired, hlast, hproposal, Function.update_of_ne hne]
    exact ⟨hle, hnone⟩

/-- An execution retires its proposal. -/
theorem Executes.retired {a : Action C (Call Address)} (h : Executes id w a) (hw : Numbered w) :
    Retired id (step exec w a) := by
  obtain ⟨env, executor, p, rfl, hexec⟩ := h.proposal
  have hok := executeProposal_eq_ok.mpr ⟨p, hexec, rfl⟩
  have hstep : step exec w (.invoke env (.executeProposal executor id)) = _ :=
    step_invoke_ok hok
  rw [Retired, hstep, lastProposalId, World.setStore_store, applyAction_proposalCount]
  refine ⟨hw id p hexec.stored, ?_⟩
  simp only [Function.update_self]

theorem executedOnce_run (d : Deployment C) (as : List (Action C (Call Address))) :
    ExecutedOnce d as := by
  rintro pre a mid b post id rfl hfirst hsecond
  -- the second execution would have to find the proposal that the first has removed
  have hretired := hfirst.retired (numbered_run d pre)
  have hlater := run_invariant_all (I := Retired id) (step exec) (fun w b hw => hw.step b)
    hretired mid
  obtain ⟨env, executor, p, rfl, hexec⟩ := hsecond.proposal
  have hstored := hexec.stored
  rw [SorobanHost.run, run_append, run_cons, hlater.2] at hstored
  exact absurd hstored.symm (Option.some_ne_none p)

/-- In every run the approvals of an executed proposal are of different addresses, no fewer than
the configuration asks for then, and each given and signed by the approver as staff; and no
proposal is executed twice. -/
theorem quorum_attested_run (d : Deployment C) (as : List (Action C (Call Address))) :
    QuorumStands d as (ApprovedAsStaff d) ∧ ExecutedOnce d as := by
  refine ⟨?_, executedOnce_run d as⟩
  rintro pre a post id rfl hexecutes
  obtain ⟨env, executor, p, _, hexec⟩ := hexecutes.proposal
  have hattested := attested_run d pre
  refine ⟨p, hexec.stored, hattested.distinct id p hexec.stored, hexec.approved, ?_⟩
  intro approver happrover
  obtain ⟨n, hn⟩ := List.mem_iff_getElem?.mp happrover
  obtain ⟨before, b, after, rfl, hadds⟩ := hattested.given id p n approver hexec.stored hn
  exact ⟨n+1, before, b, after, rfl, hadds, hadds.signed_staff⟩

/-- Admin 1 takes account 2 off the staff between its approval and the execution. -/
def staleApproval : List (Action numberedChain (Call ℕ)) :=
  [.invoke (signedBy 0) (.setRole 1 2 .staff),
   .invoke (signedBy 0) (.createProposal 1 (.setRole 5 .member)),
   .invoke (signedBy 1) (.approveProposal 2 1), .tick 60,
   .invoke (signedBy 0) (.removeRole 1 2)]

/-- The approval counts although its approver has no role any more. -/
theorem quorum_not_standing : ¬(QuorumStands smallDeployment
    (staleApproval ++ [.invoke (signedBy 4) (.executeProposal 5 1)])
    (fun pre _ approver => checkAccess (run exec smallDeployment.start pre) approver .staff) ∧
      ExecutedOnce smallDeployment
        (staleApproval ++ [.invoke (signedBy 4) (.executeProposal 5 1)])) := by
  rintro ⟨hstands, _⟩
  obtain ⟨w', hok⟩ : ∃ w', exec (signedBy 4) (.executeProposal 5 1)
      (run exec smallDeployment.start staleApproval) = .ok w' := ⟨_, rfl⟩
  obtain ⟨p, hstored, _, _, hstaff⟩ := hstands staleApproval _ [] 1 rfl ⟨rfl, w', hok⟩
  have happrovals : ((run exec smallDeployment.start staleApproval).store.proposal 1).map
      PendingProposal.approvals = some [1, 2] := by decide
  rw [hstored, Option.map_some, Option.some.injEq] at happrovals
  have hmem : 2 ∈ p.approvals := by
    rw [happrovals]
    decide
  have hrole := hstaff 2 hmem
  revert hrole
  decide

end HubAssist.Access
