import HubAssist.AccessQuorum

/-! The timelock of a proposal: whether an execution comes the configured delay after the
approval that completed the quorum. The contract fixes the execution time when the proposal is
opened, however late the quorum is reached. -/
namespace HubAssist.Access
open SorobanHost RunSystem StorageMap

variable {Address : Type} [DecidableEq Address] {C : Chain Address}
variable {w : AccessWorld C} {id n time D : ℕ} {d : Deployment C}
variable {as : List (Action C (Call Address))}

/-- The proposal `id` has got its `n`-th approval at `time`. -/
def ApprovedAt (d : Deployment C) (as : List (Action C (Call Address))) (id n time : ℕ) : Prop :=
  Occurred (step exec) (fun w a => w.now = time ∧ ∃ approver, AddsApproval id n approver w a)
    d.start as

/-- The stored proposal `p` is executed by the step `a` that comes after the run `pre`. -/
structure ExecutesAfter (d : Deployment C) (pre : List (Action C (Call Address)))
    (a : Action C (Call Address)) (id : ℕ) (p : PendingProposal Address) : Prop where
  executes : Executes id (run exec d.start pre) a
  stored : (run exec d.start pre).store.proposal id = some p

/-- The number of the approval that brings `p` to the threshold in force after the run `pre`. It is
the proposer's own where none is asked for. -/
def requiredAfter (d : Deployment C) (pre : List (Action C (Call Address)))
    (p : PendingProposal Address) : ℕ :=
  max 1 (required (loadConfig (run exec d.start pre)).multisig p.action)

/-- Every execution comes at least `D` seconds after the approval that brought the proposal to
its threshold. -/
def TimelockHonoured (d : Deployment C) (D : ℕ) (as : List (Action C (Call Address))) : Prop :=
  ∀ pre a post id p, as = pre ++ a :: post → ExecutesAfter d pre a id p →
    ∃ time, ApprovedAt d pre id (requiredAfter d pre p) time ∧
      time+D ≤ (run exec d.start pre).now

/-- The approval that completes a quorum comes in the second in which the proposal `p` is opened,
unless there is no delay. -/
def Prompt (D time : ℕ) (p : PendingProposal Address) : Prop := D = 0 ∨ time = p.createdAt

instance (D time : ℕ) (p : PendingProposal Address) : Decidable (Prompt D time p) :=
  inferInstanceAs (Decidable (_ ∨ _))

/-- The quorum of every proposal that is executed was completed promptly. -/
def QuorumsPrompt (d : Deployment C) (D : ℕ) (as : List (Action C (Call Address))) : Prop :=
  ∀ pre a post id p, as = pre ++ a :: post → ExecutesAfter d pre a id p →
    ∀ time, ApprovedAt d pre id (requiredAfter d pre p) time → Prompt D time p

/-- The stored proposal `p` has got the approval that completes its quorum in the present second,
and the contract is not paused. -/
structure QuorumNow (d : Deployment C) (as : List (Action C (Call Address))) (id : ℕ)
    (p : PendingProposal Address) : Prop where
  stored : (run exec d.start as).store.proposal id = some p
  approved : ApprovedAt d as id (requiredAfter d as p) (run exec d.start as).now
  running : ¬Paused (run exec d.start as)

/-- The times of the proposals after the run `as`. An approval that has been given is counted in
its proposal for as long as that is stored, and its number and time are those of one call. -/
structure Dated (d : Deployment C) (D : ℕ) (as : List (Action C (Call Address)))
    (w : AccessWorld C) : Prop where
  backed : ∀ id p, w.store.proposal id = some p → 1 ≤ p.approvals.length
  locked : ∀ id p, w.store.proposal id = some p → p.executionTime = p.createdAt+D
  begun : ∀ id p, w.store.proposal id = some p → p.createdAt ≤ w.now
  numbered : ∀ id n time, ApprovedAt d as id n time → id ≤ lastProposalId w
  counted : ∀ id n time p, ApprovedAt d as id n time → w.store.proposal id = some p →
    n ≤ p.approvals.length ∧ p.createdAt ≤ time
  once : ∀ id n time time', ApprovedAt d as id n time → ApprovedAt d as id n time' → time = time'

theorem approvedAt_concat {a : Action C (Call Address)} :
    ApprovedAt d (as ++ [a]) id n time ↔ ApprovedAt d as id n time ∨
      (run exec d.start as).now = time ∧
        ∃ approver, AddsApproval id n approver (run exec d.start as) a :=
  occurred_concat (step exec)

/-- An approval that is added now has not been given before. -/
theorem AddsApproval.not_before {a : Action C (Call Address)} {approver : Address}
    (h : AddsApproval id n approver (run exec d.start as) a)
    (hdated : Dated d D as (run exec d.start as)) : ¬ApprovedAt d as id n time := by
  intro hbefore
  have hle := hdated.numbered id n time hbefore
  cases a with
  | tick => exact h
  | external => exact h
  | invoke env call =>
    cases call with
    | createProposal proposer action =>
      obtain ⟨_, _, hnew, _⟩ := h
      omega
    | approveProposal caller k =>
      obtain ⟨_, _, ⟨p, hstored, hn⟩, _⟩ := h
      have hcounted := (hdated.counted id n time p hbefore hstored).1
      omega
    | _ => exact h

theorem exec_now {env : Env C} {w' : AccessWorld C} {call : Call Address}
    (h : exec env call w = .ok w') : w'.now = w.now := by
  cases exec_effect h <;> rfl

theorem now_le_step (w : AccessWorld C) (a : Action C (Call Address)) :
    w.now ≤ (step exec w a).now := by
  refine step_keeps (fun v => w.now ≤ v.now) le_rfl ?_ (fun d _ => Nat.le_add_right _ d)
    fun _ _ _ _ => le_rfl
  rintro env call w' rfl hcall
  exact (exec_now hcall).ge

/-- The proposal of an approval that the step `a` has just added counts it. -/
theorem StoredAfter.counted {a : Action C (Call Address)} {p : PendingProposal Address}
    {approver : Address} (h : StoredAfter w a id p) (hadds : AddsApproval id n approver w a)
    (hbegun : ∀ id p, w.store.proposal id = some p → p.createdAt ≤ w.now) :
    n ≤ p.approvals.length ∧ p.createdAt ≤ w.now := by
  cases h with
  | kept _ _ hnone => exact absurd hadds (hnone n approver)
  | opened proposer action _ hopens => exact ⟨(hadds.unique hopens).2.le, le_rfl⟩
  | approved caller q hstored _ happroves =>
    rw [(hadds.unique happroves).2, List.length_append]
    exact ⟨le_rfl, hbegun id q hstored⟩

theorem Dated.step (h : Dated d D as (run exec d.start as))
    (hD : (loadConfig (run exec d.start as)).multisig.timeLockDuration = D)
    (a : Action C (Call Address)) :
    Dated d D (as ++ [a]) (SorobanHost.step exec (run exec d.start as) a) := by
  have hnow := now_le_step (run exec d.start as) a
  refine ⟨fun id p hp => ?_, fun id p hp => ?_, fun id p hp => ?_, fun id n time ht => ?_,
    fun id n time p ht hp => ?_, fun id n time time' ht ht' => ?_⟩
  · cases storedAfter hp with
    | kept _ hstored => exact h.backed id p hstored
    | opened proposer action => exact le_rfl
    | approved caller q =>
      rw [List.length_append]
      exact Nat.le_add_left 1 _
  · cases storedAfter hp with
    | kept _ hstored => exact h.locked id p hstored
    -- the delay is added once, to the time of the creation
    | opened proposer action => exact congrArg _ hD
    | approved caller q hstored => exact h.locked id q hstored
  · cases storedAfter hp with
    | kept _ hstored => exact (h.begun id p hstored).trans hnow
    | opened proposer action => exact hnow
    | approved caller q hstored => exact (h.begun id q hstored).trans hnow
  · rcases approvedAt_concat.mp ht with hold | ⟨_, approver, hadds⟩
    · exact (h.numbered id n time hold).trans (lastProposalId_le_step _ a)
    · exact hadds.le_last (numbered_run d as)
  · rcases approvedAt_concat.mp ht with hold | ⟨rfl, approver, hadds⟩
    · cases storedAfter hp with
      | kept _ hstored => exact h.counted id n time p hold hstored
      | opened proposer action hid =>
        -- a number that is given out now belongs to no approval of before
        have hle := h.numbered id n time hold
        omega
      | approved caller q hstored =>
        have hcounted := h.counted id n time q hold hstored
        rw [List.length_append]
        exact ⟨hcounted.1.trans (Nat.le_add_right _ _), hcounted.2⟩
    · exact (storedAfter hp).counted hadds h.begun
  · rcases approvedAt_concat.mp ht with hold | ⟨hnew, _, hadds⟩
    · rcases approvedAt_concat.mp ht' with hold' | ⟨_, _, hadds⟩
      · exact h.once id n time time' hold hold'
      · exact absurd hold (hadds.not_before h)
    · rcases approvedAt_concat.mp ht' with hold' | ⟨hnew', _⟩
      · exact absurd hold' (hadds.not_before h)
      · exact hnew.symm.trans hnew'

theorem dated_run (d : Deployment C) (as : List (Action C (Call Address)))
    (hD : Always (step exec) (fun w => (loadConfig w).multisig.timeLockDuration = D) d.start as) :
    Dated d D as (run exec d.start as) := by
  have hstart : Dated d D [] d.start := by
    refine ⟨fun id p hp => ?_, fun id p hp => ?_, fun id p hp => ?_, fun id n time ht => ?_,
      fun id n time p ht => ?_, fun id n time time' ht => ?_⟩
    · exact absurd hp.symm (Option.some_ne_none p)
    · exact absurd hp.symm (Option.some_ne_none p)
    · exact absurd hp.symm (Option.some_ne_none p)
    all_goals exact absurd ht (not_occurred_nil (step exec))
  exact guarded_history_invariant (I := fun w as => Dated d D as w) (step exec) hstart
    (fun as a h hD => h.step hD a) (hD.guarded (step exec))

theorem ApprovedAt.le_now (h : ApprovedAt d as id n time) : time ≤ (run exec d.start as).now := by
  obtain ⟨pre, a, post, rfl, hnow, _⟩ := h
  have hkept (w : AccessWorld C) (b : Action C (Call Address)) (hle : time ≤ w.now) :
      time ≤ (step exec w b).now := hle.trans (now_le_step w b)
  rw [SorobanHost.run, run_append]
  exact run_invariant_all (I := fun w => time ≤ w.now) (step exec) hkept hnow.ge (a :: post)

/-- An execution has an approval that completed the quorum. -/
theorem ExecutesAfter.approvedAt {a : Action C (Call Address)} {p : PendingProposal Address}
    (h : ExecutesAfter d as a id p) (hdated : Dated d D as (run exec d.start as)) :
    ∃ time, ApprovedAt d as id (requiredAfter d as p) time := by
  obtain ⟨env, executor, q, _, hguards⟩ := h.executes.proposal
  obtain rfl := Option.some.inj (h.stored.symm.trans hguards.stored)
  -- the approval that completes the quorum is among those of the proposal
  have hneeds : 1 ≤ requiredAfter d as p := le_max_left _ _
  have henough : requiredAfter d as p ≤ p.approvals.length :=
    max_le (hdated.backed id p h.stored) hguards.approved
  have hlt : requiredAfter d as p-1 < p.approvals.length := by omega
  obtain ⟨before, b, after, rfl, hadds⟩ :=
    (attested_run d as).given id p _ _ h.stored (List.getElem?_eq_getElem hlt)
  have hnumber : requiredAfter d (before ++ b :: after) p-1+1 =
      requiredAfter d (before ++ b :: after) p := Nat.sub_add_cancel hneeds
  rw [hnumber] at hadds
  exact ⟨(run exec d.start before).now, before, b, after, rfl, rfl, _, hadds⟩

theorem timelock_of_prompt
    (hD : Always (step exec) (fun w => (loadConfig w).multisig.timeLockDuration = D) d.start as)
    (hprompt : QuorumsPrompt d D as) : TimelockHonoured d D as := by
  rintro pre a post id p rfl hexec
  have hdated := dated_run d pre (hD.left (step exec))
  obtain ⟨time, ht⟩ := hexec.approvedAt hdated
  refine ⟨time, ht, ?_⟩
  rcases hprompt pre a post id p rfl hexec time ht with rfl | rfl
  · exact ht.le_now
  · -- the lock of the creation is that of the approval
    obtain ⟨env, executor, q, _, hguards⟩ := hexec.executes.proposal
    obtain rfl := Option.some.inj (hexec.stored.symm.trans hguards.stored)
    rw [← hdated.locked id p hexec.stored]
    exact hguards.unlocked

/-- Waiting changes the time alone. -/
theorem run_tick (d : Deployment C) (as : List (Action C (Call Address))) (seconds : ℕ) :
    run exec d.start (as ++ [.tick seconds]) = (run exec d.start as).elapse seconds :=
  run_concat _ _ _ _

theorem loadConfig_tick (d : Deployment C) (as : List (Action C (Call Address))) (seconds : ℕ) :
    loadConfig (run exec d.start (as ++ [.tick seconds])) = loadConfig (run exec d.start as) := by
  rw [run_tick]
  rfl

theorem requiredAfter_tick (d : Deployment C) (as : List (Action C (Call Address))) (seconds : ℕ)
    (p : PendingProposal Address) :
    requiredAfter d (as ++ [.tick seconds]) p = requiredAfter d as p := by
  rw [requiredAfter, loadConfig_tick, ← requiredAfter]

/-- Whoever signed the approval can execute the proposal as soon as its lock is over. -/
theorem QuorumNow.executable {p : PendingProposal Address} (h : QuorumNow d as id p)
    (hdated : Dated d D as (run exec d.start as)) {seconds : ℕ}
    (hwait : p.executionTime ≤ (run exec d.start as).now+seconds) :
    ∃ env executor, ExecutesAfter d (as ++ [.tick seconds])
      (.invoke env (.executeProposal executor id)) id p := by
  obtain ⟨pre, b, post, hsplit, _, approver, hadds⟩ := h.approved
  obtain ⟨⟨env, _, _, hsigned⟩, _⟩ := hadds.signed_staff
  have hcounted := (hdated.counted id _ _ p h.approved h.stored).1
  have henough : required (loadConfig (run exec d.start as)).multisig p.action ≤
      p.approvals.length := (le_max_right 1 _).trans hcounted
  refine ⟨env, approver, ⟨rfl, ?_⟩, ?_⟩
  · rw [run_tick]
    exact ⟨_, executeProposal_eq_ok.mpr ⟨p, ⟨h.running, hsigned, h.stored, henough, hwait⟩, rfl⟩⟩
  · rw [run_tick]
    exact h.stored

/-- An execution leaves the configuration as it is. -/
theorem ExecutesAfter.loadConfig {a : Action C (Call Address)} {p : PendingProposal Address}
    (h : ExecutesAfter d as a id p) :
    loadConfig (run exec d.start (as ++ [a])) = loadConfig (run exec d.start as) := by
  obtain ⟨env, executor, _, rfl, _⟩ := h.executes.proposal
  obtain ⟨_, w', hok⟩ := h.executes
  obtain ⟨q, _, rfl⟩ := executeProposal_eq_ok.mp hok
  rw [SorobanHost.run, run_concat, step_invoke_ok hok, Access.loadConfig, World.setStore_store,
    applyAction_config, ← Access.loadConfig]

/-- A quorum that is completed late can be followed by an execution that comes too early: at once,
or as soon as the lock of the creation is over. -/
theorem QuorumNow.broken {p : PendingProposal Address} (h : QuorumNow d as id p)
    (hD : Always (step exec) (fun w => (loadConfig w).multisig.timeLockDuration = D) d.start as)
    (hlate : ¬Prompt D (run exec d.start as).now p) : ∃ seconds env executor,
      Always (step exec) (fun w => (loadConfig w).multisig.timeLockDuration = D) d.start
          (as ++ [.tick seconds, .invoke env (.executeProposal executor id)]) ∧
        ¬TimelockHonoured d D
          (as ++ [.tick seconds, .invoke env (.executeProposal executor id)]) := by
  have hdated := dated_run d as hD
  have hlocked := hdated.locked id p h.stored
  have hbegun := hdated.begun id p h.stored
  let seconds := p.executionTime-(run exec d.start as).now
  have hwait : p.executionTime ≤ (run exec d.start as).now+seconds := by omega
  obtain ⟨env, executor, hexec⟩ := h.executable hdated hwait
  have hsplit : as ++ [.tick seconds, .invoke env (.executeProposal executor id)] =
      as ++ [.tick seconds] ++ [.invoke env (.executeProposal executor id)] := by simp
  have hnow := (always_iff_prefixes _ _ _ _).mp hD as [] (List.append_nil as).symm
  rw [← loadConfig_tick d as seconds] at hnow
  have hwaited : Always (step exec) (fun w => (loadConfig w).multisig.timeLockDuration = D)
      d.start (as ++ [.tick seconds]) := (always_concat (step exec) _ _ _ _).mpr ⟨hD, hnow⟩
  refine ⟨seconds, env, executor, ?_, fun hhonoured => ?_⟩
  · rw [← hexec.loadConfig] at hnow
    rw [hsplit]
    exact (always_concat (step exec) _ _ _ _).mpr ⟨hwaited, hnow⟩
  · -- the approval that completed the quorum is the present one, and the wait is too short
    obtain ⟨time, ht, hle⟩ := hhonoured _ _ [] id p hsplit hexec
    have hcompleted : ApprovedAt d (as ++ [.tick seconds]) id
        (requiredAfter d (as ++ [.tick seconds]) p) (run exec d.start as).now := by
      rw [requiredAfter_tick]
      exact h.approved.append (step exec) _
    have hsame := (dated_run d _ hwaited).once id _ _ _ ht hcompleted
    have hthen : (run exec d.start (as ++ [.tick seconds])).now =
        (run exec d.start as).now+seconds := congrArg World.now (run_tick d as seconds)
    rw [Prompt, not_or] at hlate
    omega

/-- With the delay constant, every execution comes the delay after the approval that completed the
quorum where each quorum is completed promptly. One that is not leaves room for an execution that
comes too early. -/
theorem timelock_prompt_run (d : Deployment C) (D : ℕ) (as : List (Action C (Call Address)))
    (hD : Always (step exec) (fun w => (loadConfig w).multisig.timeLockDuration = D) d.start as) :
    (QuorumsPrompt d D as → TimelockHonoured d D as) ∧
      ∀ id p, QuorumNow d as id p → ¬Prompt D (run exec d.start as).now p →
        ∃ seconds env executor,
          Always (step exec) (fun w => (loadConfig w).multisig.timeLockDuration = D) d.start
              (as ++ [.tick seconds, .invoke env (.executeProposal executor id)]) ∧
            ¬TimelockHonoured d D
              (as ++ [.tick seconds, .invoke env (.executeProposal executor id)]) :=
  ⟨timelock_of_prompt hD, fun _ _ hnow hlate => hnow.broken hD hlate⟩

/-- Admin 1 opens a proposal, and the second approval comes when the delay of a minute is over. -/
def lateQuorum : List (Action numberedChain (Call ℕ)) :=
  [.invoke (signedBy 0) (.setRole 1 2 .staff),
   .invoke (signedBy 0) (.createProposal 1 (.setRole 5 .member)), .tick 60,
   .invoke (signedBy 1) (.approveProposal 2 1)]

def lateQuorumExecuted : List (Action numberedChain (Call ℕ)) :=
  lateQuorum ++ [.invoke (signedBy 4) (.executeProposal 5 1)]

theorem lateQuorum_delay : Always (step exec)
    (fun w => (loadConfig w).multisig.timeLockDuration = 60)
      smallDeployment.start lateQuorumExecuted := by decide

theorem lateQuorum_late : QuorumNow smallDeployment lateQuorum 1
    ⟨1, 1, .setRole 5 .member, [1, 2], 0, 60⟩ :=
  ⟨rfl, ⟨lateQuorum.take 3, _, [], rfl, rfl, 2, rfl, rfl, ⟨_, rfl, rfl⟩, _, rfl⟩, by decide⟩

/-- The same with the second approval in the second of the first. -/
def promptQuorum : List (Action numberedChain (Call ℕ)) :=
  [.invoke (signedBy 0) (.setRole 1 2 .staff),
   .invoke (signedBy 0) (.createProposal 1 (.setRole 5 .member)),
   .invoke (signedBy 1) (.approveProposal 2 1), .tick 60]

def promptQuorumExecuted : List (Action numberedChain (Call ℕ)) :=
  promptQuorum ++ [.invoke (signedBy 4) (.executeProposal 5 1)]

theorem promptQuorum_delay : Always (step exec)
    (fun w => (loadConfig w).multisig.timeLockDuration = 60)
      smallDeployment.start promptQuorumExecuted := by decide

theorem promptQuorum_prompt : QuorumsPrompt smallDeployment 60 promptQuorumExecuted := by
  intro pre a post id p hsplit hexec time ht
  obtain ⟨env, executor, _, rfl, _⟩ := hexec.executes.proposal
  -- the one execution is the last step
  obtain ⟨mid, hpre, hmid⟩ := split_concat hsplit
  have hlast : pre = promptQuorum ∧ id = 1 := by
    cases mid with
    | nil =>
      obtain ⟨hcall, _⟩ := List.cons.inj hmid
      injection hcall with _ hcall
      injection hcall with _ hid
      exact ⟨by simpa using hpre.symm, hid⟩
    | cons b rest =>
      obtain ⟨rfl, _⟩ := List.cons.inj hmid
      have hmem : Action.invoke env (.executeProposal executor id) ∈ promptQuorum := by
        rw [hpre]
        exact List.mem_append_right pre List.mem_cons_self
      simp [promptQuorum] at hmem
  obtain ⟨rfl, rfl⟩ := hlast
  obtain rfl := Option.some.inj (hexec.stored.symm.trans rfl)
  have hprompt : ApprovedAt smallDeployment promptQuorum 1 2 0 :=
    ⟨promptQuorum.take 2, _, _, rfl, rfl, 2, rfl, rfl, ⟨_, rfl, rfl⟩, _, rfl⟩
  have hdated := dated_run smallDeployment promptQuorum (promptQuorum_delay.left (step exec))
  exact .inr (hdated.once 1 2 time 0 ht hprompt)

theorem timelock_prompt_run_quorums :
    TimelockHonoured smallDeployment 60 promptQuorumExecuted ∧
      ∃ seconds env executor,
        Always (step exec) (fun w => (loadConfig w).multisig.timeLockDuration = 60)
            smallDeployment.start
            (lateQuorum ++ [.tick seconds, .invoke env (.executeProposal executor 1)]) ∧
          ¬TimelockHonoured smallDeployment 60
            (lateQuorum ++ [.tick seconds, .invoke env (.executeProposal executor 1)]) :=
  ⟨(timelock_prompt_run smallDeployment 60 promptQuorumExecuted promptQuorum_delay).1
      promptQuorum_prompt,
    (timelock_prompt_run smallDeployment 60 lateQuorum (lateQuorum_delay.left (step exec))).2 1 _
      lateQuorum_late (by decide)⟩

/-- The proposal is executed in the moment of the approval that completes the quorum. -/
theorem timelock_not_honoured :
    Always (step exec) (fun w => (loadConfig w).multisig.timeLockDuration = 60)
        smallDeployment.start lateQuorumExecuted ∧
      ¬TimelockHonoured smallDeployment 60 lateQuorumExecuted := by
  refine ⟨lateQuorum_delay, fun h => ?_⟩
  obtain ⟨w', hok⟩ : ∃ w', exec (signedBy 4) (.executeProposal 5 1)
      (run exec smallDeployment.start lateQuorum) = .ok w' := ⟨_, rfl⟩
  obtain ⟨time, ht, hle⟩ := h lateQuorum _ [] 1 _ rfl ⟨⟨rfl, w', hok⟩, rfl⟩
  have hlate : ApprovedAt smallDeployment lateQuorum 1 2 60 := lateQuorum_late.approved
  have hdated := dated_run smallDeployment lateQuorum (lateQuorum_delay.left (step exec))
  have hsixty := hdated.once 1 2 time 60 ht hlate
  have hnow : (run exec smallDeployment.start lateQuorum).now = 60 := by decide
  omega

end HubAssist.Access
