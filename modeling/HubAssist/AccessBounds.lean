import HubAssist.AccessQuorum

/-! The bounds of the governance: how low a stored configuration may set the thresholds and how
many approvals a proposal may collect. No entry point tests them. -/
namespace HubAssist.Access
open SorobanHost RunSystem

variable {Address : Type} [DecidableEq Address] {C : Chain Address}
variable {env : Env C} {w w' : AccessWorld C} {call : Call Address}
variable {d : Deployment C} {as : List (Action C (Call Address))}

/-- A proposal needs an approval, and a critical one needs two. -/
def MultiSigConfig.InBounds (multisig : MultiSigConfig) : Prop :=
  1 ≤ multisig.threshold ∧ 2 ≤ multisig.criticalThreshold

instance (multisig : MultiSigConfig) : Decidable multisig.InBounds :=
  inferInstanceAs (Decidable (_ ∧ _))

def maxApprovers : ℕ := 10

def ConfigBounded (w : AccessWorld C) : Prop :=
  ∀ config, w.store.config = some config → config.multisig.InBounds

def ApprovalsBounded (w : AccessWorld C) : Prop :=
  ∀ id p, w.store.proposal id = some p → p.approvals.length ≤ maxApprovers

/-- The bounds hold in the stored configuration and in every stored proposal. -/
def GovernanceBounded (w : AccessWorld C) : Prop := ConfigBounded w ∧ ApprovalsBounded w

/-- Every executed proposal of a critical action has two different approvers. -/
def CriticalsBacked (d : Deployment C) (as : List (Action C (Call Address))) : Prop :=
  ∀ pre a post id p, as = pre ++ a :: post → Executes id (run exec d.start pre) a →
    (run exec d.start pre).store.proposal id = some p → isCritical p.action →
      2 ≤ p.approvals.toFinset.card

/-- What `approveProposal` tests before it counts an approval of `p`. -/
structure Approvable (env : Env C) (w : AccessWorld C) (approver : Address) (id : ℕ)
    (p : PendingProposal Address) : Prop where
  running : ¬Paused w
  signed : approver ∈ env.signers
  staff : checkAccess w approver .staff
  stored : w.store.proposal id = some p
  fresh : approver ∉ p.approvals

/-- The configuration that a setup or the admin stores is within the bounds. -/
def ConfigAdmitted (w : AccessWorld C) : Action C (Call Address) → Prop
  -- the setup can be repeated, by any address that signs it
  | .invoke env (.initializeContract admin multisig) => admin ∈ env.signers → multisig.InBounds
  | .invoke env (.updateConfig admin config) =>
    admin ∈ env.signers → w.store.admin = some admin → config.multisig.InBounds
  | _ => True

/-- An approval that is counted finds less than the most approvers. -/
def ApprovalAdmitted (w : AccessWorld C) : Action C (Call Address) → Prop
  | .invoke env (.approveProposal approver id) =>
    ∀ p, Approvable env w approver id p → p.approvals.length < maxApprovers
  | _ => True

theorem approveProposal_of_approvable {approver : Address} {id : ℕ} {p : PendingProposal Address}
    (h : Approvable env w approver id p) :
    ∃ w', exec env (.approveProposal approver id) w = .ok w' ∧
      w'.store.proposal id = some { p with approvals := p.approvals ++ [approver] } :=
  ⟨_, approveProposal_eq_ok.mpr ⟨h.running, h.signed, h.staff, p, h.stored, h.fresh, rfl⟩,
    Function.update_self id _ _⟩

theorem loadConfig_inBounds (hw : ConfigBounded w) : (loadConfig w).multisig.InBounds := by
  rw [loadConfig]
  cases hconfig : w.store.config with
  | none => decide
  | some config => exact hw config hconfig

/-- The calls that neither set the contract up nor update its configuration leave the thresholds
as they are. -/
theorem configBounded_of_ok (hw : ConfigBounded w) (h : exec env call w = .ok w')
    (hsetup : ∀ admin multisig, call ≠ .initializeContract admin multisig)
    (hupdate : ∀ admin config, call ≠ .updateConfig admin config) : ConfigBounded w' := by
  cases call with
  | initializeContract admin multisig => exact absurd rfl (hsetup admin multisig)
  | updateConfig admin config => exact absurd rfl (hupdate admin config)
  | setRole admin user role =>
    obtain ⟨_, _, _, rfl⟩ := setRole_eq_ok.mp h
    exact hw
  | removeRole admin user =>
    obtain ⟨_, _, _, _, rfl⟩ := removeRole_eq_ok.mp h
    exact hw
  | pause admin =>
    obtain ⟨_, _, rfl⟩ := pause_eq_ok.mp h
    intro config hconfig
    rw [← Option.some.inj hconfig]
    exact loadConfig_inBounds hw
  | unpause admin =>
    obtain ⟨_, _, rfl⟩ := unpause_eq_ok.mp h
    intro config hconfig
    rw [← Option.some.inj hconfig]
    exact loadConfig_inBounds hw
  | createProposal proposer action =>
    obtain ⟨⟨id, w₁⟩, hc, rfl⟩ := map_eq_ok.mp h
    obtain ⟨_, _, _, _, _, _, rfl⟩ := createProposal_eq_ok.mp hc
    exact hw
  | approveProposal approver id =>
    obtain ⟨_, _, _, _, _, _, rfl⟩ := approveProposal_eq_ok.mp h
    exact hw
  | executeProposal executor id =>
    obtain ⟨p, _, rfl⟩ := executeProposal_eq_ok.mp h
    intro config hconfig
    rw [World.setStore_store, applyAction_config] at hconfig
    exact hw config hconfig
  | migrateRolesV2 admin =>
    obtain ⟨_, _, rfl⟩ := migrateRolesV2_eq_ok.mp h
    split_ifs <;> exact hw
  | proposeAdminTransfer admin newAdmin =>
    obtain ⟨_, _, _, rfl⟩ := proposeAdminTransfer_eq_ok.mp h
    exact hw
  | acceptAdminTransfer newAdmin =>
    obtain ⟨_, _, _, _, _, _, rfl⟩ := acceptAdminTransfer_eq_ok.mp h
    exact hw
  | cancelAdminTransfer admin =>
    obtain ⟨_, _, _, rfl⟩ := cancelAdminTransfer_eq_ok.mp h
    exact hw

theorem configBounded_step_iff (hw : ConfigBounded w) (a : Action C (Call Address)) :
    ConfigBounded (step exec w a) ↔ ConfigAdmitted w a := by
  cases a with
  | tick => exact iff_of_true hw trivial
  | external token next =>
    exact iff_of_true (step_external_keeps ConfigBounded hw hw) trivial
  | invoke env call =>
    rw [step_invoke_keeps_iff ConfigBounded hw]
    cases call with
    | initializeContract admin multisig =>
      constructor
      · intro h hs
        exact h _ (initializeContract_eq_ok.mpr ⟨hs, rfl⟩) _ rfl
      · intro h w' hcall
        obtain ⟨hs, rfl⟩ := initializeContract_eq_ok.mp hcall
        intro stored hstored
        rw [← Option.some.inj hstored]
        exact h hs
    | updateConfig admin config =>
      constructor
      · intro h hs hadmin
        exact h _ (updateConfig_eq_ok.mpr ⟨hs, hadmin, rfl⟩) _ rfl
      · intro h w' hcall
        obtain ⟨hs, hadmin, rfl⟩ := updateConfig_eq_ok.mp hcall
        intro stored hstored
        rw [← Option.some.inj hstored]
        exact h hs hadmin
    | _ =>
      refine iff_of_true (fun w' hcall => ?_) trivial
      exact configBounded_of_ok hw hcall (fun _ _ h => nomatch h) fun _ _ h => nomatch h

/-- An approval that is added to a proposal that has one already is added by `approveProposal`. -/
theorem AddsApproval.approvable {a : Action C (Call Address)} {id : ℕ} {approver : Address}
    {q : PendingProposal Address} (h : AddsApproval id (q.approvals.length+1) approver w a)
    (hstored : w.store.proposal id = some q) (hfresh : approver ∉ q.approvals)
    (hsome : q.approvals.length ≠ 0) :
    ∃ env, a = .invoke env (.approveProposal approver id) ∧ Approvable env w approver id q := by
  cases a with
  | tick => exact False.elim h
  | external => exact False.elim h
  | invoke env call =>
    cases call with
    | createProposal proposer action =>
      obtain ⟨_, hone, _⟩ := h
      exact absurd (Nat.succ.inj hone) hsome
    | approveProposal caller k =>
      obtain ⟨rfl, rfl, _, w', hok⟩ := h
      obtain ⟨hrunning, hs, hstaff, _⟩ := approveProposal_eq_ok.mp hok
      exact ⟨env, rfl, hrunning, hs, hstaff, hstored, hfresh⟩
    | _ => exact False.elim h

theorem approvalsBounded_step_iff (hw : ApprovalsBounded w) (a : Action C (Call Address)) :
    ApprovalsBounded (step exec w a) ↔ ApprovalAdmitted w a := by
  constructor
  · intro h
    cases a with
    | tick => trivial
    | external => trivial
    | invoke env call =>
      cases call with
      | approveProposal approver id =>
        intro p hp
        obtain ⟨w', hok, hstored⟩ := approveProposal_of_approvable hp
        rw [step_invoke_ok hok] at h
        have hle := h id _ hstored
        rw [List.length_append, List.length_singleton] at hle
        exact hle
      | _ => trivial
  · intro h id p hp
    cases storedAfter hp with
    | kept _ hstored => exact hw id p hstored
    -- the proposer's own approval comes first
    | opened proposer action => exact Nat.succ_le_succ (Nat.zero_le 9)
    | approved approver q hstored hfresh hadds =>
      rw [List.length_append, List.length_singleton]
      by_cases hsome : q.approvals.length = 0
      · rw [hsome]
        decide
      · obtain ⟨env, rfl, happrovable⟩ := hadds.approvable hstored hfresh hsome
        exact h q happrovable

/-- The configuration that the step stores and the approval that it counts are within the
bounds. -/
def BoundsAdmitted (w : AccessWorld C) (a : Action C (Call Address)) : Prop :=
  ConfigAdmitted w a ∧ ApprovalAdmitted w a

theorem governanceBounded_step_iff (hw : GovernanceBounded w) (a : Action C (Call Address)) :
    GovernanceBounded (step exec w a) ↔ BoundsAdmitted w a :=
  and_congr (configBounded_step_iff hw.1 a) (approvalsBounded_step_iff hw.2 a)

theorem Deployment.start_bounded_iff (d : Deployment C) :
    GovernanceBounded d.start ↔ d.multisig.InBounds := by
  constructor
  · intro h
    exact h.1 _ rfl
  · intro h
    refine ⟨fun config hconfig => ?_, fun id p hp => ?_⟩
    · rw [← Option.some.inj hconfig]
      exact h
    · exact absurd hp.symm (Option.some_ne_none p)

/-- As long as the stored thresholds are within the bounds, critical proposals have two
approvers. -/
theorem criticalsBacked_of_bounded (h : Always (step exec) GovernanceBounded d.start as) :
    CriticalsBacked d as := by
  rintro pre a post id p rfl hexecutes hstored hcritical
  obtain ⟨env, executor, q, _, hexec⟩ := hexecutes.proposal
  obtain rfl := Option.some.inj (hstored.symm.trans hexec.stored)
  have hbounded := (always_iff_prefixes (step exec) _ _ _).mp h pre (a :: post) rfl
  have htwo := (loadConfig_inBounds hbounded.1).2
  have hrequired : required (loadConfig (run exec d.start pre)).multisig p.action =
      (loadConfig (run exec d.start pre)).multisig.criticalThreshold := if_pos hcritical
  rw [List.toFinset_card_of_nodup ((attested_run d pre).distinct id p hstored)]
  calc 2 ≤ (loadConfig (run exec d.start pre)).multisig.criticalThreshold := htwo
    _ = required (loadConfig (run exec d.start pre)).multisig p.action := hrequired.symm
    _ ≤ p.approvals.length := hexec.approved

/-- The bounds hold in every state after the setup, and no critical action goes through without
two approvers, exactly when every setup and update stores thresholds within the bounds and no
approval is counted on a proposal that has ten. -/
theorem governance_bounded_iff (d : Deployment C) (as : List (Action C (Call Address))) :
    (Always (step exec) GovernanceBounded d.start as ∧ CriticalsBacked d as) ↔
      d.multisig.InBounds ∧ Guarded (step exec) BoundsAdmitted d.start as := by
  have hsteps (hstart : GovernanceBounded d.start) :
      Always (step exec) GovernanceBounded d.start as ↔
        Guarded (step exec) BoundsAdmitted d.start as :=
    always_iff_guarded (J := fun _ => True) (step exec) (fun _ _ _ => trivial)
      (fun w a _ hw => governanceBounded_step_iff hw a) trivial hstart
  constructor
  · rintro ⟨h, _⟩
    have hstart := (always_iff_prefixes (step exec) _ _ _).mp h [] as rfl
    exact ⟨d.start_bounded_iff.mp hstart, (hsteps hstart).mp h⟩
  · rintro ⟨hd, hguarded⟩
    have h := (hsteps (d.start_bounded_iff.mpr hd)).mpr hguarded
    exact ⟨h, criticalsBacked_of_bounded h⟩

/-- The admin drops the threshold of critical actions to one and makes account 5 the admin with
no approval but its own. -/
def lowered : List (Action numberedChain (Call ℕ)) :=
  [.invoke (signedBy 0) (.updateConfig 1 ⟨⟨1, 1, 0⟩, false⟩),
   .invoke (signedBy 0) (.createProposal 1 (.setAdmin 5))]

theorem governance_not_bounded :
    ¬(Always (step exec) GovernanceBounded smallDeployment.start
        (lowered ++ [.invoke (signedBy 0) (.executeProposal 1 1)]) ∧
      CriticalsBacked smallDeployment
        (lowered ++ [.invoke (signedBy 0) (.executeProposal 1 1)])) := by
  rintro ⟨_, hcriticals⟩
  obtain ⟨w', hok⟩ : ∃ w', exec (signedBy 0) (.executeProposal 1 1)
      (run exec smallDeployment.start lowered) = .ok w' := ⟨_, rfl⟩
  have htwo := hcriticals lowered _ [] 1 _ rfl ⟨rfl, w', hok⟩ rfl trivial
  revert htwo
  decide

end HubAssist.Access
