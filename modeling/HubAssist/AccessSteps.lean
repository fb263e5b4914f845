import HubAssist.AccessModel

/-! What an accepted call of the access_control contract requires and does: one equivalence
for each entry point that is not the admin's, and over them the effects a call can have. -/
namespace HubAssist.Access
open SorobanHost CheckedArith

variable {Address : Type} [DecidableEq Address] {C : Chain Address}
variable {env : Env C} {w w' : AccessWorld C}

def Paused (w : AccessWorld C) : Prop := (loadConfig w).paused = true

instance : Decidable (Paused w) := inferInstanceAs (Decidable (_ = _))

/-- The call is signed by the stored admin. -/
def AdminSigned (env : Env C) (w : AccessWorld C) : Prop :=
  ∃ admin, w.store.admin = some admin ∧ admin ∈ env.signers

theorem requireAdmin_eq_ok {caller : Address} {u : Unit} :
    requireAdmin env w caller = .ok u ↔ caller ∈ env.signers ∧ w.store.admin = some caller := by
  simp only [requireAdmin, bind_eq_ok, requireAuth_eq_ok, getOr_eq_ok, failIf_eq_ok, exists_const,
    not_not]
  constructor
  · rintro ⟨hs, admin, hadmin, rfl⟩
    exact ⟨hs, hadmin⟩
  · rintro ⟨hs, hadmin⟩
    exact ⟨hs, caller, hadmin, rfl⟩

theorem initializeContract_eq_ok {admin : Address} {config : MultiSigConfig} :
    initializeContract env admin config w = .ok w' ↔ admin ∈ env.signers ∧
      w.setStore { w.store with
        admin := some admin
        config := some ⟨config, false⟩
        role := grantRole w.store.role admin .admin w.now } = w' := by
  simp only [initializeContract, bind_eq_ok, requireAuth_eq_ok, exists_const, pure_eq_ok]

/-- The proposal that `createProposal` stores. -/
def newProposal (w : AccessWorld C) (id : ℕ) (proposer : Address)
    (action : ProposalAction Address) : PendingProposal Address where
  id := id
  proposer := proposer
  action := action
  approvals := [proposer]
  createdAt := w.now
  executionTime := w.now+(loadConfig w).multisig.timeLockDuration

theorem createProposal_eq_ok {proposer : Address} {action : ProposalAction Address} {id : ℕ} :
    createProposal env proposer action w = .ok (id, w') ↔
      ¬Paused w ∧ proposer ∈ env.signers ∧ checkAccess w proposer .staff ∧
        w.store.proposalCount.getD 0+1 < u64Bound ∧ w.store.proposalCount.getD 0+1 = id ∧
        w.now+(loadConfig w).multisig.timeLockDuration < u64Bound ∧
        w.setStore { w.store with
          proposalCount := some id
          proposal := Function.update w.store.proposal id
            (some (newProposal w id proposer action)) } = w' := by
  simp only [createProposal, assertNotPaused, requireAccess, bind_eq_ok, failIf_eq_ok,
    requireAuth_eq_ok, checked_eq_ok, u64Add_eq_some, pure_eq_ok, exists_const, Paused, not_not,
    Prod.mk.injEq]
  constructor
  · rintro ⟨hp, hs, ha, _, ⟨hlt, rfl⟩, _, ⟨htime, rfl⟩, rfl, rfl⟩
    exact ⟨hp, hs, ha, hlt, rfl, htime, rfl⟩
  · rintro ⟨hp, hs, ha, hlt, rfl, htime, rfl⟩
    exact ⟨hp, hs, ha, _, ⟨hlt, rfl⟩, _, ⟨htime, rfl⟩, rfl, rfl⟩

theorem approveProposal_eq_ok {approver : Address} {id : ℕ} :
    approveProposal env approver id w = .ok w' ↔
      ¬Paused w ∧ approver ∈ env.signers ∧ checkAccess w approver .staff ∧
        ∃ p, w.store.proposal id = some p ∧ approver ∉ p.approvals ∧
        w.setStore { w.store with
          proposal := Function.update w.store.proposal id
            (some { p with approvals := p.approvals ++ [approver] }) } = w' := by
  simp only [approveProposal, assertNotPaused, requireAccess, getProposal, bind_eq_ok,
    failIf_eq_ok, requireAuth_eq_ok, getOr_eq_ok, pure_eq_ok, exists_const, Paused, not_not]

/-- The guards of `executeProposal` on the proposal `p` with the number `id`. -/
structure Executable (env : Env C) (w : AccessWorld C) (executor : Address) (id : ℕ)
    (p : PendingProposal Address) : Prop where
  running : ¬Paused w
  signed : executor ∈ env.signers
  stored : w.store.proposal id = some p
  approved : required (loadConfig w).multisig p.action ≤ p.approvals.length
  unlocked : p.executionTime ≤ w.now

theorem executeProposal_eq_ok {executor : Address} {id : ℕ} :
    executeProposal env executor id w = .ok w' ↔ ∃ p, Executable env w executor id p ∧
      w.setStore { applyAction w.store w.now p.action with
        proposal := Function.update (applyAction w.store w.now p.action).proposal id none } =
          w' := by
  simp only [executeProposal, assertNotPaused, getProposal, bind_eq_ok, failIf_eq_ok,
    requireAuth_eq_ok, getOr_eq_ok, pure_eq_ok, exists_const, not_lt]
  constructor
  · rintro ⟨hp, hs, p, hstored, happroved, hunlocked, rfl⟩
    exact ⟨p, ⟨hp, hs, hstored, happroved, hunlocked⟩, rfl⟩
  · rintro ⟨p, h, rfl⟩
    exact ⟨h.running, h.signed, p, h.stored, h.approved, h.unlocked, rfl⟩

theorem acceptAdminTransfer_eq_ok {newAdmin : Address} :
    acceptAdminTransfer env newAdmin w = .ok w' ↔
      ¬Paused w ∧ newAdmin ∈ env.signers ∧ ∃ since, w.store.pendingAdmin = some ⟨newAdmin, since⟩ ∧
        since+adminTransferLock < u64Bound ∧ since+adminTransferLock ≤ w.now ∧
        w.setStore { w.store with
          admin := some newAdmin
          role := grantRole w.store.role newAdmin .admin w.now
          pendingAdmin := none } = w' := by
  simp only [acceptAdminTransfer, assertNotPaused, bind_eq_ok, failIf_eq_ok, requireAuth_eq_ok,
    getOr_eq_ok, checked_eq_ok, u64Add_eq_some, pure_eq_ok, exists_const, Paused, not_not, not_lt]
  constructor
  · rintro ⟨hp, hs, ⟨address, since⟩, hpending, rfl, _, ⟨hlt, rfl⟩, hnow, rfl⟩
    exact ⟨hp, hs, since, hpending, hlt, hnow, rfl⟩
  · rintro ⟨hp, hs, since, hpending, hlt, hnow, rfl⟩
    exact ⟨hp, hs, _, hpending, rfl, _, ⟨hlt, rfl⟩, hnow, rfl⟩

theorem proposeAdminTransfer_eq_ok {currentAdmin newAdmin : Address} :
    proposeAdminTransfer env currentAdmin newAdmin w = .ok w' ↔
      ¬Paused w ∧ currentAdmin ∈ env.signers ∧ w.store.admin = some currentAdmin ∧
        w.setStore { w.store with pendingAdmin := some ⟨newAdmin, w.now⟩ } = w' := by
  simp only [proposeAdminTransfer, assertNotPaused, bind_eq_ok, failIf_eq_ok, requireAdmin_eq_ok,
    pure_eq_ok, exists_const, Paused, and_assoc]

theorem setRole_eq_ok {admin user : Address} {role : UserRole} :
    setRole env admin user role w = .ok w' ↔
      ¬Paused w ∧ admin ∈ env.signers ∧ w.store.admin = some admin ∧
        w.setStore { w.store with role := grantRole w.store.role user role w.now } = w' := by
  simp only [setRole, assertNotPaused, bind_eq_ok, failIf_eq_ok, requireAdmin_eq_ok, pure_eq_ok,
    exists_const, Paused, and_assoc]

theorem removeRole_eq_ok {admin user : Address} :
    removeRole env admin user w = .ok w' ↔
      ¬Paused w ∧ admin ∈ env.signers ∧ w.store.admin = some admin ∧
        (∃ info, w.store.role user = some info) ∧
        w.setStore { w.store with role := Function.update w.store.role user none } = w' := by
  simp only [removeRole, assertNotPaused, getRole, bind_eq_ok, failIf_eq_ok, requireAdmin_eq_ok,
    getOr_eq_ok, pure_eq_ok, exists_const, exists_and_right, Paused, and_assoc]

theorem updateConfig_eq_ok {admin : Address} {config : AccessControlConfig} :
    updateConfig env admin config w = .ok w' ↔ admin ∈ env.signers ∧ w.store.admin = some admin ∧
      w.setStore { w.store with config := some config } = w' := by
  simp only [updateConfig, bind_eq_ok, requireAdmin_eq_ok, pure_eq_ok, exists_const, and_assoc]

theorem pause_eq_ok {admin : Address} :
    pause env admin w = .ok w' ↔ admin ∈ env.signers ∧ w.store.admin = some admin ∧
      w.setStore { w.store with config := some { loadConfig w with paused := true } } = w' := by
  simp only [pause, bind_eq_ok, requireAdmin_eq_ok, pure_eq_ok, exists_const, and_assoc]

theorem unpause_eq_ok {admin : Address} :
    unpause env admin w = .ok w' ↔ admin ∈ env.signers ∧ w.store.admin = some admin ∧
      w.setStore { w.store with config := some { loadConfig w with paused := false } } = w' := by
  simp only [unpause, bind_eq_ok, requireAdmin_eq_ok, pure_eq_ok, exists_const, and_assoc]

/-- Once the roles have been migrated, the call succeeds and writes nothing. -/
theorem migrateRolesV2_eq_ok {admin : Address} :
    migrateRolesV2 env admin w = .ok w' ↔ admin ∈ env.signers ∧ w.store.admin = some admin ∧
      (if 2 ≤ getStorageVersion w then w
        else w.setStore { w.store with storageVersion := some 2 }) = w' := by
  simp only [migrateRolesV2, bind_eq_ok, requireAdmin_eq_ok, exists_const, and_assoc]
  split_ifs <;> simp only [pure_eq_ok]

theorem cancelAdminTransfer_eq_ok {currentAdmin : Address} :
    cancelAdminTransfer env currentAdmin w = .ok w' ↔
      currentAdmin ∈ env.signers ∧ w.store.admin = some currentAdmin ∧
        w.store.pendingAdmin ≠ none ∧
        w.setStore { w.store with pendingAdmin := none } = w' := by
  simp only [cancelAdminTransfer, bind_eq_ok, requireAdmin_eq_ok, failIf_eq_ok, pure_eq_ok,
    exists_const, and_assoc, ne_eq]

@[simp] theorem applyAction_pendingAdmin (s : Storage Address) (now : ℕ)
    (action : ProposalAction Address) :
    (applyAction s now action).pendingAdmin = s.pendingAdmin := by
  cases action <;> rfl

/-- Only an action that sets the admin changes the admin. -/
theorem applyAction_admin (s : Storage Address) (now : ℕ) (action : ProposalAction Address) :
    (∃ newAdmin, action = .setAdmin newAdmin ∧ (applyAction s now action).admin = some newAdmin) ∨
      (applyAction s now action).admin = s.admin := by
  cases action with
  | setAdmin newAdmin => exact Or.inl ⟨newAdmin, rfl, rfl⟩
  | _ => exact Or.inr rfl

/-- The call sets the contract up. -/
def Call.SetsUp (call : Call Address) : Prop := ∃ admin config, call = .initializeContract admin config

/-- The pending transfer of the admin that a call other than an execution leaves behind. -/
def Call.pendingAfter (now : ℕ) (old : Option (PendingAdminTransfer Address)) :
    Call Address → Option (PendingAdminTransfer Address)
  | .proposeAdminTransfer _ newAdmin => some ⟨newAdmin, now⟩
  | .cancelAdminTransfer _ | .acceptAdminTransfer _ => none
  | _ => old

/-- What an accepted call does: set the contract up, administer it with the signature of the
stored admin, open, approve or execute a proposal, or accept a transfer of the admin. -/
inductive Effect (env : Env C) (w : AccessWorld C) : Call Address → AccessWorld C → Prop where
  | setUp (admin : Address) (config : MultiSigConfig) (hsigned : admin ∈ env.signers) :
      Effect env w (.initializeContract admin config) (w.setStore { w.store with
        admin := some admin
        config := some ⟨config, false⟩
        role := grantRole w.store.role admin .admin w.now })
  | administer (call : Call Address) (config : Option AccessControlConfig)
      (role : Address → Option (MembershipInfo Address)) (version : Option ℕ)
      (hsigned : AdminSigned env w) :
      Effect env w call (w.setStore { w.store with
        config := config
        role := role
        storageVersion := version
        pendingAdmin := call.pendingAfter w.now w.store.pendingAdmin })
  | propose (proposer : Address) (action : ProposalAction Address)
      (hsigned : proposer ∈ env.signers) (hstaff : checkAccess w proposer .staff) :
      Effect env w (.createProposal proposer action) (w.setStore { w.store with
        proposalCount := some (w.store.proposalCount.getD 0+1)
        proposal := Function.update w.store.proposal (w.store.proposalCount.getD 0+1)
          (some (newProposal w (w.store.proposalCount.getD 0+1) proposer action)) })
  | approve (approver : Address) (id : ℕ) (p : PendingProposal Address)
      (hsigned : approver ∈ env.signers) (hstaff : checkAccess w approver .staff)
      (hstored : w.store.proposal id = some p) (hfresh : approver ∉ p.approvals) :
      Effect env w (.approveProposal approver id) (w.setStore { w.store with
        proposal := Function.update w.store.proposal id
          (some { p with approvals := p.approvals ++ [approver] }) })
  | execute (executor : Address) (id : ℕ) (p : PendingProposal Address)
      (h : Executable env w executor id p) :
      Effect env w (.executeProposal executor id)
        (w.setStore { applyAction w.store w.now p.action with
          proposal := Function.update (applyAction w.store w.now p.action).proposal id none })
  | accept (newAdmin : Address) (since : ℕ) (hsigned : newAdmin ∈ env.signers)
      (hpending : w.store.pendingAdmin = some ⟨newAdmin, since⟩)
      (hnow : since+adminTransferLock ≤ w.now) :
      Effect env w (.acceptAdminTransfer newAdmin) (w.setStore { w.store with
        admin := some newAdmin
        role := grantRole w.store.role newAdmin .admin w.now
        pendingAdmin := none })

theorem exec_effect {call : Call Address} (h : exec env call w = .ok w') :
    Effect env w call w' := by
  cases call with
  | initializeContract admin config =>
    obtain ⟨hs, rfl⟩ := initializeContract_eq_ok.mp h
    exact .setUp admin config hs
  | setRole admin user role =>
    obtain ⟨_, hs, hadmin, rfl⟩ := setRole_eq_ok.mp h
    exact .administer _ w.store.config _ w.store.storageVersion ⟨admin, hadmin, hs⟩
  | removeRole admin user =>
    obtain ⟨_, hs, hadmin, _, rfl⟩ := removeRole_eq_ok.mp h
    exact .administer _ w.store.config _ w.store.storageVersion ⟨admin, hadmin, hs⟩
  | updateConfig admin config =>
    obtain ⟨hs, hadmin, rfl⟩ := updateConfig_eq_ok.mp h
    exact .administer _ _ w.store.role w.store.storageVersion ⟨admin, hadmin, hs⟩
  | pause admin =>
    obtain ⟨hs, hadmin, rfl⟩ := pause_eq_ok.mp h
    exact .administer _ _ w.store.role w.store.storageVersion ⟨admin, hadmin, hs⟩
  | unpause admin =>
    obtain ⟨hs, hadmin, rfl⟩ := unpause_eq_ok.mp h
    exact .administer _ _ w.store.role w.store.storageVersion ⟨admin, hadmin, hs⟩
  | createProposal proposer action =>
    obtain ⟨⟨id, w₁⟩, hc, rfl⟩ := map_eq_ok.mp h
    obtain ⟨_, hs, hstaff, _, rfl, _, rfl⟩ := createProposal_eq_ok.mp hc
    exact .propose proposer action hs hstaff
  | approveProposal approver id =>
    obtain ⟨_, hs, hstaff, p, hstored, hfresh, rfl⟩ := approveProposal_eq_ok.mp h
    exact .approve approver id p hs hstaff hstored hfresh
  | executeProposal executor id =>
    obtain ⟨p, hp, rfl⟩ := executeProposal_eq_ok.mp h
    exact .execute executor id p hp
  | migrateRolesV2 admin =>
    obtain ⟨hs, hadmin, rfl⟩ := migrateRolesV2_eq_ok.mp h
    split_ifs
    · exact .administer _ w.store.config w.store.role w.store.storageVersion ⟨admin, hadmin, hs⟩
    · exact .administer _ w.store.config w.store.role _ ⟨admin, hadmin, hs⟩
  | proposeAdminTransfer admin newAdmin =>
    obtain ⟨_, hs, hadmin, rfl⟩ := proposeAdminTransfer_eq_ok.mp h
    exact .administer _ w.store.config w.store.role w.store.storageVersion ⟨admin, hadmin, hs⟩
  | acceptAdminTransfer newAdmin =>
    obtain ⟨_, hs, since, hpending, _, hnow, rfl⟩ := acceptAdminTransfer_eq_ok.mp h
    exact .accept newAdmin since hs hpending hnow
  | cancelAdminTransfer admin =>
    obtain ⟨hs, hadmin, _, rfl⟩ := cancelAdminTransfer_eq_ok.mp h
    exact .administer _ w.store.config w.store.role w.store.storageVersion ⟨admin, hadmin, hs⟩

end HubAssist.Access
