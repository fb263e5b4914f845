import HubAssist.SorobanHost

/-! The access_control contract: roles, the multisig proposals, the pause and the two-step
transfer of the admin. Entries are taken not to expire, and the events it publishes are left
out. An upgrade replaces the hash of the contract's code; the calls modelled here are those
of the present code. -/
namespace HubAssist.Access
open SorobanHost CheckedArith

inductive UserRole where
  | guest
  | member
  | staff
  | admin
  deriving DecidableEq, Repr

/-- The discriminant, by which roles are ordered. -/
def UserRole.rank : UserRole → ℕ
  | .guest => 0
  | .member => 1
  | .staff => 2
  | .admin => 3

abbrev Hash := BitVec 256

structure MultiSigConfig where
  threshold : ℕ
  criticalThreshold : ℕ
  timeLockDuration : ℕ
  deriving DecidableEq

inductive ProposalAction (Address : Type) where
  | setRole (user : Address) (role : UserRole)
  | removeRole (user : Address)
  | setAdmin (newAdmin : Address)
  | scheduleUpgrade (newWasmHash : Hash)
  deriving DecidableEq

structure PendingProposal (Address : Type) where
  id : ℕ
  proposer : Address
  action : ProposalAction Address
  approvals : List Address
  createdAt : ℕ
  executionTime : ℕ
  deriving DecidableEq

structure AccessControlConfig where
  multisig : MultiSigConfig
  paused : Bool
  deriving DecidableEq

structure MembershipInfo (Address : Type) where
  user : Address
  role : UserRole
  assignedAt : ℕ
  deriving DecidableEq

structure PendingAdminTransfer (Address : Type) where
  address : Address
  proposedAt : ℕ
  deriving DecidableEq

inductive AccessControlError where
  | unauthorized
  | adminNotSet
  | userNotFound
  | proposalNotFound
  | alreadyApproved
  | thresholdNotMet
  | timeLockActive
  | contractPaused
  | noPendingTransfer
  | timelockNotExpired
  deriving DecidableEq, Repr

def adminTransferLock : ℕ := 48*60*60

/-- The contract's storage, one field for each `DataKey` in use, and the hash of its code. -/
structure Storage (Address : Type) where
  admin : Option Address
  config : Option AccessControlConfig
  role : Address → Option (MembershipInfo Address)
  proposalCount : Option ℕ
  proposal : ℕ → Option (PendingProposal Address)
  pendingUpgrade : Option Hash
  storageVersion : Option ℕ
  pendingAdmin : Option (PendingAdminTransfer Address)
  wasm : Hash

def Storage.empty {Address : Type} (wasm : Hash) : Storage Address where
  admin := none
  config := none
  role _ := none
  proposalCount := none
  proposal _ := none
  pendingUpgrade := none
  storageVersion := none
  pendingAdmin := none
  wasm := wasm

variable {Address : Type} [DecidableEq Address] {C : Chain Address}

abbrev AccessWorld (C : Chain Address) := World C (Storage Address)

abbrev Outcome (C : Chain Address) := Except (Fault AccessControlError) (AccessWorld C)

def requireAdmin (env : Env C) (w : AccessWorld C) (caller : Address) :
    Except (Fault AccessControlError) Unit := do
  requireAuth env caller
  let admin ← getOr w.store.admin (.error .adminNotSet)
  failIf (caller ≠ admin) (.error .unauthorized)

def loadConfig (w : AccessWorld C) : AccessControlConfig :=
  w.store.config.getD ⟨⟨1, 2, 0⟩, false⟩

def assertNotPaused (w : AccessWorld C) : Except (Fault AccessControlError) Unit :=
  failIf ((loadConfig w).paused = true) (.error .contractPaused)

def getStorageVersion (w : AccessWorld C) : ℕ := w.store.storageVersion.getD 1

def isCritical : ProposalAction Address → Prop
  | .setAdmin _ | .scheduleUpgrade _ => True
  | .setRole _ _ | .removeRole _ => False

instance : DecidablePred (isCritical : ProposalAction Address → Prop)
  | .setAdmin _ | .scheduleUpgrade _ => isTrue trivial
  | .setRole _ _ | .removeRole _ => isFalse id

/-- The role on record; without one a user is a guest. -/
def currentRole (w : AccessWorld C) (user : Address) : UserRole :=
  match w.store.role user with
  | some info => info.role
  | none => .guest

def checkAccess (w : AccessWorld C) (user : Address) (requiredRole : UserRole) : Prop :=
  requiredRole.rank ≤ (currentRole w user).rank

instance (w : AccessWorld C) (user : Address) (requiredRole : UserRole) :
    Decidable (checkAccess w user requiredRole) :=
  inferInstanceAs (Decidable (_ ≤ _))

def requireAccess (w : AccessWorld C) (user : Address) (requiredRole : UserRole) :
    Except (Fault AccessControlError) Unit :=
  failIf (¬checkAccess w user requiredRole) (.error .unauthorized)

def isAdmin (w : AccessWorld C) (user : Address) : Prop := w.store.admin = some user

def getRole (w : AccessWorld C) (user : Address) :
    Except (Fault AccessControlError) (MembershipInfo Address) :=
  getOr (w.store.role user) (.error .userNotFound)

def getProposal (w : AccessWorld C) (id : ℕ) :
    Except (Fault AccessControlError) (PendingProposal Address) :=
  getOr (w.store.proposal id) (.error .proposalNotFound)

/-- The roles once `user` has been given `role` at the time `now`. -/
def grantRole (roles : Address → Option (MembershipInfo Address)) (user : Address)
    (role : UserRole) (now : ℕ) : Address → Option (MembershipInfo Address) :=
  Function.update roles user (some ⟨user, role, now⟩)

def initializeContract (env : Env C) (admin : Address) (multisigConfig : MultiSigConfig)
    (w : AccessWorld C) : Outcome C := do
  -- nothing tests whether the contract has an admin already
  requireAuth env admin
  return w.setStore { w.store with
    admin := some admin
    config := some ⟨multisigConfig, false⟩
    role := grantRole w.store.role admin .admin w.now }

def setRole (env : Env C) (admin user : Address) (role : UserRole) (w : AccessWorld C) :
    Outcome C := do
  assertNotPaused w
  requireAdmin env w admin
  return w.setStore { w.store with role := grantRole w.store.role user role w.now }

def removeRole (env : Env C) (admin user : Address) (w : AccessWorld C) : Outcome C := do
  assertNotPaused w
  requireAdmin env w admin
  let _ ← getRole w user
  return w.setStore { w.store with role := Function.update w.store.role user none }

def updateConfig (env : Env C) (admin : Address) (config : AccessControlConfig)
    (w : AccessWorld C) : Outcome C := do
  requireAdmin env w admin
  return w.setStore { w.store with config := some config }

def pause (env : Env C) (admin : Address) (w : AccessWorld C) : Outcome C := do
  requireAdmin env w admin
  return w.setStore { w.store with config := some { loadConfig w with paused := true } }

def unpause (env : Env C) (admin : Address) (w : AccessWorld C) : Outcome C := do
  requireAdmin env w admin
  return w.setStore { w.store with config := some { loadConfig w with paused := false } }

def createProposal (env : Env C) (proposer : Address) (action : ProposalAction Address)
    (w : AccessWorld C) : Except (Fault AccessControlError) (ℕ × AccessWorld C) := do
  assertNotPaused w
  requireAuth env proposer
  requireAccess w proposer .staff
  let id ← checked (u64Add (w.store.proposalCount.getD 0) 1)
  let executionTime ← checked (u64Add w.now (loadConfig w).multisig.timeLockDuration)
  let proposal : PendingProposal Address :=
    { id := id
      proposer := proposer
      action := action
      approvals := [proposer]
      createdAt := w.now
      executionTime := executionTime }
  return (id, w.setStore { w.store with
    proposalCount := some id
    proposal := Function.update w.store.proposal id (some proposal) })

def approveProposal (env : Env C) (approver : Address) (id : ℕ) (w : AccessWorld C) :
    Outcome C := do
  assertNotPaused w
  requireAuth env approver
  requireAccess w approver .staff
  let proposal ← getProposal w id
  failIf (approver ∈ proposal.approvals) (.error .alreadyApproved)
  return w.setStore { w.store with
    proposal := Function.update w.store.proposal id
      (some { proposal with approvals := proposal.approvals ++ [approver] }) }

/-- The approvals that an action needs. -/
def required (multisig : MultiSigConfig) (action : ProposalAction Address) : ℕ :=
  if isCritical action then multisig.criticalThreshold else multisig.threshold

def applyAction (s : Storage Address) (now : ℕ) : ProposalAction Address → Storage Address
  | .setRole user role => { s with role := grantRole s.role user role now }
  | .removeRole user => { s with role := Function.update s.role user none }
  -- a pending transfer of the admin stays where it is
  | .setAdmin newAdmin =>
    { s with admin := some newAdmin, role := grantRole s.role newAdmin .admin now }
  -- the migrations run after an upgrade are an empty list
  | .scheduleUpgrade newWasmHash => { s with pendingUpgrade := some newWasmHash, wasm := newWasmHash }

def executeProposal (env : Env C) (executor : Address) (id : ℕ) (w : AccessWorld C) :
    Outcome C := do
  assertNotPaused w
  requireAuth env executor
  let proposal ← getProposal w id
  failIf (proposal.approvals.length < required (loadConfig w).multisig proposal.action)
    (.error .thresholdNotMet)
  failIf (w.now < proposal.executionTime) (.error .timeLockActive)
  let s := applyAction w.store w.now proposal.action
  return w.setStore { s with proposal := Function.update s.proposal id none }

def migrateRolesV2 (env : Env C) (admin : Address) (w : AccessWorld C) : Outcome C := do
  requireAdmin env w admin
  if 2 ≤ getStorageVersion w then return w
  else return w.setStore { w.store with storageVersion := some 2 }

def proposeAdminTransfer (env : Env C) (currentAdmin newAdmin : Address) (w : AccessWorld C) :
    Outcome C := do
  assertNotPaused w
  requireAdmin env w currentAdmin
  return w.setStore { w.store with pendingAdmin := some ⟨newAdmin, w.now⟩ }

def acceptAdminTransfer (env : Env C) (newAdmin : Address) (w : AccessWorld C) : Outcome C := do
  assertNotPaused w
  requireAuth env newAdmin
  let pending ← getOr w.store.pendingAdmin (.error .noPendingTransfer)
  failIf (newAdmin ≠ pending.address) (.error .unauthorized)
  let unlocked ← checked (u64Add pending.proposedAt adminTransferLock)
  -- whoever is admin now is not compared with the admin who proposed the transfer
  failIf (w.now < unlocked) (.error .timelockNotExpired)
  return w.setStore { w.store with
    admin := some newAdmin
    role := grantRole w.store.role newAdmin .admin w.now
    pendingAdmin := none }

def cancelAdminTransfer (env : Env C) (currentAdmin : Address) (w : AccessWorld C) :
    Outcome C := do
  requireAdmin env w currentAdmin
  failIf (w.store.pendingAdmin = none) (.error .noPendingTransfer)
  return w.setStore { w.store with pendingAdmin := none }

/-- The entry points that write. -/
inductive Call (Address : Type) where
  | initializeContract (admin : Address) (multisigConfig : MultiSigConfig)
  | setRole (admin user : Address) (role : UserRole)
  | removeRole (admin user : Address)
  | updateConfig (admin : Address) (config : AccessControlConfig)
  | pause (admin : Address)
  | unpause (admin : Address)
  | createProposal (proposer : Address) (action : ProposalAction Address)
  | approveProposal (approver : Address) (id : ℕ)
  | executeProposal (executor : Address) (id : ℕ)
  | migrateRolesV2 (admin : Address)
  | proposeAdminTransfer (currentAdmin newAdmin : Address)
  | acceptAdminTransfer (newAdmin : Address)
  | cancelAdminTransfer (currentAdmin : Address)
  deriving DecidableEq

def exec (env : Env C) : Call Address → AccessWorld C → Outcome C
  | .initializeContract admin config, w => initializeContract env admin config w
  | .setRole admin user role, w => setRole env admin user role w
  | .removeRole admin user, w => removeRole env admin user w
  | .updateConfig admin config, w => updateConfig env admin config w
  | .pause admin, w => pause env admin w
  | .unpause admin, w => unpause env admin w
  | .createProposal proposer action, w => (createProposal env proposer action w).map Prod.snd
  | .approveProposal approver id, w => approveProposal env approver id w
  | .executeProposal executor id, w => executeProposal env executor id w
  | .migrateRolesV2 admin, w => migrateRolesV2 env admin w
  | .proposeAdminTransfer admin newAdmin, w => proposeAdminTransfer env admin newAdmin w
  | .acceptAdminTransfer newAdmin, w => acceptAdminTransfer env newAdmin w
  | .cancelAdminTransfer admin, w => cancelAdminTransfer env admin w

end HubAssist.Access
