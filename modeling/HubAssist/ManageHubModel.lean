import HubAssist.ManageHubTokens
import HubAssist.ManageHubTiers
import HubAssist.ManageHubAttendance

/-! The manage_hub contract: the calls of all its modules on the storage that they share. The
functions that only read are left out. -/
namespace HubAssist.ManageHub
open SorobanHost CheckedArith ContractParts

variable {Address : Type} [DecidableEq Address] {C : Chain Address} {K : Crypto Address}

namespace Rewards

/-- Verifying the admin is left to a later version. -/
def commitRewardsRoot (env : Env C) (admin : Address) (merkleRoot : BytesN32) (totalAmount : ℤ)
    (w : ManageWorld C K) : Outcome C K := do
  requireAuth env admin
  return w.setStore { w.store with
    merkleRoot := some merkleRoot
    merkleRootAmount := some totalAmount }

/-- A placeholder in the source. -/
def hashLeaf (_claimant : Address) (_amount : ℤ) : BytesN32 := 0

/-- A placeholder in the source. -/
def hashPair (left _right : BytesN32) : BytesN32 := left

def verifyProof (leaf root : BytesN32) (proof : List BytesN32) : Bool :=
  proof.foldl hashPair leaf == root

def claimReward (env : Env C) (claimant : Address) (amount : ℤ) (proof : List BytesN32)
    (w : ManageWorld C K) : Outcome C K := do
  requireAuth env claimant
  let merkleRoot ← getOr w.store.merkleRoot (.error (.contract .invalidMerkleRoot))
  failIf ((w.store.claimed (merkleRoot, claimant)).getD false = true)
    (.error (.contract .alreadyClaimed))
  failIf (verifyProof (hashLeaf claimant amount) merkleRoot proof = false)
    (.error (.contract .invalidProof))
  let stakingToken ← getOr w.store.stakingToken (.panic "staking token not set")
  let w ← w.transfer stakingToken C.self claimant amount
  return w.setStore { w.store with
    claimed := Function.update w.store.claimed (merkleRoot, claimant) (some true) }

/-- The entry points of the module that do not work on stakes. -/
inductive Call (Address : Type) where
  | commitRewardsRoot (admin : Address) (merkleRoot : BytesN32) (totalAmount : ℤ)
  | claimReward (claimant : Address) (amount : ℤ) (proof : List BytesN32)
  deriving DecidableEq

def exec (env : Env C) : Call Address → ManageWorld C K → Outcome C K
  | .commitRewardsRoot admin merkleRoot totalAmount, w =>
    commitRewardsRoot env admin merkleRoot totalAmount w
  | .claimReward claimant amount proof, w => claimReward env claimant amount proof w

end Rewards

/-! The upgrade and migration modules. The hashes are taken to be those of uploaded code, the calls
are those of the present code, and there is no step among the migrations that an upgrade runs. -/

namespace Upgrades

def upgrade (env : Env C) (admin : Address) (newWasmHash : BytesN32) (w : ManageWorld C K) :
    Outcome C K := do
  requireAuth env admin
  return w.setStore { w.store with wasm := newWasmHash }

def scheduleUpgrade (env : Env C) (admin : Address) (newWasmHash : BytesN32) (executionTime : ℕ)
    (w : ManageWorld C K) : Outcome C K := do
  requireAuth env admin
  failIf (executionTime ≤ w.now) (.error (.upgrade .timeLockActive))
  return w.setStore { w.store with upgrade := some (newWasmHash, executionTime) }

/-- Nobody has to sign. -/
def executeScheduledUpgrade (w : ManageWorld C K) : Outcome C K := do
  let scheduled ← getOr w.store.upgrade (.error (.upgrade .upgradeNotScheduled))
  failIf (w.now < scheduled.2) (.error (.upgrade .timeLockActive))
  return w.setStore { w.store with wasm := scheduled.1, upgrade := none }

def migrateV1ToV2 (env : Env C) (admin : Address) (w : ManageWorld C K) : Outcome C K := do
  requireAuth env admin
  if 2 ≤ w.store.version.getD 1 then return w
  else return w.setStore { w.store with version := some 2 }

inductive Call (Address : Type) where
  | upgrade (admin : Address) (newWasmHash : BytesN32)
  | scheduleUpgrade (admin : Address) (newWasmHash : BytesN32) (executionTime : ℕ)
  | executeScheduledUpgrade
  | migrateV1ToV2 (admin : Address)
  deriving DecidableEq

def exec (env : Env C) : Call Address → ManageWorld C K → Outcome C K
  | .upgrade admin newWasmHash, w => upgrade env admin newWasmHash w
  | .scheduleUpgrade admin newWasmHash executionTime, w =>
    scheduleUpgrade env admin newWasmHash executionTime w
  | .executeScheduledUpgrade, w => executeScheduledUpgrade w
  | .migrateV1ToV2 admin, w => migrateV1ToV2 env admin w

end Upgrades

/-! The royalty and fractionalization modules, whose functions are not exported. -/

namespace Fractions

def calculateRoyalty (amount : ℤ) (royaltyPercentage : ℕ) : Option ℤ :=
  if royaltyPercentage = 0 then some 0
  else do
    let product ← i128Mul amount royaltyPercentage
    i128Div product 100

def applyRoyaltyOnTransfer (transferAmount : ℤ) (royaltyPercentage : ℕ) (w : ManageWorld C K) :
    Except (Fault ModuleError) ((ℤ × ℤ) × ManageWorld C K) := do
  let royalty ← checked (calculateRoyalty transferAmount royaltyPercentage)
  let netAmount ← checked (i128Sub transferAmount royalty)
  let total ← checked (i128Add (w.store.royalty.getD 0) royalty)
  return ((netAmount, royalty), w.setStore { w.store with royalty := some total })

/-- The list of the fractions' ids that is returned is empty, and nothing is written. -/
def splitToken (env : Env C) (owner : Address) (fractionCount : ℕ) (w : ManageWorld C K) :
    Except (Fault ModuleError) (List String × ManageWorld C K) := do
  requireAuth env owner
  failIf (fractionCount = 0) (.error (.fractionalization .invalidAmount))
  let _ ← getOr w.store.fractionToken (.error (.fractionalization .insufficientBalance))
  return ([], w)

inductive Call (Address : Type) where
  | applyRoyaltyOnTransfer (transferAmount : ℤ) (royaltyPercentage : ℕ)
  | splitToken (owner : Address) (fractionCount : ℕ)
  deriving DecidableEq

def exec (env : Env C) : Call Address → ManageWorld C K → Outcome C K
  | .applyRoyaltyOnTransfer transferAmount royaltyPercentage, w =>
    (applyRoyaltyOnTransfer transferAmount royaltyPercentage w).map Prod.snd
  | .splitToken owner fractionCount, w => (splitToken env owner fractionCount w).map Prod.snd

end Fractions

/-- The calls of all modules. -/
inductive Call (Address Digest : Type) where
  | staking (call : Staking.Call Address)
  | rewards (call : Rewards.Call Address)
  | tokens (call : Tokens.Call Address)
  | allowances (call : Allowances.Call Address)
  | batch (call : Batch.Call Address)
  | tiers (call : Tiers.Call Address Digest)
  | subscriptions (call : Subscriptions.Call Address)
  | attendance (call : Attendance.Call Address)
  | upgrades (call : Upgrades.Call Address)
  | fractions (call : Fractions.Call Address)
  deriving DecidableEq

def exec (env : Env C) : Call Address K.Digest → ManageWorld C K → Outcome C K
  | .staking call, w => stakingPart.call ModuleError.staking (Staking.exec env call) w
  | .rewards call, w => Rewards.exec env call w
  | .tokens call, w => Tokens.exec env call w
  | .allowances call, w => Allowances.exec env call w
  | .batch call, w => Batch.exec env call w
  | .tiers call, w => Tiers.exec env call w
  | .subscriptions call, w => Subscriptions.exec env call w
  | .attendance call, w => Attendance.exec env call w
  | .upgrades call, w => Upgrades.exec env call w
  | .fractions call, w => Fractions.exec env call w

end HubAssist.ManageHub
