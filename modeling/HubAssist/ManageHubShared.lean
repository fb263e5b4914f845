import HubAssist.ManageHubModel

/-! The five modules of the manage_hub contract that keep entries under the same keys, with the
functions that read such entries. The other functions that only read come to entries of one module
and are left out. -/
namespace HubAssist.ManageHub.Shared
open SorobanHost CheckedArith ContractParts

variable {Address : Type} [DecidableEq Address] {C : Chain Address} {K : Crypto Address}

inductive Module where
  | staking
  | tierManagement
  | subscription
  | membershipToken
  | allowance
  deriving DecidableEq, Repr

/-- The trap of a read that finds a record of another type. -/
def conversionError : Fault ModuleError := .panic "conversion error"

/-- The loop of the two functions that list tiers. An id without a record is passed over. -/
def listAs {Digest T : Type} (decode : TierRecord → Option T) (s : Storage Address Digest) :
    List BytesN32 → Except (Fault ModuleError) (List T)
  | [] => return []
  | id :: ids =>
    match s.tier id with
    | none => listAs decode s ids
    | some record => do
      let tier ← getOr (decode record) conversionError
      let tiers ← listAs decode s ids
      return tier :: tiers

def getStakingTier {Digest : Type} (s : Storage Address Digest) (tierId : BytesN32) :
    Except (Fault ModuleError) Staking.StakingTier :=
  readAs TierRecord.staking? (s.tier tierId) (.panic "tier not found")

def listStakingTiers {Digest : Type} (s : Storage Address Digest) :
    Except (Fault ModuleError) (List Staking.StakingTier) :=
  listAs TierRecord.staking? s (s.tierList.getD [])

def getTier {Digest : Type} (s : Storage Address Digest) (tierId : BytesN32) :
    Except (Fault ModuleError) SubscriptionTier :=
  readTier s tierId "tier not found"

def listTiers {Digest : Type} (s : Storage Address Digest) :
    Except (Fault ModuleError) (List SubscriptionTier) :=
  listAs TierRecord.subscription? s (s.tierList.getD [])

/-- The tier that a call on stakes reads, if it comes to that. -/
def stakeTier {Digest : Type} (s : Storage Address Digest) :
    Staking.Call Address → Option BytesN32
  | .stake _ _ tierId => some tierId
  | .unstake staker | .partialUnstake staker _ | .claimStakingRewards staker
  | .claimRewards staker => (s.stake staker).map fun info => info.tierId
  | .setStakingConfig _ _ | .addStakingTier _ _ | .setCooldownDays _ _ | .claimUnstaked _
  | .emergencyUnstake _ => none

def tierMissing (fault : Fault ModuleError) : Bool :=
  fault = .panic "tier not found" ∨ fault = .error (.staking (.staking .tierNotFound))

/-- A call on stakes. One that misses its tier although something is stored there has come to a
record of the other type. -/
def execStaking (env : Env C) (call : Staking.Call Address) (w : ManageWorld C K) :
    Outcome C K :=
  match stakingPart.call ModuleError.staking (Staking.exec env call) w with
  | .ok w' => .ok w'
  | .error fault =>
    if tierMissing fault ∧ ((stakeTier w.store call).bind w.store.tier).isSome then
      .error conversionError
    else .error fault

/-- The calls of the five modules, those that read an entry of another module among them. The
claim of the rewards module stands among the calls on stakes. -/
inductive Call (Address Digest : Type) where
  | staking (call : Staking.Call Address)
  | getStakingTier (tierId : BytesN32)
  | listStakingTiers
  | tiers (call : Tiers.Call Address Digest)
  | getTier (tierId : BytesN32)
  | listTiers
  | subscriptions (call : Subscriptions.Call Address)
  | hasFeature (subscriber : Address) (feature : FeatureFlag)
  | tokens (call : Tokens.Call Address)
  | getToken (id : BytesN32)
  | allowances (call : Allowances.Call Address)
  deriving DecidableEq

def Call.module {Digest : Type} : Call Address Digest → Module
  | .staking _ | .getStakingTier _ | .listStakingTiers => .staking
  | .tiers _ | .getTier _ | .listTiers => .tierManagement
  | .subscriptions _ | .hasFeature _ _ => .subscription
  | .tokens _ | .getToken _ => .membershipToken
  | .allowances _ => .allowance

/-- A function that only reads leaves the world as it is. -/
def reading {T : Type} (w : ManageWorld C K) (result : Except (Fault ModuleError) T) :
    Outcome C K :=
  result.map fun _ => w

def exec (env : Env C) : Call Address K.Digest → ManageWorld C K → Outcome C K
  | .staking call, w => execStaking env call w
  | .getStakingTier tierId, w => reading w (getStakingTier w.store tierId)
  | .listStakingTiers, w => reading w (listStakingTiers w.store)
  | .tiers call, w => Tiers.exec env call w
  | .getTier tierId, w => reading w (getTier w.store tierId)
  | .listTiers, w => reading w (listTiers w.store)
  | .subscriptions call, w => Subscriptions.exec env call w
  | .hasFeature subscriber feature, w =>
    reading w (Subscriptions.hasFeature w.store subscriber feature)
  | .tokens call, w => Tokens.exec env call w
  | .getToken id, w => reading w (Tokens.getToken w.store id)
  | .allowances call, w => Allowances.exec env call w

/-- The entry that a module takes for its admin; two of the modules have none. -/
def Module.admin {Digest : Type} (s : Storage Address Digest) : Module → Option Address
  | .staking | .tierManagement | .membershipToken => s.admin
  | .subscription | .allowance => none

/-- The list of tiers that a module goes through. -/
def Module.tierList {Digest : Type} (s : Storage Address Digest) : Module → List BytesN32
  | .staking | .tierManagement => s.tierList.getD []
  | .subscription | .membershipToken | .allowance => []

end HubAssist.ManageHub.Shared
