import HubAssist.SorobanHost
import HubAssist.MembershipModel
import HubAssist.StakingModel

/-! The storage of the manage_hub contract. Its modules are compiled into one contract, and a
key is encoded as the name of its variant with the arguments: the keys `Admin`, `Tier`, `TierList`
and `Token` of several modules are the same keys, and a tier or a token is stored as the record
type of the module that wrote it last. Entries are taken not to expire. -/
namespace HubAssist.ManageHub
open SorobanHost ContractParts
open HubAssist.Membership (MembershipStatus)
open Staking (StakingConfig StakingTier StakeInfo PendingWithdrawal)

abbrev BytesN32 := BitVec 256

/-- The host's functions on bytes. The digests form a type of their own, so that a hash may be
taken to be free of collisions. -/
structure Crypto (Address : Type) where
  Digest : Type
  decEq : DecidableEq Digest
  sha256 : List UInt8 → Digest
  zeroBytes : Digest
  toBytes : Digest → List UInt8
  addressToXdr : Address → List UInt8
  u32ToXdr : ℕ → List UInt8

instance {Address : Type} (K : Crypto Address) : DecidableEq K.Digest := K.decEq

/-- The little-endian bytes of an unsigned integer. -/
def toLeBytes (width n : ℕ) : List UInt8 :=
  (List.range width).map fun i => UInt8.ofNat (n/256^i)

/-- Integers that fit are told apart by their bytes. -/
theorem toLeBytes_inj {width a b : ℕ} (ha : a < 256^width) (hb : b < 256^width)
    (h : toLeBytes width a = toLeBytes width b) : a = b := by
  have hdigit (k : ℕ) (hk : k < width) : a/256^k%256 = b/256^k%256 := by
    have hbyte : UInt8.ofNat (a/256^k) = UInt8.ofNat (b/256^k) :=
      List.map_inj_left.mp h k (List.mem_range.mpr hk)
    simpa using congrArg UInt8.toNat hbyte
  have hprefix (k : ℕ) : k ≤ width → a%256^k = b%256^k := by
    induction k with
    | zero => simp [Nat.mod_one]
    | succ k ih =>
      intro hk
      rw [Nat.mod_pow_succ, Nat.mod_pow_succ, ih (by omega), hdigit k (by omega)]
  calc a = a%256^width := (Nat.mod_eq_of_lt ha).symm
    _ = b%256^width := hprefix width (le_refl width)
    _ = b := Nat.mod_eq_of_lt hb

inductive TierLevel where
  | basic
  | standard
  | premium
  | enterprise
  deriving DecidableEq, Repr

inductive FeatureFlag where
  | meetingRoomAccess
  | privateOfficeAccess
  | hotDeskAccess
  | eventAccess
  | networkingAccess
  | analyticsAccess
  | apiAccess
  | prioritySupport
  deriving DecidableEq, Repr

structure TierFeature where
  name : String
  enabled : Bool
  deriving DecidableEq, Repr

structure SubscriptionTier where
  id : BytesN32
  name : String
  level : TierLevel
  price : ℤ
  durationDays : ℕ
  features : List TierFeature
  isActive : Bool
  maxMembers : ℕ
  deriving DecidableEq, Repr

inductive MetadataValue where
  | text (s : String)
  | number (x : ℤ)
  | bool (b : Bool)
  deriving DecidableEq, Repr

inductive TierChangeStatus where
  | pending
  | approved
  | rejected
  deriving DecidableEq, Repr

inductive TierChangeType where
  | upgrade
  | downgrade
  | renewal
  deriving DecidableEq, Repr

structure TierChangeRequest (Address Digest : Type) where
  id : Digest
  member : Address
  fromTierId : BytesN32
  toTierId : BytesN32
  changeType : TierChangeType
  status : TierChangeStatus
  requestedAt : ℕ
  deriving DecidableEq

structure TierPromotion where
  code : String
  tierId : BytesN32
  discountBps : ℕ
  validFrom : ℕ
  validUntil : ℕ
  isActive : Bool
  deriving DecidableEq, Repr

inductive SubscriptionStatus where
  | active
  | cancelled
  | paused
  | expired
  deriving DecidableEq, Repr

structure Subscription (Address Digest : Type) where
  id : Digest
  user : Address
  paymentToken : Address
  amount : ℤ
  status : SubscriptionStatus
  createdAt : ℕ
  expiresAt : ℕ
  tierId : BytesN32
  billingCycle : ℕ
  pauseCount : ℕ
  pausedAt : ℕ
  pauseReason : String
  deriving DecidableEq

structure MembershipToken (Address : Type) where
  id : BytesN32
  user : Address
  expiryDate : ℕ
  status : MembershipStatus
  deriving DecidableEq

/-- The record that the allowance module takes a token to be. -/
structure Token (Address : Type) where
  user : Address
  status : MembershipStatus
  deriving DecidableEq

structure AllowanceInfo where
  approved : Bool
  expiry : ℕ
  deriving DecidableEq, Repr

inductive AttendanceAction where
  | clockIn
  | clockOut
  deriving DecidableEq, Repr

structure AttendanceLog (Address Digest : Type) where
  id : BytesN32
  userId : Address
  action : AttendanceAction
  timestamp : ℕ
  details : List String
  prevHash : Digest
  deriving DecidableEq

structure AggregatePeakHourData where
  peakArrivalHour : ℕ
  peakDepartureHour : ℕ
  avgSessionDurationMinutes : ℕ
  windowDays : ℕ
  deriving DecidableEq, Repr

/-- What is stored under a key `Tier`. -/
inductive TierRecord where
  | staking (tier : StakingTier)
  | subscription (tier : SubscriptionTier)
  deriving DecidableEq

/-- What is stored under a key `Token`. -/
inductive TokenRecord (Address : Type) where
  | membership (token : MembershipToken Address)
  | bare (token : Token Address)
  deriving DecidableEq

/-- The storage, one field for each key that a module reads or writes, and the hash of the
contract's code. -/
structure Storage (Address Digest : Type) where
  admin : Option Address
  config : Option StakingConfig
  tier : BytesN32 → Option TierRecord
  tierList : Option (List BytesN32)
  stake : Address → Option (StakeInfo Address)
  stakingToken : Option Address
  pendingWithdrawals : Address → Option (List (PendingWithdrawal Address))
  cooldownSecs : Option ℕ
  totalRewardsPaid : Address → Option ℤ
  merkleRoot : Option BytesN32
  merkleRootAmount : Option ℤ
  claimed : BytesN32 × Address → Option Bool
  tierChangeRequest : Digest → Option (TierChangeRequest Address Digest)
  tierChangeRequestList : Option (List Digest)
  promotion : String → Option TierPromotion
  promotionList : Option (List String)
  userTier : Address → Option BytesN32
  subscription : Address → Option (Subscription Address Digest)
  tierFeatures : TierLevel → Option (List FeatureFlag)
  token : BytesN32 → Option (TokenRecord Address)
  tokenMetadata : BytesN32 × String → Option MetadataValue
  allowance : Address × Address × BytesN32 → Option AllowanceInfo
  attendanceLog : BytesN32 → Option (AttendanceLog Address Digest)
  attendanceLogsByUser : Address → Option (List BytesN32)
  latestHash : Address → Option Digest
  peakHoursCache : Address × ℕ × ℤ → Option AggregatePeakHourData
  upgrade : Option (BytesN32 × ℕ)
  version : Option ℕ
  royalty : Option ℤ
  fractionToken : Option Bool
  wasm : BytesN32

def Storage.empty {Address Digest : Type} (wasm : BytesN32) : Storage Address Digest where
  admin := none
  config := none
  tier _ := none
  tierList := none
  stake _ := none
  stakingToken := none
  pendingWithdrawals _ := none
  cooldownSecs := none
  totalRewardsPaid _ := none
  merkleRoot := none
  merkleRootAmount := none
  claimed _ := none
  tierChangeRequest _ := none
  tierChangeRequestList := none
  promotion _ := none
  promotionList := none
  userTier _ := none
  subscription _ := none
  tierFeatures _ := none
  token _ := none
  tokenMetadata _ := none
  allowance _ := none
  attendanceLog _ := none
  attendanceLogsByUser _ := none
  latestHash _ := none
  peakHoursCache _ := none
  upgrade := none
  version := none
  royalty := none
  fractionToken := none
  wasm := wasm

inductive TierError where
  | tierAlreadyExists
  deriving DecidableEq, Repr

inductive UpgradeError where
  | unauthorized
  | upgradeNotScheduled
  | timeLockActive
  | invalidWasmHash
  deriving DecidableEq, Repr

inductive BatchError where
  | emptyBatch
  | batchTooLarge
  deriving DecidableEq, Repr

inductive FractionalizationError where
  | invalidAmount
  | insufficientBalance
  | unauthorized
  deriving DecidableEq, Repr

/-- The errors of the shared type that this contract returns. -/
inductive ContractError where
  | invalidProof
  | alreadyClaimed
  | invalidMerkleRoot
  deriving DecidableEq, Repr

/-- The errors that the functions of the modules return. -/
inductive ModuleError where
  | staking (e : Staking.ModuleError)
  | tier (e : TierError)
  | upgrade (e : UpgradeError)
  | batch (e : BatchError)
  | fractionalization (e : FractionalizationError)
  | contract (e : ContractError)
  deriving DecidableEq, Repr

def TierRecord.staking? : TierRecord → Option StakingTier
  | .staking tier => some tier
  | .subscription _ => none

def TierRecord.subscription? : TierRecord → Option SubscriptionTier
  | .staking _ => none
  | .subscription tier => some tier

def TokenRecord.membership? {Address : Type} : TokenRecord Address → Option (MembershipToken Address)
  | .membership token => some token
  | .bare _ => none

def TokenRecord.bare? {Address : Type} : TokenRecord Address → Option (Token Address)
  | .membership _ => none
  | .bare token => some token

/-- An entry, read as one type of record. A record of another type does not decode, and that
traps. -/
def readAs {R T : Type} (decode : R → Option T) (entry : Option R) (absent : Fault ModuleError) :
    Except (Fault ModuleError) T := do
  let record ← getOr entry absent
  getOr (decode record) (.panic "conversion error")

variable {Address : Type} [DecidableEq Address]

abbrev ManageWorld (C : Chain Address) (K : Crypto Address) := World C (Storage Address K.Digest)

abbrev Outcome (C : Chain Address) (K : Crypto Address) :=
  Except (Fault ModuleError) (ManageWorld C K)

/-- The contract as it is deployed. -/
def deployed {C : Chain Address} {K : Crypto Address} (wasm : BytesN32)
    (tokens : Address → C.token.State) (now : ℕ) : ManageWorld C K :=
  ⟨Storage.empty wasm, tokens, [], now⟩

/-- What the staking and rewards modules see. A tier's record of the other type reads as none:
the call fails in both cases. -/
def stakingPart {Address Digest : Type} :
    Part (Storage Address Digest) (Staking.Storage Address) where
  get s :=
    { admin := s.admin
      config := s.config
      tier := fun id => (s.tier id).bind TierRecord.staking?
      tierList := s.tierList
      stake := s.stake
      stakingToken := s.stakingToken
      pendingWithdrawals := s.pendingWithdrawals
      cooldownSecs := s.cooldownSecs
      totalRewardsPaid := s.totalRewardsPaid }
  -- no call of these modules removes a tier
  put s p :=
    { s with
      admin := p.admin
      config := p.config
      tier := fun id => ((p.tier id).map TierRecord.staking).or (s.tier id)
      tierList := p.tierList
      stake := p.stake
      stakingToken := p.stakingToken
      pendingWithdrawals := p.pendingWithdrawals
      cooldownSecs := p.cooldownSecs
      totalRewardsPaid := p.totalRewardsPaid }

end HubAssist.ManageHub
