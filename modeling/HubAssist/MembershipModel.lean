import HubAssist.SorobanHost

/-! The membership_token contract: tokens with a status computed from the ledger time, the
index of expiry days, and the batch operations. Entries are taken not to expire, and the
events it publishes are left out. An upgrade replaces the hash of the contract's code; the
calls modelled here are those of the present code. -/
namespace HubAssist.Membership
open SorobanHost CheckedArith

inductive MembershipStatus where
  | active
  | expired
  | revoked
  | gracePeriod
  deriving DecidableEq, Repr

structure MembershipToken (Address : Type) where
  id : ℕ
  owner : Address
  tier : ℕ
  issuedAt : ℕ
  expiryDate : ℕ
  status : MembershipStatus
  deriving DecidableEq

structure IssueParams (Address : Type) where
  owner : Address
  tier : ℕ
  expiryDate : ℕ
  deriving DecidableEq

structure TransferParams (Address : Type) where
  id : ℕ
  newOwner : Address
  deriving DecidableEq

/-- The errors of the shared type that this contract returns. -/
inductive ContractError where
  | adminNotSet
  | notAdmin
  | tokenNotFound
  | invalidExpiryDate
  | tokenRevoked
  | gracePeriodBlock
  | invalidTransition
  | cannotRenewExpired
  | batchTooLarge
  | contractPaused
  deriving DecidableEq, Repr

abbrev Hash := BitVec 256

/-- The contract's storage, one field for each `DataKey`, and the hash of its code. -/
structure Storage (Address : Type) where
  tokenCount : Option ℕ
  token : ℕ → Option (MembershipToken Address)
  expiryIndex : ℕ → Option (List ℕ)
  gracePeriodDays : Option ℕ
  admin : Option Address
  paused : Option Bool
  wasm : Hash

def Storage.empty {Address : Type} (wasm : Hash) : Storage Address where
  tokenCount := none
  token _ := none
  expiryIndex _ := none
  gracePeriodDays := none
  admin := none
  paused := none
  wasm := wasm

def secondsPerDay : ℕ := 86400

variable {Address : Type} [DecidableEq Address] {C : Chain Address}

abbrev MembershipWorld (C : Chain Address) := World C (Storage Address)

abbrev Outcome (C : Chain Address) := Except (Fault ContractError) (MembershipWorld C)

def requireNotPaused (w : MembershipWorld C) : Except (Fault ContractError) Unit :=
  failIf (w.store.paused.getD false = true) (.error .contractPaused)

def requireAdmin (env : Env C) (w : MembershipWorld C) (caller : Address) :
    Except (Fault ContractError) Unit := do
  requireAuth env caller
  let admin ← getOr w.store.admin (.error .adminNotSet)
  failIf (caller ≠ admin) (.error .notAdmin)

def nextId (s : Storage Address) : Except (Fault ContractError) ℕ :=
  checked (u64Add (s.tokenCount.getD 0) 1)

def saveToken (s : Storage Address) (token : MembershipToken Address) : Storage Address :=
  { s with token := Function.update s.token token.id (some token) }

def loadToken (s : Storage Address) (id : ℕ) :
    Except (Fault ContractError) (MembershipToken Address) :=
  getOr (s.token id) (.error .tokenNotFound)

def expiryDay (expiryDate : ℕ) : ℕ := expiryDate/secondsPerDay

/-- The index once `id` has been appended to the bucket of `day`. -/
def pushToDay (index : ℕ → Option (List ℕ)) (day id : ℕ) : ℕ → Option (List ℕ) :=
  Function.update index day (some ((index day).getD [] ++ [id]))

/-- The index once `id` has been taken out of the bucket of `day`; an empty bucket goes. -/
def dropFromDay (index : ℕ → Option (List ℕ)) (day id : ℕ) : ℕ → Option (List ℕ) :=
  match index day with
  | none => index
  | some ids =>
    let updated := ids.filter fun tokenId => tokenId ≠ id
    Function.update index day (if updated = [] then none else some updated)

def computeStatus (s : Storage Address) (now : ℕ) (token : MembershipToken Address) :
    Except (Fault ContractError) MembershipStatus :=
  if token.status = .revoked then return .revoked
  else do
    let gracePeriodSecs ← checked (u64Mul (s.gracePeriodDays.getD 30) secondsPerDay)
    if now ≤ token.expiryDate then return .active
    else do
      let graceEnd ← checked (u64Add token.expiryDate gracePeriodSecs)
      return if now ≤ graceEnd then .gracePeriod else .expired

def validateTransition : MembershipStatus → MembershipStatus → Except (Fault ContractError) Unit
  | .active, .revoked => .ok ()
  | .gracePeriod, .active => .ok ()
  | .revoked, _ => .error (.error .invalidTransition)
  | .expired, _ => .error (.error .cannotRenewExpired)
  | _, _ => .error (.error .invalidTransition)

/-- The arms of the match that both transfers make on the computed status. -/
def requireTransferable : MembershipStatus → Except (Fault ContractError) Unit
  | .gracePeriod => .error (.error .gracePeriodBlock)
  | .revoked => .error (.error .tokenRevoked)
  | .expired => .error (.error .invalidExpiryDate)
  | .active => .ok ()

def initializeContract (env : Env C) (admin : Address) (w : MembershipWorld C) : Outcome C := do
  -- nothing tests whether the contract has an admin already
  requireAuth env admin
  return w.setStore { w.store with admin := some admin, paused := some false }

def pause (env : Env C) (admin : Address) (w : MembershipWorld C) : Outcome C := do
  requireAdmin env w admin
  return w.setStore { w.store with paused := some true }

def unpause (env : Env C) (admin : Address) (w : MembershipWorld C) : Outcome C := do
  requireAdmin env w admin
  return w.setStore { w.store with paused := some false }

def issueToken (env : Env C) (admin owner : Address) (tier expiryDate : ℕ)
    (w : MembershipWorld C) : Except (Fault ContractError) (ℕ × MembershipWorld C) := do
  requireNotPaused w
  requireAdmin env w admin
  failIf (expiryDate ≤ w.now) (.error .invalidExpiryDate)
  let id ← nextId w.store
  let token : MembershipToken Address := ⟨id, owner, tier, w.now, expiryDate, .active⟩
  let s := saveToken { w.store with tokenCount := some id } token
  return (id, w.setStore { s with expiryIndex := pushToDay s.expiryIndex (expiryDay expiryDate) id })

/-- One transfer, on the storage alone. -/
def moveToken (env : Env C) (now id : ℕ) (newOwner : Address) (s : Storage Address) :
    Except (Fault ContractError) (Storage Address) := do
  let token ← loadToken s id
  requireAuth env token.owner
  let status ← computeStatus s now token
  requireTransferable status
  return saveToken s { token with owner := newOwner }

def transferToken (env : Env C) (id : ℕ) (newOwner : Address) (w : MembershipWorld C) :
    Outcome C := do
  requireNotPaused w
  let s ← moveToken env w.now id newOwner w.store
  return w.setStore s

def renewToken (env : Env C) (admin : Address) (id newExpiryDate : ℕ) (w : MembershipWorld C) :
    Outcome C := do
  requireNotPaused w
  requireAdmin env w admin
  let token ← loadToken w.store id
  let currentStatus ← computeStatus w.store w.now token
  validateTransition currentStatus .active
  -- the new date is not compared with the ledger time
  let index := dropFromDay w.store.expiryIndex (expiryDay token.expiryDate) id
  let s := { w.store with expiryIndex := pushToDay index (expiryDay newExpiryDate) id }
  return w.setStore (saveToken s { token with expiryDate := newExpiryDate, status := .active })

def revokeToken (env : Env C) (admin : Address) (id : ℕ) (w : MembershipWorld C) :
    Outcome C := do
  requireNotPaused w
  requireAdmin env w admin
  let token ← loadToken w.store id
  let currentStatus ← computeStatus w.store w.now token
  validateTransition currentStatus .revoked
  return w.setStore (saveToken w.store { token with status := .revoked })

def getTokenStatus (id : ℕ) (w : MembershipWorld C) :
    Except (Fault ContractError) MembershipStatus := do
  let token ← loadToken w.store id
  computeStatus w.store w.now token

def getToken (id : ℕ) (w : MembershipWorld C) :
    Except (Fault ContractError) (MembershipToken Address) :=
  loadToken w.store id

def getExpiringTokens (daysAhead : ℕ) (w : MembershipWorld C) :
    Except (Fault ContractError) (List ℕ) := do
  let today := w.now/secondsPerDay
  let endDay ← checked (u64Add today (min daysAhead 365))
  return (List.range' today (endDay+1-today)).flatMap fun day =>
    (w.store.expiryIndex day).getD []

/-- The issuing loop of `batchIssueTokens`, from the number after `id` on. The index of expiry
days is left as it is. -/
def issueAll (now : ℕ) : List (IssueParams Address) → ℕ → Storage Address →
    List ℕ × Storage Address
  | [], _, s => ([], s)
  | p :: params, id, s =>
    let token : MembershipToken Address := ⟨id+1, p.owner, p.tier, now, p.expiryDate, .active⟩
    let (ids, s) := issueAll now params (id+1) (saveToken s token)
    ((id+1) :: ids, s)

def batchIssueTokens (env : Env C) (admin : Address) (params : List (IssueParams Address))
    (w : MembershipWorld C) : Except (Fault ContractError) (List ℕ × MembershipWorld C) := do
  requireNotPaused w
  requireAdmin env w admin
  failIf (50 < params.length) (.error .batchTooLarge)
  failIf (∃ p ∈ params, p.expiryDate ≤ w.now) (.error .invalidExpiryDate)
  let startId := w.store.tokenCount.getD 0
  let lastId ← checked (u64Add startId params.length)
  let (ids, s) := issueAll w.now params startId { w.store with tokenCount := some lastId }
  return (ids, w.setStore s)

/-- The loop of `batchTransferTokens`; a failure in it fails the whole call. -/
def moveAll (env : Env C) (now : ℕ) : List (TransferParams Address) → Storage Address →
    Except (Fault ContractError) (Storage Address)
  | [], s => return s
  | p :: params, s => do
    let s ← moveToken env now p.id p.newOwner s
    moveAll env now params s

def batchTransferTokens (env : Env C) (params : List (TransferParams Address))
    (w : MembershipWorld C) : Outcome C := do
  requireNotPaused w
  let s ← moveAll env w.now params w.store
  return w.setStore s

def upgrade (env : Env C) (admin : Address) (newWasmHash : Hash) (w : MembershipWorld C) :
    Outcome C := do
  requireAdmin env w admin
  return w.setStore { w.store with wasm := newWasmHash }

/-- The entry points that write. -/
inductive Call (Address : Type) where
  | initializeContract (admin : Address)
  | pause (admin : Address)
  | unpause (admin : Address)
  | issueToken (admin owner : Address) (tier expiryDate : ℕ)
  | transferToken (id : ℕ) (newOwner : Address)
  | renewToken (admin : Address) (id newExpiryDate : ℕ)
  | revokeToken (admin : Address) (id : ℕ)
  | batchIssueTokens (admin : Address) (params : List (IssueParams Address))
  | batchTransferTokens (params : List (TransferParams Address))
  | upgrade (admin : Address) (newWasmHash : Hash)
  deriving DecidableEq

def exec (env : Env C) : Call Address → MembershipWorld C → Outcome C
  | .initializeContract admin, w => initializeContract env admin w
  | .pause admin, w => pause env admin w
  | .unpause admin, w => unpause env admin w
  | .issueToken admin owner tier expiryDate, w =>
    (issueToken env admin owner tier expiryDate w).map Prod.snd
  | .transferToken id newOwner, w => transferToken env id newOwner w
  | .renewToken admin id newExpiryDate, w => renewToken env admin id newExpiryDate w
  | .revokeToken admin id, w => revokeToken env admin id w
  | .batchIssueTokens admin params, w => (batchIssueTokens env admin params w).map Prod.snd
  | .batchTransferTokens params, w => batchTransferTokens env params w
  | .upgrade admin newWasmHash, w => upgrade env admin newWasmHash w

end HubAssist.Membership
