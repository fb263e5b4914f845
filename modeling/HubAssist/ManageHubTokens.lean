import HubAssist.ManageHubStorage

/-! The modules of the manage_hub contract that work on membership tokens: membership_token,
allowance and batch. The events they publish are left out. -/
namespace HubAssist.ManageHub
open SorobanHost CheckedArith

variable {Address : Type} [DecidableEq Address] {C : Chain Address} {K : Crypto Address}

namespace Tokens

structure IssueParams (Address : Type) where
  id : BytesN32
  user : Address
  expiryDate : ℕ
  deriving DecidableEq

structure TransferParams (Address : Type) where
  id : BytesN32
  newUser : Address
  deriving DecidableEq

def requireAdmin (env : Env C) (w : ManageWorld C K) : Except (Fault ModuleError) Unit := do
  let admin ← getOr w.store.admin (.panic "admin not set")
  requireAuth env admin

def setToken {Digest : Type} (s : Storage Address Digest) (id : BytesN32)
    (record : TokenRecord Address) : Storage Address Digest :=
  { s with token := Function.update s.token id (some record) }

def getToken {Digest : Type} (s : Storage Address Digest) (id : BytesN32) :
    Except (Fault ModuleError) (MembershipToken Address) :=
  readAs TokenRecord.membership? (s.token id) (.panic "token not found")

/-- The admin there is already has to sign. -/
def requireCurrent (env : Env C) : Option Address → Except (Fault ModuleError) Unit
  | some current => requireAuth env current
  | none => .ok ()

/-- The first call sets the admin; later ones need the stored admin. -/
def setAdmin (env : Env C) (admin : Address) (w : ManageWorld C K) : Outcome C K := do
  requireCurrent env w.store.admin
  return w.setStore { w.store with admin := some admin }

/-- One token issued, on the storage alone. -/
def issueOne {Digest : Type} (now : ℕ) (p : IssueParams Address) (s : Storage Address Digest) :
    Except (Fault ModuleError) (Storage Address Digest) := do
  failIf ((s.token p.id).isSome = true) (.panic "token id already exists")
  failIf (p.expiryDate ≤ now) (.panic "expiry must be in the future")
  return setToken s p.id (.membership ⟨p.id, p.user, p.expiryDate, .active⟩)

def issueToken (env : Env C) (id : BytesN32) (user : Address) (expiryDate : ℕ)
    (w : ManageWorld C K) : Outcome C K := do
  requireAdmin env w
  let s ← issueOne w.now ⟨id, user, expiryDate⟩ w.store
  return w.setStore s

/-- One token handed on by its user, on the storage alone. -/
def transferOne {Digest : Type} (env : Env C) (p : TransferParams Address)
    (s : Storage Address Digest) : Except (Fault ModuleError) (Storage Address Digest) := do
  let token ← getToken s p.id
  requireAuth env token.user
  -- the expiry date is not looked at
  failIf (token.status ≠ .active) (.panic "token not transferable")
  return setToken s p.id (.membership { token with user := p.newUser })

def transferToken (env : Env C) (id : BytesN32) (newUser : Address) (w : ManageWorld C K) :
    Outcome C K := do
  let s ← transferOne env ⟨id, newUser⟩ w.store
  return w.setStore s

def revokeToken (env : Env C) (admin : Address) (id : BytesN32) (w : ManageWorld C K) :
    Outcome C K := do
  requireAdmin env w
  requireAuth env admin
  let token ← getToken w.store id
  return w.setStore (setToken w.store id (.membership { token with status := .revoked }))

def renewToken (env : Env C) (admin : Address) (id : BytesN32) (newExpiry : ℕ)
    (w : ManageWorld C K) : Outcome C K := do
  requireAdmin env w
  requireAuth env admin
  failIf (newExpiry ≤ w.now) (.panic "expiry must be in the future")
  let token ← getToken w.store id
  failIf (token.status = .revoked) (.panic "cannot renew revoked token")
  return w.setStore (setToken w.store id
    (.membership { token with expiryDate := newExpiry, status := .active }))

/-- The loop of `batchIssueTokens`: an id may not occur twice in one batch either. -/
def issueAll {Digest : Type} (now : ℕ) : List (IssueParams Address) → Storage Address Digest →
    Except (Fault ModuleError) (Storage Address Digest)
  | [], s => return s
  | p :: params, s => do
    let s ← issueOne now p s
    issueAll now params s

def batchIssueTokens (env : Env C) (params : List (IssueParams Address)) (w : ManageWorld C K) :
    Outcome C K := do
  requireAdmin env w
  let s ← issueAll w.now params w.store
  return w.setStore s

def transferAll {Digest : Type} (env : Env C) : List (TransferParams Address) →
    Storage Address Digest → Except (Fault ModuleError) (Storage Address Digest)
  | [], s => return s
  | p :: params, s => do
    let s ← transferOne env p s
    transferAll env params s

def batchTransferTokens (env : Env C) (params : List (TransferParams Address))
    (w : ManageWorld C K) : Outcome C K := do
  let s ← transferAll env params w.store
  return w.setStore s

/-- The entry points that write. -/
inductive Call (Address : Type) where
  | setAdmin (admin : Address)
  | issueToken (id : BytesN32) (user : Address) (expiryDate : ℕ)
  | transferToken (id : BytesN32) (newUser : Address)
  | revokeToken (admin : Address) (id : BytesN32)
  | renewToken (admin : Address) (id : BytesN32) (newExpiry : ℕ)
  | batchIssueTokens (params : List (IssueParams Address))
  | batchTransferTokens (params : List (TransferParams Address))
  deriving DecidableEq

def exec (env : Env C) : Call Address → ManageWorld C K → Outcome C K
  | .setAdmin admin, w => setAdmin env admin w
  | .issueToken id user expiryDate, w => issueToken env id user expiryDate w
  | .transferToken id newUser, w => transferToken env id newUser w
  | .revokeToken admin id, w => revokeToken env admin id w
  | .renewToken admin id newExpiry, w => renewToken env admin id newExpiry w
  | .batchIssueTokens params, w => batchIssueTokens env params w
  | .batchTransferTokens params, w => batchTransferTokens env params w

end Tokens

namespace Allowances

def getAllowance {Digest : Type} (s : Storage Address Digest) (owner spender : Address)
    (tokenId : BytesN32) : AllowanceInfo :=
  (s.allowance (owner, spender, tokenId)).getD ⟨false, 0⟩

def approve (env : Env C) (owner spender : Address) (tokenId : BytesN32) (expiry : ℕ)
    (w : ManageWorld C K) : Outcome C K := do
  requireAuth env owner
  failIf (expiry ≤ w.now) (.panic "expiry must be in the future")
  -- nothing tests whether `owner` has the token
  return w.setStore { w.store with
    allowance := Function.update w.store.allowance (owner, spender, tokenId) (some ⟨true, expiry⟩) }

def transferFrom (env : Env C) (spender sender receiver : Address) (tokenId : BytesN32)
    (w : ManageWorld C K) : Outcome C K := do
  requireAuth env spender
  let info ← getOr (w.store.allowance (sender, spender, tokenId)) (.panic "no allowance")
  failIf (info.approved = false) (.panic "not approved")
  failIf (info.expiry ≤ w.now) (.panic "allowance expired")
  -- a token that the membership module has written does not decode as this record
  let token ← readAs TokenRecord.bare? (w.store.token tokenId) (.panic "token not found")
  failIf (token.user ≠ sender) (.panic "from mismatch")
  failIf (token.status ≠ .active) (.panic "token not transferable")
  return w.setStore { w.store with
    token := Function.update w.store.token tokenId (some (.bare { token with user := receiver }))
    allowance := Function.update w.store.allowance (sender, spender, tokenId) none }

def revokeAllowance (env : Env C) (owner spender : Address) (tokenId : BytesN32)
    (w : ManageWorld C K) : Outcome C K := do
  requireAuth env owner
  return w.setStore { w.store with
    allowance := Function.update w.store.allowance (owner, spender, tokenId) none }

/-- The entry points that write. -/
inductive Call (Address : Type) where
  | approve (owner spender : Address) (tokenId : BytesN32) (expiry : ℕ)
  | transferFrom (spender sender receiver : Address) (tokenId : BytesN32)
  | revokeAllowance (owner spender : Address) (tokenId : BytesN32)
  deriving DecidableEq

def exec (env : Env C) : Call Address → ManageWorld C K → Outcome C K
  | .approve owner spender tokenId expiry, w => approve env owner spender tokenId expiry w
  | .transferFrom spender sender receiver tokenId, w =>
    transferFrom env spender sender receiver tokenId w
  | .revokeAllowance owner spender tokenId, w => revokeAllowance env owner spender tokenId w

end Allowances

namespace Batch
open Tokens (IssueParams TransferParams batchIssueTokens batchTransferTokens getToken)

structure UpdateParams where
  id : BytesN32
  metadataKey : String
  metadataValue : MetadataValue
  deriving DecidableEq, Repr

def maxBatchSize : ℕ := 50

def validateBatchSize (len : ℕ) : Except (Fault ModuleError) Unit := do
  failIf (len = 0) (.error (.batch .emptyBatch))
  failIf (maxBatchSize < len) (.error (.batch .batchTooLarge))

def batchMint (env : Env C) (params : List (IssueParams Address)) (w : ManageWorld C K) :
    Outcome C K := do
  validateBatchSize params.length
  batchIssueTokens env params w

def batchTransfer (env : Env C) (params : List (TransferParams Address)) (w : ManageWorld C K) :
    Outcome C K := do
  validateBatchSize params.length
  batchTransferTokens env params w

/-- The loop of `batchUpdate`. Nobody has to sign for the metadata of a token. -/
def updateAll {Digest : Type} : List UpdateParams → Storage Address Digest →
    Except (Fault ModuleError) (Storage Address Digest)
  | [], s => return s
  | p :: params, s => do
    let token ← getToken s p.id
    failIf (token.status ≠ .active) (.panic "token not active")
    updateAll params { s with
      tokenMetadata :=
        Function.update s.tokenMetadata (p.id, p.metadataKey) (some p.metadataValue) }

def batchUpdate (params : List UpdateParams) (w : ManageWorld C K) : Outcome C K := do
  validateBatchSize params.length
  let s ← updateAll params w.store
  return w.setStore s

def getTokenMetadata {Digest : Type} (s : Storage Address Digest) (tokenId : BytesN32)
    (metadataKey : String) : Option MetadataValue :=
  s.tokenMetadata (tokenId, metadataKey)

/-- The entry points that write. -/
inductive Call (Address : Type) where
  | batchMint (params : List (IssueParams Address))
  | batchTransfer (params : List (TransferParams Address))
  | batchUpdate (params : List UpdateParams)
  deriving DecidableEq

def exec (env : Env C) : Call Address → ManageWorld C K → Outcome C K
  | .batchMint params, w => batchMint env params w
  | .batchTransfer params, w => batchTransfer env params w
  | .batchUpdate params, w => batchUpdate params w

end Batch

end HubAssist.ManageHub
