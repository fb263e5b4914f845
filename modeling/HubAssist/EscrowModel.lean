import HubAssist.SorobanHost

/-! The payment_escrow contract: its records, its storage and its entry points. Entries are
taken not to expire, and the events it publishes, which no entry point reads, are left out. -/
namespace HubAssist.Escrow
open SorobanHost CheckedArith

inductive EscrowStatus where
  | active
  | released
  | refunded
  | disputed
  deriving DecidableEq, Repr

inductive Resolution where
  | release
  | refund
  deriving DecidableEq, Repr

abbrev Hash := BitVec 256

structure ArbitrationVote (Address : Type) where
  arbitrator : Address
  decision : Resolution
  timestamp : ℕ
  deriving DecidableEq

structure EscrowRecord (Address : Type) where
  id : ℕ
  depositor : Address
  beneficiary : Address
  paymentToken : Address
  amount : ℤ
  status : EscrowStatus
  createdAt : ℕ
  releaseTime : ℕ
  disputeWindow : ℕ
  disputeTimestamp : ℕ
  arbitrationVotes : List (ArbitrationVote Address)
  depositorEvidenceHash : Hash
  beneficiaryEvidenceHash : Hash
  deriving DecidableEq

inductive ContractError where
  | adminNotSet
  | unauthorized
  | escrowNotFound
  | escrowAlreadyReleased
  | escrowInDispute
  | disputeWindowActive
  | insufficientBalance
  | paymentTokenNotSet
  | invalidAmount
  | notYetReleasable
  | alreadyProcessed
  | disputeWindowExpired
  deriving DecidableEq, Repr

/-- The contract's storage, one field for each `DataKey`. -/
structure Storage (Address : Type) where
  admin : Option Address
  paymentToken : Option Address
  disputeWindow : Option ℕ
  disputeWindowConfig : ℕ → Option ℕ
  escrowCount : Option ℕ
  escrow : ℕ → Option (EscrowRecord Address)
  depositorEscrows : Address → Option (List ℕ)
  beneficiaryEscrows : Address → Option (List ℕ)
  paused : Option Bool
  arbitrators : Option (List Address)

def Storage.empty {Address : Type} : Storage Address where
  admin := none
  paymentToken := none
  disputeWindow := none
  disputeWindowConfig _ := none
  escrowCount := none
  escrow _ := none
  depositorEscrows _ := none
  beneficiaryEscrows _ := none
  paused := none
  arbitrators := none

def disputeTimeoutSeconds : ℕ := 30*24*3600

variable {Address : Type} [DecidableEq Address] {C : Chain Address}

abbrev EscrowWorld (C : Chain Address) := World C (Storage Address)

abbrev Outcome (C : Chain Address) := Except (Fault ContractError) (EscrowWorld C)

def setEscrow (w : EscrowWorld C) (id : ℕ) (e : EscrowRecord Address) : EscrowWorld C :=
  w.setStore { w.store with escrow := Function.update w.store.escrow id (some e) }

def pushToList (lists : Address → Option (List ℕ)) (key : Address) (id : ℕ) :
    Address → Option (List ℕ) :=
  Function.update lists key (some ((lists key).getD [] ++ [id]))

def requireNotPaused (w : EscrowWorld C) : Except (Fault ContractError) Unit :=
  failIf (w.store.paused.getD false = true) (.error .unauthorized)

def requireAdmin (env : Env C) (w : EscrowWorld C) (caller : Address) :
    Except (Fault ContractError) Unit := do
  let admin ← getOr w.store.admin (.error .adminNotSet)
  requireAuth env caller
  failIf (caller ≠ admin) (.error .unauthorized)

def getEscrow (w : EscrowWorld C) (id : ℕ) :
    Except (Fault ContractError) (EscrowRecord Address) :=
  getOr (w.store.escrow id) (.error .escrowNotFound)

def loadEscrows (w : EscrowWorld C) (ids : Option (List ℕ)) : List (EscrowRecord Address) :=
  (ids.getD []).filterMap w.store.escrow

def listDepositorEscrows (w : EscrowWorld C) (depositor : Address) :
    List (EscrowRecord Address) :=
  loadEscrows w (w.store.depositorEscrows depositor)

def listBeneficiaryEscrows (w : EscrowWorld C) (beneficiary : Address) :
    List (EscrowRecord Address) :=
  loadEscrows w (w.store.beneficiaryEscrows beneficiary)

def getArbitrators (w : EscrowWorld C) : List Address := w.store.arbitrators.getD []

def initializeContract (env : Env C) (admin paymentToken : Address) (defaultDisputeWindow : ℕ)
    (w : EscrowWorld C) : Outcome C := do
  requireAuth env admin
  return w.setStore { w.store with
    admin := some admin
    paymentToken := some paymentToken
    disputeWindow := some defaultDisputeWindow
    paused := some false
    arbitrators := some [] }

def setArbitrators (env : Env C) (admin : Address) (arbitrators : List Address)
    (w : EscrowWorld C) : Outcome C := do
  requireAdmin env w admin
  return w.setStore { w.store with arbitrators := some arbitrators }

def setDisputeWindow (env : Env C) (admin : Address) (bookingType windowSeconds : ℕ)
    (w : EscrowWorld C) : Outcome C := do
  requireAdmin env w admin
  return w.setStore { w.store with
    disputeWindowConfig :=
      Function.update w.store.disputeWindowConfig bookingType (some windowSeconds) }

def pause (env : Env C) (admin : Address) (w : EscrowWorld C) : Outcome C := do
  requireAdmin env w admin
  return w.setStore { w.store with paused := some true }

def unpause (env : Env C) (admin : Address) (w : EscrowWorld C) : Outcome C := do
  requireAdmin env w admin
  return w.setStore { w.store with paused := some false }

/-- The window that a new escrow takes: the one of its type, else the default. -/
def windowFor (s : Storage Address) (bookingType : ℕ) : ℕ :=
  ((s.disputeWindowConfig bookingType).or s.disputeWindow).getD 86400

/-- The record that `createEscrow` stores. -/
def newEscrow (w : EscrowWorld C) (id : ℕ) (depositor beneficiary paymentToken : Address)
    (amount : ℤ) (releaseTime bookingType : ℕ) : EscrowRecord Address where
  id := id
  depositor := depositor
  beneficiary := beneficiary
  paymentToken := paymentToken
  amount := amount
  status := .active
  createdAt := w.now
  releaseTime := releaseTime
  disputeWindow := windowFor w.store bookingType
  disputeTimestamp := 0
  arbitrationVotes := []
  depositorEvidenceHash := 0
  beneficiaryEvidenceHash := 0

def createEscrow (env : Env C) (depositor beneficiary : Address) (amount : ℤ)
    (releaseTime bookingType : ℕ) (w : EscrowWorld C) :
    Except (Fault ContractError) (ℕ × EscrowWorld C) := do
  requireNotPaused w
  requireAuth env depositor
  failIf (amount ≤ 0) (.error .invalidAmount)
  let paymentToken ← getOr w.store.paymentToken (.error .paymentTokenNotSet)
  let w ← w.transfer paymentToken depositor C.self amount
  -- the deposit is taken before the record exists; an overflow here rolls it back
  let id ← checked (u64Add (w.store.escrowCount.getD 0) 1)
  let escrow := newEscrow w id depositor beneficiary paymentToken amount releaseTime bookingType
  return (id, w.setStore { w.store with
    escrow := Function.update w.store.escrow id (some escrow)
    escrowCount := some id
    depositorEscrows := pushToList w.store.depositorEscrows depositor id
    beneficiaryEscrows := pushToList w.store.beneficiaryEscrows beneficiary id })

def release (env : Env C) (caller : Address) (id : ℕ) (w : EscrowWorld C) : Outcome C := do
  requireNotPaused w
  requireAuth env caller
  let e ← getEscrow w id
  let admin ← getOr w.store.admin (.error .adminNotSet)
  failIf (caller ≠ e.beneficiary ∧ caller ≠ admin) (.error .unauthorized)
  failIf (e.status = .released ∨ e.status = .refunded) (.error .escrowAlreadyReleased)
  -- `disputed` has an error of its own; what passes both guards is active
  failIf (e.status = .disputed) (.error .escrowInDispute)
  let windowEnd ← checked (u64Add e.releaseTime e.disputeWindow)
  failIf (w.now < windowEnd) (.error .disputeWindowActive)
  let w ← w.transfer e.paymentToken C.self e.beneficiary e.amount
  return setEscrow w id { e with status := .released }

def refund (env : Env C) (caller : Address) (id : ℕ) (w : EscrowWorld C) : Outcome C := do
  requireAuth env caller
  let e ← getEscrow w id
  let admin ← getOr w.store.admin (.error .adminNotSet)
  -- neither the pause nor the release time nor the window is looked at here
  failIf (caller ≠ admin ∧ caller ≠ e.depositor) (.error .unauthorized)
  failIf (e.status = .released ∨ e.status = .refunded) (.error .escrowAlreadyReleased)
  let w ← w.transfer e.paymentToken C.self e.depositor e.amount
  return setEscrow w id { e with status := .refunded }

def dispute (env : Env C) (depositor : Address) (id : ℕ) (evidenceHash : Hash)
    (w : EscrowWorld C) : Outcome C := do
  requireNotPaused w
  requireAuth env depositor
  let e ← getEscrow w id
  failIf (e.depositor ≠ depositor) (.error .unauthorized)
  failIf (e.status ≠ .active) (.error .escrowAlreadyReleased)
  let windowEnd ← checked (u64Add e.releaseTime e.disputeWindow)
  -- the end of the window itself still counts as inside
  failIf (windowEnd < w.now) (.error .disputeWindowExpired)
  return setEscrow w id { e with
    status := .disputed
    disputeTimestamp := w.now
    depositorEvidenceHash := evidenceHash }

def submitEvidence (env : Env C) (caller : Address) (id : ℕ) (evidenceHash : Hash)
    (w : EscrowWorld C) : Outcome C := do
  requireNotPaused w
  requireAuth env caller
  let e ← getEscrow w id
  failIf (e.status ≠ .disputed) (.error .escrowInDispute)
  failIf (caller ≠ e.depositor ∧ caller ≠ e.beneficiary) (.error .unauthorized)
  return setEscrow w id
    (if caller = e.depositor then { e with depositorEvidenceHash := evidenceHash }
      else { e with beneficiaryEvidenceHash := evidenceHash })

def countVote {Address : Type} (n : ℕ × ℕ) (vote : ArbitrationVote Address) : ℕ × ℕ :=
  match vote.decision with
  | .release => (n.1+1, n.2)
  | .refund => (n.1, n.2+1)

/-- The counting loop of `voteResolution`: votes to release, votes to refund. -/
def tallyVotes (votes : List (ArbitrationVote Address)) : ℕ × ℕ := votes.foldl countVote (0, 0)

def majorityThreshold (arbitrators : List Address) : ℕ := arbitrators.length/2+1

def voteResolution (env : Env C) (arbitrator : Address) (id : ℕ) (decision : Resolution)
    (w : EscrowWorld C) : Outcome C := do
  requireNotPaused w
  requireAuth env arbitrator
  let e ← getEscrow w id
  failIf (e.status ≠ .disputed) (.error .escrowInDispute)
  let arbitrators := getArbitrators w
  failIf (arbitrator ∉ arbitrators) (.error .unauthorized)
  failIf (∃ vote ∈ e.arbitrationVotes, vote.arbitrator = arbitrator) (.error .unauthorized)
  let votes := e.arbitrationVotes ++ [⟨arbitrator, decision, w.now⟩]
  -- the threshold is that of the current list, the votes those of all who ever voted
  if majorityThreshold arbitrators ≤ (tallyVotes votes).1 then
    let w ← w.transfer e.paymentToken C.self e.beneficiary e.amount
    return setEscrow w id { e with arbitrationVotes := votes, status := .released }
  else if majorityThreshold arbitrators ≤ (tallyVotes votes).2 then
    let w ← w.transfer e.paymentToken C.self e.depositor e.amount
    return setEscrow w id { e with arbitrationVotes := votes, status := .refunded }
  else
    return setEscrow w id { e with arbitrationVotes := votes }

def expireDispute (id : ℕ) (w : EscrowWorld C) : Outcome C := do
  requireNotPaused w
  let e ← getEscrow w id
  failIf (e.status ≠ .disputed) (.error .escrowInDispute)
  let timeout ← checked (u64Add e.disputeTimestamp disputeTimeoutSeconds)
  failIf (w.now < timeout) (.error .disputeWindowActive)
  let w ← w.transfer e.paymentToken C.self e.depositor e.amount
  return setEscrow w id { e with status := .refunded }

def tryAutoRelease (env : Env C) (caller : Address) (id : ℕ) (w : EscrowWorld C) :
    Outcome C := do
  requireAuth env caller
  let e ← getEscrow w id
  failIf (e.status ≠ .active) (.error .alreadyProcessed)
  -- the release time only: the window is left out of this test, and so is the pause
  failIf (w.now < e.releaseTime) (.error .notYetReleasable)
  let w ← w.transfer e.paymentToken C.self e.beneficiary e.amount
  return setEscrow w id { e with status := .released }

/-- The entry points that write. -/
inductive Call (Address : Type) where
  | initializeContract (admin paymentToken : Address) (defaultDisputeWindow : ℕ)
  | setArbitrators (admin : Address) (arbitrators : List Address)
  | setDisputeWindow (admin : Address) (bookingType windowSeconds : ℕ)
  | pause (admin : Address)
  | unpause (admin : Address)
  | createEscrow (depositor beneficiary : Address) (amount : ℤ) (releaseTime bookingType : ℕ)
  | release (caller : Address) (id : ℕ)
  | refund (caller : Address) (id : ℕ)
  | dispute (depositor : Address) (id : ℕ) (evidenceHash : Hash)
  | submitEvidence (caller : Address) (id : ℕ) (evidenceHash : Hash)
  | voteResolution (arbitrator : Address) (id : ℕ) (decision : Resolution)
  | expireDispute (id : ℕ)
  | tryAutoRelease (caller : Address) (id : ℕ)
  deriving DecidableEq

def exec (env : Env C) : Call Address → EscrowWorld C → Outcome C
  | .initializeContract admin token window, w => initializeContract env admin token window w
  | .setArbitrators admin arbitrators, w => setArbitrators env admin arbitrators w
  | .setDisputeWindow admin type window, w => setDisputeWindow env admin type window w
  | .pause admin, w => pause env admin w
  | .unpause admin, w => unpause env admin w
  | .createEscrow depositor beneficiary amount time type, w =>
    (createEscrow env depositor beneficiary amount time type w).map Prod.snd
  | .release caller id, w => release env caller id w
  | .refund caller id, w => refund env caller id w
  | .dispute depositor id hash, w => dispute env depositor id hash w
  | .submitEvidence caller id hash, w => submitEvidence env caller id hash w
  | .voteResolution arbitrator id decision, w => voteResolution env arbitrator id decision w
  | .expireDispute id, w => expireDispute id w
  | .tryAutoRelease caller id, w => tryAutoRelease env caller id w

end HubAssist.Escrow
