import HubAssist.Binary64
import HubAssist.Checks
import HubAssist.KeyedTable

/-! The cancellation policies, with the checks of the requests that write them, and the refunds
they lead to. Times are milliseconds, and numbers are given by their values: what the code computes
is rounded to binary64 step by step. -/
namespace HubAssist.Refunds
open Binary64 Checks KeyedTable

inductive WorkspaceType where
  | hotDesk
  | dedicatedDesk
  | privateOffice
  | meetingRoom
  | virtual
  | hybrid
  deriving DecidableEq, Repr

/-- How a type is written. -/
def WorkspaceType.text : WorkspaceType → String
  | .hotDesk => "HotDesk"
  | .dedicatedDesk => "DedicatedDesk"
  | .privateOffice => "PrivateOffice"
  | .meetingRoom => "MeetingRoom"
  | .virtual => "Virtual"
  | .hybrid => "Hybrid"

structure CancellationPolicy where
  workspaceType : WorkspaceType
  fullRefundHoursBefore : ℤ
  partialRefundPercent : ℤ
  partialRefundHoursBefore : ℤ
  deriving DecidableEq

/-- The values used for a workspace type without a policy. -/
structure Effective where
  fullRefundHoursBefore : ℤ
  partialRefundPercent : ℤ
  partialRefundHoursBefore : ℤ

structure RefundEvaluation where
  refundAmount : ℚ
  refundPercent : ℤ
  reason : String

def defaultPolicy : Effective := ⟨24, 0, 0⟩

def CancellationPolicy.effective (p : CancellationPolicy) : Effective :=
  ⟨p.fullRefundHoursBefore, p.partialRefundPercent, p.partialRefundHoursBefore⟩

/-- `Number(x.toFixed(2))`: of the hundredths nearest to the number the one further from zero, read
as a number again. A number from 10^21 on is written as it is. -/
def toFixed2 (x : ℚ) : ℚ :=
  if 10^21 ≤ |x| then x
  else if x < 0 then -roundMagnitude (⌊-x*100+1/2⌋/100)
  else roundMagnitude (⌊x*100+1/2⌋/100)

def hoursBetween (cancelledAt startTime : ℤ) : ℚ :=
  roundValue (roundValue (startTime-cancelledAt : ℤ)/(1000*60*60))

/-- The brackets; `hoursText` writes a number of hours with one digit. -/
def evaluateBrackets (hoursText : ℚ → String) (effective : Effective) (startTime : ℤ)
    (bookedAmount : ℚ) (cancelledAt : ℤ) : RefundEvaluation :=
  let hoursBeforeStart := hoursBetween cancelledAt startTime
  -- the decimal of the column is read as a number
  let totalAmount := roundValue bookedAmount
  if effective.fullRefundHoursBefore ≤ hoursBeforeStart then
    { refundAmount := totalAmount
      refundPercent := 100
      reason := "Cancelled " ++ hoursText hoursBeforeStart ++
        " h before start — full refund (threshold: " ++
        toString effective.fullRefundHoursBefore ++ " h)." }
  else if 0 < effective.partialRefundPercent ∧
      effective.partialRefundHoursBefore ≤ hoursBeforeStart then
    { refundAmount :=
        toFixed2 (roundValue (roundValue (totalAmount*effective.partialRefundPercent)/100))
      refundPercent := effective.partialRefundPercent
      reason := "Cancelled " ++ hoursText hoursBeforeStart ++ " h before start — " ++
        toString effective.partialRefundPercent ++ "% partial refund (threshold: " ++
        toString effective.partialRefundHoursBefore ++ " h)." }
  else
    { refundAmount := 0
      refundPercent := 0
      reason := "Cancelled " ++ hoursText hoursBeforeStart ++
        " h before start — no refund (below minimum threshold)." }

-- half of 2.01 is a number just below 1.005
example : (evaluateBrackets (fun _ => "") ⟨24, 50, 2⟩ 36000000 (201/100) 0).refundAmount = 1 := by
  decide +kernel

/-- The type is that of the workspace of the booking, where it is loaded. -/
def evaluateRefund (hoursText : ℚ → String) (policies : List CancellationPolicy)
    (workspaceType : Option WorkspaceType) (startTime : ℤ) (bookedAmount : ℚ) (cancelledAt : ℤ) :
    RefundEvaluation :=
  let policy := workspaceType.bind fun type =>
    findRow CancellationPolicy.workspaceType policies type
  let effective := (policy.map CancellationPolicy.effective).getD defaultPolicy
  evaluateBrackets hoursText effective startTime bookedAmount cancelledAt

inductive ServiceError where
  | notFound (message : String)
  | badRequest (message : String)
  /-- An error that is no HTTP exception. -/
  | failed (message : String)
  deriving DecidableEq

/-- The last field is `none` when it is absent or null, or holds what is no integer. -/
structure CreateCancellationPolicyDto where
  workspaceType : WorkspaceType
  fullRefundHoursBefore : ℤ
  partialRefundPercent : ℤ
  partialRefundHoursBefore : Option ℤ

/-- A field that is absent is `none`, one that is null `some none`. -/
structure UpdateCancellationPolicyDto where
  fullRefundHoursBefore : Option (Option ℤ)
  partialRefundPercent : Option (Option ℤ)
  partialRefundHoursBefore : Option (Option ℤ)

/-- What the validators of a body accept. With a percentage of zero they do not look at the hours
of the partial refund. -/
def CreateCancellationPolicyDto.Accepted (dto : CreateCancellationPolicyDto) : Prop :=
  1 ≤ dto.fullRefundHoursBefore ∧
  (0 ≤ dto.partialRefundPercent ∧ dto.partialRefundPercent ≤ 100) ∧
  (0 < dto.partialRefundPercent → ∃ hours ∈ dto.partialRefundHoursBefore, 0 ≤ hours)

/-- An optional field may be null. -/
def UpdateCancellationPolicyDto.Accepted (dto : UpdateCancellationPolicyDto) : Prop :=
  (∀ hours, dto.fullRefundHoursBefore = some (some hours) → 1 ≤ hours) ∧
  (∀ percent, dto.partialRefundPercent = some (some percent) → 0 ≤ percent ∧ percent ≤ 100) ∧
  ∀ hours, dto.partialRefundHoursBefore = some (some hours) → 0 ≤ hours

/-- A value for a column of type `int` that takes no null. -/
def intColumn (value : Option ℤ) : Except ServiceError ℤ := do
  let n ← getOr value (.failed "null value violates not-null constraint")
  failIf (¬(-2147483648 ≤ n ∧ n ≤ 2147483647)) (.failed "integer out of range")
  return n

def findByWorkspaceType (policies : List CancellationPolicy) (workspaceType : WorkspaceType) :
    Except ServiceError CancellationPolicy :=
  getOr (findRow CancellationPolicy.workspaceType policies workspaceType)
    (.notFound ("No cancellation policy found for workspace type \"" ++ workspaceType.text ++
      "\"."))

/-- The type is a unique column. -/
def create (dto : CreateCancellationPolicyDto) (policies : List CancellationPolicy) :
    Except ServiceError (List CancellationPolicy) := do
  let policy : CancellationPolicy :=
    { workspaceType := dto.workspaceType
      fullRefundHoursBefore := ← intColumn dto.fullRefundHoursBefore
      partialRefundPercent := ← intColumn dto.partialRefundPercent
      partialRefundHoursBefore := ← intColumn dto.partialRefundHoursBefore }
  failIf (dto.workspaceType ∈ policies.map CancellationPolicy.workspaceType)
    (.failed "duplicate key value violates unique constraint")
  return policies ++ [policy]

/-- `Object.assign(policy, dto)`, and what the save makes of it. -/
def assign (policy : CancellationPolicy) (dto : UpdateCancellationPolicyDto) :
    Except ServiceError CancellationPolicy := do
  return {
    workspaceType := policy.workspaceType
    fullRefundHoursBefore :=
      ← intColumn (dto.fullRefundHoursBefore.getD policy.fullRefundHoursBefore)
    partialRefundPercent :=
      ← intColumn (dto.partialRefundPercent.getD policy.partialRefundPercent)
    partialRefundHoursBefore :=
      ← intColumn (dto.partialRefundHoursBefore.getD policy.partialRefundHoursBefore) }

def update (workspaceType : WorkspaceType) (dto : UpdateCancellationPolicyDto)
    (policies : List CancellationPolicy) : Except ServiceError (List CancellationPolicy) := do
  let policy ← findByWorkspaceType policies workspaceType
  let assigned ← assign policy dto
  return save CancellationPolicy.workspaceType policies assigned

def remove (workspaceType : WorkspaceType) (policies : List CancellationPolicy) :
    Except ServiceError (List CancellationPolicy) := do
  let policy ← findByWorkspaceType policies workspaceType
  return others CancellationPolicy.workspaceType policies policy.workspaceType

/-- The requests that write. -/
inductive Call where
  | create (dto : CreateCancellationPolicyDto)
  | update (workspaceType : WorkspaceType) (dto : UpdateCancellationPolicyDto)
  | remove (workspaceType : WorkspaceType)

/-- The body is one that its validators accept. -/
def Accepted : Call → Prop
  | .create dto => dto.Accepted
  | .update _ dto => dto.Accepted
  | .remove _ => True

def exec (policies : List CancellationPolicy) :
    Call → Except ServiceError (List CancellationPolicy)
  | .create dto => Refunds.create dto policies
  | .update workspaceType dto => Refunds.update workspaceType dto policies
  | .remove workspaceType => Refunds.remove workspaceType policies

/-- A call that fails leaves the table as it is. -/
def step (policies : List CancellationPolicy) (call : Call) : List CancellationPolicy :=
  match exec policies call with
  | .ok policies' => policies'
  | .error _ => policies

end HubAssist.Refunds
