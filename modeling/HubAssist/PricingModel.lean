import HubAssist.Checks
import HubAssist.KeyedTable
import HubAssist.IsoDate
import Mathlib.Algebra.Order.Ring.Rat

/-! The pricing engine of the backend: the price rules with the calls that change them, and the
price of an interval. Times are milliseconds and amounts rational numbers; how an amount is
rounded to some digits is left to `toFixed`. -/
namespace HubAssist.Pricing
open Checks KeyedTable UtcClock

structure PriceRule where
  id : ℕ
  workspaceId : String
  dayOfWeek : ℤ
  startHour : ℤ
  endHour : ℤ
  ratePerHour : ℚ
  label : Option String
  isActive : Bool
  deriving DecidableEq

/-- One part of a price. Without a rule its `ruleId` is `fallback`. -/
structure RateSegment where
  ruleId : Option ℕ
  label : String
  startTime : ℤ
  endTime : ℤ
  hours : ℚ
  ratePerHour : ℚ
  segmentCost : ℚ
  deriving DecidableEq

structure RateSnapshot where
  segments : List RateSegment
  totalAmount : ℚ
  userTier : String
  tierDiscount : ℚ
  calculatedAt : ℤ
  deriving DecidableEq

inductive ServiceError where
  | notFound (message : String)
  | badRequest (message : String)
  | conflict (message : String)
  /-- An error that is no HTTP exception. -/
  | failed (message : String)
  deriving DecidableEq

def tierDiscounts : List (String × ℚ) :=
  [("admin", 0), ("staff", 3/20), ("member", 1/10)]

def tierDiscount (userTier : String) : ℚ :=
  ((tierDiscounts.find? fun entry => entry.1 = userTier).map Prod.snd).getD 0

/-- The rule applies at the moment. -/
def PriceRule.Matches (r : PriceRule) (moment : ℤ) : Prop :=
  r.isActive = true ∧ r.dayOfWeek = getUTCDay moment ∧ r.startHour ≤ getUTCHours moment ∧
    getUTCHours moment < r.endHour

instance (r : PriceRule) (moment : ℤ) : Decidable (r.Matches moment) :=
  inferInstanceAs (Decidable (_ ∧ _))

/-- Both rules are active and apply in some hour of the same days. -/
def PriceRule.Overlaps (r r' : PriceRule) : Prop :=
  (r.isActive = true ∧ r'.isActive = true) ∧ r.dayOfWeek = r'.dayOfWeek ∧
    ∃ hour, (r.startHour ≤ hour ∧ hour < r.endHour) ∧ r'.startHour ≤ hour ∧ hour < r'.endHour

def findMatchingRule (rules : List PriceRule) (moment : ℤ) : Option PriceRule :=
  rules.find? fun r => r.Matches moment

/-- The next full hour: `setUTCHours` of an hour whose minutes are cleared keeps them so. -/
def nextHour (cursor : ℤ) : ℤ :=
  setUTCHours (clearUTCMinutes cursor) (getUTCHours (clearUTCMinutes cursor)+1)

/-- What one turn of the loop of `buildSegments` pushes. -/
def rateSegment (toFixed : ℕ → ℚ → ℚ) (rules : List PriceRule) (fallbackRate : ℚ)
    (cursor sliceEnd : ℤ) : RateSegment :=
  let hours : ℚ := (sliceEnd-cursor : ℤ)/(1000*60*60)
  let rule := findMatchingRule rules cursor
  let ratePerHour := (rule.map PriceRule.ratePerHour).getD fallbackRate
  { ruleId := rule.map PriceRule.id
    label := (rule.bind PriceRule.label).getD "Standard Rate"
    startTime := cursor
    endTime := sliceEnd
    hours := toFixed 6 hours
    ratePerHour := ratePerHour
    segmentCost := toFixed 6 (hours*ratePerHour) }

theorem nextHour_eq (cursor : ℤ) : nextHour cursor = (cursor/millisPerHour+1)*millisPerHour := by
  unfold nextHour setUTCHours getUTCHours clearUTCMinutes millisPerHour IsoDate.millisPerDay
  omega

theorem lt_nextHour (cursor : ℤ) : cursor < nextHour cursor := by
  rw [nextHour_eq]
  unfold millisPerHour
  omega

/-- The loop from `cursor` on. -/
def buildSegments (toFixed : ℕ → ℚ → ℚ) (rules : List PriceRule) (fallbackRate : ℚ)
    (cursor endTime : ℤ) : List RateSegment :=
  if cursor < endTime then
    let sliceEnd := if nextHour cursor < endTime then nextHour cursor else endTime
    rateSegment toFixed rules fallbackRate cursor sliceEnd ::
      buildSegments toFixed rules fallbackRate sliceEnd endTime
  else []
termination_by (endTime-cursor).toNat
decreasing_by
  -- each turn moves the cursor forward, to the next hour or to the end
  have hnext := lt_nextHour cursor
  split_ifs <;> omega

def grossTotal (segments : List RateSegment) : ℚ :=
  segments.foldl (fun sum s => sum+s.segmentCost) 0

/-- The active rules of the workspace are given, or read from the table before. -/
def calculatePrice (toFixed : ℕ → ℚ → ℚ) (now : ℤ) (startTime endTime : ℤ) (userTier : String)
    (fallbackRate : ℚ) (rules : List PriceRule) : Except ServiceError RateSnapshot := do
  failIf (endTime ≤ startTime) (.badRequest "endTime must be after startTime")
  let segments := buildSegments toFixed rules fallbackRate startTime endTime
  let discount := tierDiscount userTier
  return {
    segments := segments
    totalAmount := toFixed 2 (grossTotal segments*(1-discount))
    userTier := userTier
    tierDiscount := discount
    calculatedAt := now }

/-- The table, and the next identifier: generated ones are never the same twice. -/
structure RuleTable where
  rules : List PriceRule
  nextId : ℕ

structure CreatePriceRuleDto where
  workspaceId : String
  dayOfWeek : ℤ
  startHour : ℤ
  endHour : ℤ
  ratePerHour : ℚ
  label : Option String
  isActive : Option Bool

/-- A field that is absent is `none`, one that is null `some none`. -/
structure UpdatePriceRuleDto where
  workspaceId : Option (Option String)
  dayOfWeek : Option (Option ℤ)
  startHour : Option (Option ℤ)
  endHour : Option (Option ℤ)
  ratePerHour : Option (Option ℚ)
  label : Option (Option String)
  isActive : Option (Option Bool)

def validateRuleHours (startHour endHour : ℤ) : Except ServiceError Unit :=
  failIf (endHour ≤ startHour) (.badRequest "startHour must be less than endHour")

def overlapMessage (r : PriceRule) : String :=
  "PriceRule overlaps with existing rule \"" ++ r.label.getD (toString r.id) ++ "\" (" ++
    toString r.startHour ++ ":00–" ++ toString r.endHour ++ ":00 on day " ++
    toString r.dayOfWeek ++ ")"

def assertNoOverlap (rules : List PriceRule) (workspaceId : String)
    (dayOfWeek startHour endHour : ℤ) (excludeId : Option ℕ) : Except ServiceError Unit :=
  let existing := rules.filter fun r => r.workspaceId = workspaceId ∧ r.dayOfWeek = dayOfWeek ∧
    r.isActive = true
  match existing.find? fun r => excludeId ≠ some r.id ∧ r.startHour < endHour ∧
    startHour < r.endHour with
  | some r => .error (.conflict (overlapMessage r))
  | none => return ()

def createRule (dto : CreatePriceRuleDto) (t : RuleTable) :
    Except ServiceError (PriceRule × RuleTable) := do
  validateRuleHours dto.startHour dto.endHour
  assertNoOverlap t.rules dto.workspaceId dto.dayOfWeek dto.startHour dto.endHour none
  let rule : PriceRule :=
    { id := t.nextId
      workspaceId := dto.workspaceId
      dayOfWeek := dto.dayOfWeek
      startHour := dto.startHour
      endHour := dto.endHour
      ratePerHour := dto.ratePerHour
      label := dto.label
      isActive := dto.isActive.getD true }
  return (rule, ⟨save PriceRule.id t.rules rule, t.nextId+1⟩)

def findRuleById (t : RuleTable) (id : ℕ) : Except ServiceError PriceRule :=
  getOr (findRow PriceRule.id t.rules id) (.notFound ("PriceRule " ++ toString id ++ " not found"))

/-- What a field of the update makes of a column that takes no null. -/
def column {α : Type} (field : Option (Option α)) (old : α) : Except ServiceError α :=
  match field with
  | none => return old
  | some none => .error (.failed "null value violates not-null constraint")
  | some (some a) => return a

/-- `Object.assign(rule, dto)`. With a null for one of the columns that take none the save fails,
whatever the checks before it say; here the call ends at once. -/
def merge (rule : PriceRule) (dto : UpdatePriceRuleDto) : Except ServiceError PriceRule := do
  return {
    id := rule.id
    workspaceId := ← column dto.workspaceId rule.workspaceId
    dayOfWeek := ← column dto.dayOfWeek rule.dayOfWeek
    startHour := ← column dto.startHour rule.startHour
    endHour := ← column dto.endHour rule.endHour
    ratePerHour := ← column dto.ratePerHour rule.ratePerHour
    label := dto.label.getD rule.label
    isActive := ← column dto.isActive rule.isActive }

def UpdatePriceRuleDto.timeChanged (dto : UpdatePriceRuleDto) : Bool :=
  dto.dayOfWeek.isSome || dto.startHour.isSome || dto.endHour.isSome

def updateRule (id : ℕ) (dto : UpdatePriceRuleDto) (t : RuleTable) :
    Except ServiceError (PriceRule × RuleTable) := do
  let rule ← findRuleById t id
  let merged ← merge rule dto
  validateRuleHours merged.startHour merged.endHour
  if dto.timeChanged then
    assertNoOverlap t.rules merged.workspaceId merged.dayOfWeek merged.startHour merged.endHour
      (some id)
  return (merged, { t with rules := save PriceRule.id t.rules merged })

def deleteRule (id : ℕ) (t : RuleTable) : Except ServiceError RuleTable := do
  let rule ← findRuleById t id
  return { t with rules := others PriceRule.id t.rules rule.id }

/-- The calls that write. -/
inductive Call where
  | createRule (dto : CreatePriceRuleDto)
  | updateRule (id : ℕ) (dto : UpdatePriceRuleDto)
  | deleteRule (id : ℕ)

def exec (t : RuleTable) : Call → Except ServiceError RuleTable
  | .createRule dto => (createRule dto t).map Prod.snd
  | .updateRule id dto => (updateRule id dto t).map Prod.snd
  | .deleteRule id => deleteRule id t

/-- A call that fails leaves the table as it is. -/
def step (t : RuleTable) (call : Call) : RuleTable :=
  match exec t call with
  | .ok t' => t'
  | .error _ => t

def noRules : RuleTable := ⟨[], 1⟩

end HubAssist.Pricing
