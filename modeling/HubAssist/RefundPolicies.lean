import HubAssist.RefundModel
import HubAssist.RunSystem
import Mathlib.Tactic.Linarith
import Mathlib.Tactic.Positivity

/-! Refunds under the policies that requests can store: their bounds, how they fall as time passes,
and when nothing is refunded after the start. -/
namespace HubAssist.Refunds
open Binary64 Checks KeyedTable RunSystem

/-- Refunds are between zero and the amount, never grow as time passes, and are zero after the
start. The amount is one that its column takes: two decimals, and ten digits in all. -/
def RefundsSound (policies : List CancellationPolicy) : Prop :=
  ∀ hoursText workspaceType startTime (cents : ℕ), cents < 10^10 →
    let refund := fun cancelledAt =>
      (evaluateRefund hoursText policies workspaceType startTime (cents/100)
        cancelledAt).refundAmount
    (∀ cancelledAt, 0 ≤ refund cancelledAt ∧ refund cancelledAt ≤ roundValue (cents/100)) ∧
    (∀ cancelledAt later, cancelledAt ≤ later → refund later ≤ refund cancelledAt) ∧
    ∀ cancelledAt, startTime < cancelledAt → refund cancelledAt = 0

/-- An update that is stored with a percentage above zero gives the hours of the partial refund
too, or finds hours that are not negative. -/
def GivesHours (policies : List CancellationPolicy) : Call → Prop
  | .update workspaceType dto => ∀ policy assigned,
      findRow CancellationPolicy.workspaceType policies workspaceType = some policy →
        assign policy dto = .ok assigned → 0 < assigned.partialRefundPercent →
          dto.partialRefundHoursBefore = none → 0 ≤ policy.partialRefundHoursBefore
  | _ => True

/-- There is one policy for a type, and its first two fields are as the validators want them. -/
def Stored (policies : List CancellationPolicy) : Prop :=
  Keyed CancellationPolicy.workspaceType policies ∧ ∀ p ∈ policies,
    1 ≤ p.fullRefundHoursBefore ∧ 0 ≤ p.partialRefundPercent ∧ p.partialRefundPercent ≤ 100

/-- No policy refunds a part after the start. -/
def CutOff (policies : List CancellationPolicy) : Prop :=
  ∀ p ∈ policies, 0 < p.partialRefundPercent → 0 ≤ p.partialRefundHoursBefore

section Brackets
variable {effective : Effective} {hoursText : ℚ → String} {startTime cancelledAt later : ℤ}
variable {bookedAmount x : ℚ} {cents : ℕ} {policies policies' : List CancellationPolicy}

/-- What the partial refund comes to. -/
def partialRefund (effective : Effective) (bookedAmount : ℚ) : ℚ :=
  toFixed2 (roundValue (roundValue
    (roundValue bookedAmount*effective.partialRefundPercent)/100))

theorem refundAmount_eq : (evaluateBrackets hoursText effective startTime bookedAmount
    cancelledAt).refundAmount =
      if effective.fullRefundHoursBefore ≤ hoursBetween cancelledAt startTime then
        roundValue bookedAmount
      else if 0 < effective.partialRefundPercent ∧
          effective.partialRefundHoursBefore ≤ hoursBetween cancelledAt startTime then
        partialRefund effective bookedAmount
      else 0 := by
  rw [evaluateBrackets]
  split_ifs <;> rfl

theorem toFixed2_nonneg (h : 0 ≤ x) : 0 ≤ toFixed2 x := by
  unfold toFixed2
  rw [if_neg (not_lt.mpr h)]
  split_ifs
  · exact h
  · have hfloor : 0 ≤ ⌊x*100+1/2⌋ := Int.floor_nonneg.mpr (by positivity)
    have hcast : (0 : ℚ) ≤ ⌊x*100+1/2⌋ := by exact_mod_cast hfloor
    exact roundMagnitude_nonneg (by positivity)

/-- Rounding does not lead past an amount in cents, where it starts less than half a cent above. -/
theorem toFixed2_le (h : 0 ≤ x) (hcents : cents < 10^10) (hle : x*100 < cents+1/2) :
    toFixed2 x ≤ roundValue (cents/100) := by
  have hsmall : (cents : ℚ) < 10^10 := by exact_mod_cast hcents
  have hfloor : ⌊x*100+1/2⌋ < (cents : ℤ)+1 := by
    rw [Int.floor_lt]
    push_cast
    linarith
  have hcast : ((⌊x*100+1/2⌋ : ℤ) : ℚ) ≤ cents := by
    exact_mod_cast Int.lt_add_one_iff.mp hfloor
  have hnonneg : (0 : ℚ) ≤ ⌊x*100+1/2⌋ := by
    exact_mod_cast Int.floor_nonneg.mpr (by positivity)
  have hfew : ¬10^21 ≤ |x| := by
    rw [abs_of_nonneg h]
    linarith
  rw [toFixed2, if_neg hfew, if_neg (not_lt.mpr h), roundValue_of_nonneg (by positivity)]
  exact roundMagnitude_mono (by positivity) (by linarith)

theorem hoursBetween_mono (h : cancelledAt ≤ later) :
    hoursBetween later startTime ≤ hoursBetween cancelledAt startTime := by
  have hle : ((startTime-later : ℤ) : ℚ) ≤ ((startTime-cancelledAt : ℤ) : ℚ) := by
    exact_mod_cast sub_le_sub_left h startTime
  have hround := roundValue_mono hle
  exact roundValue_mono (div_le_div_of_nonneg_right hround (by norm_num))

/-- A millisecond is enough of an hour not to be rounded to zero. -/
theorem hoursBetween_neg (h : startTime < cancelledAt) : hoursBetween cancelledAt startTime < 0 := by
  have hone : roundValue (-1 : ℚ) = -1 :=
    (isMagnitude_natCast (m := 1) (by decide)).roundValue_neg
  have hpart : IsMagnitude (1/2^22 : ℚ) := ⟨1, -22, by decide, by decide, by decide, by norm_num⟩
  have hdiff : ((startTime-cancelledAt : ℤ) : ℚ) ≤ -1 := by
    exact_mod_cast Int.le_sub_one_of_lt (sub_neg.mpr h)
  have hms := roundValue_mono hdiff
  rw [hone] at hms
  have hhours : roundValue ((startTime-cancelledAt : ℤ) : ℚ)/(1000*60*60) ≤ -(1/2^22) := by
    linarith
  have hround := roundValue_mono hhours
  rw [hpart.roundValue_neg] at hround
  exact hround.trans_lt (by norm_num)

/-- Three roundings of amounts that are not too large make less than half a cent. -/
theorem three_roundings {c total product rounded quotient : ℚ} (hsmall : c < 10^10)
    (htotal : total ≤ c/100+(c/100+1)/2^53) (hmost : product ≤ total*100)
    (hrounded : rounded ≤ product+(product+1)/2^53)
    (hquotient : quotient ≤ rounded/100+(rounded/100+1)/2^53) : quotient*100 < c+1/2 := by
  linarith

/-- The number that an amount is read as, a percentage of it and the hundredth part of that are each
rounded. -/
theorem part_bounds (hcents : cents < 10^10) (h : 0 ≤ effective.partialRefundPercent ∧
    effective.partialRefundPercent ≤ 100) :
    0 ≤ roundValue (roundValue (roundValue (cents/100)*effective.partialRefundPercent)/100) ∧
      roundValue (roundValue (roundValue (cents/100)*effective.partialRefundPercent)/100)*100 <
        cents+1/2 := by
  have hzero : (0 : ℚ) ≤ effective.partialRefundPercent := by exact_mod_cast h.1
  have hhundred : (effective.partialRefundPercent : ℚ) ≤ 100 := by exact_mod_cast h.2
  have hsmall : (cents : ℚ) < 10^10 := by exact_mod_cast hcents
  have hamount : (0 : ℚ) ≤ cents/100 := by positivity
  have htotal := roundMagnitude_nonneg hamount
  have hpart : 0 ≤ roundMagnitude (cents/100)*effective.partialRefundPercent :=
    mul_nonneg htotal hzero
  have hproduct := roundMagnitude_nonneg hpart
  have hquotient : 0 ≤ roundMagnitude (roundMagnitude (cents/100)*
      effective.partialRefundPercent)/100 := by positivity
  rw [roundValue_of_nonneg hamount, roundValue_of_nonneg hpart, roundValue_of_nonneg hquotient]
  have hmost : roundMagnitude (cents/100)*effective.partialRefundPercent ≤
      roundMagnitude (cents/100)*100 := mul_le_mul_of_nonneg_left hhundred htotal
  exact ⟨roundMagnitude_nonneg hquotient, three_roundings hsmall (roundMagnitude_le hamount) hmost
    (roundMagnitude_le hpart) (roundMagnitude_le hquotient)⟩

theorem partialRefund_bounds (hcents : cents < 10^10) (h : 0 ≤ effective.partialRefundPercent ∧
    effective.partialRefundPercent ≤ 100) :
    0 ≤ partialRefund effective (cents/100) ∧
      partialRefund effective (cents/100) ≤ roundValue (cents/100) := by
  obtain ⟨hnonneg, hle⟩ := part_bounds hcents h
  exact ⟨toFixed2_nonneg hnonneg, toFixed2_le hnonneg hcents hle⟩

theorem refundAmount_bounds (hcents : cents < 10^10) (h : 0 ≤ effective.partialRefundPercent ∧
    effective.partialRefundPercent ≤ 100) :
    0 ≤ (evaluateBrackets hoursText effective startTime (cents/100) cancelledAt).refundAmount ∧
      (evaluateBrackets hoursText effective startTime (cents/100) cancelledAt).refundAmount ≤
        roundValue (cents/100) := by
  have hpart := partialRefund_bounds hcents h
  rw [refundAmount_eq]
  split_ifs
  · exact ⟨hpart.1.trans hpart.2, le_rfl⟩
  · exact hpart
  · exact ⟨le_rfl, hpart.1.trans hpart.2⟩

/-- More hours never lead to a bracket that refunds less. -/
theorem bracket_mono {full least hours more part total : ℚ} {p : Prop} [Decidable p]
    (hpart : 0 ≤ part ∧ part ≤ total) (h : hours ≤ more) :
    (if full ≤ hours then total else if p ∧ least ≤ hours then part else 0) ≤
      if full ≤ more then total else if p ∧ least ≤ more then part else 0 := by
  by_cases hfull : full ≤ more
  · rw [if_pos hfull]
    split_ifs
    · exact le_rfl
    · exact hpart.2
    · exact hpart.1.trans hpart.2
  · rw [if_neg hfull, if_neg fun hle => hfull (hle.trans h)]
    by_cases hleast : p ∧ least ≤ hours
    · rw [if_pos hleast, if_pos ⟨hleast.1, hleast.2.trans h⟩]
    · rw [if_neg hleast]
      split_ifs
      · exact hpart.1
      · exact le_rfl

theorem refundAmount_antitone (hcents : cents < 10^10) (h : 0 ≤ effective.partialRefundPercent ∧
    effective.partialRefundPercent ≤ 100) (hlater : cancelledAt ≤ later) :
    (evaluateBrackets hoursText effective startTime (cents/100) later).refundAmount ≤
      (evaluateBrackets hoursText effective startTime (cents/100) cancelledAt).refundAmount := by
  rw [refundAmount_eq, refundAmount_eq]
  exact bracket_mono (partialRefund_bounds hcents h) (hoursBetween_mono hlater)

/-- After the start only a partial refund of negative hours is left. -/
theorem refundAmount_after (hfull : 1 ≤ effective.fullRefundHoursBefore)
    (hcut : 0 < effective.partialRefundPercent → 0 ≤ effective.partialRefundHoursBefore)
    (hafter : startTime < cancelledAt) :
    (evaluateBrackets hoursText effective startTime bookedAmount cancelledAt).refundAmount = 0 := by
  have hneg := hoursBetween_neg hafter
  have hfull' : (1 : ℚ) ≤ effective.fullRefundHoursBefore := by exact_mod_cast hfull
  rw [refundAmount_eq, if_neg (by linarith), if_neg]
  rintro ⟨hpercent, hle⟩
  have hleast : (0 : ℚ) ≤ effective.partialRefundHoursBefore := by exact_mod_cast hcut hpercent
  linarith

/-- Of a hundred a percentage is paid as it is: the numbers on the way are whole. -/
theorem partialRefund_hundred (h : 0 ≤ effective.partialRefundPercent ∧
    effective.partialRefundPercent ≤ 100) :
    partialRefund effective ((10000 : ℕ)/100) = effective.partialRefundPercent := by
  obtain ⟨n, hn⟩ := Int.eq_ofNat_of_zero_le h.1
  have hsmall : n ≤ 100 := by omega
  have hwhole (m : ℕ) (hm : m < 2^53) : roundValue (m : ℚ) = m :=
    (isMagnitude_natCast hm).roundValue_eq
  have htotal : roundValue (((10000 : ℕ) : ℚ)/100) = (100 : ℕ) := by
    rw [← hwhole 100 (by decide)]
    norm_num
  have hproduct : ((100 : ℕ) : ℚ)*(n : ℕ) = (100*n : ℕ) := by push_cast; rfl
  have hquotient : ((100*n : ℕ) : ℚ)/100 = (n : ℕ) := by push_cast; ring
  have hfew : ¬10^21 ≤ |(n : ℚ)| := by
    rw [abs_of_nonneg n.cast_nonneg]
    have hcast : (n : ℚ) ≤ 100 := by exact_mod_cast hsmall
    linarith
  have hfloor : ⌊(n : ℚ)*100+1/2⌋ = (n*100 : ℤ) := by
    rw [Int.floor_eq_iff]
    push_cast
    constructor <;> linarith
  rw [partialRefund, hn, htotal, Int.cast_natCast, hproduct, hwhole _ (by omega), hquotient,
    hwhole _ (by omega), toFixed2, if_neg hfew, if_neg (not_lt.mpr n.cast_nonneg), hfloor]
  push_cast
  rw [mul_div_cancel_right₀ _ (by norm_num), (isMagnitude_natCast (by omega)).roundMagnitude_eq]

/-- A millisecond after the start a partial refund of negative hours is still paid. -/
theorem refundAmount_leak (hfull : 1 ≤ effective.fullRefundHoursBefore)
    (hpercent : 0 < effective.partialRefundPercent) (hmost : effective.partialRefundPercent ≤ 100)
    (hleast : effective.partialRefundHoursBefore < 0) :
    0 < (evaluateBrackets hoursText effective 0 ((10000 : ℕ)/100) 1).refundAmount := by
  have hfull' : (1 : ℚ) ≤ effective.fullRefundHoursBefore := by exact_mod_cast hfull
  have hleast' : (effective.partialRefundHoursBefore : ℚ) ≤ -1 := by
    exact_mod_cast Int.le_sub_one_of_lt hleast
  have hone : roundValue (-1 : ℚ) = -1 :=
    (isMagnitude_natCast (m := 1) (by decide)).roundValue_neg
  have hneg : hoursBetween 1 0 < 0 := hoursBetween_neg (by decide)
  have hhours : -1 ≤ hoursBetween 1 0 := by
    calc (-1 : ℚ) = roundValue (-1) := hone.symm
      _ ≤ hoursBetween 1 0 := by
        apply roundValue_mono
        norm_num [hone]
  rw [refundAmount_eq, if_neg (by linarith), if_pos ⟨hpercent, hleast'.trans hhours⟩,
    partialRefund_hundred ⟨hpercent.le, hmost⟩]
  exact_mod_cast hpercent

end Brackets

section Runs
variable {policies policies' : List CancellationPolicy} {policy : CancellationPolicy}

/-- The values in force for a type: those of a policy, or the default. -/
theorem effective_cases (policies : List CancellationPolicy)
    (workspaceType : Option WorkspaceType) :
    (∃ p ∈ policies, ∀ hoursText startTime bookedAmount cancelledAt,
      evaluateRefund hoursText policies workspaceType startTime bookedAmount cancelledAt =
        evaluateBrackets hoursText p.effective startTime bookedAmount cancelledAt) ∨
    ∀ hoursText startTime bookedAmount cancelledAt,
      evaluateRefund hoursText policies workspaceType startTime bookedAmount cancelledAt =
        evaluateBrackets hoursText defaultPolicy startTime bookedAmount cancelledAt := by
  cases hfound : workspaceType.bind fun type =>
      findRow CancellationPolicy.workspaceType policies type with
  | none =>
    right
    intros
    rw [evaluateRefund, hfound]
    rfl
  | some p =>
    left
    obtain ⟨type, _, hrow⟩ := Option.bind_eq_some_iff.mp hfound
    refine ⟨p, (findRow_eq_some hrow).1, ?_⟩
    intros
    rw [evaluateRefund, hfound]
    rfl

/-- With the first two fields in order, refunds are sound exactly when they are cut off. -/
theorem refundsSound_iff (h : Stored policies) : RefundsSound policies ↔ CutOff policies := by
  constructor
  · intro hsound p hp hpercent
    by_contra hneg
    have hrow : findRow CancellationPolicy.workspaceType policies p.workspaceType = some p :=
      Keyed.findRow_of_mem h.1 hp
    have hzero :=
      (hsound (fun _ => "") (some p.workspaceType) 0 10000 (by decide)).2.2 1 (by decide)
    have hleak : 0 < (evaluateBrackets (fun _ => "") p.effective 0 ((10000 : ℕ)/100)
        1).refundAmount :=
      refundAmount_leak (h.2 p hp).1 hpercent (h.2 p hp).2.2 (not_le.mp hneg)
    simp only [evaluateRefund, Option.bind_some, hrow, Option.map_some, Option.getD_some] at hzero
    exact hleak.ne' hzero
  · intro hcut hoursText workspaceType startTime cents hcents
    obtain ⟨effective, hfull, hpercent, hleast, heq⟩ : ∃ effective : Effective,
        1 ≤ effective.fullRefundHoursBefore ∧
        (0 ≤ effective.partialRefundPercent ∧ effective.partialRefundPercent ≤ 100) ∧
        (0 < effective.partialRefundPercent → 0 ≤ effective.partialRefundHoursBefore) ∧
        ∀ cancelledAt, evaluateRefund hoursText policies workspaceType startTime (cents/100)
          cancelledAt = evaluateBrackets hoursText effective startTime (cents/100) cancelledAt := by
      rcases effective_cases policies workspaceType with ⟨p, hp, heq⟩ | heq
      · exact ⟨p.effective, (h.2 p hp).1, (h.2 p hp).2, hcut p hp, fun _ => heq _ _ _ _⟩
      · exact ⟨defaultPolicy, by decide, by decide, by decide, fun _ => heq _ _ _ _⟩
    simp only [heq]
    exact ⟨fun _ => refundAmount_bounds hcents hpercent,
      fun _ _ => refundAmount_antitone hcents hpercent,
      fun _ => refundAmount_after hfull hleast⟩

theorem intColumn_eq_ok {value : Option ℤ} {n : ℤ} (h : intColumn value = .ok n) :
    value = some n := by
  simp only [intColumn, bind_eq_ok, getOr_eq_ok, failIf_eq_ok, pure_eq_ok] at h
  obtain ⟨_, hvalue, _, _, rfl⟩ := h
  exact hvalue

theorem create_eq_ok {dto : CreateCancellationPolicyDto} (h : create dto policies = .ok policies') :
    ∃ hours, dto.partialRefundHoursBefore = some hours ∧
      dto.workspaceType ∉ policies.map CancellationPolicy.workspaceType ∧
      policies' = policies ++ [⟨dto.workspaceType, dto.fullRefundHoursBefore,
        dto.partialRefundPercent, hours⟩] := by
  simp only [create, bind_eq_ok, failIf_eq_ok, pure_eq_ok] at h
  obtain ⟨full, hfull, percent, hpercent, hours, hhours, _, hfresh, rfl⟩ := h
  obtain rfl := Option.some.inj (intColumn_eq_ok hfull)
  obtain rfl := Option.some.inj (intColumn_eq_ok hpercent)
  exact ⟨hours, intColumn_eq_ok hhours, hfresh, rfl⟩

/-- What an update that is stored makes of a policy. -/
theorem assign_eq_ok {dto : UpdateCancellationPolicyDto} {assigned : CancellationPolicy}
    (h : assign policy dto = .ok assigned) :
    assigned.workspaceType = policy.workspaceType ∧
    dto.fullRefundHoursBefore.getD policy.fullRefundHoursBefore =
      some assigned.fullRefundHoursBefore ∧
    dto.partialRefundPercent.getD policy.partialRefundPercent =
      some assigned.partialRefundPercent ∧
    dto.partialRefundHoursBefore.getD policy.partialRefundHoursBefore =
      some assigned.partialRefundHoursBefore := by
  simp only [assign, bind_eq_ok, pure_eq_ok] at h
  obtain ⟨full, hfull, percent, hpercent, hours, hhours, rfl⟩ := h
  exact ⟨rfl, intColumn_eq_ok hfull, intColumn_eq_ok hpercent, intColumn_eq_ok hhours⟩

theorem update_eq_ok {workspaceType : WorkspaceType} {dto : UpdateCancellationPolicyDto} :
    update workspaceType dto policies = .ok policies' ↔ ∃ policy assigned,
      findRow CancellationPolicy.workspaceType policies workspaceType = some policy ∧
      assign policy dto = .ok assigned ∧
      policies' = save CancellationPolicy.workspaceType policies assigned := by
  simp only [update, findByWorkspaceType, bind_eq_ok, getOr_eq_ok, pure_eq_ok]
  constructor
  · rintro ⟨policy, hfind, assigned, hassign, rfl⟩
    exact ⟨policy, assigned, hfind, hassign, rfl⟩
  · rintro ⟨policy, assigned, hfind, hassign, rfl⟩
    exact ⟨policy, hfind, assigned, hassign, rfl⟩

theorem remove_eq_ok {workspaceType : WorkspaceType}
    (h : remove workspaceType policies = .ok policies') :
    ∃ type, policies' = others CancellationPolicy.workspaceType policies type := by
  simp only [remove, findByWorkspaceType, bind_eq_ok, pure_eq_ok] at h
  obtain ⟨policy, _, rfl⟩ := h
  exact ⟨policy.workspaceType, rfl⟩

/-- An accepted update keeps the first two fields of a policy in order. -/
theorem assign_bounds {dto : UpdateCancellationPolicyDto} {assigned : CancellationPolicy}
    (hdto : dto.Accepted) (h : assign policy dto = .ok assigned)
    (hpolicy : 1 ≤ policy.fullRefundHoursBefore ∧ 0 ≤ policy.partialRefundPercent ∧
      policy.partialRefundPercent ≤ 100) :
    1 ≤ assigned.fullRefundHoursBefore ∧ 0 ≤ assigned.partialRefundPercent ∧
      assigned.partialRefundPercent ≤ 100 := by
  obtain ⟨_, hfull, hpercent, _⟩ := assign_eq_ok h
  constructor
  · cases hgiven : dto.fullRefundHoursBefore with
    | none =>
      rw [hgiven] at hfull
      exact Option.some.inj hfull ▸ hpolicy.1
    | some value =>
      rw [hgiven] at hfull
      exact hdto.1 _ (hgiven.trans (congrArg some hfull))
  · cases hgiven : dto.partialRefundPercent with
    | none =>
      rw [hgiven] at hpercent
      exact Option.some.inj hpercent ▸ hpolicy.2
    | some value =>
      rw [hgiven] at hpercent
      exact hdto.2.1 _ (hgiven.trans (congrArg some hpercent))

theorem stored_step (policies : List CancellationPolicy) (call : Call) (h : Stored policies)
    (hcall : Accepted call) : Stored (step policies call) := by
  rw [step]
  cases hexec : exec policies call with
  | error _ => exact h
  | ok policies' =>
    cases call with
    | create dto =>
      obtain ⟨hours, _, hfresh, rfl⟩ := create_eq_ok hexec
      constructor
      · have hkeyed := Keyed.save h.1 ⟨dto.workspaceType, dto.fullRefundHoursBefore,
          dto.partialRefundPercent, hours⟩
        rwa [save_fresh hfresh] at hkeyed
      · intro p hp
        rcases List.mem_append.mp hp with hp | hp
        · exact h.2 p hp
        · obtain rfl := List.mem_singleton.mp hp
          exact ⟨hcall.1, hcall.2.1⟩
    | update workspaceType dto =>
      obtain ⟨policy, assigned, hfind, hassign, rfl⟩ := update_eq_ok.mp hexec
      refine ⟨Keyed.save h.1 assigned, fun p hp => ?_⟩
      rcases mem_of_mem_save hp with rfl | hp
      · exact assign_bounds hcall hassign (h.2 policy (findRow_eq_some hfind).1)
      · exact h.2 p hp
    | remove workspaceType =>
      obtain ⟨type, rfl⟩ := remove_eq_ok hexec
      exact ⟨Keyed.others h.1 type, fun p hp => h.2 p (List.mem_filter.mp hp).1⟩

/-- An update keeps refunds cut off exactly when it gives the hours where they are needed. -/
theorem cutOff_update (h : Stored policies) (hcut : CutOff policies) (workspaceType : WorkspaceType)
    {dto : UpdateCancellationPolicyDto} (hdto : dto.Accepted) :
    CutOff (step policies (.update workspaceType dto)) ↔
      GivesHours policies (.update workspaceType dto) := by
  rw [step, exec]
  cases hupdate : Refunds.update workspaceType dto policies with
  | error message =>
    refine iff_of_true hcut ?_
    intro policy assigned hfind hassign
    have hok := update_eq_ok.mpr ⟨policy, assigned, hfind, hassign, rfl⟩
    rw [hupdate] at hok
    cases hok
  | ok policies' =>
    obtain ⟨policy, assigned, hfind, hassign, rfl⟩ := update_eq_ok.mp hupdate
    obtain ⟨htype, _, _, hhours⟩ := assign_eq_ok hassign
    constructor
    · intro hcut' policy' assigned' hfind' hassign' hpercent hnone
      obtain rfl := Option.some.inj (hfind.symm.trans hfind')
      obtain rfl := Except.ok.inj (hassign.symm.trans hassign')
      rw [hnone] at hhours
      have hsaved := hcut' assigned ((Keyed.mem_save_iff h.1).mpr (Or.inl rfl)) hpercent
      rwa [← Option.some.inj hhours] at hsaved
    · intro hgives p hp hpercent
      rcases mem_of_mem_save hp with rfl | hp
      · cases hgiven : dto.partialRefundHoursBefore with
        | none =>
          have hstored := hgives policy p hfind hassign hpercent hgiven
          rw [hgiven] at hhours
          rwa [← Option.some.inj hhours]
        | some value =>
          rw [hgiven] at hhours
          exact hdto.2.2 _ (hgiven.trans (congrArg some hhours))
      · exact hcut p hp hpercent

theorem cutOff_step (policies : List CancellationPolicy) (call : Call) (h : Stored policies)
    (hcall : Accepted call) (hcut : CutOff policies) :
    CutOff (step policies call) ↔ GivesHours policies call := by
  cases call with
  | create dto =>
    refine iff_of_true ?_ trivial
    rw [step, exec]
    cases hcreate : Refunds.create dto policies with
    | error _ => exact hcut
    | ok policies' =>
      obtain ⟨hours, hgiven, _, rfl⟩ := create_eq_ok hcreate
      intro p hp hpercent
      rcases List.mem_append.mp hp with hp | hp
      · exact hcut p hp hpercent
      · -- with a percentage above zero the validators have looked at the hours
        obtain rfl := List.mem_singleton.mp hp
        obtain ⟨hours', hhours, hnonneg⟩ := hcall.2.2 hpercent
        rw [hgiven] at hhours
        exact Option.some.inj hhours ▸ hnonneg
  | update workspaceType dto => exact cutOff_update h hcut workspaceType hcall
  | remove workspaceType =>
    refine iff_of_true ?_ trivial
    rw [step, exec]
    cases hremove : Refunds.remove workspaceType policies with
    | error _ => exact hcut
    | ok policies' =>
      obtain ⟨type, rfl⟩ := remove_eq_ok hremove
      exact fun p hp => hcut p (List.mem_filter.mp hp).1

/-- Through a run of accepted requests refunds stay sound exactly when every update that leaves a
percentage above zero gives the hours of the partial refund or finds none below zero. -/
theorem refundsSound_always_iff {calls : List Call} (hcalls : ∀ call ∈ calls, Accepted call) :
    Always step RefundsSound [] calls ↔ Guarded step GivesHours [] calls := by
  have hstored : Stored [] := ⟨List.nodup_nil, by simp⟩
  have hcut : CutOff [] := by simp [CutOff]
  refine always_iff_guarded_of_guarded step (J := Stored) stored_step ?_
    (guarded_of_forall_mem step hcalls) hstored ((refundsSound_iff hstored).mpr hcut)
  intro policies call h hcall hsound
  rw [refundsSound_iff (stored_step policies call h hcall)]
  exact cutOff_step policies call h hcall ((refundsSound_iff h).mp hsound)

/-- A policy without partial refunds is made, with hours that no validator looks at, and then a
partial refund is added. -/
def leak : List Call :=
  [.create ⟨.meetingRoom, 24, 0, some (-48)⟩,
    .update .meetingRoom ⟨none, some (some 50), none⟩]

/-- Half of the price is then refunded until two days after the start. -/
theorem refunds_leak :
    (∀ call ∈ leak, Accepted call) ∧ ¬Always step RefundsSound [] leak := by
  constructor
  · simp [leak, Accepted, CreateCancellationPolicyDto.Accepted,
      UpdateCancellationPolicyDto.Accepted]
  · rintro ⟨_, _, hsound⟩
    have hpolicies : step (step [] (.create ⟨.meetingRoom, 24, 0, some (-48)⟩))
        (.update .meetingRoom ⟨none, some (some 50), none⟩) = [⟨.meetingRoom, 24, 50, -48⟩] := by
      decide
    have hstored : Stored [⟨.meetingRoom, 24, 50, -48⟩] := by simp [Stored, Keyed]
    rw [hpolicies] at hsound
    exact absurd ((refundsSound_iff hstored).mp hsound _ List.mem_cons_self (by decide)) (by decide)

/-- With the hours given in the same request refunds stay sound. -/
theorem refundsSound_mended : Always step RefundsSound []
    [.create ⟨.meetingRoom, 24, 0, some (-48)⟩,
      .update .meetingRoom ⟨none, some (some 50), some (some 2)⟩] := by
  refine (refundsSound_always_iff ?_).mpr ⟨trivial, ?_, trivial⟩
  · simp [Accepted, CreateCancellationPolicyDto.Accepted, UpdateCancellationPolicyDto.Accepted]
  · intro _ _ _ _ _ hnone
    exact absurd hnone (by decide)

end Runs

end HubAssist.Refunds
