import Mathlib.Algebra.Order.Ring.Int
import Mathlib.Data.List.Basic
import Mathlib.Tactic.Common

/-! Ranges that are closed at both ends, next to the half-open ones that cut a line without overlap:
what a closed range counts too much. -/
namespace HubAssist.ClosedRanges

section Count

variable {α R : Type*} [LinearOrder α]

/-- `BETWEEN low AND high`. -/
def Between (low high t : α) : Prop := low ≤ t ∧ t ≤ high

instance (low high t : α) : Decidable (Between low high t) := inferInstanceAs (Decidable (_ ∧ _))

variable (start stop : R → α) (low high now : α)

/-- An interval that holds `now`, without its end. -/
def Running (r : R) : Prop := start r ≤ now ∧ now < stop r

/-- An interval that ends at `now`, and is told from a running one by its end alone. -/
def EndsNow (r : R) : Prop := Between low now (start r) ∧ stop r = now ∧ now ≤ high

/-- An interval that holds `now` and reaches out of the line from `low` to `high`. -/
def RunsOut (r : R) : Prop := Running start stop now r ∧ (start r < low ∨ high < stop r)

instance (r : R) : Decidable (Running start stop now r) := inferInstanceAs (Decidable (_ ∧ _))

instance (r : R) : Decidable (EndsNow start stop low high now r) :=
  inferInstanceAs (Decidable (_ ∧ _))

instance (r : R) : Decidable (RunsOut start stop low high now r) :=
  inferInstanceAs (Decidable (_ ∧ _))

/-- What closed ranges find is running, or ends now. -/
theorem found_iff (r : R) : Between low now (start r) ∧ Between now high (stop r) ↔
    Running start stop now r ∧ ¬RunsOut start stop low high now r ∨
      EndsNow start stop low high now r := by
  constructor
  · rintro ⟨⟨hlow, hstart⟩, hstop, hhigh⟩
    rcases hstop.eq_or_lt with heq | hlt
    · exact .inr ⟨⟨hlow, hstart⟩, heq.symm, heq.trans_le hhigh⟩
    · refine .inl ⟨⟨hstart, hlt⟩, fun hout => ?_⟩
      exact hout.2.elim hlow.not_gt hhigh.not_gt
  · rintro (⟨⟨hstart, hlt⟩, hout⟩ | ⟨hlow, hstop, hhigh⟩)
    · have hinside : low ≤ start r ∧ stop r ≤ high := by
        constructor
        · exact le_of_not_gt fun h => hout ⟨⟨hstart, hlt⟩, .inl h⟩
        · exact le_of_not_gt fun h => hout ⟨⟨hstart, hlt⟩, .inr h⟩
      exact ⟨⟨hinside.1, hstart⟩, hlt.le, hinside.2⟩
    · exact ⟨hlow, hstop.ge, hstop.trans_le hhigh⟩

/-- What closed ranges find on both sides of `now`. -/
theorem countP_between (P : R → Prop) [DecidablePred P] (rows : List R) :
    rows.countP (fun r => P r ∧ Between low now (start r) ∧ Between now high (stop r))+
        rows.countP (fun r => P r ∧ RunsOut start stop low high now r) =
      rows.countP (fun r => P r ∧ Running start stop now r)+
        rows.countP (fun r => P r ∧ EndsNow start stop low high now r) := by
  induction rows with
  | nil => rfl
  | cons r rows ih =>
    simp only [List.countP_cons, decide_eq_true_eq]
    have hends : Running start stop now r → ¬EndsNow start stop low high now r :=
      fun hrunning hend => absurd hend.2.1 hrunning.2.ne'
    have hout : RunsOut start stop low high now r → Running start stop now r := And.left
    have hrow : (if P r ∧ Between low now (start r) ∧ Between now high (stop r) then 1 else 0)+
          (if P r ∧ RunsOut start stop low high now r then 1 else 0) =
        (if P r ∧ Running start stop now r then 1 else 0)+
          (if P r ∧ EndsNow start stop low high now r then 1 else 0) := by
      simp only [found_iff]
      by_cases hP : P r
      · by_cases hrunning : Running start stop now r
        · by_cases hruns : RunsOut start stop low high now r
          · simp [hP, hrunning, hruns, hends hrunning]
          · simp [hP, hrunning, hruns, hends hrunning]
        · have hinside : ¬RunsOut start stop low high now r := fun h => hrunning (hout h)
          simp [hP, hrunning, hinside]
      · simp [hP]
    omega

end Count

/-- Of the periods of one length, a closed one holds the start of the next as well. -/
theorem between_period {length k t : ℤ} (h : 0 < length) :
    Between (k*length) (k*length+length) t ↔ t/length = k ∨ t = (k+1)*length := by
  have hperiod : t/length = k ↔ k*length ≤ t ∧ t < k*length+length := Int.ediv_eq_iff_of_pos h
  rw [hperiod, add_mul, one_mul]
  unfold Between
  omega

end HubAssist.ClosedRanges
