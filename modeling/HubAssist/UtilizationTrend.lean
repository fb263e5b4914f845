import HubAssist.LeastSquares
import Mathlib.Data.Rat.Cast.Order

/-! The trend line through the occupancy rates of consecutive days. Rates are rationals: the
rounding of binary floating point is left out. -/
namespace HubAssist.UtilizationTrend
open LeastSquares Finset

structure TrendLine where
  slope : ℚ
  intercept : ℚ
  r2 : ℚ
  deriving DecidableEq

/-- The days are numbered from 0, whatever their dates. -/
def day (i : ℕ) : ℚ := i

def computeTrendLine (data : List ℚ) : TrendLine :=
  if data.length < 2 then ⟨0, 0, 0⟩
  else
    let n : ℚ := data.length
    let xValues := (List.range data.length).map day
    let xMean := xValues.sum/n
    let yMean := data.sum/n
    let numerator := ((xValues.zip data).map fun p => (p.1-xMean)*(p.2-yMean)).sum
    let denominator := (xValues.map fun x => (x-xMean)^2).sum
    let slope := if denominator ≠ 0 then numerator/denominator else 0
    let intercept := yMean-slope*xMean
    let ssRes := ((xValues.zip data).map fun p => (p.2-(slope*p.1+intercept))^2).sum
    let ssTot := (data.map fun y => (y-yMean)^2).sum
    ⟨slope, intercept, if ssTot ≠ 0 then 1-ssRes/ssTot else 0⟩

def rate (data : List ℚ) (i : ℕ) : ℚ := data.getD i 0

/-- The squared error of a line through the days. -/
def errorOf (data : List ℚ) (slope intercept : ℚ) : ℚ :=
  squares (range data.length) day (rate data) slope intercept

variable {data : List ℚ}

theorem sum_map_range (n : ℕ) (f : ℕ → ℚ) : ((List.range n).map f).sum = ∑ i ∈ range n, f i := rfl

theorem zip_days (data : List ℚ) : ((List.range data.length).map day).zip data =
    (List.range data.length).map fun i => (day i, rate data i) := by
  apply List.ext_getElem
  · simp
  · intro i h h'
    have hi : i < data.length := by simpa using h'
    simp [day, rate, hi]

theorem data_eq_map (data : List ℚ) : data = (List.range data.length).map (rate data) := by
  apply List.ext_getElem
  · simp
  · intro i h h'
    simp [rate, h]

theorem spread_days (h : 2 ≤ data.length) : spread (range data.length) day day ≠ 0 := by
  rw [spread_self_ne_zero_iff]
  exact ⟨0, mem_range.mpr (by omega), 1, mem_range.mpr (by omega), by simp [day]⟩

theorem computeTrendLine_eq (h : 2 ≤ data.length) : computeTrendLine data =
    ⟨slope (range data.length) day (rate data), intercept (range data.length) day (rate data),
      if spread (range data.length) (rate data) (rate data) ≠ 0 then
        explained (range data.length) day (rate data) else 0⟩ := by
  have hcard : ((range data.length).card : ℚ) = data.length := by rw [card_range]
  have hdays :
      ((List.range data.length).map day).sum/data.length = mean (range data.length) day := by
    rw [sum_map_range, mean, hcard]
  have hsum : data.sum = ∑ i ∈ range data.length, rate data i := by
    rw [← sum_map_range, ← data_eq_map]
  have hrates : data.sum/data.length = mean (range data.length) (rate data) := by
    rw [mean, hcard, hsum]
  have hnumerator (c d : ℚ) : ((((List.range data.length).map day).zip data).map
      fun p => (p.1-c)*(p.2-d)).sum = ∑ i ∈ range data.length, (day i-c)*(rate data i-d) := by
    rw [zip_days, List.map_map, sum_map_range]
    rfl
  have hresiduals (a b : ℚ) : ((((List.range data.length).map day).zip data).map
      fun p => (p.2-(a*p.1+b))^2).sum = errorOf data a b := by
    rw [zip_days, List.map_map, sum_map_range]
    rfl
  have hdenominator (c : ℚ) : (((List.range data.length).map day).map fun x => (x-c)^2).sum =
      ∑ i ∈ range data.length, (day i-c)*(day i-c) := by
    rw [List.map_map, sum_map_range]
    simp only [Function.comp, sq]
  have htotal (c : ℚ) : (data.map fun y => (y-c)^2).sum =
      ∑ i ∈ range data.length, (rate data i-c)*(rate data i-c) := by
    conv_lhs => rw [data_eq_map data]
    rw [List.map_map, sum_map_range]
    simp only [Function.comp, sq]
  unfold computeTrendLine
  rw [if_neg (by omega)]
  simp only [hnumerator, hresiduals, hdenominator, htotal, hdays, hrates]
  have hx := spread_days h
  unfold spread at hx
  simp only [hx, ne_eq, not_false_eq_true, if_true]
  rfl

theorem mem_data_iff {r : ℚ} : r ∈ data ↔ ∃ i ∈ range data.length, rate data i = r := by
  conv_lhs => rw [data_eq_map data]
  simp [List.mem_map]

theorem spread_rates : spread (range data.length) (rate data) (rate data) ≠ 0 ↔
    ∃ r ∈ data, ∃ r' ∈ data, r ≠ r' := by
  rw [spread_self_ne_zero_iff]
  constructor
  · rintro ⟨i, hi, j, hj, hne⟩
    exact ⟨rate data i, mem_data_iff.mpr ⟨i, hi, rfl⟩, rate data j, mem_data_iff.mpr ⟨j, hj, rfl⟩,
      hne⟩
  · rintro ⟨r, hr, r', hr', hne⟩
    obtain ⟨i, hi, rfl⟩ := mem_data_iff.mp hr
    obtain ⟨j, hj, rfl⟩ := mem_data_iff.mp hr'
    exact ⟨i, hi, j, hj, hne⟩

/-- The line is the best one, and `r2` says how well it fits. -/
structure BestFit (data : List ℚ) (line : TrendLine) : Prop where
  least : ∀ a b, errorOf data line.slope line.intercept ≤ errorOf data a b
  unique : ∀ a b, errorOf data a b = errorOf data line.slope line.intercept →
    a = line.slope ∧ b = line.intercept
  nonneg : 0 ≤ line.r2
  le_one : line.r2 ≤ 1
  exact_fit : line.r2 = 1 ↔ (∃ r ∈ data, ∃ r' ∈ data, r ≠ r') ∧
    ∀ i < data.length, rate data i = line.slope*i+line.intercept

/-- Through two days or more the trend line is the one of least squares, and no other is as good. -/
theorem bestFit_computeTrendLine (h : 2 ≤ data.length) : BestFit data (computeTrendLine data) := by
  rw [computeTrendLine_eq h]
  have hs : (range data.length).Nonempty := nonempty_range_iff.mpr (by omega)
  have hx := spread_days h
  refine ⟨squares_least hs hx, fun a b heq => (squares_eq_least_iff hs hx).mp heq, ?_, ?_, ?_⟩
  · dsimp only
    split_ifs with hy
    · exact explained_nonneg hs hx hy
    · exact le_rfl
  · dsimp only
    split_ifs with hy
    · exact explained_le_one
    · exact zero_le_one
  · dsimp only
    rw [← spread_rates]
    split_ifs with hy
    · rw [explained_eq_one_iff hy]
      simp only [mem_range]
      exact (and_iff_right hy).symm
    · exact ⟨fun h => absurd h zero_ne_one, fun h => absurd h.1 hy⟩

theorem bestFit_threeDays : BestFit [40, 50, 90] (computeTrendLine [40, 50, 90]) ∧
    computeTrendLine [40, 50, 90] = ⟨25, 35, 25/28⟩ :=
  ⟨bestFit_computeTrendLine (by decide), by decide +kernel⟩

end HubAssist.UtilizationTrend
