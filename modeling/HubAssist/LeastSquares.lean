import Mathlib.Algebra.BigOperators.Field
import Mathlib.Algebra.BigOperators.Ring.Finset
import Mathlib.Algebra.Order.BigOperators.Ring.Finset
import Mathlib.Algebra.Order.Field.Basic
import Mathlib.Tactic.FieldSimp
import Mathlib.Tactic.Linarith
import Mathlib.Tactic.LinearCombination

/-! Fitting a line to finitely many points over an ordered field: the squared error of any line in
terms of the spreads of the points, the line that makes it least, and how much of the spread that
line explains. -/
namespace HubAssist.LeastSquares
open Finset

variable {ι K : Type*} [Field K] [LinearOrder K] [IsStrictOrderedRing K]
variable (s : Finset ι) (x y : ι → K)

def mean (f : ι → K) : K := (∑ i ∈ s, f i)/s.card

/-- How far two quantities vary together. -/
def spread (f g : ι → K) : K := ∑ i ∈ s, (f i-mean s f)*(g i-mean s g)

/-- The squared error of a line. -/
def squares (slope intercept : K) : K := ∑ i ∈ s, (y i-(slope*x i+intercept))^2

def slope : K := spread s x y/spread s x x

def intercept : K := mean s y-slope s x y*mean s x

/-- The part of the spread of `y` that the least line explains. -/
def explained : K := 1-squares s x y (slope s x y) (intercept s x y)/spread s y y

variable {s x y}

theorem sum_deviation (hs : s.Nonempty) (f : ι → K) : ∑ i ∈ s, (f i-mean s f) = 0 := by
  have hcard : (s.card : K) ≠ 0 := Nat.cast_ne_zero.mpr (card_ne_zero.mpr hs)
  rw [sum_sub_distrib, sum_const, nsmul_eq_mul, mean, mul_div_cancel₀ _ hcard, sub_self]

theorem spread_self_nonneg (f : ι → K) : 0 ≤ spread s f f :=
  sum_nonneg fun _ _ => mul_self_nonneg _

theorem spread_self_eq_zero_iff (f : ι → K) :
    spread s f f = 0 ↔ ∀ i ∈ s, f i = mean s f := by
  rw [spread, sum_eq_zero_iff_of_nonneg fun _ _ => mul_self_nonneg _]
  simp only [mul_self_eq_zero, sub_eq_zero]

/-- A quantity that takes two values is spread. -/
theorem spread_self_ne_zero_iff (f : ι → K) :
    spread s f f ≠ 0 ↔ ∃ i ∈ s, ∃ j ∈ s, f i ≠ f j := by
  rw [ne_eq, spread_self_eq_zero_iff]
  constructor
  · intro h
    by_contra! hsame
    apply h
    intro i hi
    have hcard : (s.card : K) ≠ 0 := Nat.cast_ne_zero.mpr (card_ne_zero.mpr ⟨i, hi⟩)
    have hsum : ∑ j ∈ s, f j = s.card*f i := by
      rw [← nsmul_eq_mul, ← sum_const]
      exact sum_congr rfl fun j hj => hsame j hj i hi
    rw [mean, hsum, mul_div_cancel_left₀ _ hcard]
  · rintro ⟨i, hi, j, hj, hne⟩ h
    exact hne ((h i hi).trans (h j hj).symm)

theorem squares_nonneg (a b : K) : 0 ≤ squares s x y a b := sum_nonneg fun _ _ => sq_nonneg _

omit [LinearOrder K] [IsStrictOrderedRing K] in
theorem sum_sq_line {u v : ι → K} (hu : ∑ i ∈ s, u i = 0) (hv : ∑ i ∈ s, v i = 0) (a c : K) :
    ∑ i ∈ s, (v i-a*u i+c)^2 =
      ∑ i ∈ s, v i*v i-2*a*∑ i ∈ s, u i*v i+a^2*∑ i ∈ s, u i*u i+s.card*c^2 := by
  have hterm (i : ι) : (v i-a*u i+c)^2 =
      v i*v i-2*a*(u i*v i)+a^2*(u i*u i)+2*c*v i-2*a*c*u i+c^2 := by ring
  simp only [hterm, sum_add_distrib, sum_sub_distrib, ← mul_sum, sum_const, nsmul_eq_mul, hu, hv]
  ring

/-- The error of a line is that of its slope, and of its height over the middle of the points. -/
theorem squares_eq (hs : s.Nonempty) (a b : K) : squares s x y a b =
    spread s y y-2*a*spread s x y+a^2*spread s x x+s.card*(mean s y-a*mean s x-b)^2 := by
  have hterm (i : ι) : y i-(a*x i+b) =
      (y i-mean s y)-a*(x i-mean s x)+(mean s y-a*mean s x-b) := by ring
  simp only [squares, hterm]
  exact sum_sq_line (sum_deviation hs x) (sum_deviation hs y) a _

/-- What a line has more in error than the least one. -/
theorem squares_eq_least (hs : s.Nonempty) (hx : spread s x x ≠ 0) (a b : K) :
    squares s x y a b = squares s x y (slope s x y) (intercept s x y)+
      ((a-slope s x y)^2*spread s x x+s.card*(mean s y-a*mean s x-b)^2) := by
  have hslope : slope s x y*spread s x x = spread s x y := div_mul_cancel₀ _ hx
  rw [squares_eq hs, squares_eq hs, intercept]
  linear_combination (2*a-2*slope s x y)*hslope

/-- No line has a smaller error. -/
theorem squares_least (hs : s.Nonempty) (hx : spread s x x ≠ 0) (a b : K) :
    squares s x y (slope s x y) (intercept s x y) ≤ squares s x y a b := by
  rw [squares_eq_least hs hx a b]
  have hslope : 0 ≤ (a-slope s x y)^2*spread s x x :=
    mul_nonneg (sq_nonneg _) (spread_self_nonneg x)
  have hheight : 0 ≤ (s.card : K)*(mean s y-a*mean s x-b)^2 :=
    mul_nonneg (Nat.cast_nonneg _) (sq_nonneg _)
  linarith

/-- No other line has as small an error. -/
theorem squares_eq_least_iff (hs : s.Nonempty) (hx : spread s x x ≠ 0) {a b : K} :
    squares s x y a b = squares s x y (slope s x y) (intercept s x y) ↔
      a = slope s x y ∧ b = intercept s x y := by
  have hcard : (s.card : K) ≠ 0 := Nat.cast_ne_zero.mpr (card_ne_zero.mpr hs)
  constructor
  · intro h
    rw [squares_eq_least hs hx a b, add_eq_left] at h
    have hslope : 0 ≤ (a-slope s x y)^2*spread s x x :=
      mul_nonneg (sq_nonneg _) (spread_self_nonneg x)
    have hheight : 0 ≤ (s.card : K)*(mean s y-a*mean s x-b)^2 :=
      mul_nonneg (Nat.cast_nonneg _) (sq_nonneg _)
    obtain ⟨hzero, hzero'⟩ := (add_eq_zero_iff_of_nonneg hslope hheight).mp h
    have ha : a = slope s x y := by
      have hsq := (mul_eq_zero.mp hzero).resolve_right hx
      exact sub_eq_zero.mp (pow_eq_zero_iff two_ne_zero |>.mp hsq)
    have hb := pow_eq_zero_iff two_ne_zero |>.mp ((mul_eq_zero.mp hzero').resolve_left hcard)
    refine ⟨ha, ?_⟩
    rw [intercept, ← ha]
    linear_combination -hb
  · rintro ⟨rfl, rfl⟩
    rfl

/-- The least line explains the part of the spread that the error leaves. -/
theorem squares_least_eq (hs : s.Nonempty) (hx : spread s x x ≠ 0) :
    squares s x y (slope s x y) (intercept s x y) =
      spread s y y-spread s x y^2/spread s x x := by
  rw [squares_eq hs, intercept, slope]
  field_simp
  ring

theorem explained_nonneg (hs : s.Nonempty) (hx : spread s x x ≠ 0) (hy : spread s y y ≠ 0) :
    0 ≤ explained s x y := by
  have hypos : 0 < spread s y y := lt_of_le_of_ne (spread_self_nonneg y) hy.symm
  rw [explained, sub_nonneg, div_le_one hypos, squares_least_eq hs hx, sub_le_self_iff]
  exact div_nonneg (sq_nonneg _) (spread_self_nonneg x)

theorem explained_le_one : explained s x y ≤ 1 := by
  rw [explained, sub_le_self_iff]
  exact div_nonneg (squares_nonneg _ _) (spread_self_nonneg y)

/-- All of it is explained exactly when the points lie on the line. -/
theorem explained_eq_one_iff (hy : spread s y y ≠ 0) :
    explained s x y = 1 ↔ ∀ i ∈ s, y i = slope s x y*x i+intercept s x y := by
  rw [explained, sub_eq_self, div_eq_zero_iff, or_iff_left hy, squares,
    sum_eq_zero_iff_of_nonneg fun _ _ => sq_nonneg _]
  simp only [pow_eq_zero_iff two_ne_zero, sub_eq_zero]

end HubAssist.LeastSquares
