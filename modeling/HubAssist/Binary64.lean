import Mathlib.Algebra.Order.Field.Power
import Mathlib.Data.Int.Log
import Mathlib.Data.Rat.Floor
import Mathlib.Tactic.FieldSimp
import Mathlib.Tactic.Linarith
import Mathlib.Tactic.Positivity

/-! Finite numbers of binary64, as a sign and a rational magnitude, and rounding to them: to the
nearest, and to the even one of two. -/
namespace HubAssist.Binary64

/-- A magnitude has 53 binary digits, from an exponent on that has its bounds. -/
def IsMagnitude (q : ℚ) : Prop :=
  ∃ (m : ℕ) (e : ℤ), m < 2^53 ∧ -1074 ≤ e ∧ e ≤ 971 ∧ q = m*2^e

/-- A finite number. Zero has either sign. -/
@[ext] structure Number where
  negative : Bool
  magnitude : ℚ
  isMagnitude : IsMagnitude magnitude

/-- What a number can be that is read. -/
inductive Reading where
  | finite (number : Number)
  | infinite (negative : Bool)
  | nan

def Number.value (x : Number) : ℚ := if x.negative then -x.magnitude else x.magnitude

/-- The integer nearest to a rational, and the even one of two. -/
def roundEven (q : ℚ) : ℤ :=
  if q-⌊q⌋ < 1/2 ∨ q-⌊q⌋ = 1/2 ∧ ⌊q⌋%2 = 0 then ⌊q⌋ else ⌊q⌋+1

/-- The exponent of the last of the 53 digits of a magnitude. -/
def lastExponent (q : ℚ) : ℤ := max (-1074) (Int.log 2 q-52)

/-- The nearest magnitude, where the exponent has no upper bound. -/
def roundMagnitude (q : ℚ) : ℚ := roundEven (q/2^lastExponent q)*2^lastExponent q

theorem isMagnitude_zero : IsMagnitude 0 := ⟨0, 0, by decide, by decide, by decide, by simp⟩

def positiveZero : Number := ⟨false, 0, isMagnitude_zero⟩

def negativeZero : Number := ⟨true, 0, isMagnitude_zero⟩

theorem roundEven_natCast (m : ℕ) : roundEven m = m := by
  simp [roundEven]

theorem roundEven_bounds (q : ℚ) : ⌊q⌋ ≤ roundEven q ∧ roundEven q ≤ ⌊q⌋+1 := by
  unfold roundEven
  split_ifs <;> omega

theorem IsMagnitude.nonneg {q : ℚ} (h : IsMagnitude q) : 0 ≤ q := by
  obtain ⟨m, e, _, _, _, rfl⟩ := h
  positivity

theorem IsMagnitude.lt {q : ℚ} (h : IsMagnitude q) : q < 2^1024 := by
  obtain ⟨m, e, hm, _, he, rfl⟩ := h
  calc (m : ℚ)*2^e ≤ m*2^((971 : ℕ) : ℤ) := by
        apply mul_le_mul_of_nonneg_left _ (by positivity)
        exact zpow_le_zpow_right₀ (by norm_num) he
    _ = m*2^971 := by rw [zpow_natCast]
    _ < 2^53*2^971 := by
        apply mul_lt_mul_of_pos_right _ (pow_pos (by decide) 971)
        exact_mod_cast hm
    _ = 2^1024 := (pow_add 2 53 971).symm

/-- A magnitude is a whole number of its last places. -/
theorem IsMagnitude.whole {q : ℚ} (h : IsMagnitude q) : ∃ k : ℕ, q/2^lastExponent q = k := by
  obtain ⟨m, e, hm, he, _, rfl⟩ := h
  have hlast : m = 0 ∨ lastExponent (m*2^e) ≤ e := by
    by_cases hzero : m = 0
    · exact .inl hzero
    · right
      have hpos : (0 : ℚ) < m*2^e := by positivity
      have hlt : (m : ℚ)*2^e < 2^(53+e) := by
        rw [zpow_add₀ (by decide)]
        have hcast : (m : ℚ) < 2^(53 : ℤ) := by exact_mod_cast hm
        exact mul_lt_mul_of_pos_right hcast (by positivity)
      have hlog := (Int.lt_zpow_iff_log_lt (b := 2) (by decide) hpos).mp (by exact_mod_cast hlt)
      unfold lastExponent
      omega
  rcases hlast with rfl | hlast
  · exact ⟨0, by simp⟩
  · obtain ⟨k, hk⟩ := Int.eq_ofNat_of_zero_le (show 0 ≤ e-lastExponent (m*2^e) by omega)
    refine ⟨m*2^k, ?_⟩
    have hsplit : (2 : ℚ)^e = 2^k*2^lastExponent (m*2^e) := by
      rw [← zpow_natCast, ← zpow_add₀ (by decide)]
      congr 1
      omega
    rw [div_eq_iff (by positivity)]
    push_cast
    rw [mul_assoc, ← hsplit]

/-- A magnitude is rounded to itself. -/
theorem IsMagnitude.roundMagnitude_eq {q : ℚ} (h : IsMagnitude q) : roundMagnitude q = q := by
  obtain ⟨k, hk⟩ := h.whole
  rw [roundMagnitude, hk, roundEven_natCast]
  rw [div_eq_iff (by positivity)] at hk
  exact_mod_cast hk.symm

theorem roundMagnitude_zero : roundMagnitude 0 = 0 := by
  have h := roundEven_natCast 0
  simp only [Nat.cast_zero] at h
  rw [roundMagnitude, zero_div, h, Int.cast_zero, zero_mul]

/-- What is rounded has at most 2^53 of its last places, and at least half as many where the
exponent is not the lowest. -/
theorem floor_places {q : ℚ} (h : 0 < q) : 0 ≤ ⌊q/2^lastExponent q⌋ ∧ ⌊q/2^lastExponent q⌋ < 2^53 ∧
    (-1074 < lastExponent q → 2^52 ≤ ⌊q/2^lastExponent q⌋) := by
  have hlower := Int.zpow_log_le_self (b := 2) (by decide) h
  have hupper := Int.lt_zpow_succ_log_self (b := 2) (by decide) q
  rw [Nat.cast_ofNat] at hlower hupper
  have hlast : (0 : ℚ) < 2^lastExponent q := by positivity
  refine ⟨Int.floor_nonneg.mpr (by positivity), ?_, fun hnormal => ?_⟩
  · rw [Int.floor_lt, div_lt_iff₀ hlast]
    refine lt_of_lt_of_le hupper ?_
    rw [Int.cast_pow, Int.cast_ofNat, ← zpow_natCast, ← zpow_add₀ (by decide)]
    apply zpow_le_zpow_right₀ (by norm_num)
    unfold lastExponent
    push_cast
    omega
  · rw [Int.le_floor, le_div_iff₀ hlast]
    refine le_trans ?_ hlower
    rw [Int.cast_pow, Int.cast_ofNat, ← zpow_natCast, ← zpow_add₀ (by decide)]
    apply zpow_le_zpow_right₀ (by norm_num)
    unfold lastExponent at hnormal ⊢
    push_cast
    omega

/-- What is rounded is a magnitude again, below 2^1024. -/
theorem isMagnitude_roundMagnitude {q : ℚ} (h : 0 ≤ q) (hlt : roundMagnitude q < 2^1024) :
    IsMagnitude (roundMagnitude q) := by
  rcases h.eq_or_lt with rfl | hpos
  · rw [roundMagnitude_zero]
    exact isMagnitude_zero
  obtain ⟨hfloor, hfew, hmany⟩ := floor_places hpos
  obtain ⟨hlow, hhigh⟩ := roundEven_bounds (q/2^lastExponent q)
  have hleast : -1074 ≤ lastExponent q := le_max_left _ _
  obtain ⟨m, hm⟩ := Int.eq_ofNat_of_zero_le (le_trans hfloor hlow)
  have hrounded : roundMagnitude q = m*2^lastExponent q := by
    rw [roundMagnitude, hm, Int.cast_natCast]
  rw [hm] at hlow hhigh
  -- so many last places reach 2^1024 when the exponent is too high
  have hreach : ∀ k : ℕ, 2^k ≤ m → (k : ℤ)+lastExponent q < 1024 := by
    intro k hk
    by_contra hover
    rw [hrounded] at hlt
    refine absurd hlt (not_lt_of_ge ?_)
    calc (2 : ℚ)^1024 = 2^((1024 : ℕ) : ℤ) := (zpow_natCast 2 1024).symm
      _ ≤ 2^((k : ℤ)+lastExponent q) := zpow_le_zpow_right₀ (by norm_num) (by omega)
      _ = 2^k*2^lastExponent q := by rw [zpow_add₀ (by decide), zpow_natCast]
      _ ≤ m*2^lastExponent q := by
        apply mul_le_mul_of_nonneg_right _ (by positivity)
        exact_mod_cast hk
  by_cases hm53 : m < 2^53
  · refine ⟨m, lastExponent q, hm53, hleast, ?_, hrounded⟩
    by_contra hover
    have hreached := hreach 52 (by omega)
    omega
  · obtain rfl : m = 2^53 := by omega
    have hreached := hreach 53 (Nat.le_refl _)
    refine ⟨2^52, lastExponent q+1, by decide, by omega, by omega, ?_⟩
    rw [hrounded, zpow_add₀ (by decide)]
    push_cast
    ring

theorem roundEven_mono {a b : ℚ} (h : a ≤ b) : roundEven a ≤ roundEven b := by
  obtain ⟨_, ha⟩ := roundEven_bounds a
  obtain ⟨hb, _⟩ := roundEven_bounds b
  rcases (Int.floor_le_floor h).lt_or_eq with hlt | heq
  · omega
  · unfold roundEven
    split_ifs with hdown hdown' hdown'
    · exact heq.le
    · omega
    · -- what is closer to the same integer is rounded down too
      refine absurd ?_ hdown
      rw [heq]
      rcases hdown' with hlow | ⟨hhalf, heven⟩
      · exact .inl (by linarith)
      · rcases (show a-⌊b⌋ ≤ 1/2 by linarith).lt_or_eq with hlow | hhalf'
        · exact .inl hlow
        · exact .inr ⟨hhalf', heven⟩
    · omega

theorem roundEven_le (q : ℚ) : (roundEven q : ℚ) ≤ q+1/2 := by
  have hlt := Int.lt_floor_add_one q
  have hfloor := Int.floor_le q
  unfold roundEven
  split_ifs with hdown
  · linarith
  · have hhalf : 1/2 ≤ q-⌊q⌋ := le_of_not_gt fun hlow => hdown (.inl hlow)
    push_cast
    linarith

/-- A whole number of last places is not passed by what is rounded. -/
theorem roundMagnitude_le_whole {q g : ℚ} (k : ℕ) (hg : g = k*2^lastExponent q) (h : q ≤ g) :
    roundMagnitude q ≤ g := by
  have hlast : (0 : ℚ) < 2^lastExponent q := by positivity
  have hdiv : q/2^lastExponent q ≤ k := by
    rw [div_le_iff₀ hlast, ← hg]
    exact h
  have hround := roundEven_mono hdiv
  rw [roundEven_natCast] at hround
  have hcast : (roundEven (q/2^lastExponent q) : ℚ) ≤ k := by exact_mod_cast hround
  rw [hg, roundMagnitude]
  exact mul_le_mul_of_nonneg_right hcast hlast.le

theorem le_roundMagnitude_whole {q g : ℚ} (k : ℕ) (hg : g = k*2^lastExponent q) (h : g ≤ q) :
    g ≤ roundMagnitude q := by
  have hlast : (0 : ℚ) < 2^lastExponent q := by positivity
  have hdiv : (k : ℚ) ≤ q/2^lastExponent q := by
    rw [le_div_iff₀ hlast, ← hg]
    exact h
  have hround := roundEven_mono hdiv
  rw [roundEven_natCast] at hround
  have hcast : (k : ℚ) ≤ roundEven (q/2^lastExponent q) := by exact_mod_cast hround
  rw [hg, roundMagnitude]
  exact mul_le_mul_of_nonneg_right hcast hlast.le

theorem roundMagnitude_nonneg {q : ℚ} (h : 0 ≤ q) : 0 ≤ roundMagnitude q :=
  le_roundMagnitude_whole 0 (by simp) h

theorem roundMagnitude_mono {a b : ℚ} (ha : 0 ≤ a) (h : a ≤ b) :
    roundMagnitude a ≤ roundMagnitude b := by
  rcases ha.eq_or_lt with rfl | hpos
  · rw [roundMagnitude_zero]
    exact roundMagnitude_nonneg h
  have hlog : Int.log 2 a ≤ Int.log 2 b := Int.log_mono_right hpos h
  have hlast : lastExponent a ≤ lastExponent b := by
    unfold lastExponent
    omega
  rcases hlast.eq_or_lt with hsame | hless
  · have hdiv : a/2^lastExponent a ≤ b/2^lastExponent b := by
      rw [← hsame]
      exact div_le_div_of_nonneg_right h (by positivity)
    have hcast : (roundEven (a/2^lastExponent a) : ℚ) ≤ roundEven (b/2^lastExponent b) := by
      exact_mod_cast roundEven_mono hdiv
    rw [roundMagnitude, roundMagnitude, hsame]
    rw [hsame] at hcast
    exact mul_le_mul_of_nonneg_right hcast (by positivity)
  · -- a power of two lies between them, and is not passed on either side
    have hbetween : Int.log 2 a < Int.log 2 b ∧ lastExponent b = Int.log 2 b-52 := by
      unfold lastExponent at hless ⊢
      omega
    have hupper := Int.lt_zpow_succ_log_self (b := 2) (by decide) a
    have hlower := Int.zpow_log_le_self (b := 2) (by decide) (hpos.trans_le h)
    rw [Nat.cast_ofNat] at hupper hlower
    have hpower : a ≤ 2^Int.log 2 b :=
      hupper.le.trans (zpow_le_zpow_right₀ (by norm_num) hbetween.1)
    obtain ⟨k, hk⟩ := Int.eq_ofNat_of_zero_le
      (show 0 ≤ Int.log 2 b-lastExponent a by omega)
    calc roundMagnitude a ≤ 2^Int.log 2 b := by
          refine roundMagnitude_le_whole (2^k) ?_ hpower
          rw [Nat.cast_pow, Nat.cast_ofNat, ← zpow_natCast, ← zpow_add₀ (by decide)]
          congr 1
          omega
      _ ≤ roundMagnitude b := by
          refine le_roundMagnitude_whole (2^52) ?_ hlower
          rw [Nat.cast_pow, Nat.cast_ofNat, ← zpow_natCast, ← zpow_add₀ (by decide), hbetween.2]
          congr 1
          push_cast
          omega

/-- Rounding up adds half a last place at most. -/
theorem roundMagnitude_le {q : ℚ} (h : 0 ≤ q) : roundMagnitude q ≤ q+(q+1)/2^53 := by
  rcases h.eq_or_lt with rfl | hpos
  · rw [roundMagnitude_zero]
    positivity
  have hlast : (0 : ℚ) < 2^lastExponent q := by positivity
  have hplace : (2 : ℚ)^lastExponent q ≤ (q+1)/2^52 := by
    have hlog := Int.zpow_log_le_self (b := 2) (by decide) hpos
    rw [Nat.cast_ofNat] at hlog
    rcases max_choice (-1074) (Int.log 2 q-52) with hlow | hhigh
    · rw [lastExponent, hlow, le_div_iff₀ (by positivity)]
      have hsmall : (2 : ℚ)^(-1074 : ℤ)*2^52 ≤ 1 := by
        rw [← zpow_natCast, ← zpow_add₀ (by decide)]
        exact zpow_le_one_of_nonpos₀ (by norm_num) (by decide)
      linarith
    · rw [lastExponent, hhigh, zpow_sub₀ (by decide)]
      apply div_le_div_of_nonneg_right _ (by positivity)
      linarith
  have hround := mul_le_mul_of_nonneg_right (roundEven_le (q/2^lastExponent q)) hlast.le
  rw [add_mul, div_mul_cancel₀ q hlast.ne'] at hround
  have hhalf : (q+1)/2^52 = 2*((q+1)/2^53) := by ring
  rw [roundMagnitude]
  linarith

theorem isMagnitude_natCast {m : ℕ} (h : m < 2^53) : IsMagnitude m :=
  ⟨m, 0, h, by decide, by decide, by simp⟩

/-- The value of the finite number nearest to a rational. -/
def roundValue (q : ℚ) : ℚ := if q < 0 then -roundMagnitude (-q) else roundMagnitude q

theorem roundValue_of_nonneg {q : ℚ} (h : 0 ≤ q) : roundValue q = roundMagnitude q :=
  if_neg (not_lt.mpr h)

theorem roundValue_mono {a b : ℚ} (h : a ≤ b) : roundValue a ≤ roundValue b := by
  unfold roundValue
  split_ifs with ha hb hb
  · exact neg_le_neg (roundMagnitude_mono (by linarith) (by linarith))
  · exact (neg_nonpos.mpr (roundMagnitude_nonneg (by linarith))).trans
      (roundMagnitude_nonneg (not_lt.mp hb))
  · exact absurd (h.trans_lt hb) ha
  · exact roundMagnitude_mono (not_lt.mp ha) h

theorem IsMagnitude.roundValue_eq {q : ℚ} (h : IsMagnitude q) : roundValue q = q := by
  rw [roundValue_of_nonneg h.nonneg, h.roundMagnitude_eq]

theorem IsMagnitude.roundValue_neg {q : ℚ} (h : IsMagnitude q) : roundValue (-q) = -q := by
  unfold roundValue
  split_ifs with hneg
  · rw [neg_neg, h.roundMagnitude_eq]
  · have hzero : q = 0 := by linarith [h.nonneg]
    rw [hzero, neg_zero, roundMagnitude_zero]

end HubAssist.Binary64
