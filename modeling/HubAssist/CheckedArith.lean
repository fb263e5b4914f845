import Mathlib.Algebra.Ring.Int.Defs
import Mathlib.Algebra.Ring.Nat
import Mathlib.Tactic.Common

/-! Arithmetic of fixed-width integers with overflow checks: a result outside the type is
`none`. Signed division truncates towards zero. -/
namespace HubAssist.CheckedArith

def u32Bound : ℕ := 2^32

def u64Bound : ℕ := 2^64

def i128Bound : ℤ := 2^127

def u32Add (a b : ℕ) : Option ℕ := if a+b < u32Bound then some (a+b) else none

def u64Add (a b : ℕ) : Option ℕ := if a+b < u64Bound then some (a+b) else none

def u64Mul (a b : ℕ) : Option ℕ := if a*b < u64Bound then some (a*b) else none

def u64Sub (a b : ℕ) : Option ℕ := if b ≤ a then some (a-b) else none

def InI128 (x : ℤ) : Prop := -i128Bound ≤ x ∧ x < i128Bound

instance (x : ℤ) : Decidable (InI128 x) :=
  inferInstanceAs (Decidable (-i128Bound ≤ x ∧ x < i128Bound))

/-- The exact result of an `i128` operation, when it fits. -/
def i128 (x : ℤ) : Option ℤ := if InI128 x then some x else none

def i128Add (a b : ℤ) : Option ℤ := i128 (a+b)

def i128Sub (a b : ℤ) : Option ℤ := i128 (a-b)

def i128Mul (a b : ℤ) : Option ℤ := i128 (a*b)

def i128Div (a b : ℤ) : Option ℤ := if b = 0 then none else i128 (a.tdiv b)

theorem u64Add_eq_some {a b c : ℕ} : u64Add a b = some c ↔ a+b < u64Bound ∧ a+b = c := by
  simp [u64Add]

theorem u64Sub_eq_some {a b c : ℕ} : u64Sub a b = some c ↔ b ≤ a ∧ a-b = c := by
  simp [u64Sub]

theorem i128_eq_some {x c : ℤ} : i128 x = some c ↔ InI128 x ∧ x = c := by
  simp [i128]

theorem i128Add_eq_some {a b c : ℤ} : i128Add a b = some c ↔ InI128 (a+b) ∧ a+b = c :=
  i128_eq_some

theorem i128Sub_eq_some {a b c : ℤ} : i128Sub a b = some c ↔ InI128 (a-b) ∧ a-b = c :=
  i128_eq_some

theorem i128Mul_eq_some {a b c : ℤ} : i128Mul a b = some c ↔ InI128 (a*b) ∧ a*b = c :=
  i128_eq_some

theorem i128Div_eq_some {a b c : ℤ} :
    i128Div a b = some c ↔ b ≠ 0 ∧ InI128 (a.tdiv b) ∧ a.tdiv b = c := by
  simp [i128Div, i128_eq_some]

/-- A number that is not negative fits where it is below the upper bound. -/
theorem inI128_iff {x : ℤ} (hx : 0 ≤ x) : InI128 x ↔ x < i128Bound := by
  have hbound : 0 ≤ i128Bound := by decide
  exact and_iff_right (by omega)

/-- A truncated quotient of numbers that are not negative is rounded down. -/
theorem tdiv_bounds {a b : ℤ} (ha : 0 ≤ a) (hb : 0 < b) : 0 ≤ a.tdiv b ∧ b*a.tdiv b ≤ a := by
  rw [Int.tdiv_eq_ediv_of_nonneg ha]
  exact ⟨Int.ediv_nonneg ha (Int.le_of_lt hb), Int.mul_ediv_self_le (by omega)⟩

theorem i128Mul_of_nonneg {a b : ℤ} (h : 0 ≤ a*b) (hfits : a*b < i128Bound) :
    i128Mul a b = some (a*b) := i128Mul_eq_some.mpr ⟨(inI128_iff h).mpr hfits, rfl⟩

/-- The quotient of a number that fits and is not negative fits. -/
theorem i128Div_of_nonneg {x b : ℤ} (hx : 0 ≤ x) (hfits : x < i128Bound) (hb : 0 < b) :
    i128Div x b = some (x/b) := by
  have hquotient : x.tdiv b = x/b := Int.tdiv_eq_ediv_of_nonneg hx
  have hle : x/b ≤ x := Int.ediv_le_self b hx
  have hnonneg : 0 ≤ x/b := Int.ediv_nonneg hx (Int.le_of_lt hb)
  refine i128Div_eq_some.mpr ⟨by omega, ?_, hquotient⟩
  rw [hquotient]
  exact (inI128_iff hnonneg).mpr (by omega)

end HubAssist.CheckedArith
