import Mathlib.Data.Nat.Notation
import Mathlib.Tactic.Ring
import Mathlib.Tactic.Common

/-! Numbers written with a fixed number of digits, in any base up to sixteen. -/
namespace HubAssist.FixedDigits

/-- The digits are those of `Nat.digitChar`; a reader takes capital letters too. -/
def digitValue (c : Char) : Option ℕ :=
  if '0' ≤ c ∧ c ≤ '9' then some (c.toNat - '0'.toNat)
  else if 'a' ≤ c ∧ c ≤ 'f' then some (c.toNat - 'a'.toNat+10)
  else if 'A' ≤ c ∧ c ≤ 'F' then some (c.toNat - 'A'.toNat+10)
  else none

/-- The last `k` digits of `n`, the highest first. -/
def writeDigits (base : ℕ) : ℕ → ℕ → List Char
  | 0, _ => []
  | k+1, n => Nat.digitChar (n/base^k%base) :: writeDigits base k n

/-- Exactly `k` digits, behind the number `acc` read so far, and the text after them. -/
def readDigits (base : ℕ) : ℕ → ℕ → List Char → Option (ℕ × List Char)
  | 0, acc, cs => some (acc, cs)
  | _+1, _, [] => none
  | k+1, acc, c :: cs =>
    match digitValue c with
    | some d => if d < base then readDigits base k (acc*base+d) cs else none
    | none => none

theorem digitValue_digitChar : ∀ d < 16, digitValue (Nat.digitChar d) = some d := by decide

@[simp] theorem length_writeDigits (base k n : ℕ) : (writeDigits base k n).length = k := by
  induction k with
  | zero => rfl
  | succ k ih => simp [writeDigits, ih]

theorem readDigits_writeDigits {base : ℕ} (hbase : 0 < base) (hle : base ≤ 16) (k acc n : ℕ)
    (rest : List Char) :
    readDigits base k acc (writeDigits base k n ++ rest) = some (acc*base^k+n%base^k, rest) := by
  induction k generalizing acc with
  | zero => simp [readDigits, writeDigits, Nat.mod_one]
  | succ k ih =>
    have hdigit : n/base^k%base < base := Nat.mod_lt _ hbase
    have hvalue := digitValue_digitChar (n/base^k%base) (hdigit.trans_le hle)
    simp only [writeDigits, List.cons_append, readDigits, hvalue, if_pos hdigit, ih]
    congr 2
    rw [Nat.pow_succ, Nat.mod_mul]
    ring

/-- A number with at most `k` digits is read back. -/
theorem readDigits_of_lt {base k n : ℕ} (hbase : 0 < base) (hle : base ≤ 16) (hn : n < base^k)
    (rest : List Char) : readDigits base k 0 (writeDigits base k n ++ rest) = some (n, rest) := by
  rw [readDigits_writeDigits hbase hle, Nat.mod_eq_of_lt hn, Nat.zero_mul, Nat.zero_add]

/-- Every character written is a digit below the base. -/
theorem digitValue_of_mem {base k n : ℕ} (hbase : 0 < base) (hle : base ≤ 16) {c : Char}
    (h : c ∈ writeDigits base k n) : ∃ d < base, digitValue c = some d := by
  induction k with
  | zero => exact absurd h List.not_mem_nil
  | succ k ih =>
    rcases List.mem_cons.mp h with rfl | h
    · have hdigit : n/base^k%base < base := Nat.mod_lt _ hbase
      exact ⟨_, hdigit, digitValue_digitChar _ (hdigit.trans_le hle)⟩
    · exact ih h

end HubAssist.FixedDigits
