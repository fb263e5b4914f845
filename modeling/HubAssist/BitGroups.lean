import Mathlib.Data.List.Basic
import Mathlib.Data.List.GetD
import Mathlib.Data.List.Induction
import Mathlib.Data.Nat.Notation
import Mathlib.Tactic.Ring
import Mathlib.Tactic.Common

/-! Bits of numbers, the highest first, cut into groups of a fixed width; and an accumulator word
that takes up groups of one width and gives out groups of another. Only the lowest bits of the
word are pending; the others are left to run over its end. -/
namespace HubAssist.BitGroups

/-- The `n` lowest bits of a number, the highest of them first. -/
def bits : ℕ → ℕ → List Bool
  | 0, _ => []
  | n+1, v => v.testBit n :: bits n v

/-- The number that bits stand for, the highest first. -/
def number (bs : List Bool) : ℕ := bs.foldl (fun v b => 2*v+b.toNat) 0

/-- The bits from position `start` on, as many as `n`, with zeros behind the end. -/
def window (n : ℕ) (bs : List Bool) (start : ℕ) : List Bool :=
  (List.range n).map fun j => bs.getD (start+j) false

/-- The numbers of the groups of `n` bits, the last of which is filled up with zeros. -/
def groups (n : ℕ) (bs : List Bool) : List ℕ :=
  (List.range ((bs.length+(n-1))/n)).map fun i => number (window n bs (n*i))

/-- The numbers of the groups of `n` bits that are full. -/
def fullGroups (n : ℕ) (bs : List Bool) : List ℕ :=
  (List.range (bs.length/n)).map fun i => number (window n bs (n*i))

variable {n m k v : ℕ} {bs cs : List Bool}

@[simp] theorem length_bits (n v : ℕ) : (bits n v).length = n := by
  induction n with
  | zero => rfl
  | succ n ih => simp [bits, ih]

theorem number_concat (bs : List Bool) (b : Bool) : number (bs ++ [b]) = 2*number bs+b.toNat := by
  simp [number]

/-- The bits without the lowest, and the lowest. -/
theorem bits_succ (n v : ℕ) : bits (n+1) v = bits n (v/2) ++ [v.testBit 0] := by
  induction n with
  | zero => rfl
  | succ n ih =>
    rw [bits, ih, bits, Nat.testBit_succ]
    rfl

theorem number_bits (n v : ℕ) : number (bits n v) = v%2^n := by
  induction n generalizing v with
  | zero => simp [bits, number, Nat.mod_one]
  | succ n ih =>
    rw [bits_succ, number_concat, ih, Nat.testBit_zero, Nat.pow_succ']
    have hsplit := Nat.mod_mul (x := v) (a := 2) (b := 2^n)
    rcases Nat.mod_two_eq_zero_or_one v with h | h
    · simp [h] at hsplit ⊢
      omega
    · simp [h] at hsplit ⊢
      omega

theorem number_bits_of_lt (h : v < 2^n) : number (bits n v) = v := by
  rw [number_bits, Nat.mod_eq_of_lt h]

theorem bits_number (bs : List Bool) : bits bs.length (number bs) = bs := by
  induction bs using List.reverseRecOn with
  | nil => rfl
  | append_singleton bs b ih =>
    rw [List.length_append, List.length_singleton, bits_succ, number_concat]
    have hhalf : (2*number bs+b.toNat)/2 = number bs := by
      have hb : b.toNat ≤ 1 := Bool.toNat_le b
      omega
    have hlow : (2*number bs+b.toNat).testBit 0 = b := by
      cases b <;> simp [Nat.testBit_zero]
    rw [hhalf, hlow, ih]

theorem number_lt (bs : List Bool) : number bs < 2^bs.length := by
  induction bs using List.reverseRecOn with
  | nil => decide
  | append_singleton bs b ih =>
    rw [number_concat, List.length_append, List.length_singleton, Nat.pow_succ]
    have hb : b.toNat ≤ 1 := Bool.toNat_le b
    omega

@[simp] theorem length_window (n : ℕ) (bs : List Bool) (start : ℕ) :
    (window n bs start).length = n := by
  simp [window]

theorem window_append_left (h : bs.length = n) : window n (bs ++ cs) 0 = bs := by
  apply List.ext_getElem
  · simp [h]
  · intro j hj hj'
    simp [window, List.getD_eq_getElem?_getD, List.getElem?_append_left hj', hj']

theorem window_append_right (start : ℕ) :
    window n (bs ++ cs) (bs.length+start) = window n cs start := by
  apply List.map_congr_left
  intro j _
  rw [List.getD_eq_getElem?_getD, List.getD_eq_getElem?_getD, Nat.add_assoc,
    List.getElem?_append_right (Nat.le_add_right _ _), Nat.add_sub_cancel_left]

theorem window_short (h : bs.length ≤ n) :
    window n bs 0 = bs ++ List.replicate (n-bs.length) false := by
  apply List.ext_getElem
  · simp
    omega
  · intro j hj hj'
    by_cases hlt : j < bs.length
    · simp [window, List.getD_eq_getElem?_getD, List.getElem_append_left hlt, hlt]
    · have hpast : bs.length ≤ j := by omega
      simp [window, List.getD_eq_getElem?_getD, List.getElem_append_right hpast,
        List.getElem?_eq_none hpast]

/-- The windows behind a first group of bits are those of the rest. -/
theorem map_windows_append (h : bs.length = n) (count : ℕ) :
    (List.range (count+1)).map (fun i => number (window n (bs ++ cs) (n*i))) =
      number bs :: (List.range count).map fun i => number (window n cs (n*i)) := by
  rw [List.range_succ_eq_map, List.map_cons, List.map_map, Nat.mul_zero, window_append_left h]
  congr 1
  apply List.map_congr_left
  intro i _
  have hstart : n*(i+1) = bs.length+n*i := by rw [Nat.mul_succ, h, Nat.add_comm]
  simp only [Function.comp_apply, Nat.succ_eq_add_one, hstart, window_append_right]

@[simp] theorem groups_nil (hn : 0 < n) : groups n [] = [] := by
  have hcount : (n-1)/n = 0 := Nat.div_eq_of_lt (by omega)
  simp [groups, hcount]

theorem groups_append (hn : 0 < n) (h : bs.length = n) :
    groups n (bs ++ cs) = number bs :: groups n cs := by
  have hcount : ((bs ++ cs).length+(n-1))/n = (cs.length+(n-1))/n+1 := by
    rw [List.length_append, h, Nat.add_assoc, Nat.add_div_left _ hn]
  rw [groups, hcount, map_windows_append h]
  rfl

theorem groups_short (hpos : 0 < bs.length) (h : bs.length ≤ n) :
    groups n bs = [number (bs ++ List.replicate (n-bs.length) false)] := by
  have hcount : (bs.length+(n-1))/n = 1 := by
    have hsplit : bs.length+(n-1) = n+(bs.length-1) := by omega
    rw [hsplit, Nat.add_div_left _ (by omega), Nat.div_eq_of_lt (by omega)]
  rw [groups, hcount]
  simp [window_short h]

theorem fullGroups_append (hn : 0 < n) (h : bs.length = n) :
    fullGroups n (bs ++ cs) = number bs :: fullGroups n cs := by
  have hcount : (bs ++ cs).length/n = cs.length/n+1 := by
    rw [List.length_append, h, Nat.add_div_left _ hn]
  rw [fullGroups, hcount, map_windows_append h]
  rfl

theorem fullGroups_short (h : bs.length < n) : fullGroups n bs = [] := by
  rw [fullGroups, Nat.div_eq_of_lt h]
  rfl

@[simp] theorem length_groups (n : ℕ) (bs : List Bool) :
    (groups n bs).length = (bs.length+(n-1))/n := by
  simp [groups]

theorem lt_of_mem_groups (h : v ∈ groups n bs) : v < 2^n := by
  obtain ⟨i, _, rfl⟩ := List.mem_map.mp h
  have hlt := number_lt (window n bs (n*i))
  rwa [length_window] at hlt

/-- Groups of bits are the bits again, with zeros behind them that do not fill a group. -/
theorem bits_groups (hn : 0 < n) (bs : List Bool) :
    ∃ pad, pad < n ∧ (groups n bs).flatMap (bits n) = bs ++ List.replicate pad false := by
  induction hlen : bs.length using Nat.strongRecOn generalizing bs with
  | ind length ih =>
    by_cases hshort : bs.length ≤ n
    · cases bs with
      | nil => exact ⟨0, hn, by simp [hn]⟩
      | cons b bs =>
        have hpos : 0 < (b :: bs).length := by simp
        have hfilled : (b :: bs ++ List.replicate (n-(b :: bs).length) false).length = n := by
          simp only [List.length_append, List.length_replicate]
          omega
        refine ⟨n-(b :: bs).length, by omega, ?_⟩
        have hbits := bits_number (b :: bs ++ List.replicate (n-(b :: bs).length) false)
        rw [hfilled] at hbits
        rw [groups_short hpos hshort, List.flatMap_cons, List.flatMap_nil, List.append_nil, hbits]
    · -- a whole group in front
      have hfirst : (bs.take n).length = n := by simp; omega
      obtain ⟨pad, hpad, hrest⟩ := ih (bs.drop n).length (by simp; omega) (bs.drop n) rfl
      refine ⟨pad, hpad, ?_⟩
      have hbits := bits_number (bs.take n)
      rw [hfirst] at hbits
      have hgroups : groups n (bs.take n ++ bs.drop n) =
          number (bs.take n) :: groups n (bs.drop n) := groups_append hn hfirst
      rw [List.take_append_drop] at hgroups
      rw [hgroups, List.flatMap_cons, hbits, hrest, ← List.append_assoc, List.take_append_drop]

/-- Numbers that fit are read back from their bits, whatever short rest follows. -/
theorem fullGroups_bits (hn : 0 < n) {numbers : List ℕ} (hfit : ∀ v ∈ numbers, v < 2^n)
    (hshort : cs.length < n) : fullGroups n (numbers.flatMap (bits n) ++ cs) = numbers := by
  induction numbers with
  | nil => exact fullGroups_short hshort
  | cons v numbers ih =>
    rw [List.flatMap_cons, List.append_assoc, fullGroups_append hn (length_bits n v),
      number_bits_of_lt (hfit v List.mem_cons_self),
      ih fun v hv => hfit v (List.mem_cons_of_mem _ hv)]

theorem bits_congr {x y : ℕ} (h : ∀ j < k, x.testBit j = y.testBit j) : bits k x = bits k y := by
  induction k with
  | zero => rfl
  | succ k ih =>
    rw [bits, bits, h k (Nat.lt_succ_self k), ih fun j hj => h j (Nat.lt_succ_of_lt hj)]

theorem bits_add (n k x : ℕ) : bits (n+k) x = bits n (x >>> k) ++ bits k x := by
  induction n with
  | zero => rw [Nat.zero_add, bits, List.nil_append]
  | succ n ih =>
    rw [Nat.add_right_comm, bits, ih, bits, Nat.testBit_shiftRight, Nat.add_comm k n]
    rfl

theorem bits_zero (n : ℕ) : bits n 0 = List.replicate n false := by
  induction n with
  | zero => rfl
  | succ n ih => rw [bits, ih, Nat.zero_testBit, List.replicate_succ]

variable {W : ℕ} (value : BitVec W)

/-- Shifting a word up and putting a number in puts its bits behind those that were pending. -/
theorem bits_push (hfit : k+m ≤ W) (hv : v < 2^m) :
    bits (k+m) (value <<< m ||| BitVec.ofNat W v).toNat = bits k value.toNat ++ bits m v := by
  rw [bits_add]
  congr 1
  · apply bits_congr
    intro j hj
    have hzero : v.testBit (m+j) = false :=
      Nat.testBit_lt_two_pow (Nat.lt_of_lt_of_le hv (Nat.pow_le_pow_right (by decide) (by omega)))
    have hin : m+j < W := by omega
    rw [Nat.testBit_shiftRight, BitVec.testBit_toNat, BitVec.testBit_toNat, BitVec.getLsbD_or,
      BitVec.getLsbD_shiftLeft, BitVec.getLsbD_ofNat, hzero]
    simp [hin]
  · apply bits_congr
    intro j hj
    have hin : j < W := by omega
    rw [BitVec.testBit_toNat, BitVec.getLsbD_or, BitVec.getLsbD_shiftLeft, BitVec.getLsbD_ofNat]
    simp [hin, hj]

/-- Shifting a word down and masking it gives the number of the first bits that are pending. -/
theorem toNat_pop (hn : n ≤ W) :
    (value >>> k &&& BitVec.ofNat W (2^n-1)).toNat = number (bits n (value.toNat >>> k)) := by
  have hle : 2^n ≤ 2^W := Nat.pow_le_pow_right (by decide) hn
  have hpos : 0 < 2^n := Nat.two_pow_pos n
  rw [BitVec.toNat_and, BitVec.toNat_ushiftRight, BitVec.toNat_ofNat,
    Nat.mod_eq_of_lt (by omega), Nat.and_two_pow_sub_one_eq_mod, number_bits]

end HubAssist.BitGroups
