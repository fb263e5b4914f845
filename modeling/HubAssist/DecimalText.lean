import HubAssist.FixedDigits
import HubAssist.JsText
import Mathlib.Data.List.Induction
import Mathlib.Data.List.TakeWhile

/-! Decimal digits in strings of JavaScript, with white space and a sign in front. -/
namespace HubAssist.DecimalText
open JsText FixedDigits

/-- The white space and line ends of JavaScript. -/
def whiteUnits : List ℕ :=
  [0x9, 0xA, 0xB, 0xC, 0xD, 0x20, 0xA0, 0x1680, 0x2000, 0x2001, 0x2002, 0x2003, 0x2004, 0x2005,
   0x2006, 0x2007, 0x2008, 0x2009, 0x200A, 0x2028, 0x2029, 0x202F, 0x205F, 0x3000, 0xFEFF]

def isWhite (u : UInt16) : Bool := whiteUnits.contains u.toNat

def isDigit (u : UInt16) : Bool := 48 ≤ u.toNat && u.toNat ≤ 57

/-- The number that decimal digits stand for. -/
def decimal (digits : JsString) : ℕ := digits.foldl (fun n u => 10*n+(u.toNat-48)) 0

/-- A sign, and the rest. -/
def splitSign (s : JsString) : Bool × JsString :=
  match s with
  | u :: rest =>
    if u.toNat = 43 then (false, rest)
    else if u.toNat = 45 then (true, rest)
    else (false, s)
  | [] => (false, [])

theorem isWhite_digit {u : UInt16} (h : isDigit u = true) : isWhite u = false := by
  simp only [isDigit, Bool.and_eq_true, decide_eq_true_eq] at h
  have hnot : u.toNat ∉ whiteUnits := by
    intro hmem
    simp only [whiteUnits, List.mem_cons, List.not_mem_nil, or_false] at hmem
    omega
  simpa [isWhite] using hnot

theorem not_sign_of_digit {u : UInt16} (h : isDigit u = true) : u.toNat ≠ 43 ∧ u.toNat ≠ 45 := by
  simp only [isDigit, Bool.and_eq_true, decide_eq_true_eq] at h
  omega

theorem takeWhile_stops {P : UInt16 → Bool} {xs ys : JsString} (hxs : ∀ u ∈ xs, P u = true)
    (hys : ∀ u ∈ ys.head?, P u = false) : (xs ++ ys).takeWhile P = xs := by
  rw [List.takeWhile_append_of_pos hxs]
  cases ys with
  | nil => simp
  | cons y ys => simp [hys y rfl]

theorem dropWhile_stops {P : UInt16 → Bool} {xs ys : JsString} (hxs : ∀ u ∈ xs, P u = true)
    (hys : ∀ u ∈ ys.head?, P u = false) : (xs ++ ys).dropWhile P = ys := by
  rw [List.dropWhile_append_of_pos hxs]
  cases ys with
  | nil => rfl
  | cons y ys => simp [hys y rfl]

/-- A sign is split off, and the first digit is none. -/
theorem splitSign_append {sign digits rest : JsString} (hsome : digits ≠ [])
    (hdigits : ∀ u ∈ digits, isDigit u = true) (hsign : sign = [] ∨ sign = [43] ∨ sign = [45]) :
    splitSign (sign ++ (digits ++ rest)) = (decide (sign = [45]), digits ++ rest) := by
  rcases hsign with rfl | rfl | rfl
  · cases digits with
    | nil => exact absurd rfl hsome
    | cons u digits =>
      obtain ⟨hplus, hminus⟩ := not_sign_of_digit (hdigits u List.mem_cons_self)
      simp [splitSign, hplus, hminus]
  · simp [splitSign]
  · simp [splitSign]

theorem splitSign_eq (s : JsString) :
    ∃ sign, s = sign ++ (splitSign s).2 ∧ (sign = [] ∧ (splitSign s).1 = false ∨
      sign = [43] ∧ (splitSign s).1 = false ∨ sign = [45] ∧ (splitSign s).1 = true) := by
  cases s with
  | nil => exact ⟨[], rfl, .inl ⟨rfl, rfl⟩⟩
  | cons u rest =>
    by_cases hplus : u.toNat = 43
    · have hu : u = 43 := UInt16.toNat_inj.mp hplus
      exact ⟨[43], by simp [splitSign, hu], .inr (.inl ⟨rfl, by simp [splitSign, hu]⟩)⟩
    · by_cases hminus : u.toNat = 45
      · have hu : u = 45 := UInt16.toNat_inj.mp hminus
        exact ⟨[45], by simp [splitSign, hu], .inr (.inr ⟨rfl, by simp [splitSign, hu]⟩)⟩
      · have hnone : splitSign (u :: rest) = (false, u :: rest) := by
          simp [splitSign, hplus, hminus]
        rw [hnone]
        exact ⟨[], rfl, .inl ⟨rfl, rfl⟩⟩

theorem head_dropWhile {P : UInt16 → Bool} (s : JsString) :
    ∀ u ∈ (s.dropWhile P).head?, P u = false := by
  intro u hu
  have hhead := List.head?_dropWhile_not P s
  rw [Option.mem_def.mp hu] at hhead
  exact hhead

theorem charUnits_digitChar : ∀ d < 10, charUnits (Nat.digitChar d) = [.ofNat (48+d)] := by decide

theorem isDigit_ofNat : ∀ d < 10, isDigit (.ofNat (48+d)) = true ∧
    (UInt16.ofNat (48+d)).toNat = 48+d := by decide

theorem utf16_writeDigits_succ (k n : ℕ) : utf16 (writeDigits 10 (k+1) n) =
    .ofNat (48+n/10^k%10) :: utf16 (writeDigits 10 k n) := by
  rw [writeDigits, utf16, List.flatMap_cons, charUnits_digitChar _ (Nat.mod_lt _ (by decide))]
  rfl

theorem utf16_writeDigits (k n : ℕ) : (utf16 (writeDigits 10 k n)).length = k ∧
    ∀ u ∈ utf16 (writeDigits 10 k n), isDigit u = true := by
  induction k with
  | zero => exact ⟨rfl, fun u hu => by cases hu⟩
  | succ k ih =>
    rw [utf16_writeDigits_succ]
    refine ⟨by simp [ih.1], fun u hu => ?_⟩
    rcases List.mem_cons.mp hu with rfl | hrest
    · exact (isDigit_ofNat _ (Nat.mod_lt _ (by decide))).1
    · exact ih.2 u hrest

theorem foldl_writeDigits (k n acc : ℕ) : (utf16 (writeDigits 10 k n)).foldl
    (fun n u => 10*n+(u.toNat-48)) acc = acc*10^k+n%10^k := by
  induction k generalizing acc with
  | zero => simp [writeDigits, utf16, Nat.mod_one]
  | succ k ih =>
    have hdigit := (isDigit_ofNat (n/10^k%10) (Nat.mod_lt _ (by decide))).2
    rw [utf16_writeDigits_succ, List.foldl_cons, ih, hdigit, Nat.add_sub_cancel_left, Nat.pow_succ,
      Nat.mod_mul]
    ring

theorem decimal_concat (digits : JsString) (u : UInt16) :
    decimal (digits ++ [u]) = 10*decimal digits+(u.toNat-48) := by
  simp [decimal]

/-- Digits are told by how many they are and what number they stand for. -/
theorem decimal_inj {xs ys : JsString} (hlength : xs.length = ys.length)
    (hxs : ∀ u ∈ xs, isDigit u = true) (hys : ∀ u ∈ ys, isDigit u = true)
    (h : decimal xs = decimal ys) : xs = ys := by
  induction xs using List.reverseRecOn generalizing ys with
  | nil => exact (List.length_eq_zero_iff.mp hlength.symm).symm
  | append_singleton xs u ih =>
    cases ys using List.reverseRecOn with
    | nil => simp at hlength
    | append_singleton ys v =>
      have hu := hxs u (by simp)
      have hv := hys v (by simp)
      simp only [isDigit, Bool.and_eq_true, decide_eq_true_eq] at hu hv
      rw [decimal_concat, decimal_concat] at h
      have hlast : u = v := UInt16.toNat_inj.mp (by omega)
      have hrest : xs = ys := ih (by simpa using hlength) (fun w hw => hxs w (by simp [hw]))
        (fun w hw => hys w (by simp [hw])) (by omega)
      rw [hlast, hrest]

end HubAssist.DecimalText
