import HubAssist.Binary64
import HubAssist.DecimalText
import Mathlib.Data.List.DropRight

/-! Numbers of JavaScript as texts: `String` writes the shortest decimal that is rounded to the
number, and `Number` reads decimals, and digits of three other bases behind their prefix. -/
namespace HubAssist.NumberText
open JsText FixedDigits DecimalText Binary64

/-- Decimal digits, how many they are, and the place of the point behind the first of them. -/
structure Decimal where
  digits : ℕ
  count : ℕ
  point : ℤ

def Decimal.value (d : Decimal) : ℚ := d.digits*10^(d.point-d.count)

/-- The place of the point in a magnitude. -/
def pointOf (q : ℚ) : ℤ := Int.log 10 q+1

/-- The place of the last of some digits of a magnitude. -/
def unit (q : ℚ) (count : ℕ) : ℚ := 10^(pointOf q-count)

/-- The digits of a magnitude, cut off. -/
def digitsBelow (q : ℚ) (count : ℕ) : ℕ := ⌊q/unit q count⌋₊

/-- The digits are rounded to the magnitude. -/
def ReadsBack (q : ℚ) (count digits : ℕ) : Prop := roundMagnitude (digits*unit q count) = q

instance (q : ℚ) (count digits : ℕ) : Decidable (ReadsBack q count digits) :=
  inferInstanceAs (Decidable (_ = _))

/-- The digits nearest to a magnitude that are rounded to it, and the even ones of two. -/
def nearestDigits (q : ℚ) (count : ℕ) : Option ℕ :=
  let low := digitsBelow q count
  let down := q-low*unit q count
  let up := (low+1)*unit q count-q
  if ReadsBack q count low ∧
      (¬ReadsBack q count (low+1) ∨ down < up ∨ down = up ∧ low%2 = 0) then some low
  else if ReadsBack q count (low+1) then some (low+1)
  else none

/-- Some number of digits is enough. -/
def Writable (q : ℚ) : Prop := ∃ count, 0 < count ∧ (nearestDigits q count).isSome = true

/-- As few digits as can be. -/
def shortest (q : ℚ) (h : Writable q) : Decimal :=
  let count := Nat.find h
  let digits := (nearestDigits q count).getD 0
  -- digits that are rounded up to a power of ten are a one before the next place
  if digits = 10^count then ⟨10^(count-1), count, pointOf q+1⟩ else ⟨digits, count, pointOf q⟩

def zeros (count : ℕ) : JsString := List.replicate count 48

def naturalText (n : ℕ) : JsString := utf16 (writeDigits 10 (Nat.log 10 n+1) n)

/-- The layout of a decimal, which depends on the place of its point. -/
def layout (d : Decimal) : JsString :=
  let text := utf16 (writeDigits 10 d.count d.digits)
  if d.count ≤ d.point ∧ d.point ≤ 21 then text ++ zeros (d.point-d.count).toNat
  else if 0 < d.point ∧ d.point ≤ 21 then
    text.take d.point.toNat ++ 46 :: text.drop d.point.toNat
  else if -6 < d.point ∧ d.point ≤ 0 then 48 :: 46 :: (zeros (-d.point).toNat ++ text)
  else
    let e := d.point-1
    let exponent := 101 :: (if e < 0 then 45 else 43) :: naturalText e.natAbs
    if d.count = 1 then text ++ exponent else text.take 1 ++ 46 :: text.drop 1 ++ exponent

theorem decimal_nonneg (digits : ℕ) (exponent : ℤ) : (0 : ℚ) ≤ digits*10^exponent := by positivity

/-- A decimal as a number, which is infinite from 2^1024 on. -/
def ofDecimal (negative : Bool) (digits : ℕ) (exponent : ℤ) : Reading :=
  if h : roundMagnitude (digits*10^exponent) < 2^1024 then
    .finite ⟨negative, _, isMagnitude_roundMagnitude (decimal_nonneg digits exponent) h⟩
  else .infinite negative

/-- A sign and digits behind an `e`, or nothing. -/
def readExponent : JsString → Option ℤ
  | [] => some 0
  | u :: rest =>
    if u = 101 ∨ u = 69 then
      let (negative, digits) := splitSign rest
      if digits = [] ∨ digits.all isDigit = false then none
      else some (if negative then -(decimal digits : ℤ) else decimal digits)
    else none

/-- Digits with a point among them and an exponent behind: all digits, and the exponent of the last
one. -/
def readDecimal (s : JsString) : Option (ℕ × ℤ) :=
  let whole := s.takeWhile isDigit
  let (fraction, rest) :=
    match s.dropWhile isDigit with
    | [] => ([], [])
    | u :: rest =>
      if u = 46 then (rest.takeWhile isDigit, rest.dropWhile isDigit) else ([], u :: rest)
  if whole ++ fraction = [] then none
  else (readExponent rest).map fun e => (decimal (whole ++ fraction), e-fraction.length)

/-- The value of a unit as a digit of a base up to 16. -/
def radixDigit (radix : ℕ) (u : UInt16) : Option ℕ :=
  let n := u.toNat
  let value :=
    if 48 ≤ n ∧ n ≤ 57 then n-48
    else if 65 ≤ n ∧ n ≤ 70 then n-55
    else if 97 ≤ n ∧ n ≤ 102 then n-87
    else 16
  if value < radix then some value else none

def radixOf (u : UInt16) : Option ℕ :=
  if u = 66 ∨ u = 98 then some 2
  else if u = 79 ∨ u = 111 then some 8
  else if u = 88 ∨ u = 120 then some 16
  else none

/-- Digits behind a prefix such as `0x`, which has no sign in front. -/
def readRadix : JsString → Option ℕ
  | z :: u :: digits =>
    if z = 48 ∧ digits ≠ [] then do
      let radix ← radixOf u
      digits.foldlM (fun n v => (radixDigit radix v).map (radix*n+·)) 0
    else none
  | _ => none

def trim (s : JsString) : JsString := (s.dropWhile isWhite).rdropWhile isWhite

def infinityText : JsString := utf16 "Infinity".toList

/-- `Number(s)`: what is empty but for white space is zero. -/
def toNumber (s : JsString) : Reading :=
  let s := trim s
  if s = [] then ofDecimal false 0 0
  else
    -- another base is read before a sign is looked for
    match readRadix s with
    | some n => ofDecimal false n 0
    | none =>
      let (negative, rest) := splitSign s
      if rest = infinityText then .infinite negative
      else
        match readDecimal rest with
        | some (digits, exponent) => ofDecimal negative digits exponent
        | none => .nan

theorem unit_pos (q : ℚ) (count : ℕ) : 0 < unit q count := by
  unfold unit
  positivity

theorem isSome_nearestDigits {q : ℚ} {count : ℕ} (h : ReadsBack q count (digitsBelow q count)) :
    (nearestDigits q count).isSome = true := by
  unfold nearestDigits
  by_cases hnext : ReadsBack q count (digitsBelow q count+1)
  · simp only [if_pos hnext]
    split_ifs <;> rfl
  · simp [h, hnext]

/-- The digits found are rounded to the magnitude, and are the ones below or the next. -/
theorem nearestDigits_eq_some {q : ℚ} {count digits : ℕ} (h : nearestDigits q count = some digits) :
    ReadsBack q count digits ∧ digits ≤ digitsBelow q count+1 := by
  simp only [nearestDigits] at h
  split_ifs at h with hlow hnext
  · obtain rfl := Option.some.inj h
    exact ⟨hlow.1, Nat.le_succ _⟩
  · obtain rfl := Option.some.inj h
    exact ⟨hnext, Nat.le_refl _⟩

/-- All digits of a magnitude are written with enough of them. -/
theorem writable {q : ℚ} (h : IsMagnitude q) : Writable q := by
  have hround := h.roundMagnitude_eq
  obtain ⟨m, e, _, he, _, heq⟩ := h
  -- the last of so many digits stands behind the last binary place
  obtain ⟨places, hplaces, hpos⟩ : ∃ places : ℕ, 1074 ≤ places ∧ 0 < pointOf q+places :=
    ⟨1075+(pointOf q).natAbs, by omega, by omega⟩
  obtain ⟨count, hcount⟩ := Int.eq_ofNat_of_zero_le hpos.le
  obtain ⟨k, hk⟩ := Int.eq_ofNat_of_zero_le (show 0 ≤ e+places by omega)
  have hexponent : e = k-places := by omega
  have hunit : unit q count = (10^places)⁻¹ := by
    have hpoint : pointOf q-count = -places := by omega
    rw [unit, hpoint, zpow_neg, zpow_natCast]
  have hwhole : q/unit q count = (m*2^k*5^places : ℕ) := by
    have hten : (10 : ℚ)^places = 2^places*5^places := by
      rw [← mul_pow]
      norm_num
    rw [hunit, div_inv_eq_mul, heq, hexponent, zpow_sub₀ (by decide), zpow_natCast, zpow_natCast,
      hten]
    push_cast
    field_simp
  have hbelow : (digitsBelow q count : ℚ)*unit q count = q := by
    rw [digitsBelow, hwhole, Nat.floor_natCast, ← hwhole, div_mul_cancel₀ _ (unit_pos q count).ne']
  have hreads : ReadsBack q count (digitsBelow q count) := by
    rw [ReadsBack, hbelow]
    exact hround
  exact ⟨count, by omega, isSome_nearestDigits hreads⟩

/-- The digits cut off are no more than they are said to be. -/
theorem digitsBelow_lt {q : ℚ} (h : 0 ≤ q) (count : ℕ) : digitsBelow q count < 10^count := by
  have hlt := Int.lt_zpow_succ_log_self (b := 10) (by decide) q
  rw [digitsBelow, Nat.floor_lt (div_nonneg h (unit_pos q count).le),
    div_lt_iff₀ (unit_pos q count)]
  refine lt_of_lt_of_eq hlt ?_
  rw [unit, Nat.cast_pow, ← zpow_natCast, Nat.cast_ofNat, ← zpow_add₀ (by decide), pointOf]
  congr 1
  ring

/-- The shortest decimal of a magnitude is rounded to it. -/
theorem shortest_spec {q : ℚ} (hq : 0 ≤ q) (h : Writable q) :
    0 < (shortest q h).count ∧ (shortest q h).digits < 10^(shortest q h).count ∧
      roundMagnitude (shortest q h).value = q := by
  obtain ⟨hpos, hsome⟩ := Nat.find_spec h
  obtain ⟨digits, hdigits⟩ := Option.isSome_iff_exists.mp hsome
  obtain ⟨hreads, hle⟩ := nearestDigits_eq_some hdigits
  have hbelow := digitsBelow_lt hq (Nat.find h)
  simp only [shortest, hdigits, Option.getD_some]
  split_ifs with hfull
  · -- the digits are a one and zeros, so that the point moves on
    refine ⟨hpos, Nat.pow_lt_pow_right (by decide) (Nat.sub_lt hpos Nat.one_pos), ?_⟩
    obtain ⟨k, hk⟩ := Nat.exists_eq_succ_of_ne_zero hpos.ne'
    rw [ReadsBack, hfull] at hreads
    rw [hk, Nat.succ_eq_add_one] at hreads ⊢
    have hsame : Decimal.value ⟨10^(k+1-1), k+1, pointOf q+1⟩ =
        ((10^(k+1) : ℕ) : ℚ)*unit q (k+1) := by
      have hexponent : pointOf q+1-((k+1 : ℕ) : ℤ) = 1+(pointOf q-((k+1 : ℕ) : ℤ)) := by ring
      rw [Decimal.value, unit, Nat.add_sub_cancel]
      dsimp only
      rw [hexponent, zpow_add₀ (by decide), zpow_one]
      push_cast
      ring
    rw [hsame]
    exact hreads
  · exact ⟨hpos, by dsimp only; omega, hreads⟩

/-- `String(x)`, which writes no sign for zero. -/
def numberToString (x : Number) : JsString :=
  if x.magnitude = 0 then [48]
  else
    (if x.negative then [45] else []) ++ layout (shortest x.magnitude (writable x.isMagnitude))

/-- An exponent as it is read. -/
def ExponentText (s : JsString) (e : ℤ) : Prop :=
  s = [] ∧ e = 0 ∨ ∃ sign digits, s = 101 :: sign :: digits ∧ digits ≠ [] ∧
    (∀ u ∈ digits, isDigit u = true) ∧
    (sign = 43 ∧ e = decimal digits ∨ sign = 45 ∧ e = -(decimal digits : ℤ))

/-- Digits with a point and an exponent behind, or without one of them or both. -/
structure Laid (s whole fraction : JsString) (e : ℤ) : Prop where
  text : ∃ point exponent, s = whole ++ (point ++ exponent) ∧
    (point = [] ∧ fraction = [] ∨ point = 46 :: fraction) ∧ ExponentText exponent e
  nonempty : whole ≠ []
  whole_digit : ∀ u ∈ whole, isDigit u = true
  fraction_digit : ∀ u ∈ fraction, isDigit u = true

theorem ExponentText.head {s : JsString} {e : ℤ} (h : ExponentText s e) :
    ∀ u ∈ s.head?, u = 101 := by
  rcases h with ⟨rfl, _⟩ | ⟨sign, digits, rfl, _⟩
  · simp
  · intro u hu
    exact (Option.some.inj hu).symm

theorem ExponentText.read {s : JsString} {e : ℤ} (h : ExponentText s e) :
    readExponent s = some e := by
  rcases h with ⟨rfl, rfl⟩ | ⟨sign, digits, rfl, hsome, hdigits, hsign⟩
  · rfl
  · rcases hsign with ⟨rfl, rfl⟩ | ⟨rfl, rfl⟩
    · simpa [readExponent, splitSign] using And.intro hsome hdigits
    · simpa [readExponent, splitSign] using And.intro hsome hdigits

/-- A text that is laid out so is read. -/
theorem Laid.readDecimal {s whole fraction : JsString} {e : ℤ} (h : Laid s whole fraction e) :
    readDecimal s = some (decimal (whole ++ fraction), e-fraction.length) := by
  obtain ⟨point, exponent, rfl, hpoint, hexponent⟩ := h.text
  have hstops : ∀ u ∈ exponent.head?, isDigit u = false := by
    intro u hu
    rw [hexponent.head u hu]
    decide
  rcases hpoint with ⟨rfl, rfl⟩ | rfl
  · -- the digits end at the exponent
    simp only [NumberText.readDecimal, List.nil_append, takeWhile_stops h.whole_digit hstops,
      dropWhile_stops h.whole_digit hstops]
    cases exponent with
    | nil => simp [h.nonempty, hexponent.read]
    | cons u rest =>
      obtain rfl := hexponent.head u rfl
      simp [h.nonempty, hexponent.read]
  · -- the digits end at the point, and those of the fraction at the exponent
    have hpointStops : ∀ u ∈ (46 :: fraction ++ exponent).head?, isDigit u = false := by
      intro u hu
      obtain rfl := Option.some.inj hu
      decide
    simp only [NumberText.readDecimal, takeWhile_stops h.whole_digit hpointStops,
      dropWhile_stops h.whole_digit hpointStops]
    simp [takeWhile_stops h.fraction_digit hstops, dropWhile_stops h.fraction_digit hstops,
      h.nonempty, hexponent.read]

theorem isDigit_zeros {count : ℕ} : ∀ u ∈ zeros count, isDigit u = true := by
  intro u hu
  rw [List.eq_of_mem_replicate hu]
  decide

theorem decimal_append_zeros (digits : JsString) (count : ℕ) :
    decimal (digits ++ zeros count) = decimal digits*10^count := by
  induction count with
  | zero => simp [zeros]
  | succ count ih =>
    have hlast : digits ++ zeros (count+1) = (digits ++ zeros count) ++ [48] := by
      rw [zeros, zeros, List.replicate_succ', List.append_assoc]
    have hzero : (48 : UInt16).toNat-48 = 0 := rfl
    rw [hlast, decimal_concat, ih, hzero, Nat.pow_succ]
    ring

theorem decimal_zeros_append (count : ℕ) (digits : JsString) :
    decimal (zeros count ++ digits) = decimal digits := by
  induction count with
  | zero => rfl
  | succ count ih => exact ih

theorem decimal_writeDigits {count n : ℕ} (h : n < 10^count) :
    decimal (utf16 (writeDigits 10 count n)) = n := by
  rw [decimal, foldl_writeDigits, Nat.zero_mul, Nat.zero_add, Nat.mod_eq_of_lt h]

theorem naturalText_spec (n : ℕ) : naturalText n ≠ [] ∧ (∀ u ∈ naturalText n, isDigit u = true) ∧
    decimal (naturalText n) = n := by
  obtain ⟨hlength, hdigits⟩ := utf16_writeDigits (Nat.log 10 n+1) n
  refine ⟨fun h => ?_, hdigits, decimal_writeDigits (Nat.lt_pow_succ_log_self (by decide) n)⟩
  rw [naturalText] at h
  simp [h] at hlength

/-- The exponent that is written is read. -/
theorem exponentText (e : ℤ) :
    ExponentText (101 :: (if e < 0 then 45 else 43) :: naturalText e.natAbs) e := by
  obtain ⟨hsome, hdigits, hvalue⟩ := naturalText_spec e.natAbs
  refine .inr ⟨_, _, rfl, hsome, hdigits, ?_⟩
  rw [hvalue]
  by_cases h : e < 0
  · exact .inr ⟨if_pos h, by omega⟩
  · exact .inl ⟨if_neg h, by omega⟩

theorem laid_whole {whole exponent : JsString} {e : ℤ} (hsome : whole ≠ [])
    (hdigits : ∀ u ∈ whole, isDigit u = true) (h : ExponentText exponent e) :
    Laid (whole ++ exponent) whole [] e :=
  ⟨⟨[], exponent, rfl, .inl ⟨rfl, rfl⟩, h⟩, hsome, hdigits, by simp⟩

theorem laid_fraction {whole fraction exponent : JsString} {e : ℤ} (hsome : whole ≠ [])
    (hdigits : ∀ u ∈ whole ++ fraction, isDigit u = true) (h : ExponentText exponent e) :
    Laid (whole ++ 46 :: fraction ++ exponent) whole fraction e := by
  refine ⟨⟨46 :: fraction, exponent, List.append_assoc .., .inr rfl, h⟩, hsome, ?_, ?_⟩
  · exact fun u hu => hdigits u (List.mem_append_left _ hu)
  · exact fun u hu => hdigits u (List.mem_append_right _ hu)

/-- Zeros fill up to the point. -/
theorem laid_append_zeros {text : JsString} (hsome : text ≠ [])
    (hdigits : ∀ u ∈ text, isDigit u = true) (count : ℕ) :
    Laid (text ++ zeros count) (text ++ zeros count) [] 0 := by
  have hzeros : ∀ u ∈ text ++ zeros count, isDigit u = true := fun u hu =>
    (List.mem_append.mp hu).elim (hdigits u) (isDigit_zeros u)
  have hlaid := laid_whole (by simp [hsome]) hzeros (.inl ⟨rfl, rfl⟩)
  rwa [List.append_nil] at hlaid

/-- Zeros stand behind the point. -/
theorem laid_zeros_append {text : JsString} (hdigits : ∀ u ∈ text, isDigit u = true) (count : ℕ) :
    Laid (48 :: 46 :: (zeros count ++ text)) (zeros 1) (zeros count ++ text) 0 := by
  have hzeros : ∀ u ∈ zeros 1 ++ (zeros count ++ text), isDigit u = true := by
    intro u hu
    rcases List.mem_append.mp hu with hfirst | hrest
    · exact isDigit_zeros u hfirst
    · exact (List.mem_append.mp hrest).elim (isDigit_zeros u) (hdigits u)
  have hlaid := laid_fraction (by simp [zeros]) hzeros (.inl ⟨rfl, rfl⟩)
  rwa [List.append_nil] at hlaid

/-- Every layout has the value of its decimal. -/
theorem laid_layout {d : Decimal} (hcount : 0 < d.count) (hfit : d.digits < 10^d.count) :
    ∃ whole fraction e, Laid (layout d) whole fraction e ∧
      (decimal (whole ++ fraction) : ℚ)*10^(e-fraction.length) = d.value := by
  obtain ⟨hlength, hdigits⟩ := utf16_writeDigits d.count d.digits
  have hvalue := decimal_writeDigits hfit
  have hexponent := exponentText (d.point-1)
  simp only [layout, Decimal.value]
  generalize utf16 (writeDigits 10 d.count d.digits) = text at *
  generalize (101 :: (if d.point-1 < 0 then 45 else 43) :: naturalText (d.point-1).natAbs) =
    exponent at *
  have hsome : text ≠ [] := fun h => by simp [h] at hlength; omega
  have hsplit : ∀ k, ∀ u ∈ text.take k ++ text.drop k, isDigit u = true := by
    intro k
    rw [List.take_append_drop]
    exact hdigits
  -- the cases are those of the layout: whole, with a point inside, below one, and with an exponent
  split_ifs with hlarge hpoint hsmall hone
  · refine ⟨_, _, _, laid_append_zeros hsome hdigits _, ?_⟩
    have hshift : d.point-d.count = ((d.point-d.count).toNat : ℤ) := by omega
    rw [List.append_nil, decimal_append_zeros, hvalue, hshift, zpow_natCast, Int.toNat_natCast]
    simp
  · have hlaid := laid_fraction (by simp [hsome]; omega) (hsplit d.point.toNat) (.inl ⟨rfl, rfl⟩)
    rw [List.append_nil] at hlaid
    refine ⟨_, _, _, hlaid, ?_⟩
    have hshift : (0 : ℤ)-(text.drop d.point.toNat).length = d.point-d.count := by
      rw [List.length_drop, hlength]
      omega
    rw [List.take_append_drop, hvalue, hshift]
  · refine ⟨_, _, _, laid_zeros_append hdigits _, ?_⟩
    have hshift : (0 : ℤ)-(zeros (-d.point).toNat ++ text).length = d.point-d.count := by
      rw [List.length_append, zeros, List.length_replicate, hlength]
      push_cast
      omega
    rw [decimal_zeros_append, decimal_zeros_append, hvalue, hshift]
  · refine ⟨_, _, _, laid_whole hsome hdigits hexponent, ?_⟩
    rw [List.append_nil, hvalue, hone]
    simp
  · refine ⟨_, _, _, laid_fraction (by simp [hsome]) (hsplit 1) hexponent, ?_⟩
    have hshift : d.point-1-(text.drop 1).length = d.point-d.count := by
      rw [List.length_drop, hlength]
      omega
    rw [List.take_append_drop, hvalue, hshift]

/-- A magnitude is read from any decimal that is rounded to it. -/
theorem ofDecimal_eq {x : Number} {digits : ℕ} {exponent : ℤ}
    (h : roundMagnitude (digits*10^exponent) = x.magnitude) :
    ofDecimal x.negative digits exponent = .finite x := by
  have hlt : roundMagnitude (digits*10^exponent) < 2^1024 := by
    rw [h]
    exact x.isMagnitude.lt
  rw [ofDecimal, dif_pos hlt]
  congr 1
  ext
  · rfl
  · exact h

/-- The units of a number that is written. -/
def IsNumeric (u : UInt16) : Prop := isDigit u = true ∨ u = 43 ∨ u = 45 ∨ u = 46 ∨ u = 101

theorem IsNumeric.not_white {u : UInt16} (h : IsNumeric u) : isWhite u = false := by
  rcases h with hdigit | rfl | rfl | rfl | rfl
  · exact isWhite_digit hdigit
  all_goals decide

theorem IsNumeric.radixOf_eq {u : UInt16} (h : IsNumeric u) : radixOf u = none := by
  have hnot : ∀ v : UInt16, 57 < v.toNat → v ≠ 101 → u ≠ v := by
    rintro v hlarge hother rfl
    rcases h with hdigit | rfl | rfl | rfl | rfl
    · simp only [isDigit, Bool.and_eq_true, decide_eq_true_eq] at hdigit
      omega
    · exact absurd hlarge (by decide)
    · exact absurd hlarge (by decide)
    · exact absurd hlarge (by decide)
    · exact hother rfl
  have hbinary : ¬(u = 66 ∨ u = 98) := not_or.mpr ⟨hnot 66 (by decide) (by decide),
    hnot 98 (by decide) (by decide)⟩
  have hoctal : ¬(u = 79 ∨ u = 111) := not_or.mpr ⟨hnot 79 (by decide) (by decide),
    hnot 111 (by decide) (by decide)⟩
  have hhex : ¬(u = 88 ∨ u = 120) := not_or.mpr ⟨hnot 88 (by decide) (by decide),
    hnot 120 (by decide) (by decide)⟩
  rw [radixOf, if_neg hbinary, if_neg hoctal, if_neg hhex]

theorem ExponentText.numeric {s : JsString} {e : ℤ} (h : ExponentText s e) :
    ∀ u ∈ s, IsNumeric u := by
  rcases h with ⟨rfl, _⟩ | ⟨sign, digits, rfl, _, hdigits, hsign⟩
  · simp
  · intro u hu
    rcases List.mem_cons.mp hu with rfl | hu
    · exact .inr (.inr (.inr (.inr rfl)))
    rcases List.mem_cons.mp hu with rfl | hu
    · rcases hsign with ⟨rfl, _⟩ | ⟨rfl, _⟩
      · exact .inr (.inl rfl)
      · exact .inr (.inr (.inl rfl))
    · exact .inl (hdigits u hu)

theorem Laid.numeric {s whole fraction : JsString} {e : ℤ} (h : Laid s whole fraction e) :
    ∀ u ∈ s, IsNumeric u := by
  obtain ⟨point, exponent, rfl, hpoint, hexponent⟩ := h.text
  intro u hu
  rcases List.mem_append.mp hu with hwhole | hrest
  · exact .inl (h.whole_digit u hwhole)
  rcases List.mem_append.mp hrest with hu | hu
  · rcases hpoint with ⟨rfl, _⟩ | rfl
    · cases hu
    · rcases List.mem_cons.mp hu with rfl | hu
      · exact .inr (.inr (.inr (.inl rfl)))
      · exact .inl (h.fraction_digit u hu)
  · exact hexponent.numeric u hu

theorem trim_eq_self {s : JsString} (hfirst : ∀ u ∈ s.head?, isWhite u = false)
    (hlast : ∀ u ∈ s.getLast?, isWhite u = false) : trim s = s := by
  have hfront : s.dropWhile isWhite = s := by
    cases s with
    | nil => rfl
    | cons u s => simp [hfirst u rfl]
  rw [trim, hfront, List.rdropWhile_eq_self_iff]
  intro hsome
  simp [hlast _ (List.getLast?_eq_some_getLast hsome)]

theorem trim_numeric {s : JsString} (h : ∀ u ∈ s, IsNumeric u) : trim s = s := by
  apply trim_eq_self
  · exact fun u hu => (h u (List.mem_of_mem_head? hu)).not_white
  · exact fun u hu => (h u (List.mem_of_mem_getLast? hu)).not_white

theorem readRadix_numeric {s : JsString} (h : ∀ u ∈ s, IsNumeric u) : readRadix s = none := by
  match s, h with
  | [], _ => rfl
  | [_], _ => rfl
  | z :: u :: digits, h =>
    rw [readRadix, (h u (by simp)).radixOf_eq]
    split_ifs <;> rfl

/-- Behind a minus or none, a text that is laid out is read as its decimal. -/
theorem Laid.toNumber {s whole fraction : JsString} {e : ℤ} (h : Laid s whole fraction e)
    (negative : Bool) : toNumber ((if negative then [45] else []) ++ s) =
      ofDecimal negative (decimal (whole ++ fraction)) (e-fraction.length) := by
  have hread := h.readDecimal
  have hnumeric : ∀ u ∈ (if negative then [45] else []) ++ s, IsNumeric u := by
    intro u hu
    rcases List.mem_append.mp hu with hsign | hu
    · cases negative with
      | false => cases hsign
      | true =>
        obtain rfl := List.mem_singleton.mp hsign
        exact .inr (.inr (.inl rfl))
    · exact h.numeric u hu
  have hsplit : splitSign ((if negative then [45] else []) ++ s) = (negative, s) := by
    obtain ⟨point, exponent, rfl, _⟩ := h.text
    cases negative with
    | false => exact splitSign_append h.nonempty h.whole_digit (.inl rfl)
    | true => exact splitSign_append h.nonempty h.whole_digit (.inr (.inr rfl))
  have hsome : (if negative then [45] else []) ++ s ≠ [] := by
    obtain ⟨point, exponent, rfl, _⟩ := h.text
    simp [h.nonempty]
  have hfinite : s ≠ infinityText := by
    rintro rfl
    have hletter : ¬IsNumeric 73 := by
      unfold IsNumeric
      decide
    exact hletter (h.numeric 73 (by decide))
  simp only [NumberText.toNumber, trim_numeric hnumeric, if_neg hsome, readRadix_numeric hnumeric,
    hsplit, if_neg hfinite, hread]

/-- A number that is written is read again, but for the sign of zero. -/
theorem toNumber_numberToString (x : Number) :
    toNumber (numberToString x) = .finite (if x.magnitude = 0 then positiveZero else x) := by
  by_cases hzero : x.magnitude = 0
  · have hdigits : ∀ u ∈ zeros 1, isDigit u = true := isDigit_zeros
    have hlaid := laid_whole (by decide) hdigits (.inl ⟨rfl, rfl⟩)
    have hround : roundMagnitude ((0 : ℕ)*10^(0 : ℤ)) = positiveZero.magnitude := by
      rw [Nat.cast_zero, zero_mul, roundMagnitude_zero]
      rfl
    rw [numberToString, if_pos hzero, if_pos hzero, ← ofDecimal_eq hround]
    exact hlaid.toNumber false
  · obtain ⟨hcount, hfit, hround⟩ := shortest_spec x.isMagnitude.nonneg (writable x.isMagnitude)
    obtain ⟨whole, fraction, e, hlaid, hvalue⟩ := laid_layout hcount hfit
    rw [← hvalue] at hround
    rw [numberToString, if_neg hzero, if_neg hzero, hlaid.toNumber, ofDecimal_eq hround]

theorem numberToString_ne_nil (x : Number) : numberToString x ≠ [] := by
  by_cases hzero : x.magnitude = 0
  · simp [numberToString, hzero]
  · obtain ⟨hcount, hfit, _⟩ := shortest_spec x.isMagnitude.nonneg (writable x.isMagnitude)
    obtain ⟨whole, fraction, e, hlaid, _⟩ := laid_layout hcount hfit
    obtain ⟨point, exponent, htext, _⟩ := hlaid.text
    rw [numberToString, if_neg hzero, htext]
    simp [hlaid.nonempty]

end HubAssist.NumberText
