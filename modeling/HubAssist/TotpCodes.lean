import HubAssist.DecimalText

/-! The codes that the TotpService accepts. What HOTP makes of a secret and a counter is open, but
for its range. -/
namespace HubAssist.Totp
open JsText FixedDigits DecimalText

/-- `parseInt(s, 10)`, where nothing stands for `NaN`: blanks and a sign may come first, and what is
behind the digits is passed over. -/
def parseInt (s : JsString) : Option ℤ :=
  let (negative, rest) := splitSign (s.dropWhile isWhite)
  let digits := rest.takeWhile isDigit
  if digits = [] then none
  else some (if negative then -(decimal digits : ℤ) else decimal digits)

/-- `generateHotp`, which ends in a remainder by a million. -/
structure Hotp where
  code : JsString → ℤ → ℕ
  lt : ∀ secret counter, code secret counter < 10^6

def digitCount : ℕ := 6

def timeStep : ℤ := 30

/-- From `-TOTP_WINDOW` to `TOTP_WINDOW`. -/
def windowOffsets : List ℤ := [-1, 0, 1]

/-- The counter at a time in milliseconds. -/
def timeCounter (nowMs : ℤ) : ℤ := nowMs/1000/timeStep

def verifyToken (hotp : Hotp) (nowMs : ℤ) (secret token : JsString) : Bool :=
  if token = [] ∨ token.length ≠ digitCount then false
  else
    match parseInt token with
    | none => false
    | some tokenNumber => windowOffsets.any fun i =>
      (hotp.code secret (timeCounter nowMs+i) : ℤ) = tokenNumber

/-- A code with six decimal digits, zeros in front. -/
def render (code : ℕ) : JsString := utf16 (writeDigits 10 digitCount code)

/-- The token has six decimal digits, and is the code for one of the three counters. -/
def ValidCode (hotp : Hotp) (nowMs : ℤ) (secret token : JsString) : Prop :=
  token.length = 6 ∧ (∀ u ∈ token, isDigit u = true) ∧
    ∃ i ∈ windowOffsets, token = render (hotp.code secret (timeCounter nowMs+i))

/-- The token is a number between blanks in front, a sign, and anything but a digit behind it. -/
structure ReadsAs (token : JsString) (n : ℤ) (blanks sign digits rest : JsString) : Prop where
  text : token = blanks ++ sign ++ digits ++ rest
  blank : ∀ u ∈ blanks, isWhite u = true
  signed : sign = [] ∧ n = decimal digits ∨ sign = [43] ∧ n = decimal digits ∨
    sign = [45] ∧ n = -(decimal digits : ℤ)
  digit : ∀ u ∈ digits, isDigit u = true
  nonempty : digits ≠ []
  stops : ∀ u ∈ rest.head?, isDigit u = false

/-- Six units that are not all digits, and are read as the code for one of the three counters. -/
def LenientCode (hotp : Hotp) (nowMs : ℤ) (secret token : JsString) : Prop :=
  token.length = 6 ∧ (∃ u ∈ token, isDigit u = false) ∧ ∃ i ∈ windowOffsets,
    ∃ blanks sign digits rest,
      ReadsAs token (hotp.code secret (timeCounter nowMs+i)) blanks sign digits rest

/-- What `parseInt` makes of blanks, a sign, digits and a rest. -/
theorem ReadsAs.parseInt {token : JsString} {n : ℤ} {blanks sign digits rest : JsString}
    (h : ReadsAs token n blanks sign digits rest) : parseInt token = some n := by
  have hsign : sign = [] ∨ sign = [43] ∨ sign = [45] := by
    rcases h.signed with ⟨hs, _⟩ | ⟨hs, _⟩ | ⟨hs, _⟩
    · exact .inl hs
    · exact .inr (.inl hs)
    · exact .inr (.inr hs)
  have hdrop : token.dropWhile isWhite = sign ++ (digits ++ rest) := by
    rw [h.text, List.append_assoc, List.append_assoc]
    apply dropWhile_stops h.blank
    intro u hu
    rcases hsign with rfl | rfl | rfl
    · cases hdigits : digits with
      | nil => exact absurd hdigits h.nonempty
      | cons v digits =>
        rw [hdigits] at hu
        obtain rfl := Option.some.inj hu
        exact isWhite_digit (h.digit v (hdigits ▸ List.mem_cons_self))
    · obtain rfl := Option.some.inj hu
      decide
    · obtain rfl := Option.some.inj hu
      decide
  simp only [Totp.parseInt, hdrop, splitSign_append h.nonempty h.digit hsign,
    takeWhile_stops h.digit h.stops, if_neg h.nonempty]
  rcases h.signed with ⟨rfl, rfl⟩ | ⟨rfl, rfl⟩ | ⟨rfl, rfl⟩
  · rfl
  · rfl
  · rfl

/-- What `parseInt` gives, it has read. -/
theorem readsAs_of_parseInt {token : JsString} {n : ℤ} (h : parseInt token = some n) :
    ∃ blanks sign digits rest, ReadsAs token n blanks sign digits rest := by
  simp only [parseInt] at h
  obtain ⟨sign, hsplit, hsign⟩ := splitSign_eq (token.dropWhile isWhite)
  generalize splitSign (token.dropWhile isWhite) = split at h hsplit hsign
  split_ifs at h with hempty hnegative
  · refine ⟨token.takeWhile isWhite, sign, split.2.takeWhile isDigit, split.2.dropWhile isDigit,
      ?_, fun u hu => List.mem_takeWhile_imp hu, ?_, fun u hu => List.mem_takeWhile_imp hu, hempty,
      head_dropWhile split.2⟩
    · rw [List.append_assoc, List.append_assoc, List.takeWhile_append_dropWhile, ← hsplit,
        List.takeWhile_append_dropWhile]
    · rcases hsign with ⟨_, hpositive⟩ | ⟨_, hpositive⟩ | ⟨hminus, _⟩
      · simp [hpositive] at hnegative
      · simp [hpositive] at hnegative
      · exact .inr (.inr ⟨hminus, (Option.some.inj h).symm⟩)
  · refine ⟨token.takeWhile isWhite, sign, split.2.takeWhile isDigit, split.2.dropWhile isDigit,
      ?_, fun u hu => List.mem_takeWhile_imp hu, ?_, fun u hu => List.mem_takeWhile_imp hu, hempty,
      head_dropWhile split.2⟩
    · rw [List.append_assoc, List.append_assoc, List.takeWhile_append_dropWhile, ← hsplit,
        List.takeWhile_append_dropWhile]
    · rcases hsign with ⟨hnone, _⟩ | ⟨hplus, _⟩ | ⟨_, htrue⟩
      · exact .inl ⟨hnone, (Option.some.inj h).symm⟩
      · exact .inr (.inl ⟨hplus, (Option.some.inj h).symm⟩)
      · exact absurd htrue hnegative

/-- Six units are accepted when they are read, blanks, sign and rest allowed, as one of the three
codes. -/
theorem verifyToken_eq_true {hotp : Hotp} {nowMs : ℤ} {secret token : JsString} :
    verifyToken hotp nowMs secret token = true ↔ token.length = 6 ∧ ∃ i ∈ windowOffsets,
      ∃ blanks sign digits rest,
        ReadsAs token (hotp.code secret (timeCounter nowMs+i)) blanks sign digits rest := by
  by_cases hlength : token.length = 6
  · have hnonempty : token ≠ [] := fun h => by simp [h] at hlength
    rw [verifyToken, if_neg (by simp [hnonempty, hlength, digitCount])]
    constructor
    · intro h
      cases hparsed : parseInt token with
      | none => simp [hparsed] at h
      | some n =>
        simp only [hparsed, List.any_eq_true, decide_eq_true_eq] at h
        obtain ⟨i, hi, rfl⟩ := h
        exact ⟨hlength, i, hi, readsAs_of_parseInt hparsed⟩
    · rintro ⟨_, i, hi, blanks, sign, digits, rest, hreads⟩
      simp only [hreads.parseInt, List.any_eq_true, decide_eq_true_eq]
      exact ⟨i, hi, rfl⟩
  · rw [verifyToken, if_pos (.inr hlength)]
    simp [hlength]

theorem decimal_render {n : ℕ} (h : n < 10^6) : decimal (render n) = n := by
  rw [decimal, render, foldl_writeDigits, digitCount, Nat.zero_mul, Nat.zero_add,
    Nat.mod_eq_of_lt h]

/-- Digits are read as themselves. -/
theorem readsAs_digits {digits : JsString} (hnonempty : digits ≠ [])
    (hdigits : ∀ u ∈ digits, isDigit u = true) :
    ReadsAs digits (decimal digits) [] [] digits [] :=
  ⟨by simp, by simp, .inl ⟨rfl, rfl⟩, hdigits, hnonempty, by simp⟩

/-- When all units are digits, there is nothing else to read. -/
theorem ReadsAs.all_digits {token : JsString} {n : ℤ} {blanks sign digits rest : JsString}
    (h : ReadsAs token n blanks sign digits rest) (hall : ∀ u ∈ token, isDigit u = true) :
    token = digits ∧ n = decimal digits := by
  have hmem : ∀ u, u ∈ blanks ∨ u ∈ sign ∨ u ∈ rest → isDigit u = true := by
    intro u hu
    apply hall u
    rw [h.text]
    rcases hu with hu | hu | hu <;> simp [hu]
  have hblanks : blanks = [] := by
    rw [List.eq_nil_iff_forall_not_mem]
    intro u hu
    exact absurd ((isWhite_digit (hmem u (.inl hu))).symm.trans (h.blank u hu)) (by decide)
  have hrest : rest = [] := by
    cases rest with
    | nil => rfl
    | cons u rest =>
      exact absurd ((h.stops u rfl).symm.trans (hmem u (by simp))) (by decide)
  rcases h.signed with ⟨hsign, hn⟩ | ⟨hsign, _⟩ | ⟨hsign, _⟩
  · refine ⟨?_, hn⟩
    rw [h.text, hblanks, hsign, hrest]
    simp
  · exact absurd (hmem 43 (by simp [hsign])) (by decide)
  · exact absurd (hmem 45 (by simp [hsign])) (by decide)

theorem length_render (n : ℕ) : (render n).length = 6 := (utf16_writeDigits digitCount n).1

theorem isDigit_render {n : ℕ} {u : UInt16} (h : u ∈ render n) : isDigit u = true :=
  (utf16_writeDigits digitCount n).2 u h

/-- A code with six digits is accepted. -/
theorem verifyToken_of_validCode {hotp : Hotp} {nowMs : ℤ} {secret token : JsString}
    (h : ValidCode hotp nowMs secret token) : verifyToken hotp nowMs secret token = true := by
  obtain ⟨hlength, hdigits, i, hi, rfl⟩ := h
  have hlt := hotp.lt secret (timeCounter nowMs+i)
  have hreads := readsAs_digits (fun h => by simp [h] at hlength) hdigits
  rw [decimal_render hlt] at hreads
  exact verifyToken_eq_true.mpr ⟨hlength, i, hi, [], [], _, [], hreads⟩

/-- What is accepted has six digits, or is lenient. -/
theorem validCode_of_verifyToken {hotp : Hotp} {nowMs : ℤ} {secret token : JsString}
    (h : verifyToken hotp nowMs secret token = true) (hall : ∀ u ∈ token, isDigit u = true) :
    ValidCode hotp nowMs secret token := by
  obtain ⟨hlength, i, hi, blanks, sign, digits, rest, hreads⟩ := verifyToken_eq_true.mp h
  obtain ⟨rfl, hvalue⟩ := hreads.all_digits hall
  have hlt := hotp.lt secret (timeCounter nowMs+i)
  refine ⟨hlength, hall, i, hi, decimal_inj (by rw [hlength, length_render]) hall
    (fun u hu => isDigit_render hu) ?_⟩
  rw [decimal_render hlt]
  exact_mod_cast hvalue.symm

/-- A token is accepted exactly when it is a valid code, unless it is a lenient one: six units that
are not all digits and begin, behind blanks and a sign, with the digits of one of the codes. -/
theorem verifyToken_iff (hotp : Hotp) (nowMs : ℤ) (secret token : JsString) :
    (verifyToken hotp nowMs secret token = true ↔ ValidCode hotp nowMs secret token) ↔
      ¬LenientCode hotp nowMs secret token := by
  constructor
  · rintro h ⟨hlength, ⟨u, hu, hnot⟩, hreads⟩
    have hvalid := h.mp (verifyToken_eq_true.mpr ⟨hlength, hreads⟩)
    cases hnot.symm.trans (hvalid.2.1 u hu)
  · intro hstrict
    refine ⟨fun h => validCode_of_verifyToken h fun u hu => ?_, verifyToken_of_validCode⟩
    by_contra hnot
    obtain ⟨hlength, hreads⟩ := verifyToken_eq_true.mp h
    exact hstrict ⟨hlength, ⟨u, hu, by simpa using hnot⟩, hreads⟩

/-- Every code is 12345. -/
def constantHotp : Hotp := ⟨fun _ _ => 12345, fun _ _ => by decide⟩

/-- A letter behind the digits does no harm. -/
theorem letter_accepted :
    verifyToken constantHotp 1700000000000 (utf16 "JBSWY3DP".toList) (utf16 "12345a".toList) =
        true ∧
      ¬ValidCode constantHotp 1700000000000 (utf16 "JBSWY3DP".toList) (utf16 "12345a".toList) := by
  refine ⟨by decide, ?_⟩
  rintro ⟨_, hdigits, _⟩
  exact absurd (hdigits 97 (by decide)) (by decide)

end HubAssist.Totp
