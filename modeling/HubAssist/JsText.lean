import Mathlib.Data.Nat.Notation
import Mathlib.Tactic.Common

/-! Strings of JavaScript: lists of UTF-16 code units, in which a surrogate may stand alone. -/
namespace HubAssist.JsText

abbrev JsString := List UInt16

def IsHigh (u : UInt16) : Prop := 0xD800 ≤ u.toNat ∧ u.toNat < 0xDC00

def IsLow (u : UInt16) : Prop := 0xDC00 ≤ u.toNat ∧ u.toNat < 0xE000

instance (u : UInt16) : Decidable (IsHigh u) := inferInstanceAs (Decidable (_ ∧ _))

instance (u : UInt16) : Decidable (IsLow u) := inferInstanceAs (Decidable (_ ∧ _))

/-- What a string is made of: characters, and surrogates that stand alone. -/
inductive Piece where
  | char (c : Char)
  | lone (u : UInt16)
  deriving DecidableEq

def charUnits (c : Char) : JsString :=
  if c.toNat < 0x10000 then [.ofNat c.toNat]
  else [.ofNat (0xD800+(c.toNat-0x10000)/0x400), .ofNat (0xDC00+(c.toNat-0x10000)%0x400)]

def Piece.units : Piece → JsString
  | .char c => charUnits c
  | .lone u => [u]

def pairChar (u v : UInt16) : Char :=
  Char.ofNat (0x10000+(u.toNat-0xD800)*0x400+(v.toNat-0xDC00))

def single (u : UInt16) : Piece :=
  if IsHigh u ∨ IsLow u then .lone u else .char (Char.ofNat u.toNat)

def pieces : JsString → List Piece
  | u :: v :: rest =>
    -- a high and a low surrogate make a pair, any other stands alone
    if IsHigh u ∧ IsLow v then .char (pairChar u v) :: pieces rest
    else single u :: pieces (v :: rest)
  | [u] => [single u]
  | [] => []

/-- The code units of a text. -/
def utf16 (text : List Char) : JsString := text.flatMap charUnits

/-- The text of a string as it is sent on in UTF-8, where a lone surrogate is replaced. -/
def wellFormed (s : JsString) : List Char :=
  (pieces s).map fun p => match p with
    | .char c => c
    | .lone _ => Char.ofNat 0xFFFD

theorem toNat_ofNat {n : ℕ} (h : n.isValidChar) : (Char.ofNat n).toNat = n := by
  rw [Char.ofNat, dif_pos h]
  rfl

theorem unit_eq {n : ℕ} {u : UInt16} (h : n = u.toNat) : UInt16.ofNat n = u := by
  rw [h, UInt16.ofNat_toNat]

theorem units_single (u : UInt16) : (single u).units = [u] := by
  have hu := u.toNat_lt
  unfold single
  split_ifs with h
  · rfl
  · simp only [IsHigh, IsLow] at h
    have hvalid : u.toNat.isValidChar := by
      unfold Nat.isValidChar
      omega
    rw [Piece.units, charUnits, toNat_ofNat hvalid, if_pos (by omega), unit_eq rfl]

theorem units_pairChar {u v : UInt16} (hu : IsHigh u) (hv : IsLow v) :
    (Piece.char (pairChar u v)).units = [u, v] := by
  unfold IsHigh at hu
  unfold IsLow at hv
  have hvalid : (0x10000+(u.toNat-0xD800)*0x400+(v.toNat-0xDC00)).isValidChar := by
    unfold Nat.isValidChar
    omega
  rw [Piece.units, charUnits, pairChar, toNat_ofNat hvalid, if_neg (by omega)]
  rw [unit_eq (u := u) (by omega), unit_eq (u := v) (by omega)]

/-- The pieces of a string make it up again. -/
theorem units_pieces (s : JsString) : (pieces s).flatMap Piece.units = s := by
  induction s using pieces.induct with
  | case1 u v rest h ih =>
    rw [pieces, if_pos h, List.flatMap_cons, units_pairChar h.1 h.2, ih]
    rfl
  | case2 u v rest h ih =>
    rw [pieces, if_neg h, List.flatMap_cons, units_single, ih]
    rfl
  | case3 u => rw [pieces, List.flatMap_cons, units_single]; rfl
  | case4 => rfl

/-- The units of a character are read as that character, whatever follows. -/
theorem pieces_charUnits (c : Char) (s : JsString) :
    pieces (charUnits c ++ s) = .char c :: pieces s := by
  -- a character is never a surrogate, so its unit does not pair up with the next one
  have hvalid : c.toNat < 0xD800 ∨ 0xDFFF < c.toNat ∧ c.toNat < 0x110000 := c.valid
  unfold charUnits
  split_ifs with h
  · have hunit : (UInt16.ofNat c.toNat).toNat = c.toNat := by
      rw [UInt16.toNat_ofNat']
      omega
    have hhigh : ¬IsHigh (UInt16.ofNat c.toNat) := by
      unfold IsHigh
      omega
    have hlow : ¬IsLow (UInt16.ofNat c.toNat) := by
      unfold IsLow
      omega
    have hsingle : single (UInt16.ofNat c.toNat) = .char c := by
      rw [single, if_neg (by tauto), hunit, Char.ofNat_toNat]
    cases s with
    | nil => rw [List.append_nil, pieces, hsingle]; rfl
    | cons v rest =>
      rw [List.singleton_append, pieces, if_neg (by tauto), hsingle]
  -- a character beyond 0xFFFF takes two units
  · have hu : (UInt16.ofNat (0xD800+(c.toNat-0x10000)/0x400)).toNat =
        0xD800+(c.toNat-0x10000)/0x400 := by
      rw [UInt16.toNat_ofNat']
      omega
    have hv : (UInt16.ofNat (0xDC00+(c.toNat-0x10000)%0x400)).toNat =
        0xDC00+(c.toNat-0x10000)%0x400 := by
      rw [UInt16.toNat_ofNat']
      omega
    have hpair : IsHigh (UInt16.ofNat (0xD800+(c.toNat-0x10000)/0x400)) ∧
        IsLow (UInt16.ofNat (0xDC00+(c.toNat-0x10000)%0x400)) := by
      unfold IsHigh IsLow
      omega
    have hchar : 0x10000+(0xD800+(c.toNat-0x10000)/0x400-0xD800)*0x400+
        (0xDC00+(c.toNat-0x10000)%0x400-0xDC00) = c.toNat := by omega
    rw [List.cons_append, List.singleton_append, pieces, if_pos hpair, pairChar, hu, hv, hchar,
      Char.ofNat_toNat]

theorem pieces_utf16 (text : List Char) : pieces (utf16 text) = text.map .char := by
  induction text with
  | nil => rfl
  | cons c text ih =>
    rw [utf16, List.flatMap_cons, pieces_charUnits, ← utf16, ih, List.map_cons]

@[simp] theorem wellFormed_utf16 (text : List Char) : wellFormed (utf16 text) = text := by
  simp [wellFormed, pieces_utf16, Function.comp_def]

end HubAssist.JsText
