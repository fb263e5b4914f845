import Mathlib.Data.List.Basic
import Mathlib.Data.Nat.Notation
import Mathlib.Tactic.Common

/-! Text and base64 as a JavaScript `Buffer` writes and reads them. The base64 reader takes both
alphabets, stops at the padding and skips every other character. -/
namespace HubAssist.Base64

/-- The letter for six bits, in the standard alphabet. -/
def letter (v : ℕ) : Char :=
  if v < 26 then Char.ofNat ('A'.toNat+v)
  else if v < 52 then Char.ofNat ('a'.toNat+(v-26))
  else if v < 62 then Char.ofNat ('0'.toNat+(v-52))
  else if v = 62 then '+'
  else '/'

/-- The six bits of a letter of the standard alphabet or of the URL-safe one. -/
def sextet (c : Char) : Option ℕ :=
  if 'A' ≤ c ∧ c ≤ 'Z' then some (c.toNat - 'A'.toNat)
  else if 'a' ≤ c ∧ c ≤ 'z' then some (c.toNat - 'a'.toNat+26)
  else if '0' ≤ c ∧ c ≤ '9' then some (c.toNat - '0'.toNat+52)
  else if c = '+' ∨ c = '-' then some 62
  else if c = '/' ∨ c = '_' then some 63
  else none

/-- The bytes cut into groups of six bits; what the last group lacks is zero. -/
def pack : List UInt8 → List ℕ
  | a :: b :: c :: rest =>
    a.toNat/4 :: (a.toNat%4*16+b.toNat/16) :: (b.toNat%16*4+c.toNat/64) :: c.toNat%64 :: pack rest
  | [a, b] => [a.toNat/4, a.toNat%4*16+b.toNat/16, b.toNat%16*4]
  | [a] => [a.toNat/4, a.toNat%4*16]
  | [] => []

/-- The whole bytes in groups of six bits. -/
def unpack : List ℕ → List UInt8
  | s :: t :: u :: v :: rest =>
    .ofNat (s*4+t/16) :: .ofNat (t%16*16+u/4) :: .ofNat (u%4*64+v) :: unpack rest
  | [s, t, u] => [.ofNat (s*4+t/16), .ofNat (t%16*16+u/4)]
  | [s, t] => [.ofNat (s*4+t/16)]
  | _ => []

def padding (length : ℕ) : List Char := List.replicate ((3-length%3)%3) '='

/-- `Buffer.toString('base64')`. -/
def encode (bytes : List UInt8) : List Char := (pack bytes).map letter ++ padding bytes.length

/-- `Buffer.from(text, 'base64')`. -/
def decode (text : List Char) : List UInt8 :=
  -- what stands behind the padding is not read, foreign characters are passed over
  unpack ((text.takeWhile fun c => c ≠ '=').filterMap sextet)

theorem sextet_letter : ∀ v < 64, sextet (letter v) = some v := by decide

theorem letter_ne : ∀ v < 64, letter v ≠ '=' ∧ letter v ≠ '-' ∧ letter v ≠ '_' := by decide

theorem pack_lt (bytes : List UInt8) : ∀ v ∈ pack bytes, v < 64 := by
  induction bytes using pack.induct with
  | case1 a b c rest ih =>
    have ha := a.toNat_lt
    have hb := b.toNat_lt
    have hc := c.toNat_lt
    intro v hv
    simp only [pack, List.mem_cons] at hv
    rcases hv with rfl | rfl | rfl | rfl | hv
    · omega
    · omega
    · omega
    · omega
    · exact ih v hv
  | case2 a b =>
    have ha := a.toNat_lt
    have hb := b.toNat_lt
    simp only [pack, List.forall_mem_cons]
    exact ⟨by omega, by omega, by omega, by simp⟩
  | case3 a =>
    have ha := a.toNat_lt
    simp only [pack, List.forall_mem_cons]
    exact ⟨by omega, by omega, by simp⟩
  | case4 => simp [pack]

theorem ofNat_eq {n : ℕ} {b : UInt8} (h : n = b.toNat) : UInt8.ofNat n = b := by
  rw [h, UInt8.ofNat_toNat]

theorem unpack_pack (bytes : List UInt8) : unpack (pack bytes) = bytes := by
  induction bytes using pack.induct with
  | case1 a b c rest ih =>
    have ha := a.toNat_lt
    have hb := b.toNat_lt
    have hc := c.toNat_lt
    -- four letters hold three bytes; each is put together from the parts it was cut into
    rw [pack, unpack, ih, ofNat_eq (b := a) (by omega), ofNat_eq (b := b) (by omega),
      ofNat_eq (b := c) (by omega)]
  | case2 a b =>
    have ha := a.toNat_lt
    have hb := b.toNat_lt
    rw [pack, unpack, ofNat_eq (b := a) (by omega), ofNat_eq (b := b) (by omega)]
  | case3 a =>
    have ha := a.toNat_lt
    rw [pack, unpack, ofNat_eq (b := a) (by omega)]
  | case4 => rfl

theorem filterMap_sextet {sextets : List ℕ} (h : ∀ v ∈ sextets, v < 64) :
    (sextets.map letter).filterMap sextet = sextets := by
  rw [List.filterMap_map]
  refine (List.filterMap_congr fun v hv => ?_).trans List.filterMap_some
  exact sextet_letter v (h v hv)

/-- The letters of some bytes with any padding behind them are read back as those bytes. -/
theorem decode_letters (bytes : List UInt8) (n : ℕ) :
    decode ((pack bytes).map letter ++ List.replicate n '=') = bytes := by
  have hne : ∀ c ∈ (pack bytes).map letter, decide (c ≠ '=') = true := by
    intro c hc
    obtain ⟨v, hv, rfl⟩ := List.mem_map.mp hc
    exact decide_eq_true (letter_ne v (pack_lt bytes v hv)).1
  rw [decode, List.takeWhile_append_of_pos hne]
  -- the reader stops at the first padding character, however many there are
  have hpad : (List.replicate n '=').takeWhile (fun c => c ≠ '=') = [] := by
    cases n <;> simp [List.replicate_succ]
  rw [hpad, List.append_nil, filterMap_sextet (pack_lt bytes), unpack_pack]

theorem decode_encode (bytes : List UInt8) : decode (encode bytes) = bytes :=
  decode_letters bytes _

/-- The bytes of a text in UTF-8, `Buffer.from(text, 'utf8')`. -/
def utf8Bytes (text : List Char) : List UInt8 := text.flatMap String.utf8EncodeChar

/-- `Buffer.toString('utf8')`. What it makes of bytes that are not UTF-8 is left to `lossy`. -/
def utf8Text (lossy : List UInt8 → List Char) (bytes : List UInt8) : List Char :=
  match bytes.toByteArray.utf8Decode? with
  | some text => text.toList
  | none => lossy bytes

theorem utf8Text_utf8Bytes (lossy : List UInt8 → List Char) (text : List Char) :
    utf8Text lossy (utf8Bytes text) = text := by
  have hbytes : (utf8Bytes text).toByteArray = text.utf8Encode := rfl
  rw [utf8Text, hbytes, List.utf8Decode?_utf8Encode]

end HubAssist.Base64
