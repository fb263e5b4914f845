import HubAssist.BitGroups
import HubAssist.JsText

/-! Base32 as the TotpService writes and reads it. The accumulator is a 32-bit integer of JavaScript
that is never masked, so that it loses the bits that have been written. -/
namespace HubAssist.Base32
open JsText BitGroups

/-- The alphabet of RFC 4648. -/
def alphabet : JsString := utf16 "ABCDEFGHIJKLMNOPQRSTUVWXYZ234567".toList

def letter (index : ℕ) : UInt16 := alphabet.getD index 0

/-- The inner loop of `base32Encode`, from the number of bits that are pending. -/
def writeQuintets (value : BitVec 32) : ℕ → JsString → ℕ × JsString
  | k+5, output => writeQuintets value k (output ++ [letter (value >>> k &&& 31#32).toNat])
  | pending, output => (pending, output)

def encodeLoop : List UInt8 → ℕ → BitVec 32 → JsString → ℕ × BitVec 32 × JsString
  | [], pending, value, output => (pending, value, output)
  | byte :: rest, pending, value, output =>
    let value := value <<< 8 ||| BitVec.ofNat 32 byte.toNat
    let (pending, output) := writeQuintets value (pending+8) output
    encodeLoop rest pending value output

def base32Encode (buffer : List UInt8) : JsString :=
  let (pending, value, output) := encodeLoop buffer 0 0#32 []
  if 0 < pending then output ++ [letter (value <<< (5-pending) &&& 31#32).toNat] else output

/-- `String.prototype.indexOf`, where nothing stands for -1. -/
def indexOf : JsString → JsString → Option ℕ
  | [], needle => if needle = [] then some 0 else none
  | u :: rest, needle =>
    if needle.isPrefixOf (u :: rest) then some 0 else (indexOf rest needle).map (·+1)

def IsLower (u : UInt16) : Prop := 97 ≤ u.toNat ∧ u.toNat ≤ 122

def IsUpper (u : UInt16) : Prop := 65 ≤ u.toNat ∧ u.toNat ≤ 90

instance (u : UInt16) : Decidable (IsLower u) := inferInstanceAs (Decidable (_ ∧ _))

instance (u : UInt16) : Decidable (IsUpper u) := inferInstanceAs (Decidable (_ ∧ _))

/-- `toUpperCase` on single code units: what Unicode says beyond ASCII is left open. -/
structure CaseMapping where
  toUpperCase : UInt16 → JsString
  ascii : ∀ u, u.toNat < 128 → toUpperCase u = [if IsLower u then u-32 else u]

def decodeLoop (unicode : CaseMapping) :
    JsString → ℕ → BitVec 32 → List UInt8 → Except JsString (List UInt8)
  | [], _, _, output => .ok output
  | u :: rest, pending, value, output =>
    match indexOf alphabet (unicode.toUpperCase u) with
    | none => .error (utf16 "Invalid base32 character: ".toList ++ [u])
    | some index =>
      let value := value <<< 5 ||| BitVec.ofNat 32 index
      let pending := pending+5
      if 8 ≤ pending then
        decodeLoop unicode rest (pending-8) value
          (output ++ [.ofNat (value >>> (pending-8) &&& 0xff#32).toNat])
      else decodeLoop unicode rest pending value output

def base32Decode (unicode : CaseMapping) (input : JsString) : Except JsString (List UInt8) :=
  decodeLoop unicode input 0 0#32 []

/-- The bits of some bytes, the highest of each first. -/
def byteBits (bytes : List UInt8) : List Bool := bytes.flatMap fun byte => bits 8 byte.toNat

/-- The encoding of RFC 4648 without padding: a letter for each group of five bits, where the last
group is filled up with zeros. -/
def rfc4648 (bytes : List UInt8) : JsString := (groups 5 (byteBits bytes)).map letter

/-- The two are one letter, but for its case. -/
def SameLetter (u v : UInt16) : Prop :=
  u = v ∨ IsLower u ∧ v = u-32 ∨ IsLower v ∧ u = v-32

theorem letter_mem : ∀ index < 32, letter index ∈ alphabet := by decide

theorem indexOf_letter : ∀ index < 32, indexOf alphabet [letter index] = some index := by decide

theorem letter_upper : ∀ index < 32, (letter index).toNat < 128 ∧ ¬IsLower (letter index) := by
  decide

/-- The inner loop writes the full groups of what is pending, whatever follows. -/
theorem writeQuintets_eq (value : BitVec 32) (pending : ℕ) (output : JsString) :
    ∃ written, writeQuintets value pending output =
        (pending%5, output ++ written.map letter) ∧ ∀ follow,
      groups 5 (bits pending value.toNat ++ follow) =
        written ++ groups 5 (bits (pending%5) value.toNat ++ follow) := by
  induction pending using Nat.strongRecOn generalizing output with
  | ind pending ih =>
    by_cases h : 5 ≤ pending
    · obtain ⟨k, rfl⟩ := Nat.exists_eq_add_of_le' h
      obtain ⟨written, hwritten, hgroups⟩ := ih k (by omega)
        (output ++ [letter (value >>> k &&& 31#32).toNat])
      have hnumber : (value >>> k &&& 31#32).toNat = number (bits 5 (value.toNat >>> k)) :=
        toNat_pop value (n := 5) (by decide)
      have hmod : (k+5)%5 = k%5 := Nat.add_mod_right k 5
      refine ⟨(value >>> k &&& 31#32).toNat :: written, ?_, fun follow => ?_⟩
      · rw [writeQuintets, hwritten, hmod, List.map_cons, List.append_assoc]
        rfl
      · rw [Nat.add_comm k 5, bits_add, List.append_assoc,
          groups_append (by decide) (length_bits 5 _), hgroups follow, hnumber, Nat.add_comm 5 k, hmod]
        rfl
    · refine ⟨[], ?_, fun follow => ?_⟩
      · rw [Nat.mod_eq_of_lt (by omega), writeQuintets]
        · simp
        · intro k hk
          omega
      · rw [Nat.mod_eq_of_lt (by omega)]
        rfl

/-- What is pending between two bytes is less than a group, and what has been written are the
letters of the groups before it. -/
theorem encodeLoop_eq (bytes : List UInt8) (pending : ℕ) (value : BitVec 32) (output : JsString)
    (hpending : pending < 5) :
    ∃ pending' value' output', encodeLoop bytes pending value output = (pending', value', output') ∧
      pending' < 5 ∧ output ++ (groups 5 (bits pending value.toNat ++ byteBits bytes)).map letter =
        output' ++ (groups 5 (bits pending' value'.toNat)).map letter := by
  induction bytes generalizing pending value output with
  | nil =>
    refine ⟨pending, value, output, rfl, hpending, ?_⟩
    rw [byteBits, List.flatMap_nil, List.append_nil]
  | cons byte rest ih =>
    have hpush := bits_push value (k := pending) (m := 8) (W := 32) (by omega) byte.toNat_lt
    obtain ⟨written, hwritten, hgroups⟩ :=
      writeQuintets_eq (value <<< 8 ||| BitVec.ofNat 32 byte.toNat) (pending+8) output
    obtain ⟨pending', value', output', hloop, hpending', heq⟩ := ih ((pending+8)%5)
      (value <<< 8 ||| BitVec.ofNat 32 byte.toNat) (output ++ written.map letter)
      (Nat.mod_lt _ (by decide))
    refine ⟨pending', value', output', ?_, hpending', ?_⟩
    · rw [encodeLoop, hwritten]
      exact hloop
    · rw [← heq, List.append_assoc, ← List.map_append, ← hgroups, hpush, byteBits,
        List.flatMap_cons, List.append_assoc]
      rfl

theorem base32Encode_eq (bytes : List UInt8) : base32Encode bytes = rfc4648 bytes := by
  obtain ⟨pending, value, output, hloop, hpending, heq⟩ := encodeLoop_eq bytes 0 0#32 [] (by decide)
  rw [List.nil_append, bits, List.nil_append] at heq
  rw [rfc4648, heq, base32Encode, hloop]
  by_cases hpos : 0 < pending
  · -- the last letter has zeros behind what is pending
    have hfill := bits_push value (k := pending) (m := 5-pending) (v := 0) (W := 32) (by omega)
      (Nat.two_pow_pos _)
    have hlast := toNat_pop (value <<< (5-pending)) (k := 0) (n := 5) (by decide)
    have hwidth : pending+(5-pending) = 5 := by omega
    rw [hwidth, BitVec.or_zero, bits_zero] at hfill
    rw [BitVec.ushiftRight_zero, Nat.shiftRight_zero, hfill] at hlast
    rw [groups_short (by rw [length_bits]; exact hpos) (by rw [length_bits]; omega), length_bits,
      ← hlast]
    simp only [if_pos hpos]
    rfl
  · obtain rfl : pending = 0 := by omega
    rw [bits, groups_nil (by decide), List.map_nil, List.append_nil]
    rfl

variable {unicode : CaseMapping}

theorem indexOf_upper_letter {index : ℕ} (h : index < 32) :
    indexOf alphabet (unicode.toUpperCase (letter index)) = some index := by
  obtain ⟨hascii, hupper⟩ := letter_upper index h
  rw [unicode.ascii _ hascii, if_neg hupper, indexOf_letter index h]

/-- Letters of the alphabet are read up to the full bytes of their bits. -/
theorem decodeLoop_letters (indices : List ℕ) (h : ∀ index ∈ indices, index < 32) (pending : ℕ)
    (value : BitVec 32) (output : List UInt8) (hpending : pending < 8) :
    decodeLoop unicode (indices.map letter) pending value output = .ok (output ++
      (fullGroups 8 (bits pending value.toNat ++ indices.flatMap (bits 5))).map UInt8.ofNat) := by
  induction indices generalizing pending value output with
  | nil =>
    rw [List.flatMap_nil, List.append_nil, fullGroups_short (by rw [length_bits]; exact hpending),
      List.map_nil, decodeLoop, List.map_nil, List.append_nil]
  | cons index rest ih =>
    have hindex : index < 2^5 := h index List.mem_cons_self
    have hpush := bits_push value (k := pending) (m := 5) (W := 32) (by omega) hindex
    have hrest := ih fun i hi => h i (List.mem_cons_of_mem _ hi)
    rw [List.map_cons, decodeLoop, indexOf_upper_letter hindex, List.flatMap_cons,
      ← List.append_assoc, ← hpush]
    dsimp only
    split_ifs with hfull
    · -- eight bits are there, and a byte is written
      obtain ⟨left, hleft⟩ : ∃ left, pending+5 = 8+left := ⟨pending+5-8, by omega⟩
      have hpop :=
        toNat_pop (value <<< 5 ||| BitVec.ofNat 32 index) (k := left) (n := 8) (by decide)
      have hsub : pending+5-8 = left := by omega
      rw [hrest _ _ _ (by omega), hsub, hleft, bits_add, List.append_assoc (bits 8 _),
        fullGroups_append (by decide) (length_bits 8 _), ← hpop, List.map_cons,
        List.append_assoc output]
      rfl
    · rw [hrest _ _ _ (by omega)]

theorem base32Decode_rfc4648 (bytes : List UInt8) :
    base32Decode unicode (rfc4648 bytes) = .ok bytes := by
  have hindices : ∀ index ∈ groups 5 (byteBits bytes), index < 32 := fun index h =>
    lt_of_mem_groups h
  obtain ⟨pad, hpad, hbits⟩ := bits_groups (n := 5) (by decide) (byteBits bytes)
  have hnumbers : byteBits bytes = (bytes.map UInt8.toNat).flatMap (bits 8) := by
    rw [List.flatMap_map]
    rfl
  have hfit : ∀ v ∈ bytes.map UInt8.toNat, v < 2^8 := by
    intro v hv
    obtain ⟨byte, _, rfl⟩ := List.mem_map.mp hv
    exact byte.toNat_lt
  rw [base32Decode, rfc4648, decodeLoop_letters _ hindices 0 0#32 [] (by decide), hbits, bits,
    List.nil_append, List.nil_append, hnumbers, fullGroups_bits (by decide) hfit (by simp; omega),
    List.map_map]
  congr 1
  refine (List.map_congr_left fun byte _ => ?_).trans (List.map_id _)
  exact UInt8.ofNat_toNat

theorem letter_eq : ∀ index < 26, letter index = .ofNat (65+index) := by decide

/-- A lower-case letter is read as the letter 32 units before it. -/
theorem upper_of_isLower (unicode : CaseMapping) {u : UInt16} (h : IsLower u) :
    unicode.toUpperCase u = unicode.toUpperCase (u-32) ∧
      (indexOf alphabet (unicode.toUpperCase u)).isSome = true := by
  obtain ⟨hlo, hhi⟩ := h
  have hle : (32 : UInt16) ≤ u := by
    rw [UInt16.le_iff_toNat_le]
    exact Nat.le_trans (by decide) hlo
  have hsub : (u-32).toNat = u.toNat-32 := UInt16.toNat_sub_of_le u 32 hle
  have hnot : ¬IsLower (u-32) := by
    unfold IsLower
    omega
  have hindex : letter (u.toNat-97) = u-32 := by
    rw [letter_eq _ (by omega), ← UInt16.toNat_inj, UInt16.toNat_ofNat', hsub]
    omega
  rw [unicode.ascii u (by omega), unicode.ascii (u-32) (by omega), if_pos ⟨hlo, hhi⟩, if_neg hnot]
  refine ⟨rfl, ?_⟩
  rw [← hindex, indexOf_letter _ (by omega)]
  rfl

theorem upper_of_sameLetter (unicode : CaseMapping) {u v : UInt16} (h : SameLetter u v) :
    unicode.toUpperCase u = unicode.toUpperCase v ∧
      (u = v ∨ (indexOf alphabet (unicode.toUpperCase v)).isSome = true) := by
  rcases h with rfl | ⟨hlower, rfl⟩ | ⟨hlower, rfl⟩
  · exact ⟨rfl, .inl rfl⟩
  · obtain ⟨heq, hsome⟩ := upper_of_isLower unicode hlower
    exact ⟨heq, .inr (heq ▸ hsome)⟩
  · obtain ⟨heq, hsome⟩ := upper_of_isLower unicode hlower
    exact ⟨heq.symm, .inr hsome⟩

theorem decodeLoop_sameLetter {input input' : JsString} (h : List.Forall₂ SameLetter input input')
    (pending : ℕ) (value : BitVec 32) (output : List UInt8) :
    decodeLoop unicode input pending value output =
      decodeLoop unicode input' pending value output := by
  induction h generalizing pending value output with
  | nil => rfl
  | cons hletter _ ih =>
    obtain ⟨hupper, hcase⟩ := upper_of_sameLetter unicode hletter
    rw [decodeLoop, decodeLoop, hupper]
    cases hindex : indexOf alphabet (unicode.toUpperCase _) with
    | none =>
      -- only what is no letter is refused, with itself in the message
      rcases hcase with rfl | hsome
      · rfl
      · simp [hindex] at hsome
    | some index =>
      dsimp only
      split_ifs
      · exact ih _ _ _
      · exact ih _ _ _

/-- There is a letter for every five bits. -/
theorem length_base32Encode (bytes : List UInt8) :
    (base32Encode bytes).length = (8*bytes.length+4)/5 := by
  have hbits : (byteBits bytes).length = 8*bytes.length := by
    simp [byteBits, List.length_flatMap, Nat.mul_comm]
  rw [base32Encode_eq, rfc4648, List.length_map, length_groups, hbits]

/-- Bytes are read back from their encoding, which is that of RFC 4648 without padding and has a
letter of the alphabet for every five bits; and reading does not depend on the case of letters. -/
theorem base32_round_trip (unicode : CaseMapping) (bytes : List UInt8) :
    base32Decode unicode (base32Encode bytes) = .ok bytes ∧
      (base32Encode bytes).length = (8*bytes.length+4)/5 ∧
      (∀ u ∈ base32Encode bytes, u ∈ alphabet) ∧
      base32Encode bytes = rfc4648 bytes ∧
      ∀ input input', List.Forall₂ SameLetter input input' →
        base32Decode unicode input = base32Decode unicode input' := by
  refine ⟨?_, length_base32Encode bytes, fun u hu => ?_, base32Encode_eq bytes,
    fun input input' h => decodeLoop_sameLetter h 0 0#32 []⟩
  · rw [base32Encode_eq]
    exact base32Decode_rfc4648 bytes
  · rw [base32Encode_eq] at hu
    obtain ⟨index, hindex, rfl⟩ := List.mem_map.mp hu
    exact letter_mem index (lt_of_mem_groups hindex)

end HubAssist.Base32
