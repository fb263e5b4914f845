import HubAssist.Base64
import HubAssist.JsonText
import HubAssist.NodeRuntime
import Mathlib.Data.List.DropRight

/-! Page cursors: a time and an id as JSON, in the URL-safe base64 without padding. -/
namespace HubAssist.CursorUtil
open JsText JsonText Base64 NodeRuntime

structure CursorPayload where
  timestamp : JsString
  id : JsString
  deriving DecidableEq

inductive CursorError where
  | cannotDecode
  | missingFields
  deriving DecidableEq

def CursorError.message : CursorError → String
  | .cannotDecode => "Invalid cursor token: cannot decode"
  | .missingFields => "Invalid cursor token: missing required fields"

def field (name : String) : JsString := utf16 name.toList

def urlSafe (c : Char) : Char := if c = '+' then '-' else if c = '/' then '_' else c

def standard (c : Char) : Char := if c = '-' then '+' else if c = '_' then '/' else c

def encodeCursor (payload : CursorPayload) : String :=
  let json := stringify [(field "timestamp", payload.timestamp), (field "id", payload.id)]
  String.ofList (((encode (utf8Bytes json)).map urlSafe).rdropWhile fun c => c = '=')

def decodeCursor (runtime : Runtime) (cursor : String) : Except CursorError CursorPayload :=
  -- the padding that `encodeCursor` has cut off is put back
  let base64 := cursor.toList.map standard
  let padded := base64 ++ List.replicate ((4-(utf16 base64).length%4)%4) '='
  match parse (utf8Text runtime.lossy (decode padded)) with
  | none => .error .cannotDecode
  | some parsed =>
    match parsed.get (field "timestamp"), parsed.get (field "id") with
    | some (.string timestamp), some (.string id) => .ok ⟨timestamp, id⟩
    | _, _ => .error .missingFields

/-- The trailing padding goes, and nothing else. -/
theorem rdropWhile_padding {text : List Char} (h : '=' ∉ text) (n : ℕ) :
    (text ++ List.replicate n '=').rdropWhile (fun c => c = '=') = text := by
  induction n with
  | zero =>
    rw [List.replicate_zero, List.append_nil, List.rdropWhile_eq_self_iff]
    intro hne hlast
    exact h (of_decide_eq_true hlast ▸ List.getLast_mem hne)
  | succ n ih =>
    rw [List.replicate_succ', ← List.append_assoc, List.rdropWhile_concat_pos _ _ _ rfl, ih]

theorem standard_urlSafe {v : ℕ} (hv : v < 64) : standard (urlSafe (letter v)) = letter v := by
  obtain ⟨_, hminus, hunder⟩ := letter_ne v hv
  unfold urlSafe
  split_ifs with hplus hslash
  · exact hplus.symm
  · exact hslash.symm
  · rw [standard, if_neg hminus, if_neg hunder]

theorem urlSafe_ne_pad {v : ℕ} (hv : v < 64) : urlSafe (letter v) ≠ '=' := by
  unfold urlSafe
  split_ifs
  · decide
  · decide
  · exact (letter_ne v hv).1

/-- The characters of a cursor: the letters of the bytes, in the URL-safe alphabet. -/
theorem toList_encodeCursor (payload : CursorPayload) :
    (encodeCursor payload).toList = (pack (utf8Bytes (stringify
      [(field "timestamp", payload.timestamp), (field "id", payload.id)]))).map
        fun v => urlSafe (letter v) := by
  have hpad (n : ℕ) : (List.replicate n '=').map urlSafe = List.replicate n '=' := by
    rw [List.map_replicate]
    rfl
  rw [encodeCursor, String.toList_ofList, encode, padding, List.map_append, hpad, List.map_map]
  refine rdropWhile_padding ?_ _
  intro hmem
  obtain ⟨v, hv, heq⟩ := List.mem_map.mp hmem
  exact urlSafe_ne_pad (pack_lt _ v hv) heq

/-- A cursor is decoded to the payload it was made of. -/
theorem decodeCursor_encodeCursor (runtime : Runtime) (payload : CursorPayload) :
    decodeCursor runtime (encodeCursor payload) = .ok payload := by
  have hstandard (bytes : List UInt8) :
      ((pack bytes).map fun v => urlSafe (letter v)).map standard = (pack bytes).map letter := by
    rw [List.map_map]
    exact List.map_congr_left fun v hv => standard_urlSafe (pack_lt bytes v hv)
  -- the members are told apart by their names
  have hid : field "timestamp" ≠ field "id" := by decide
  simp only [decodeCursor, toList_encodeCursor, hstandard, decode_letters, utf8Text_utf8Bytes]
  rw [parse_stringify (by simp)]
  simp [JsonTree.get, asTrees, List.lookup_cons, beq_false_of_ne hid]

theorem encodeCursor_ne_empty (payload : CursorPayload) : encodeCursor payload ≠ "" := by
  intro h
  have hdecode := decodeCursor_encodeCursor ⟨fun _ => [], fun _ => none⟩ payload
  have hempty : utf8Text (fun _ => []) (decode []) = [] := utf8Text_utf8Bytes _ []
  rw [h] at hdecode
  simp [decodeCursor, utf16, hempty, parse, readValue, skipSpace, readNumber, skipInteger,
    skipDigits] at hdecode

end HubAssist.CursorUtil
