import HubAssist.BracketedText
import HubAssist.NumberText

/-! `sanitizeStringValue`, which trims a string, removes its tags and normalizes what is left. -/
namespace HubAssist.SanitizeString
open JsText DecimalText NumberText BracketedText

def IsAscii (s : JsString) : Prop := ∀ u ∈ s, u.toNat < 128

instance (s : JsString) : Decidable (IsAscii s) :=
  List.decidableBAll (fun u : UInt16 => u.toNat < 128) s

/-- `normalize('NFC')`, of which only this is used: ASCII is in this form. -/
structure Normalization where
  nfc : JsString → JsString
  ascii : ∀ s, IsAscii s → nfc s = s

/-- `replace(/<[^>]*>/g, '')`. -/
def stripTags (s : JsString) : JsString := strip 60 62 s

def sanitizeStringValue (unicode : Normalization) (value : JsString) : JsString :=
  unicode.nfc (stripTags (trim value))

/-- No white space stands at either end. -/
def Trimmed (s : JsString) : Prop :=
  (∀ u ∈ s.head?, isWhite u = false) ∧ ∀ u ∈ s.getLast?, isWhite u = false

instance (s : JsString) : Decidable (Trimmed s) :=
  decidable_of_iff (s.head?.all (!isWhite ·) = true ∧ s.getLast?.all (!isWhite ·) = true) <| by
    rw [Option.all_eq_true, Option.all_eq_true]
    simp [Trimmed]

/-- Sanitizing a second time changes nothing, no white space is left at the ends, and no tag. -/
def Sanitary (unicode : Normalization) (value : JsString) : Prop :=
  sanitizeStringValue unicode (sanitizeStringValue unicode value) =
      sanitizeStringValue unicode value ∧
    Trimmed (sanitizeStringValue unicode value) ∧
    NoPiece 60 62 (sanitizeStringValue unicode value)

/-- White space comes to an end of the string when the tags at this end are removed. -/
def ExposesSpace (s : JsString) : Prop :=
  ComesToFront 60 62 (isWhite · = true) s ∨ ComesToEnd 60 62 (isWhite · = true) s

theorem trimmed_trim (s : JsString) : Trimmed (trim s) := by
  constructor
  · intro u hu
    -- what is dropped at the end leaves the first unit
    obtain ⟨rest, hrest⟩ : trim s <+: s.dropWhile isWhite := List.rdropWhile_prefix _ _
    apply head_dropWhile s
    rw [← hrest, List.head?_append, Option.mem_def.mp hu]
    rfl
  · intro u hu
    obtain ⟨hsome, rfl⟩ := List.mem_getLast?_eq_getLast hu
    exact eq_false_of_ne_true (List.rdropWhile_last_not isWhite _ hsome)

theorem trimmed_stripTags_iff {s : JsString} (h : Trimmed s) :
    Trimmed (stripTags s) ↔ ¬ExposesSpace s := by
  have hopening : ¬isWhite 60 = true := by decide
  have hhead : (∃ u ∈ (stripTags s).head?, isWhite u = true) ↔ _ :=
    head_strip_iff hopening fun u hu => ne_true_of_eq_false (h.1 u hu)
  have hlast : (∃ u ∈ (stripTags s).getLast?, isWhite u = true) ↔ _ :=
    last_strip_iff hopening fun u hu => ne_true_of_eq_false (h.2 u hu)
  rw [ExposesSpace, ← hhead, ← hlast, not_or, Trimmed]
  simp

theorem isAscii_stripTags_trim {s : JsString} (h : IsAscii s) : IsAscii (stripTags (trim s)) := by
  intro u hu
  have htrim : u ∈ trim s := mem_of_mem_stripFrom hu
  have hfront : u ∈ s.dropWhile isWhite := (List.rdropWhile_prefix _ _).subset htrim
  exact h u ((List.dropWhile_suffix _).subset hfront)

theorem sanitizeStringValue_eq (unicode : Normalization) {s : JsString} (h : IsAscii s) :
    sanitizeStringValue unicode s = stripTags (trim s) :=
  unicode.ascii _ (isAscii_stripTags_trim h)

/-- What is trimmed and has no tag is left as it is. -/
theorem sanitizeStringValue_of_trimmed (unicode : Normalization) {s : JsString} (h : IsAscii s)
    (htrimmed : Trimmed s) (hnone : NoPiece 60 62 s) : sanitizeStringValue unicode s = s := by
  rw [sanitizeStringValue_eq unicode h, trim_eq_self htrimmed.1 htrimmed.2]
  exact hnone.strip_eq

/-- A sanitized string is sanitary exactly when no tag at an end has hidden white space. -/
theorem sanitary_iff (unicode : Normalization) {s : JsString} (h : IsAscii s) :
    Sanitary unicode s ↔ ¬ExposesSpace (trim s) := by
  have hascii := isAscii_stripTags_trim h
  have htrim := trimmed_stripTags_iff (trimmed_trim s)
  have hnone : NoPiece 60 62 (stripTags (trim s)) := noPiece_strip (by decide) (trim s)
  rw [Sanitary, sanitizeStringValue_eq unicode h]
  constructor
  · rintro ⟨_, htrimmed, _⟩
    exact htrim.mp htrimmed
  · intro hhidden
    have htrimmed := htrim.mpr hhidden
    exact ⟨sanitizeStringValue_of_trimmed unicode hascii htrimmed hnone, htrimmed, hnone⟩

/-- A normalization that changes nothing. -/
def plain : Normalization := ⟨id, fun _ _ => rfl⟩

example : sanitizeStringValue plain (utf16 "  <div>  Test  </div>  ".toList) =
    utf16 "  Test  ".toList := by decide

/-- The tags hide the spaces from `trim`, which are at the ends afterwards. -/
theorem spaces_exposed : ¬∀ (unicode : Normalization) (s : JsString), IsAscii s →
    Sanitary unicode s := by
  intro hall
  have hascii : IsAscii (utf16 "  <div>  Test  </div>  ".toList) := by decide
  have htrimmed := (hall plain _ hascii).2.1.1 32 (by decide)
  exact absurd htrimmed (by decide)

theorem sanitary_bold : Sanitary plain (utf16 "  <b>bold</b> ".toList) := by
  have hascii : IsAscii (utf16 "  <b>bold</b> ".toList) := by decide
  apply (sanitary_iff plain hascii).mpr
  apply (trimmed_stripTags_iff (trimmed_trim _)).mp
  decide

end HubAssist.SanitizeString
