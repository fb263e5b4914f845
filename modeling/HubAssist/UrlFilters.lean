import HubAssist.KeyedTable
import HubAssist.NumberText

/-! The filters of a page in its URL: the codecs of the values, and the hook that writes filters to
the search params and reads them from there, behind defaults that are never written. -/
namespace HubAssist.UrlFilters
open JsText Binary64 NumberText KeyedTable

/-- A value of a filter as it is at run time. -/
inductive Value where
  | string (text : JsString)
  | boolean (b : Bool)
  | number (reading : Reading)
  | null

def sameNumber : Reading → Reading → Bool
  | .finite x, .finite y => x.value = y.value
  | .infinite a, .infinite b => a = b
  | _, _ => false

/-- `a === b`: the zeros are the same, and what is not a number is no number. -/
def strictEq : Value → Value → Bool
  | .string a, .string b => a = b
  | .boolean a, .boolean b => a = b
  | .number a, .number b => sameNumber a b
  | .null, .null => true
  | _, _ => false

def trueText : JsString := utf16 "true".toList

def falseText : JsString := utf16 "false".toList

/-- `String(value)`. -/
def Value.toText : Value → JsString
  | .string text => text
  | .boolean b => if b then trueText else falseText
  | .number (.finite x) => numberToString x
  | .number (.infinite negative) => (if negative then [45] else []) ++ infinityText
  | .number .nan => utf16 "NaN".toList
  | .null => utf16 "null".toList

structure FilterCodec where
  parse : JsString → Option Value
  serialize : Value → JsString

def enumCodec (allowed : List JsString) : FilterCodec where
  parse raw := if raw ∈ allowed then some (.string raw) else none
  -- the search params write a string of what they are given
  serialize := Value.toText

def booleanCodec : FilterCodec where
  parse raw :=
    if raw = trueText then some (.boolean true)
    else if raw = falseText then some (.boolean false)
    else none
  serialize := Value.toText

def numberCodec : FilterCodec where
  parse raw :=
    match toNumber raw with
    | .finite x => some (.number (.finite x))
    | _ => none
  serialize := Value.toText

def stringCodec : FilterCodec where
  parse raw := if 0 < raw.length then some (.string raw) else none
  serialize := Value.toText

/-- The codecs there are. -/
inductive CodecKind where
  | enum (allowed : List JsString)
  | boolean
  | number
  | string

def CodecKind.codec : CodecKind → FilterCodec
  | .enum allowed => enumCodec allowed
  | .boolean => booleanCodec
  | .number => numberCodec
  | .string => stringCodec

/-- The values of a codec's type. -/
def CodecKind.Has : CodecKind → Value → Prop
  | .enum allowed, v => ∃ text ∈ allowed, v = .string text
  | .boolean, v => ∃ b, v = .boolean b
  | .number, v => ∃ x, v = .number (.finite x)
  | .string, v => ∃ text, v = .string text

/-- The codecs by the keys of an object. -/
structure FilterSchema where
  entries : List (JsString × CodecKind)
  distinct : Keyed Prod.fst entries

/-- An object of filters. A key without a value is undefined. -/
abbrev Filters := JsString → Option Value

def FilterSchema.Typed (schema : FilterSchema) (f : Filters) : Prop :=
  ∀ entry ∈ schema.entries, ∀ v ∈ f entry.1, entry.2.Has v

/-- Search params as pairs, which a URL carries without a change. -/
abbrev SearchParams := List (JsString × JsString)

/-- The first value of a key. -/
def SearchParams.get (params : SearchParams) (key : JsString) : Option JsString :=
  (findRow Prod.fst params key).map Prod.snd

/-- The first pair of a key gets the value, and the others go. -/
def SearchParams.set : SearchParams → JsString → JsString → SearchParams
  | [], key, value => [(key, value)]
  | p :: rest, key, value =>
    if p.1 = key then (key, value) :: rest.filter (·.1 ≠ key)
    else p :: SearchParams.set rest key value

/-- A number without the sign of zero. -/
def Value.unsigned : Value → Value
  | .number (.finite x) => .number (.finite (if x.magnitude = 0 then positiveZero else x))
  | v => v

/-- What the URL keeps of a filter: no value where there is no default, a value that equals the
default where it is the default, and any other but the empty string and the negative zero. -/
def Survives (default : Option Value) : Option Value → Prop
  | none => default = none
  | some v =>
    if default.any (strictEq v) then default = some v
    else v ≠ .string [] ∧ v ≠ .number (.finite negativeZero)

variable (schema : FilterSchema) (defaultFilters : Filters)

/-- The filters that are read from search params. -/
def filters (searchParams : SearchParams) : Filters :=
  schema.entries.foldl (fun result entry =>
    match searchParams.get entry.1 with
    | none => result
    | some raw =>
      if raw = [] then result
      else
        match entry.2.codec.parse raw with
        | some parsed => Function.update result entry.1 (some parsed)
        | none => result) defaultFilters

/-- The search params that filters are written to. -/
def setFilters (next : Filters) : SearchParams :=
  schema.entries.foldl (fun params entry =>
    match next entry.1 with
    | none => params
    | some value =>
      if (defaultFilters entry.1).any (strictEq value) then params
      else params.set entry.1 (entry.2.codec.serialize value)) []

theorem get_set (params : SearchParams) (key value k : JsString) :
    (params.set key value).get k = if k = key then some value else params.get k := by
  simp only [SearchParams.get, findRow]
  induction params with
  | nil =>
    by_cases h : k = key
    · simp [SearchParams.set, h]
    · simp [SearchParams.set, h, Ne.symm h]
  | cons p rest ih =>
    by_cases hp : p.1 = key
    · rw [SearchParams.set, if_pos hp]
      by_cases h : k = key
      · simp [h]
      · -- neither the pair that is replaced nor those that go have the key
        have hrest : (rest.filter (·.1 ≠ key)).find? (fun q => q.1 = k) =
            rest.find? (fun q => q.1 = k) := by
          rw [List.find?_filter]
          apply List.find?_congr
          intro q _
          by_cases hq : q.1 = k
          · simp [hq, h]
          · simp [hq]
        rw [List.find?_cons_of_neg (by simpa using Ne.symm h), hrest,
          List.find?_cons_of_neg (by simpa [hp] using Ne.symm h), if_neg h]
    · rw [SearchParams.set, if_neg hp]
      by_cases hk : p.1 = k
      · have hne : k ≠ key := hk ▸ hp
        simp [hk, hne]
      · simpa [hk] using ih

/-- What a parameter is read as, where it has a value of the codec. -/
def readParam (codec : FilterCodec) (raw : Option JsString) : Option Value :=
  raw.bind fun raw => if raw = [] then none else codec.parse raw

/-- What is written of a value, where it is neither undefined nor the default. -/
def writeParam (codec : FilterCodec) (default value : Option Value) : Option JsString :=
  value.bind fun v => if default.any (strictEq v) then none else some (codec.serialize v)

variable {schema defaultFilters}

theorem filters_apply {entry : JsString × CodecKind} (h : entry ∈ schema.entries)
    (searchParams : SearchParams) : filters schema defaultFilters searchParams entry.1 =
      (readParam entry.2.codec (searchParams.get entry.1)).or (defaultFilters entry.1) := by
  rw [filters]
  apply schema.distinct.observe_foldl (fun (f : Filters) key => f key)
    (fun e old => (readParam e.2.codec (searchParams.get e.1)).or old) _ _ h
  · -- at the key of the entry: missing, empty, invalid, or parsed
    intro f e
    cases hget : searchParams.get e.1 with
    | none => simp [readParam]
    | some raw =>
      by_cases hempty : raw = []
      · simp [readParam, hempty]
      · cases hparse : e.2.codec.parse raw with
        | none => simp [readParam, hempty, hparse]
        | some parsed => simp [readParam, hempty, hparse]
  · intro f e k hne
    cases searchParams.get e.1 with
    | none => rfl
    | some raw =>
      by_cases hempty : raw = []
      · simp [hempty]
      · cases hparse : e.2.codec.parse raw with
        | none => simp [hempty, hparse]
        | some parsed => simp [hempty, hparse, hne]

theorem get_setFilters {entry : JsString × CodecKind} (h : entry ∈ schema.entries)
    (next : Filters) : (setFilters schema defaultFilters next).get entry.1 =
      writeParam entry.2.codec (defaultFilters entry.1) (next entry.1) := by
  have hget : (setFilters schema defaultFilters next).get entry.1 =
      (writeParam entry.2.codec (defaultFilters entry.1) (next entry.1)).or
        (SearchParams.get [] entry.1) := by
    rw [setFilters]
    apply schema.distinct.observe_foldl SearchParams.get
      (fun e old => (writeParam e.2.codec (defaultFilters e.1) (next e.1)).or old) _ _ h
    · intro params e
      cases hnext : next e.1 with
      | none => simp [writeParam]
      | some v =>
        by_cases hdefault : (defaultFilters e.1).any (strictEq v) = true
        · simp [writeParam, hdefault]
        · simp [writeParam, hdefault, get_set]
    · intro params e k hne
      cases hnext : next e.1 with
      | none => rfl
      | some v =>
        by_cases hdefault : (defaultFilters e.1).any (strictEq v) = true
        · simp [hdefault]
        · simp [hdefault, get_set, hne]
  rw [hget]
  exact Option.or_none

theorem unsigned_eq_self (v : Value) : v.unsigned = v ↔ v ≠ .number (.finite negativeZero) := by
  match v with
  | .string _ => simp [Value.unsigned]
  | .boolean _ => simp [Value.unsigned]
  | .null => simp [Value.unsigned]
  | .number (.infinite _) => simp [Value.unsigned]
  | .number .nan => simp [Value.unsigned]
  | .number (.finite x) =>
    simp only [Value.unsigned, ne_eq, Value.number.injEq, Reading.finite.injEq]
    split_ifs with hzero
    · cases hsign : x.negative with
      | false =>
        have hx : positiveZero = x := Number.ext hsign.symm hzero.symm
        simp [← hx, positiveZero, negativeZero]
      | true =>
        have hx : negativeZero = x := Number.ext hsign.symm hzero.symm
        simp [← hx, positiveZero, negativeZero]
    · have hne : x ≠ negativeZero := fun hx => hzero (hx ▸ rfl)
      simp [hne]

/-- A codec parses what it has written, but for the sign of zero. An empty parameter is missing. -/
theorem readParam_toText {kind : CodecKind} {v : Value} (h : kind.Has v) :
    v = .string [] ∧ readParam kind.codec (some v.toText) = none ∨
      v ≠ .string [] ∧ readParam kind.codec (some v.toText) = some v.unsigned := by
  simp only [readParam, Option.bind_some]
  cases kind with
  | enum allowed =>
    obtain ⟨text, hmem, rfl⟩ := h
    by_cases hempty : text = []
    · exact .inl ⟨congrArg _ hempty, if_pos hempty⟩
    · refine .inr ⟨by simp [hempty], ?_⟩
      simp [Value.toText, hempty, CodecKind.codec, enumCodec, hmem, Value.unsigned]
  | string =>
    obtain ⟨text, rfl⟩ := h
    by_cases hempty : text = []
    · exact .inl ⟨congrArg _ hempty, if_pos hempty⟩
    · refine .inr ⟨by simp [hempty], ?_⟩
      simp [Value.toText, hempty, CodecKind.codec, stringCodec, Value.unsigned,
        List.length_pos_iff]
  | boolean =>
    obtain ⟨b, rfl⟩ := h
    right
    cases b with
    | false => exact ⟨by simp, rfl⟩
    | true => exact ⟨by simp, rfl⟩
  | number =>
    obtain ⟨x, rfl⟩ := h
    refine .inr ⟨by simp, ?_⟩
    have hread := toNumber_numberToString x
    simp [Value.toText, numberToString_ne_nil, CodecKind.codec, numberCodec, hread, Value.unsigned]

theorem strictEq_empty : strictEq (.string []) (.string []) = true := by
  simp [strictEq]

/-- What filters become that are written and read again. -/
theorem filters_setFilters (defaultFilters : Filters) {f : Filters} (h : schema.Typed f)
    {entry : JsString × CodecKind} (hentry : entry ∈ schema.entries) :
    (filters schema defaultFilters (setFilters schema defaultFilters f) entry.1 = f entry.1 ↔
      Survives (defaultFilters entry.1) (f entry.1)) ∧
    (filters schema defaultFilters (setFilters schema defaultFilters f) entry.1 =
        defaultFilters entry.1 ∨
      filters schema defaultFilters (setFilters schema defaultFilters f) entry.1 =
        (f entry.1).map Value.unsigned) := by
  rw [filters_apply hentry, get_setFilters hentry]
  have htyped := h entry hentry
  generalize defaultFilters entry.1 = default
  cases hvalue : f entry.1 with
  | none => exact ⟨Iff.rfl, .inl rfl⟩
  | some v =>
    have hparse := readParam_toText (htyped v hvalue)
    have hserialize : entry.2.codec.serialize v = v.toText := by
      cases entry.2 <;> rfl
    by_cases hdefault : default.any (strictEq v) = true
    · -- the value is left out, and the default stands for it
      have hwrite : writeParam entry.2.codec default (some v) = none := by
        simp [writeParam, hdefault]
      rw [hwrite, Survives, if_pos hdefault]
      exact ⟨Iff.rfl, .inl rfl⟩
    · have hwrite : writeParam entry.2.codec default (some v) = some v.toText := by
        simp [writeParam, hdefault, hserialize]
      rw [hwrite, Survives, if_neg hdefault]
      rcases hparse with ⟨hempty, hread⟩ | ⟨hsome, hread⟩
      · -- an empty string is read as if it were missing
        have hne : default ≠ some v := by
          rintro rfl
          rw [hempty] at hdefault
          exact hdefault strictEq_empty
        rw [hread, Option.none_or]
        exact ⟨iff_of_false hne fun hkept => hkept.1 hempty, .inl rfl⟩
      · rw [hread, Option.some_or, Option.some_inj, unsigned_eq_self]
        exact ⟨⟨fun hsign => ⟨hsome, hsign⟩, fun hkept => hkept.2⟩, .inr rfl⟩

/-- The two types of a workspace, of which the first is the default. -/
def officeOrDesk : FilterSchema :=
  ⟨[(utf16 "type".toList, .enum [utf16 "office".toList, utf16 "desk".toList])],
    List.nodup_singleton _⟩

def officeByDefault : Filters := fun key =>
  if key = utf16 "type".toList then some (.string (utf16 "office".toList)) else none

def deskOnly : Filters := fun key =>
  if key = utf16 "type".toList then some (.string (utf16 "desk".toList)) else none

/-- An undefined filter comes back as its default. -/
theorem undefined_comes_back_default :
    ¬∀ (schema : FilterSchema) (defaultFilters f : Filters), schema.Typed f →
      ∀ entry ∈ schema.entries,
        filters schema defaultFilters (setFilters schema defaultFilters f) entry.1 = f entry.1 := by
  intro hall
  have htyped : officeOrDesk.Typed fun _ => none := fun entry _ v hv => by cases hv
  have hback := hall officeOrDesk officeByDefault (fun _ => none) htyped _ List.mem_cons_self
  have hdefault : filters officeOrDesk officeByDefault
      (setFilters officeOrDesk officeByDefault fun _ => none) (utf16 "type".toList) =
        some (.string (utf16 "office".toList)) := rfl
  rw [hdefault] at hback
  cases hback

theorem desk_comes_back :
    filters officeOrDesk officeByDefault (setFilters officeOrDesk officeByDefault deskOnly)
      (utf16 "type".toList) = some (.string (utf16 "desk".toList)) := by
  have htyped : officeOrDesk.Typed deskOnly := by
    intro entry hentry v hv
    obtain rfl := List.mem_singleton.mp hentry
    obtain rfl := Option.some.inj hv
    exact ⟨_, List.mem_cons_of_mem _ List.mem_cons_self, rfl⟩
  have hback := filters_setFilters officeByDefault htyped List.mem_cons_self
  have hsurvives : Survives (some (.string (utf16 "office".toList)))
      (some (.string (utf16 "desk".toList))) := by
    rw [Survives, if_neg (by decide)]
    exact ⟨by simp [utf16, charUnits], by simp⟩
  exact hback.1.mpr hsurvives

end HubAssist.UrlFilters
