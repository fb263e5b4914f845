import HubAssist.JsonText
import HubAssist.SanitizeString

/-! The global sanitization pipe: which strings of a body it reaches. -/
namespace HubAssist.SanitizationPipe
open JsText JsonText SanitizeString

/-- The properties that a class or its ancestors mark with `@NoSanitize`. -/
abbrev Metatype := JsString → Bool

def isNoSanitize (metatype : Option Metatype) (propertyKey : JsString) : Bool :=
  match metatype with
  | some marked => marked propertyKey
  | none => false

variable (unicode : Normalization)

mutual

/-- The properties one by one, which are assigned in place. -/
def sanitizeObject (metatype : Option Metatype) :
    List (JsString × JsonTree) → List (JsString × JsonTree)
  | [] => []
  | (key, fieldValue) :: rest =>
    (key, sanitizeField metatype key fieldValue) :: sanitizeObject metatype rest

def sanitizeField (metatype : Option Metatype) (key : JsString) : JsonTree → JsonTree
  -- a nested object has no class
  | .object members => .object (sanitizeObject none members)
  | .string fieldValue =>
    if isNoSanitize metatype key then .string fieldValue
    else .string (sanitizeStringValue unicode fieldValue)
  | fieldValue => fieldValue

end

/-- The pipe looks into objects only. -/
def transform (metatype : Option Metatype) : JsonTree → JsonTree
  | .object members => .object (sanitizeObject unicode metatype members)
  | value => value

/-- A step from a value into it. -/
inductive Step where
  | key (name : JsString)
  | index (i : ℕ)

def child (tree : JsonTree) : Step → Option JsonTree
  | .key name => tree.get name
  | .index i =>
    match tree with
    | .array items => items[i]?
    | _ => none

def locate (tree : JsonTree) : List Step → Option JsonTree
  | [] => some tree
  | step :: path => (child tree step).bind fun value => locate value path

mutual

/-- The keys, lengths and order of a value, with what is no string in it. -/
def shape : JsonTree → JsonTree
  | .string _ => .string []
  | .array items => .array (shapes items)
  | .object members => .object (memberShapes members)
  | tree => tree

def shapes : List JsonTree → List JsonTree
  | [] => []
  | item :: items => shape item :: shapes items

def memberShapes : List (JsString × JsonTree) → List (JsString × JsonTree)
  | [] => []
  | (key, value) :: members => (key, shape value) :: memberShapes members

end

/-- What the pipe makes of a value. Strings that are reached through objects are sanitized, marked
ones at the top aside, and arrays are left as they are. -/
structure Sanitizes (metatype : Option Metatype) (value result : JsonTree) : Prop where
  shape_eq : shape result = shape value
  strings : ∀ name names s, locate value ((name :: names).map .key) = some (.string s) →
    isNoSanitize metatype name = false →
      locate result ((name :: names).map .key) = some (.string (sanitizeStringValue unicode s))
  marked : ∀ name s, locate value [.key name] = some (.string s) →
    isNoSanitize metatype name = true → locate result [.key name] = some (.string s)
  arrays : ∀ path, (∃ i, .index i ∈ path) → locate result path = locate value path

mutual

theorem shape_sanitizeField (metatype : Option Metatype) (key : JsString) (value : JsonTree) :
    shape (sanitizeField unicode metatype key value) = shape value := by
  match value with
  | .object members =>
    rw [sanitizeField, shape, shape, memberShapes_sanitizeObject none members]
  | .string s =>
    rw [sanitizeField]
    split_ifs <;> simp only [shape]
  | .null => rfl
  | .bool _ => rfl
  | .number _ => rfl
  | .array _ => rfl

theorem memberShapes_sanitizeObject (metatype : Option Metatype)
    (members : List (JsString × JsonTree)) :
    memberShapes (sanitizeObject unicode metatype members) = memberShapes members := by
  match members with
  | [] => rfl
  | (key, value) :: rest =>
    rw [sanitizeObject, memberShapes, memberShapes, shape_sanitizeField metatype key value,
      memberShapes_sanitizeObject metatype rest]

end

theorem lookup_map (f : JsString → JsonTree → JsonTree) (name : JsString)
    (members : List (JsString × JsonTree)) :
    (members.map fun m => (m.1, f m.1 m.2)).lookup name = (members.lookup name).map (f name) := by
  induction members with
  | nil => rfl
  | cons m members ih =>
    rw [List.map_cons, List.lookup_cons, List.lookup_cons]
    cases hname : name == m.1 with
    | true =>
      obtain rfl := eq_of_beq hname
      rfl
    | false => exact ih

theorem sanitizeObject_eq_map (metatype : Option Metatype) (members : List (JsString × JsonTree)) :
    sanitizeObject unicode metatype members =
      members.map fun m => (m.1, sanitizeField unicode metatype m.1 m.2) := by
  induction members with
  | nil => rfl
  | cons m members ih => rw [sanitizeObject, ih, List.map_cons]

/-- Every property is sanitized under its own name. -/
theorem get_sanitizeObject (metatype : Option Metatype) (members : List (JsString × JsonTree))
    (name : JsString) : (JsonTree.object (sanitizeObject unicode metatype members)).get name =
      ((JsonTree.object members).get name).map (sanitizeField unicode metatype name) := by
  simp only [JsonTree.get]
  rw [sanitizeObject_eq_map, ← List.map_reverse, lookup_map]

theorem locate_sanitizeObject (metatype : Option Metatype) (members : List (JsString × JsonTree))
    (name : JsString) (path : List Step) :
    locate (.object (sanitizeObject unicode metatype members)) (.key name :: path) =
      ((JsonTree.object members).get name).bind fun value =>
        locate (sanitizeField unicode metatype name value) path := by
  rw [locate, child, get_sanitizeObject]
  cases (JsonTree.object members).get name <;> rfl

theorem locate_key (tree : JsonTree) (name : JsString) :
    locate tree [.key name] = tree.get name := by
  rw [locate, child]
  cases tree.get name <;> rfl

/-- A step into what is no container leads nowhere. -/
theorem locate_cons_string (s : JsString) (step : Step) (path : List Step) :
    locate (.string s) (step :: path) = none := by
  cases step <;> rfl

/-- The strings of a nested object are sanitized wherever it stands. -/
theorem strings_sanitizeObject (metatype : Option Metatype) (members : List (JsString × JsonTree))
    (name : JsString) (names : List JsString) (s : JsString)
    (h : locate (.object members) ((name :: names).map .key) = some (.string s))
    (hmarked : isNoSanitize metatype name = false) :
    locate (.object (sanitizeObject unicode metatype members)) ((name :: names).map .key) =
      some (.string (sanitizeStringValue unicode s)) := by
  induction names generalizing metatype members name with
  | nil =>
    rw [List.map_cons, List.map_nil, locate_key] at h
    rw [List.map_cons, List.map_nil, locate_key, get_sanitizeObject, h, Option.map_some,
      sanitizeField, hmarked, if_neg Bool.false_ne_true]
  | cons next names ih =>
    rw [List.map_cons, locate, child] at h
    rw [List.map_cons, locate_sanitizeObject]
    obtain ⟨value, hvalue, hrest⟩ := Option.bind_eq_some_iff.mp h
    rw [hvalue, Option.bind_some]
    match value with
    | .object inner =>
      rw [sanitizeField]
      exact ih none inner next hrest rfl
    | .string _ =>
      rw [List.map_cons, locate_cons_string] at hrest
      cases hrest
    | .null => cases hrest
    | .bool _ => cases hrest
    | .number _ => cases hrest
    | .array _ => cases hrest

theorem marked_sanitizeObject {metatype : Option Metatype} {members : List (JsString × JsonTree)}
    {name s : JsString} (h : locate (.object members) [.key name] = some (.string s))
    (hmarked : isNoSanitize metatype name = true) :
    locate (.object (sanitizeObject unicode metatype members)) [.key name] =
      some (.string s) := by
  rw [locate_key] at h
  rw [locate_key, get_sanitizeObject, h, Option.map_some, sanitizeField, hmarked, if_pos rfl]

/-- Arrays keep all that they hold, as deep as they stand. -/
theorem arrays_sanitizeObject (metatype : Option Metatype) (members : List (JsString × JsonTree))
    {path : List Step} (h : ∃ i, Step.index i ∈ path) :
    locate (.object (sanitizeObject unicode metatype members)) path =
      locate (.object members) path := by
  induction path generalizing metatype members with
  | nil =>
    obtain ⟨i, hi⟩ := h
    exact absurd hi List.not_mem_nil
  | cons step path ih =>
    match step with
    -- an object has no elements
    | .index _ => rfl
    | .key name =>
      have hrest : ∃ i, Step.index i ∈ path := by
        obtain ⟨i, hi⟩ := h
        exact ⟨i, (List.mem_cons.mp hi).resolve_left (by simp)⟩
      rw [locate_sanitizeObject, locate, child]
      congr 1
      funext value
      match value with
      | .object inner =>
        rw [sanitizeField]
        exact ih none inner hrest
      | .string s =>
        obtain ⟨i, hi⟩ := hrest
        obtain ⟨next, rest, rfl⟩ := List.exists_cons_of_ne_nil (List.ne_nil_of_mem hi)
        rw [sanitizeField, locate_cons_string]
        split_ifs <;> rw [locate_cons_string]
      | .null => rfl
      | .bool _ => rfl
      | .number _ => rfl
      | .array _ => rfl

/-- The pipe reaches every string of a body that is not in an array. -/
theorem transform_sanitizes (metatype : Option Metatype) (members : List (JsString × JsonTree)) :
    Sanitizes unicode metatype (.object members)
      (transform unicode metatype (.object members)) where
  shape_eq := by rw [transform, shape, shape, memberShapes_sanitizeObject]
  strings := fun name names s h hmarked =>
    strings_sanitizeObject unicode metatype members name names s h hmarked
  marked := fun _ _ h hmarked => marked_sanitizeObject unicode h hmarked
  arrays := fun _ h => arrays_sanitizeObject unicode metatype members h

/-- Markup in a list of tags goes through. -/
theorem strings_of_arrays_remain : ¬∀ (unicode : Normalization) (metatype : Option Metatype)
    (members : List (JsString × JsonTree)) (name : JsString) (path : List Step) (s : JsString),
    locate (.object members) (.key name :: path) = some (.string s) →
      isNoSanitize metatype name = false →
        locate (transform unicode metatype (.object members)) (.key name :: path) =
          some (.string (sanitizeStringValue unicode s)) := by
  intro hall
  let tags := utf16 "tags".toList
  let markup := utf16 "<b>x</b>".toList
  have hresult := hall plain none [(tags, .array [.string markup])] tags [.index 0] markup rfl rfl
  have hsame : some (JsonTree.string markup) =
      some (.string (sanitizeStringValue plain markup)) := hresult
  have hstring : markup = sanitizeStringValue plain markup :=
    JsonTree.string.inj (Option.some.inj hsame)
  exact absurd hstring (by decide)

end HubAssist.SanitizationPipe
