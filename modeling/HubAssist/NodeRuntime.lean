import HubAssist.IsoDate

/-! What the services take from the language and the platform: optional texts in conditions, dates
made of texts, slices of arrays and the parameters of queries. -/
namespace HubAssist.NodeRuntime

/-- The value of a parameter: a text, a `Date`, which may be invalid, or undefined, which the
driver sends as null. -/
inductive ParamValue where
  | text (value : String)
  | date (value : Option ℤ)
  | undefined
  deriving DecidableEq

/-- What the platform does with texts that the service does not make itself: bytes that are not
UTF-8, and dates in other forms than that of `toISOString`. -/
structure Runtime where
  lossy : List UInt8 → List Char
  parseOther : List Char → Option ℤ

/-- `new Date(text)`. -/
def newDate (runtime : Runtime) (text : List Char) : Option ℤ :=
  match IsoDate.parseIso text with
  | some t => some t
  | none => runtime.parseOther text

/-- The text of a date in range is read back as that date, whatever the runtime. -/
theorem newDate_toISOString (runtime : Runtime) {t : ℤ} (h : IsoDate.InRange t) :
    newDate runtime (IsoDate.toISOString t) = some t := by
  rw [newDate, IsoDate.parseIso_toISOString h]

/-- An optional value as an `if` takes it: the empty text counts as absent. -/
def truthy (value : Option String) : Option String := value.filter fun text => text ≠ ""

theorem truthy_of_ne {text : String} (h : text ≠ "") : truthy (some text) = some text := by
  simp [truthy, h]

/-- `Array.prototype.slice(0, n)`. -/
def sliceTo {R : Type} (n : ℤ) (rows : List R) : List R :=
  if 0 ≤ n then rows.take n.toNat else rows.take (rows.length-n.natAbs)

end HubAssist.NodeRuntime
