import Mathlib.Data.Int.Notation
import Mathlib.Data.Nat.Notation
import Mathlib.Tactic.Common

/-! JSON values, as `JSON.parse` makes them. -/
namespace HubAssist.JsonValue

/-- A number is `mantissa * 10^-exponent`; the members of an object have distinct names. -/
inductive Json where
  | null
  | bool (value : Bool)
  | number (mantissa : ℤ) (exponent : ℕ)
  | string (text : String)
  | array (items : List Json)
  | object (members : List (String × Json))

def Json.isNull : Json → Bool
  | .null => true
  | _ => false

/-- The property of a value under a name that only objects have; `none` is undefined. Reading it
off `null` throws in JavaScript, which `isNull` is for. -/
def Json.get (value : Json) (name : String) : Option Json :=
  match value with
  | .object members => members.lookup name
  | _ => none

/-- The message of the TypeError that reading a property of `null` throws. -/
def nullRead (name : String) : String := "Cannot read properties of null (reading '" ++ name ++ "')"

theorem isNull_of_get {value member : Json} {name : String} (h : value.get name = some member) :
    value.isNull = false := by
  cases value with
  | object members => rfl
  | _ => simp [Json.get] at h

end HubAssist.JsonValue
