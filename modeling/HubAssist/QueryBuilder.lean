import Mathlib.Data.List.Sort
import Mathlib.Data.String.Basic
import Mathlib.Tactic.Common

/-! A query as a builder assembles it: conditions that all have to hold, one map of named
parameters for all of them, an order and a limit. A value for a name that has one already
replaces it, for the conditions added before as for those added later. -/
namespace HubAssist.QueryBuilder

variable {V R K : Type} [LinearOrder K] (key : R → K)

/-- A condition: the parameters the database takes for it, and the rows it is true of. -/
structure Condition (V R : Type) where
  accepts : (String → Option V) → Bool
  holds : (String → Option V) → R → Bool

structure SelectQuery (V R : Type) where
  conditions : List (Condition V R)
  parameters : List (String × V)

inductive QueryError where
  | parameter
  | limit
  deriving DecidableEq

namespace SelectQuery

def empty : SelectQuery V R := ⟨[], []⟩

/-- One more condition, with the parameters that come with it. -/
def andWhere (q : SelectQuery V R) (c : Condition V R) (parameters : List (String × V)) :
    SelectQuery V R :=
  ⟨q.conditions ++ [c], parameters ++ q.parameters⟩

def andWhereIf (q : SelectQuery V R) (c : Option (Condition V R × List (String × V))) :
    SelectQuery V R :=
  match c with
  | some (c, parameters) => q.andWhere c parameters
  | none => q

def parameter (q : SelectQuery V R) (name : String) : Option V := q.parameters.lookup name

def accepts (q : SelectQuery V R) : Bool := q.conditions.all fun c => c.accepts q.parameter

def holds (q : SelectQuery V R) (r : R) : Bool := q.conditions.all fun c => c.holds q.parameter r

end SelectQuery

/-- The uuid type of the database over the keys `Id`: the text it gives out for a key is taken
back as that key, and a text is taken only with all its 32 digits. -/
structure UuidType (Id : Type) where
  write : Id → String
  read : String → Option Id
  read_write : ∀ id, read (write id) = some id
  digits : ∀ text id, read text = some id → 32 ≤ text.toList.length

/-- Lower-case digits in groups of 8, 4, 4, 4 and 12. -/
def IsUuidText (text : String) : Prop :=
  text.toList.length = 36 ∧ text.toList.zipIdx.all fun (c, i) =>
    if i ∈ [8, 13, 18, 23] then c = '-' else c.isDigit || ('a' ≤ c && c ≤ 'f')

instance (text : String) : Decidable (IsUuidText text) := inferInstanceAs (Decidable (_ ∧ _))

/-- The texts themselves as keys. -/
def textUuid : UuidType {text : String // IsUuidText text} where
  write id := id.1
  read text := if h : IsUuidText text then some ⟨text, h⟩ else none
  read_write id := dif_pos id.2
  digits text id h := by
    split_ifs at h with htext
    have := htext.1
    omega

/-- Rows by descending key. -/
def descending (rows : List R) : List R := rows.insertionSort fun a b => key b ≤ key a

/-- The limit of a query: none for zero, an error below it. -/
def takeRows (n : ℤ) (rows : List R) : Except QueryError (List R) :=
  if n = 0 then .ok rows else if n < 0 then .error .limit else .ok (rows.take n.toNat)

/-- `getMany`, with the rows ordered by descending key. -/
def getMany (q : SelectQuery V R) (n : ℤ) (rows : List R) : Except QueryError (List R) :=
  if q.accepts then takeRows n (descending key (rows.filter q.holds)) else .error .parameter

theorem descending_perm (rows : List R) : (descending key rows).Perm rows :=
  List.perm_insertionSort _ rows

theorem mem_descending {rows : List R} {r : R} : r ∈ descending key rows ↔ r ∈ rows :=
  (descending_perm key rows).mem_iff

theorem pairwise_descending (rows : List R) :
    (descending key rows).Pairwise fun a b => key b ≤ key a := by
  have : Std.Total fun a b : R => key b ≤ key a := ⟨fun a b => le_total (key b) (key a)⟩
  have : IsTrans R fun a b => key b ≤ key a := ⟨fun _ _ _ h h' => h'.trans h⟩
  exact List.pairwise_insertionSort _ rows

/-- Keys that differ leave one descending order, whatever order the rows come in. -/
theorem descending_eq_of_perm {rows rows' : List R} (h : rows.Perm rows')
    (hkey : ∀ a ∈ rows, ∀ b ∈ rows, key a = key b → a = b) :
    descending key rows = descending key rows' := by
  refine List.Perm.eq_of_pairwise ?_ (pairwise_descending key rows)
    (pairwise_descending key rows')
    ((descending_perm key rows).trans (h.trans (descending_perm key rows').symm))
  -- rows of one key are one row, so the order is antisymmetric
  intro a b ha hb hab hba
  exact hkey a ((mem_descending key).mp ha) b (h.mem_iff.mpr ((mem_descending key).mp hb))
    (le_antisymm hba hab)

/-- Rows that a filter leaves stand in the order that all of them have. -/
theorem descending_filter (rows : List R) (p : R → Bool)
    (hkey : ∀ a ∈ rows, ∀ b ∈ rows, key a = key b → a = b) :
    descending key (rows.filter p) = (descending key rows).filter p := by
  -- both sides are sorted and have the same rows
  refine List.Perm.eq_of_pairwise ?_ (pairwise_descending key _)
    ((pairwise_descending key rows).filter p)
    ((descending_perm key _).trans ((descending_perm key rows).filter p).symm)
  intro a b ha hb hab hba
  have hrows : a ∈ rows := List.mem_of_mem_filter ((mem_descending key).mp ha)
  have hrows' : b ∈ rows := (mem_descending key).mp (List.mem_of_mem_filter hb)
  exact hkey a hrows b hrows' (le_antisymm hba hab)

theorem takeRows_eq_ok {n : ℤ} {rows result : List R} (h : takeRows n rows = .ok result) :
    (n = 0 ∧ result = rows) ∨ (0 < n ∧ result = rows.take n.toNat) := by
  unfold takeRows at h
  split_ifs at h with hzero hneg
  · exact Or.inl ⟨hzero, (Except.ok.inj h).symm⟩
  · exact Or.inr ⟨by omega, (Except.ok.inj h).symm⟩

theorem takeRows_of_pos {n : ℤ} (h : 0 < n) (rows : List R) :
    takeRows n rows = .ok (rows.take n.toNat) := by
  rw [takeRows, if_neg (by omega), if_neg (by omega)]

/-- Every row of a result meets every condition. -/
theorem getMany_sound {q : SelectQuery V R} {n : ℤ} {rows result : List R}
    (h : getMany key q n rows = .ok result) {r : R} (hr : r ∈ result) :
    r ∈ rows ∧ q.holds r = true := by
  unfold getMany at h
  split_ifs at h
  have hmem : r ∈ descending key (rows.filter q.holds) := by
    rcases takeRows_eq_ok h with ⟨_, rfl⟩ | ⟨_, rfl⟩
    · exact hr
    · exact List.mem_of_mem_take hr
  exact List.mem_filter.mp ((mem_descending key).mp hmem)

namespace SelectQuery

variable {q : SelectQuery V R} {c : Condition V R} {parameters : List (String × V)} {name : String}

@[simp] theorem andWhereIf_some : q.andWhereIf (some (c, parameters)) = q.andWhere c parameters :=
  rfl

@[simp] theorem andWhereIf_none : q.andWhereIf none = q := rfl

theorem parameter_andWhere :
    (q.andWhere c parameters).parameter name = (parameters.lookup name).or (q.parameter name) :=
  List.lookup_append

/-- Conditions without a value for a name leave the value it has. -/
theorem parameter_andWhereIf_of_none {o : Option (Condition V R × List (String × V))}
    (h : ∀ p, o = some p → p.2.lookup name = none) :
    (q.andWhereIf o).parameter name = q.parameter name := by
  cases o with
  | none => rfl
  | some p =>
    rw [show q.andWhereIf (some p) = q.andWhere p.1 p.2 from rfl, parameter_andWhere, h p rfl,
      Option.none_or]

/-- The value that comes with a condition replaces the one there was. -/
theorem parameter_andWhere_of_some {value : V} (h : parameters.lookup name = some value) :
    (q.andWhere c parameters).parameter name = some value := by
  rw [parameter_andWhere, h, Option.some_or]

theorem mem_conditions_andWhereIf {o : Option (Condition V R × List (String × V))}
    {d : Condition V R} :
    d ∈ (q.andWhereIf o).conditions ↔ d ∈ q.conditions ∨ ∃ p, o = some p ∧ p.1 = d := by
  cases o with
  | none => simp
  | some p => simp [show q.andWhereIf (some p) = q.andWhere p.1 p.2 from rfl, andWhere, eq_comm]

/-- A query that holds of a row holds of it by every condition, with the final parameters. -/
theorem holds_of_mem {d : Condition V R} {r : R} (h : q.holds r = true) (hd : d ∈ q.conditions) :
    d.holds q.parameter r = true := List.all_eq_true.mp h d hd

end SelectQuery

end HubAssist.QueryBuilder
