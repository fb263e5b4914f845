import Mathlib.MeasureTheory.Integral.IntervalIntegral.Basic

/-! Lists of half-open intervals that follow one another, and the integral of a function that is
constant on each. Pieces are any type with a start and a stop in a linear order. -/
namespace HubAssist.IntervalTiling
open MeasureTheory

section Order
variable {P T : Type*} [LinearOrder T]

/-- The pieces, none of them empty, follow one another from `a` to `b`. -/
def Tiles (start stop : P → T) : List P → T → T → Prop
  | [], a, b => a = b
  | p :: ps, a, b => start p = a ∧ a < stop p ∧ Tiles start stop ps (stop p) b

variable {start stop : P → T} {ps : List P} {a b : T}

theorem Tiles.le (h : Tiles start stop ps a b) : a ≤ b := by
  induction ps generalizing a with
  | nil => exact h.le
  | cons p ps ih =>
    obtain ⟨_, hlt, hrest⟩ := h
    exact hlt.le.trans (ih hrest)

/-- Every piece lies between the ends and is not empty. -/
theorem Tiles.within (h : Tiles start stop ps a b) :
    ∀ p ∈ ps, a ≤ start p ∧ start p < stop p ∧ stop p ≤ b := by
  induction ps generalizing a with
  | nil => simp
  | cons p ps ih =>
    obtain ⟨rfl, hlt, hrest⟩ := h
    intro q hq
    rcases List.mem_cons.mp hq with rfl | hq
    · exact ⟨le_rfl, hlt, hrest.le⟩
    · obtain ⟨hstart, hne, hstop⟩ := ih hrest q hq
      exact ⟨hlt.le.trans hstart, hne, hstop⟩

/-- A strictly monotone map takes tiles to tiles. -/
theorem Tiles.map {U : Type*} [LinearOrder U] {f : T → U} (hf : StrictMono f)
    (h : Tiles start stop ps a b) : Tiles (f ∘ start) (f ∘ stop) ps (f a) (f b) := by
  induction ps generalizing a with
  | nil => exact congrArg f h
  | cons p ps ih =>
    obtain ⟨hstart, hlt, hrest⟩ := h
    exact ⟨congrArg f hstart, hf hlt, ih hrest⟩

end Order

section Integral
variable {P : Type*} {start stop value : P → ℝ} {ps : List P} {a b : ℝ} {f : ℝ → ℝ}

/-- Inside each piece the function has the value of the piece. -/
def ConstantOn (start stop value : P → ℝ) (ps : List P) (f : ℝ → ℝ) : Prop :=
  ∀ p ∈ ps, ∀ t, start p < t → t < stop p → f t = value p

theorem intervalIntegrable_of_const {v : ℝ} (hle : a ≤ b) (h : ∀ t, a < t → t < b → f t = v) :
    IntervalIntegrable f volume a b := by
  refine (intervalIntegrable_const (c := v)).congr_uIoo ?_
  intro t ht
  rw [Set.uIoo_of_le hle] at ht
  exact (h t ht.1 ht.2).symm

theorem integral_of_const {v : ℝ} (hle : a ≤ b) (h : ∀ t, a < t → t < b → f t = v) :
    ∫ t in a..b, f t = (b-a)*v := by
  have hconst : ∫ t in a..b, f t = ∫ _ in a..b, v :=
    intervalIntegral.integral_congr_Ioo_of_le hle fun t ht => h t ht.1 ht.2
  rw [hconst, intervalIntegral.integral_const, smul_eq_mul]

theorem Tiles.intervalIntegrable (h : Tiles start stop ps a b)
    (hf : ConstantOn start stop value ps f) : IntervalIntegrable f volume a b := by
  induction ps generalizing a with
  | nil =>
    obtain rfl : a = b := h
    exact IntervalIntegrable.refl
  | cons p ps ih =>
    obtain ⟨rfl, hlt, hrest⟩ := h
    have hfirst : IntervalIntegrable f volume (start p) (stop p) :=
      intervalIntegrable_of_const hlt.le (hf p List.mem_cons_self)
    exact hfirst.trans (ih hrest fun q hq => hf q (List.mem_cons_of_mem _ hq))

/-- The integral over all pieces is the sum of their lengths times their values. -/
theorem Tiles.integral (h : Tiles start stop ps a b) (hf : ConstantOn start stop value ps f) :
    ∫ t in a..b, f t = (ps.map fun p => (stop p-start p)*value p).sum := by
  induction ps generalizing a with
  | nil =>
    obtain rfl : a = b := h
    simp
  | cons p ps ih =>
    have hothers : ConstantOn start stop value ps f :=
      fun q hq => hf q (List.mem_cons_of_mem _ hq)
    obtain ⟨rfl, hlt, hrest⟩ := h
    have hfirst : IntervalIntegrable f volume (start p) (stop p) :=
      intervalIntegrable_of_const hlt.le (hf p List.mem_cons_self)
    rw [List.map_cons, List.sum_cons, ← ih hrest hothers,
      ← integral_of_const hlt.le (hf p List.mem_cons_self)]
    exact (intervalIntegral.integral_add_adjacent_intervals hfirst
      (hrest.intervalIntegrable hothers)).symm

end Integral

end HubAssist.IntervalTiling
