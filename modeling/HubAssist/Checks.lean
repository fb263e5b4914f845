import Mathlib.Tactic.Common

/-! Calls that check their way to a result or fail: guards, lookups, their inversion, and the
state that a call which may fail leaves behind. States and errors are arbitrary. -/
namespace HubAssist.Checks

variable {E S α β : Type*}

def failIf (p : Prop) [Decidable p] (error : E) : Except E Unit :=
  if p then .error error else .ok ()

def getOr (o : Option α) (error : E) : Except E α :=
  match o with
  | some a => .ok a
  | none => .error error

/-- The state after a call that is rolled back when it fails. -/
def orRollback (s : S) : Except E S → S
  | .ok s' => s'
  | .error _ => s

theorem failIf_eq_ok {p : Prop} [Decidable p] {error : E} {u : Unit} :
    failIf p error = .ok u ↔ ¬p := by
  unfold failIf
  split_ifs with h <;> simp [h]

theorem getOr_eq_ok {o : Option α} {error : E} {a : α} : getOr o error = .ok a ↔ o = some a := by
  cases o <;> simp [getOr]

theorem bind_eq_ok {E α β : Type} {x : Except E α} {f : α → Except E β} {b : β} :
    (x >>= f) = .ok b ↔ ∃ a, x = .ok a ∧ f a = .ok b := by
  cases x <;> simp [bind, Except.bind]

theorem map_eq_ok {x : Except E α} {f : α → β} {b : β} :
    x.map f = .ok b ↔ ∃ a, x = .ok a ∧ f a = b := by
  cases x <;> simp [Except.map]

theorem ok_bind {E α β : Type} (a : α) (f : α → Except E β) :
    ((.ok a : Except E α) >>= f) = f a := rfl

theorem error_bind {E α β : Type} (error : E) (f : α → Except E β) :
    ((.error error : Except E α) >>= f) = .error error := rfl

theorem pure_eq_ok {E α : Type} {a b : α} : (pure a : Except E α) = .ok b ↔ a = b := by
  simp [pure, Except.pure]

/-- The call fails, with an error that meets `P`. -/
def FailsWith (P : E → Prop) (result : Except E α) : Prop := ∃ error, result = .error error ∧ P error

@[simp] theorem failsWith_failIf {P : E → Prop} {p : Prop} [Decidable p] {error : E} :
    FailsWith P (failIf p error) ↔ p ∧ P error := by
  unfold FailsWith failIf
  split_ifs with h <;> simp [h]

@[simp] theorem failsWith_getOr {P : E → Prop} {o : Option α} {error : E} :
    FailsWith P (getOr o error) ↔ o = none ∧ P error := by
  cases o <;> simp [FailsWith, getOr]

/-- A chain of calls fails in the first one, or in the rest after the first has gone through. -/
@[simp] theorem failsWith_bind {E α β : Type} {P : E → Prop} {x : Except E α} {f : α → Except E β} :
    FailsWith P (x >>= f) ↔ FailsWith P x ∨ ∃ a, x = .ok a ∧ FailsWith P (f a) := by
  cases x <;> simp [FailsWith, bind, Except.bind]

@[simp] theorem failsWith_map {P : E → Prop} {x : Except E α} {f : α → β} :
    FailsWith P (x.map f) ↔ FailsWith P x := by
  cases x <;> simp [FailsWith, Except.map]

@[simp] theorem failsWith_functor_map {E α β : Type} {P : E → Prop} {x : Except E α} {f : α → β} :
    FailsWith P (f <$> x) ↔ FailsWith P x := failsWith_map

@[simp] theorem failsWith_ite {P : E → Prop} {p : Prop} [Decidable p] {x y : Except E α} :
    FailsWith P (if p then x else y) ↔ p ∧ FailsWith P x ∨ ¬p ∧ FailsWith P y := by
  split_ifs with h <;> simp [h]

@[simp] theorem failsWith_pure {E α : Type} {P : E → Prop} {a : α} :
    FailsWith P (pure a : Except E α) ↔ False := by
  simp [FailsWith, pure, Except.pure]

/-- What holds before a call and after it is accepted holds in the state it leaves behind. -/
theorem orRollback_keeps {I : S → Prop} {s : S} {r : Except E S} (hs : I s)
    (h : ∀ s', r = .ok s' → I s') : I (orRollback s r) := by
  cases r with
  | ok s' => exact h s' rfl
  | error e => exact hs

end HubAssist.Checks
