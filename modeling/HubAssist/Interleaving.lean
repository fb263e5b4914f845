import HubAssist.RunSystem
import Mathlib.Logic.Function.Basic

/-! Processes that take turns on a shared state. Each step is one atomic step of one process, which
moves the shared state and its own; a run is any interleaving of such steps. The processes, their
states and the shared state are arbitrary. -/
namespace HubAssist.Interleaving
open RunSystem

variable {I S L A : Type*} [DecidableEq I]

structure Global (I S L : Type*) where
  shared : S
  locals : I → L

/-- The process `move.1` does `move.2`. -/
def step (act : S → L → A → S × L) (g : Global I S L) (move : I × A) : Global I S L :=
  ⟨(act g.shared (g.locals move.1) move.2).1,
    Function.update g.locals move.1 (act g.shared (g.locals move.1) move.2).2⟩

/-- `J` holds of the shared state, `P` of each process with it, and `Q` of any two processes. -/
structure Holds (J : S → Prop) (P : S → L → Prop) (Q : L → L → Prop) (g : Global I S L) : Prop where
  shared : J g.shared
  own : ∀ i, P g.shared (g.locals i)
  apart : ∀ i j, i ≠ j → Q (g.locals i) (g.locals j)

/-- The step meets `G`, and `R` with each of the other processes. -/
def Allowed (G : S → L → A → Prop) (R : L → L → A → Prop) (g : Global I S L) (move : I × A) :
    Prop :=
  G g.shared (g.locals move.1) move.2 ∧
    ∀ j, j ≠ move.1 → R (g.locals move.1) (g.locals j) move.2

/-- What is to be shown of one step of a process for `Holds` to be kept by allowed steps: the
process keeps what is said of it, and does not interfere with another. -/
structure Undisturbed (act : S → L → A → S × L) (J : S → Prop) (P : S → L → Prop)
    (Q : L → L → Prop) (G : S → L → A → Prop) (R : L → L → A → Prop) : Prop where
  symm : ∀ l m, Q l m → Q m l
  shared : ∀ s l a, J s → P s l → G s l a → J (act s l a).1
  own : ∀ s l a, J s → P s l → G s l a → P (act s l a).1 (act s l a).2
  other : ∀ s l m a, J s → P s l → P s m → Q l m → G s l a → P (act s l a).1 m
  apart : ∀ s l m a, P s l → P s m → Q l m → G s l a → R l m a → Q (act s l a).2 m

variable {act : S → L → A → S × L} {J : S → Prop} {P : S → L → Prop} {Q : L → L → Prop}
  {G : S → L → A → Prop} {R : L → L → A → Prop} {g : Global I S L} {move : I × A}

@[simp] theorem step_locals_self :
    (step act g move).locals move.1 = (act g.shared (g.locals move.1) move.2).2 :=
  Function.update_self _ _ _

theorem step_locals_of_ne {j : I} (h : j ≠ move.1) : (step act g move).locals j = g.locals j :=
  Function.update_of_ne h _ _

/-- How the process that moves is related to itself before, every process is. -/
theorem step_locals_related {T : L → L → Prop} (hrefl : ∀ l, T l l)
    (hmoved : T (g.locals move.1) (act g.shared (g.locals move.1) move.2).2) (i : I) :
    T (g.locals i) ((step act g move).locals i) := by
  by_cases hi : i = move.1
  · subst hi
    rw [step_locals_self]
    exact hmoved
  · rw [step_locals_of_ne hi]
    exact hrefl (g.locals i)

theorem Undisturbed.step (h : Undisturbed act J P Q G R) (hg : Holds J P Q g)
    (hallowed : Allowed G R g move) : Holds J P Q (step act g move) := by
  obtain ⟨hG, hR⟩ := hallowed
  have hown := hg.own move.1
  refine ⟨h.shared _ _ _ hg.shared hown hG, fun i => ?_, fun i j hij => ?_⟩
  · by_cases hi : i = move.1
    · subst hi
      rw [step_locals_self]
      exact h.own _ _ _ hg.shared hown hG
    · rw [step_locals_of_ne hi]
      exact h.other _ _ _ _ hg.shared hown (hg.own i) (hg.apart _ _ (Ne.symm hi)) hG
  · by_cases hi : i = move.1
    · subst hi
      rw [step_locals_self, step_locals_of_ne (Ne.symm hij)]
      exact h.apart _ _ _ _ hown (hg.own j) (hg.apart _ _ hij) hG (hR j (Ne.symm hij))
    · rw [step_locals_of_ne hi]
      by_cases hj : j = move.1
      · subst hj
        rw [step_locals_self]
        exact h.symm _ _ (h.apart _ _ _ _ hown (hg.own i) (hg.apart _ _ (Ne.symm hi)) hG (hR i hi))
      · rw [step_locals_of_ne hj]
        exact hg.apart i j hij

end HubAssist.Interleaving
