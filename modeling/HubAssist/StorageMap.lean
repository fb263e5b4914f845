import Mathlib.Algebra.BigOperators.Finprod
import Mathlib.Algebra.Group.Int.Defs
import Mathlib.Tactic.Abel

/-! Key-value storage as a function to `Option`, and sums over its entries. The sum is a
`finsum`, so a map with finitely many keys needs no enumeration of them. -/
namespace HubAssist.StorageMap
open Function

variable {K V M : Type*} [AddCommGroup M]

def FiniteKeys (m : K → Option V) : Prop := {k | m k ≠ none}.Finite

/-- The weight of the entry at `k`, zero where there is none. -/
def weigh (f : V → M) (m : K → Option V) (k : K) : M := (m k).elim 0 f

/-- The sum of the weights of all entries. -/
noncomputable def tally (f : V → M) (m : K → Option V) : M := finsum (weigh f m)

/-- What is found after one entry has been written is that entry or an old one. -/
theorem update_cases [DecidableEq K] {m : K → Option V} {k j : K} {o : Option V} {v : V}
    (h : update m k o j = some v) : (j = k ∧ o = some v) ∨ (j ≠ k ∧ m j = some v) := by
  by_cases hj : j = k
  · rw [hj, update_self] at h
    exact Or.inl ⟨hj, h⟩
  · rw [update_of_ne hj] at h
    exact Or.inr ⟨hj, h⟩

theorem finiteKeys_empty : FiniteKeys (fun _ : K => (none : Option V)) := by
  simp [FiniteKeys]

theorem FiniteKeys.set [DecidableEq K] {m : K → Option V} (hm : FiniteKeys m) (k : K)
    (o : Option V) : FiniteKeys (update m k o) := by
  apply (hm.insert k).subset
  intro j hj
  by_cases h : j = k
  · exact Or.inl h
  · exact Or.inr (by simpa [h] using hj)

theorem FiniteKeys.hasFiniteSupport {m : K → Option V} (hm : FiniteKeys m) (f : V → M) :
    HasFiniteSupport (weigh f m) := by
  apply hm.subset
  intro k hk hnone
  exact hk (by simp [weigh, hnone])

@[simp] theorem tally_empty (f : V → M) : tally f (fun _ : K => none) = 0 := by
  have h : weigh f (fun _ : K => (none : Option V)) = fun _ => 0 := rfl
  rw [tally, h, finsum_zero]

theorem weigh_set [DecidableEq K] (f : V → M) (m : K → Option V) (k : K) (o : Option V) :
    weigh f (update m k o) =
      fun j => weigh f m j + (Pi.single k (o.elim 0 f - weigh f m k) : K → M) j := by
  funext j
  by_cases h : j = k
  · subst h
    simp [weigh]
  · simp [weigh, h]

/-- Writing one entry changes the sum by the new weight less the old one. -/
theorem tally_set [DecidableEq K] {m : K → Option V} (hm : FiniteKeys m) (f : V → M) (k : K)
    (o : Option V) : tally f (update m k o) = tally f m - weigh f m k + o.elim 0 f := by
  -- the change is a function with one nonzero value, so both sums are finite
  have hs : HasFiniteSupport (Pi.single k (o.elim 0 f - weigh f m k) : K → M) := by
    apply (Set.finite_singleton k).subset
    intro j hj
    by_contra hjk
    exact hj (by simp [show j ≠ k from hjk])
  have hsingle :
      finsum (Pi.single k (o.elim 0 f - weigh f m k) : K → M) = o.elim 0 f - weigh f m k := by
    rw [finsum_eq_single _ k fun j hj => by simp [hj]]
    simp
  rw [tally, weigh_set, finsum_add_distrib (hm.hasFiniteSupport f) hs, hsingle, tally]
  abel

/-- Two maps whose entries weigh the same have the same sum. -/
theorem tally_congr {W : Type*} {f : V → M} {g : W → M} {m : K → Option V} {n : K → Option W}
    (h : ∀ k, weigh f m k = weigh g n k) : tally f m = tally g n :=
  congrArg finsum (funext h)

theorem weigh_le_tally [PartialOrder M] [IsOrderedAddMonoid M] {m : K → Option V}
    (hm : FiniteKeys m) {f : V → M} (hf : ∀ k v, m k = some v → 0 ≤ f v) (k : K) :
    weigh f m k ≤ tally f m := by
  apply single_le_finsum k (hm.hasFiniteSupport f)
  intro j
  cases h : m j with
  | none => simp [weigh, h]
  | some v => simpa [weigh, h] using hf j v h

end HubAssist.StorageMap
