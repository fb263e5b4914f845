import Mathlib.Data.List.Nodup
import Mathlib.Logic.Function.Basic
import Mathlib.Tactic.Common

/-! An index that files keys in buckets. The reference is a function that gives each key its
bucket, or none; the index agrees with it when every key stands once, in its own bucket. -/
namespace HubAssist.BucketIndex
open Function

variable {D K : Type*} [DecidableEq D] [DecidableEq K]
variable {home : K → Option D} {index : D → List K}

/-- Every key that has a bucket stands in it once, and in no other. -/
def Filed (home : K → Option D) (index : D → List K) : Prop :=
  ∀ d, (index d).Nodup ∧ ∀ k, k ∈ index d ↔ home k = some d

def push (index : D → List K) (d : D) (k : K) : D → List K := update index d (index d ++ [k])

def drop (index : D → List K) (d : D) (k : K) : D → List K :=
  update index d ((index d).filter fun j => j ≠ k)

/-- The keys in a list of buckets. -/
def gather (index : D → List K) (ds : List D) : List K := ds.flatMap index

omit [DecidableEq D] [DecidableEq K] in
theorem filed_empty : Filed (fun _ : K => (none : Option D)) fun _ => [] := by
  simp [Filed]

/-- A key that is filed nowhere may be filed anywhere. -/
theorem Filed.push (h : Filed home index) {k : K} (hk : home k = none) (d : D) :
    Filed (update home k (some d)) (push index d k) := by
  have habsent (e : D) : k ∉ index e := fun hmem =>
    absurd (hk.symm.trans (((h e).2 k).mp hmem)) (by simp)
  intro e
  by_cases he : e = d
  · subst he
    rw [BucketIndex.push, update_self]
    -- the bucket that is pushed to gains the key
    refine ⟨List.concat_eq_append ▸ (h e).1.concat (habsent e), fun j => ?_⟩
    by_cases hj : j = k
    · simp [hj]
    · simp [hj, (h e).2 j]
  · rw [BucketIndex.push, update_of_ne he]
    refine ⟨(h e).1, fun j => ?_⟩
    by_cases hj : j = k
    · subst hj
      simp [habsent e, Ne.symm he]
    · rw [update_of_ne hj]
      exact (h e).2 j

/-- A key taken out of its own bucket is filed nowhere. -/
theorem Filed.drop (h : Filed home index) {k : K} {d : D} (hd : ∀ e, home k = some e → e = d) :
    Filed (update home k none) (drop index d k) := by
  intro e
  by_cases he : e = d
  · subst he
    rw [BucketIndex.drop, update_self]
    refine ⟨(h e).1.filter _, fun j => ?_⟩
    by_cases hj : j = k
    · simp [hj]
    · simp [hj, (h e).2 j]
  · rw [BucketIndex.drop, update_of_ne he]
    -- every other bucket is as it was, and does not hold the key
    refine ⟨(h e).1, fun j => ?_⟩
    by_cases hj : j = k
    · subst hj
      rw [update_self, (h e).2 j]
      exact iff_of_false (fun hhome => he (hd e hhome)) (by simp)
    · rw [update_of_ne hj]
      exact (h e).2 j

/-- The other keys of a bucket stay as they stand when a key is pushed. -/
theorem filter_push (index : D → List K) (d : D) (k : K) (e : D) :
    (push index d k e).filter (fun j => j ≠ k) = (index e).filter fun j => j ≠ k := by
  rw [push]
  by_cases he : e = d
  · rw [he, update_self, List.filter_append]
    simp
  · rw [update_of_ne he]

theorem filter_drop (index : D → List K) (d : D) (k : K) (e : D) :
    (drop index d k e).filter (fun j => j ≠ k) = (index e).filter fun j => j ≠ k := by
  rw [drop]
  by_cases he : e = d
  · rw [he, update_self, List.filter_filter]
    simp
  · rw [update_of_ne he]

omit [DecidableEq D] in
/-- A key that has a bucket stands once in that one and in no other. -/
theorem Filed.count_eq (h : Filed home index) {k : K} {d : D} (hd : home k = some d) (e : D)
    [Decidable (e = d)] : (index e).count k = if e = d then 1 else 0 := by
  have hmem : k ∈ index e ↔ e = d := by
    rw [(h e).2 k, hd, Option.some.injEq, eq_comm]
  split_ifs with he
  · exact List.count_eq_one_of_mem (h e).1 (hmem.mpr he)
  · exact List.count_eq_zero_of_not_mem fun hk => he (hmem.mp hk)

omit [DecidableEq D] [DecidableEq K] in
theorem Filed.mem_gather (h : Filed home index) {ds : List D} {k : K} :
    k ∈ gather index ds ↔ ∃ d ∈ ds, home k = some d := by
  simp only [gather, List.mem_flatMap]
  exact exists_congr fun d => and_congr_right fun _ => (h d).2 k

omit [DecidableEq D] [DecidableEq K] in
/-- Buckets that differ hold different keys, so no key is gathered twice. -/
theorem Filed.nodup_gather (h : Filed home index) {ds : List D} (hds : ds.Nodup) :
    (gather index ds).Nodup := by
  refine List.nodup_flatMap.mpr ⟨fun d _ => (h d).1, hds.imp fun hne => ?_⟩
  intro k hk hk'
  exact hne (Option.some.inj ((((h _).2 k).mp hk).symm.trans (((h _).2 k).mp hk')))

end HubAssist.BucketIndex
