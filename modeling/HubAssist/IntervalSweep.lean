import Mathlib.Algebra.Order.BigOperators.Group.List
import Mathlib.Algebra.Order.Ring.Int
import Mathlib.Data.List.Sort
import Mathlib.Order.Interval.Set.Defs
import Mathlib.Tactic.Common

/-! The sweep over the end points of half-open intervals. Going through them in time order, with
ends before starts, the largest number of intervals open at once is the largest number of
intervals that contain one instant. Instants are any linear order. -/
namespace HubAssist.IntervalSweep

variable {T : Type*} [LinearOrder T]

inductive Edge where
  | start
  | stop
  deriving DecidableEq, Repr

structure Event (T : Type*) where
  time : T
  edge : Edge
  deriving DecidableEq

def Edge.step : Edge → ℤ
  | .start => 1
  | .stop => -1

/-- Earlier events come first, and ends before starts at the same instant. -/
def Event.Le (a b : Event T) : Prop :=
  a.time < b.time ∨ a.time = b.time ∧ (a.edge = .stop ∨ b.edge = .start)

/-- The largest of `best` and the sums that the sweep goes through from `current` on. -/
def peak : List (Event T) → ℤ → ℤ → ℤ
  | [], _, best => best
  | event :: events, current, best =>
    peak events (current+event.edge.step) (max best (current+event.edge.step))

/-- The intervals begun at `t` or before, less those ended by then. -/
def level (events : List (Event T)) (t : T) : ℤ :=
  ((events.filter fun event => event.time ≤ t).map fun event => event.edge.step).sum

/-- The two end points of an interval. -/
def span (i : T × T) : List (Event T) := [⟨i.1, .start⟩, ⟨i.2, .stop⟩]

@[simp] theorem level_nil (t : T) : level [] t = 0 := rfl

theorem level_cons (event : Event T) (events : List (Event T)) (t : T) :
    level (event :: events) t = (if event.time ≤ t then event.edge.step else 0)+level events t := by
  by_cases h : event.time ≤ t <;> simp [level, h]

theorem level_append (as bs : List (Event T)) (t : T) :
    level (as ++ bs) t = level as t+level bs t := by
  simp [level]

theorem level_perm {as bs : List (Event T)} (h : as.Perm bs) (t : T) : level as t = level bs t :=
  ((h.filter _).map _).sum_eq

theorem level_span (i : T × T) (t : T) : level (span i) t =
    (if i.1 ≤ t then 1 else 0)-if i.2 ≤ t then 1 else 0 := by
  simp only [span, level_cons, level_nil, Edge.step]
  split_ifs <;> rfl

/-- An interval counts exactly at the instants in it. -/
theorem level_span_of_lt {i : T × T} (h : i.1 < i.2) (t : T) :
    level (span i) t = if i.1 ≤ t ∧ t < i.2 then 1 else 0 := by
  rw [level_span]
  rcases lt_or_ge t i.2 with ht | ht
  · simp [ht, not_le.mpr ht]
  · simp [not_lt.mpr ht, ht, h.le.trans ht]

theorem level_span_nonpos {i : T × T} (h : i.2 ≤ i.1) (t : T) : level (span i) t ≤ 0 := by
  rw [level_span]
  by_cases ht : i.1 ≤ t
  · simp [ht, h.trans ht]
  · rw [if_neg ht]
    split_ifs <;> decide

/-- After a start, what comes at the same instant only adds. -/
theorem level_nonneg_of_starts {events : List (Event T)} {t : T}
    (h : ∀ event ∈ events, event.time ≤ t → event.edge = .start) : 0 ≤ level events t := by
  rw [level]
  apply List.sum_nonneg
  intro x hx
  obtain ⟨event, hevent, rfl⟩ := List.mem_map.mp hx
  obtain ⟨hmem, htime⟩ := List.mem_filter.mp hevent
  rw [h event hmem (of_decide_eq_true htime)]
  decide

theorem level_eq_zero {events : List (Event T)} {t : T} (h : ∀ event ∈ events, t < event.time) :
    level events t = 0 := by
  have hnone : events.filter (fun event => event.time ≤ t) = [] := by
    simpa using h
  rw [level, hnone]
  rfl

/-- The sweep of a sorted list passes `k` exactly when `best` does or the level of an instant
does, at or after the first event. -/
theorem lt_peak_iff_from {events : List (Event T)} (hsorted : events.Pairwise Event.Le) {k : ℤ}
    {current best : ℤ} (hle : current ≤ best) : k < peak events current best ↔
      k < best ∨ ∃ t, (∃ event ∈ events, event.time ≤ t) ∧ k < current+level events t := by
  induction events generalizing current best with
  | nil => simp [peak]
  | cons event events ih =>
    obtain ⟨hfirst, hrest⟩ := List.pairwise_cons.mp hsorted
    have hbefore : ∀ x ∈ events, event.time ≤ x.time := by
      intro x hx
      rcases hfirst x hx with hlt | ⟨heq, _⟩
      · exact hlt.le
      · exact heq.le
    rw [peak, ih hrest (le_max_right _ _), lt_max_iff]
    constructor
    · rintro ((hbest | hnow) | ⟨t, ⟨x, hx, hxt⟩, hk⟩)
      · exact Or.inl hbest
      · -- At an end the sum is below the one before; at a start only starts can follow at once.
        cases hedge : event.edge with
        | stop =>
          rw [hedge, Edge.step] at hnow
          left
          omega
        | start =>
          refine Or.inr ⟨event.time, ⟨event, List.mem_cons_self, le_rfl⟩, ?_⟩
          have hstarts : 0 ≤ level events event.time := by
            apply level_nonneg_of_starts
            intro x hx hxt
            rcases hfirst x hx with hlt | ⟨_, hstop | hstart⟩
            · exact absurd hxt (not_le.mpr hlt)
            · rw [hedge] at hstop
              exact absurd hstop (by decide)
            · exact hstart
          rw [level_cons, if_pos le_rfl]
          omega
      · refine Or.inr ⟨t, ⟨x, List.mem_cons_of_mem _ hx, hxt⟩, ?_⟩
        rw [level_cons, if_pos ((hbefore x hx).trans hxt)]
        omega
    · rintro (hbest | ⟨t, ⟨x, hx, hxt⟩, hk⟩)
      · exact Or.inl (Or.inl hbest)
      · have htime : event.time ≤ t := by
          rcases List.mem_cons.mp hx with rfl | hmem
          · exact hxt
          · exact (hbefore x hmem).trans hxt
        rw [level_cons, if_pos htime] at hk
        by_cases hlater : ∃ y ∈ events, y.time ≤ t
        · refine Or.inr ⟨t, hlater, ?_⟩
          omega
        · have hzero : level events t = 0 := by
            apply level_eq_zero
            intro y hy
            exact not_le.mp fun hyt => hlater ⟨y, hy, hyt⟩
          rw [hzero] at hk
          left
          right
          omega

/-- The sweep passes `k` exactly when the level of some instant does. -/
theorem lt_peak_iff {events : List (Event T)} (hsorted : events.Pairwise Event.Le) {k : ℤ}
    (hk : 0 ≤ k) : k < peak events 0 0 ↔ ∃ t, k < level events t := by
  rw [lt_peak_iff_from hsorted le_rfl]
  constructor
  · rintro (hneg | ⟨t, _, ht⟩)
    · omega
    · exact ⟨t, by omega⟩
  · rintro ⟨t, ht⟩
    refine Or.inr ⟨t, ?_, by omega⟩
    by_contra hnone
    have hzero : level events t = 0 := by
      apply level_eq_zero
      intro event hevent
      exact not_le.mp fun hle => hnone ⟨event, hevent, hle⟩
    omega

theorem Event.le_total (a b : Event T) : a.Le b ∨ b.Le a := by
  rcases lt_trichotomy a.time b.time with hlt | heq | hgt
  · exact Or.inl (Or.inl hlt)
  · cases ha : a.edge with
    | stop => exact Or.inl (Or.inr ⟨heq, Or.inl ha⟩)
    | start => exact Or.inr (Or.inr ⟨heq.symm, Or.inr ha⟩)
  · exact Or.inr (Or.inl hgt)

theorem Event.Le.trans {a b c : Event T} (hab : a.Le b) (hbc : b.Le c) : a.Le c := by
  rcases hab with hab | ⟨hab, hedge⟩
  · left
    rcases hbc with hbc | ⟨hbc, _⟩
    · exact hab.trans hbc
    · rwa [← hbc]
  · rcases hbc with hbc | ⟨hbc, hedge'⟩
    · left
      rwa [hab]
    · refine Or.inr ⟨hab.trans hbc, ?_⟩
      rcases hedge with ha | hb
      · exact Or.inl ha
      · right
        apply hedge'.resolve_left
        rw [hb]
        decide

/-- The sweep of any list of events, sorted by a comparison that agrees with `Event.Le`. -/
theorem lt_peak_sorted_iff {r : Event T → Event T → Prop} [DecidableRel r]
    (hr : ∀ a b, r a b ↔ a.Le b) (events : List (Event T)) {k : ℤ} (hk : 0 ≤ k) :
    k < peak (events.insertionSort r) 0 0 ↔ ∃ t, k < level events t := by
  have htotal : Std.Total r := ⟨fun a b => by simpa only [hr] using Event.le_total a b⟩
  have htrans : IsTrans (Event T) r :=
    ⟨fun a b c hab hbc => (hr a c).mpr (((hr a b).mp hab).trans ((hr b c).mp hbc))⟩
  have hsorted : (events.insertionSort r).Pairwise Event.Le :=
    (List.pairwise_insertionSort r events).imp fun h => (hr _ _).mp h
  rw [lt_peak_iff hsorted hk]
  simp only [level_perm (List.perm_insertionSort r events)]

end HubAssist.IntervalSweep
