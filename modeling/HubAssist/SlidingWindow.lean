import HubAssist.TtlCache
import Mathlib.Data.List.Basic

/-! Counts over a sliding window of time: a log of instants of which those within the window are
counted, and a cache that holds such a log for each key for as long as it matters. -/
namespace HubAssist.SlidingWindow
open TtlCache

variable {K : Type*} [DecidableEq K] {c : Cache K (List ℕ)} {k k' : K}
variable {window limit now future t : ℕ} {log past : List ℕ}

/-- The instants of the log that the window before `now` has not left behind. -/
def recent (window now : ℕ) (log : List ℕ) : List ℕ := log.filter fun t => now < t+window

/-- No interval of the window's length has more than `limit` of the instants. -/
def Within (limit window : ℕ) (log : List ℕ) : Prop :=
  ∀ start, (log.filter fun t => start ≤ t ∧ t < start+window).length ≤ limit

/-- What is found under the key from `now` on counts as much as the whole past does. -/
structure Mirrors (window : ℕ) (c : Cache K (List ℕ)) (k : K) (now : ℕ) (past : List ℕ) :
    Prop where
  notAfter (t : ℕ) (ht : t ∈ past) : t ≤ now
  counted (future : ℕ) (h : now ≤ future) :
    recent window future ((get c future k).getD []) = recent window future past

theorem recent_sublist : (recent window now log).Sublist log := List.filter_sublist

theorem recent_append (log log' : List ℕ) :
    recent window now (log ++ log') = recent window now log ++ recent window now log' :=
  List.filter_append log log'

theorem mem_recent : t ∈ recent window now log ↔ t ∈ log ∧ now < t+window := by
  simp [recent]

/-- What is out of the window stays out of it. -/
theorem recent_recent (h : now ≤ future) :
    recent window future (recent window now log) = recent window future log := by
  rw [recent, recent, recent, List.filter_filter]
  refine List.filter_congr fun t _ => ?_
  rw [← Bool.decide_and, decide_eq_decide]
  omega

theorem recent_eq_nil (h : ∀ t ∈ log, t+window ≤ now) : recent window now log = [] :=
  List.filter_eq_nil_iff.mpr fun t ht => by simpa using h t ht

/-- Later on the window counts no more of the same log. -/
theorem length_recent_anti (h : now ≤ future) :
    (recent window future log).length ≤ (recent window now log).length := by
  rw [← recent_recent h]
  exact recent_sublist.length_le

/-- Once the window has left one of them behind, fewer are counted. -/
theorem length_recent_lt (hmem : t ∈ log) (h : t+window ≤ now) :
    (recent window now log).length < log.length := by
  rw [recent, List.length_filter_lt_length_iff_exists]
  exact ⟨t, hmem, by simpa using h⟩

theorem within_nil : Within limit window [] := by
  intro start
  simp

/-- One more instant keeps the limit where fewer are counted before it. -/
theorem Within.concat (h : Within limit window log)
    (hfew : (recent window now log).length < limit) : Within limit window (log ++ [now]) := by
  intro start
  rw [List.filter_append, List.length_append]
  by_cases hin : start ≤ now ∧ now < start+window
  · -- what shares an interval with `now` is in the window before it
    have hsub : (log.filter fun t => start ≤ t ∧ t < start+window).length ≤
        (recent window now log).length := by
      refine (List.monotone_filter_right log fun t ht => ?_).length_le
      simp only [decide_eq_true_eq] at ht ⊢
      omega
    have hone : ([now].filter fun t => start ≤ t ∧ t < start+window).length = 1 := by simp [hin]
    omega
  · have hnone : [now].filter (fun t => start ≤ t ∧ t < start+window) = [] := by simpa using hin
    rw [hnone, List.length_nil, Nat.add_zero]
    exact h start

omit [DecidableEq K] in
theorem mirrors_empty : Mirrors window (empty : Cache K (List ℕ)) k now [] :=
  ⟨fun _ ht => absurd ht List.not_mem_nil, fun _ _ => rfl⟩

omit [DecidableEq K] in
theorem Mirrors.later (h : Mirrors window c k now past) (hle : now ≤ future) :
    Mirrors window c k future past :=
  ⟨fun t ht => Nat.le_trans (h.notAfter t ht) hle, fun t ht => h.counted t (Nat.le_trans hle ht)⟩

/-- What is written lives as long as its last instant is counted. -/
theorem Mirrors.record (h : Mirrors window c k now past) (ht : t ≤ now) :
    Mirrors window (set c now window k (recent window t past ++ [t])) k now
      (past ++ [t]) := by
  have hpast : ∀ u ∈ past ++ [t], u ≤ now := by
    intro u hu
    rcases List.mem_append.mp hu with hold | hnew
    · exact h.notAfter u hold
    · rwa [List.mem_singleton.mp hnew]
  refine ⟨hpast, fun future hlater => ?_⟩
  by_cases hlive : future < now+window
  · -- what the entry leaves out had been out of the window before
    rw [get_set_self hlive, Option.getD_some, recent_append, recent_append,
      recent_recent (Nat.le_trans ht hlater)]
  · -- the entry has expired, and the window has left all instants behind
    have hnone : get (set c now window k (recent window t past ++ [t])) future k =
        none := by
      simp [TtlCache.get, TtlCache.set, hlive]
    have hover : recent window future (past ++ [t]) = [] := by
      refine recent_eq_nil fun u hu => ?_
      have hle := hpast u hu
      omega
    rw [hnone, hover, Option.getD_none]
    rfl

theorem Mirrors.del (c : Cache K (List ℕ)) (k : K) (now : ℕ) :
    Mirrors window (TtlCache.del c k) k now [] := by
  refine ⟨fun _ ht => absurd ht List.not_mem_nil, fun future _ => ?_⟩
  simp [TtlCache.get, TtlCache.del]

theorem Mirrors.set_of_ne (h : Mirrors window c k now past) (hne : k ≠ k') {at' ttl : ℕ}
    {log : List ℕ} : Mirrors window (set c at' ttl k' log) k now past :=
  ⟨h.notAfter, fun future hlater => by rw [get_set_of_ne hne]; exact h.counted future hlater⟩

theorem Mirrors.del_of_ne (h : Mirrors window c k now past) (hne : k ≠ k') :
    Mirrors window (TtlCache.del c k') k now past :=
  ⟨h.notAfter, fun future hlater => by rw [get_del_of_ne hne]; exact h.counted future hlater⟩

end HubAssist.SlidingWindow
