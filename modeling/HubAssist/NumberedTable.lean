import Mathlib.Data.List.Nodup
import Mathlib.Data.List.Range
import Mathlib.Logic.Function.Basic
import Mathlib.Tactic.Common

/-! A table whose entries are numbered from one by a counter, and lists kept beside it that hold,
for each value of a key, the numbers of the entries with that value. -/
namespace HubAssist.NumberedTable
open Function

variable {V K R : Type*} [DecidableEq K]

/-- The numbers in use are exactly those from one up to the counter. -/
def Dense (count : ℕ) (table : ℕ → Option V) : Prop :=
  ∀ id, (table id).isSome = true ↔ 1 ≤ id ∧ id ≤ count

/-- All entries in the order of their numbers. -/
def records (count : ℕ) (table : ℕ → Option V) : List V := (List.range' 1 count).filterMap table

/-- The numbers of the entries whose key is `k`, in order. -/
def numbers (key : V → K) (count : ℕ) (table : ℕ → Option V) (k : K) : List ℕ :=
  (List.range' 1 count).filter fun id => (table id).map key = some k

/-- The entries are numbered from one up to the counter, each carries its own number in its summary,
and their summaries are the log of what has been entered. -/
structure Logged (summary : V → R) (number : R → ℕ) (count : ℕ) (table : ℕ → Option V)
    (log : List R) : Prop where
  dense : Dense count table
  own : ∀ id v, table id = some v → number (summary v) = id
  entered : (records count table).map summary = log

/-- Each list holds the numbers of its entries, and a list that is absent would be empty. -/
def Indexed (key : V → K) (count : ℕ) (table : ℕ → Option V) (lists : K → Option (List ℕ)) : Prop :=
  ∀ k, (lists k).getD [] = numbers key count table k

variable {key : V → K} {count : ℕ} {table table' : ℕ → Option V} {lists : K → Option (List ℕ)}

omit [DecidableEq K] in
theorem dense_empty : Dense 0 (fun _ => (none : Option V)) := by
  intro id
  refine iff_of_false (by simp) ?_
  omega

omit [DecidableEq K] in
theorem Dense.pos_le (h : Dense count table) {id : ℕ} {v : V} (hv : table id = some v) :
    1 ≤ id ∧ id ≤ count := (h id).mp (by rw [hv]; rfl)

omit [DecidableEq K] in
/-- The next entry gets the next number. -/
theorem Dense.push (h : Dense count table) (v : V) :
    Dense (count+1) (update table (count+1) (some v)) := by
  intro id
  by_cases hid : id = count+1
  · rw [hid, update_self]
    exact iff_of_true rfl (by omega)
  · rw [update_of_ne hid, h id]
    omega

omit [DecidableEq K] in
/-- Rewriting entries that exist keeps the numbering. -/
theorem Dense.congr (h : Dense count table) (hsame : ∀ id, (table' id).isSome = (table id).isSome) :
    Dense count table' := fun id => by rw [hsame id, h id]

omit [DecidableEq K] in
/-- Below the number just taken nothing has changed. -/
theorem update_next_of_mem {id : ℕ} (hid : id ∈ List.range' 1 count) (o : Option V) :
    update table (count+1) o id = table id := by
  have hle := List.mem_range'_1.mp hid
  exact update_of_ne (by omega) _ _

omit [DecidableEq K] in
theorem records_push (v : V) :
    records (count+1) (update table (count+1) (some v)) = records count table ++ [v] := by
  have hold : (List.range' 1 count).filterMap (update table (count+1) (some v)) =
      (List.range' 1 count).filterMap table :=
    List.filterMap_congr fun id hid => update_next_of_mem hid _
  have hnew : [1+count].filterMap (update table (count+1) (some v)) = [v] := by
    rw [Nat.add_comm 1 count, List.filterMap_cons, update_self]
    rfl
  rw [records, List.range'_1_concat, List.filterMap_append, hold, hnew]
  rfl

theorem numbers_push (v : V) (k : K) :
    numbers key (count+1) (update table (count+1) (some v)) k =
      numbers key count table k ++ if key v = k then [count+1] else [] := by
  have hold : (List.range' 1 count).filter
        (fun id => (update table (count+1) (some v) id).map key = some k) =
      (List.range' 1 count).filter fun id => (table id).map key = some k :=
    List.filter_congr fun id hid => by rw [update_next_of_mem hid]
  rw [numbers, List.range'_1_concat, List.filter_append, hold, Nat.add_comm 1 count]
  congr 1
  rw [List.filter_singleton, update_self, Option.map_some]
  by_cases hk : key v = k <;> simp [hk]

/-- The lists are about the keys alone. -/
theorem numbers_congr (hsame : ∀ id, (table' id).map key = (table id).map key) (k : K) :
    numbers key count table' k = numbers key count table k :=
  List.filter_congr fun id _ => by rw [hsame id]

theorem indexed_empty (key : V → K) : Indexed key 0 (fun _ => none) fun _ => none := fun _ => rfl

/-- The next entry is put at the end of the list of its key. -/
theorem Indexed.push (h : Indexed key count table lists) (v : V) :
    Indexed key (count+1) (update table (count+1) (some v))
      (update lists (key v) (some ((lists (key v)).getD [] ++ [count+1]))) := by
  intro k
  rw [numbers_push]
  by_cases hk : k = key v
  · rw [hk, update_self, Option.getD_some, h (key v), if_pos rfl]
  · rw [update_of_ne hk, h k, if_neg (Ne.symm hk), List.append_nil]

theorem Indexed.congr (h : Indexed key count table lists)
    (hsame : ∀ id, (table' id).map key = (table id).map key) :
    Indexed key count table' lists := fun k => by rw [h k, numbers_congr hsame]

/-- Looking the numbers of a list up gives the entries with its key, in order. -/
theorem filterMap_numbers (k : K) :
    (numbers key count table k).filterMap table =
      (records count table).filter fun v => key v = k := by
  rw [numbers, records, List.filterMap_filter, List.filter_filterMap]
  apply List.filterMap_congr
  intro id _
  cases h : table id with
  | none => simp
  | some v => by_cases hk : key v = k <;> simp [hk, Option.filter]

theorem Indexed.lookup (h : Indexed key count table lists) (k : K) :
    ((lists k).getD []).filterMap table = (records count table).filter fun v => key v = k := by
  rw [h k, filterMap_numbers]

omit [DecidableEq K] in
theorem Dense.number_eq (h : Dense count table) {number : V → ℕ}
    (hown : ∀ id v, table id = some v → number v = id) {id : ℕ}
    (hid : id ∈ List.range' 1 count) : (table id).map number = some id := by
  have hrange := List.mem_range'_1.mp hid
  obtain ⟨v, hv⟩ := Option.isSome_iff_exists.mp ((h id).mpr (by omega))
  rw [hv, Option.map_some, hown id v hv]

omit [DecidableEq K] in
/-- The entries carry all the numbers in use, each once and in order. -/
theorem Dense.map_records (h : Dense count table) {number : V → ℕ}
    (hown : ∀ id v, table id = some v → number v = id) :
    (records count table).map number = List.range' 1 count := by
  rw [records, List.map_filterMap]
  refine (List.filterMap_congr fun id hid => ?_).trans List.filterMap_some
  exact h.number_eq hown hid

/-- Where every entry carries its own number, a list is read off the entries themselves. -/
theorem Indexed.map_number (h : Indexed key count table lists) (hdense : Dense count table)
    {number : V → ℕ} (hown : ∀ id v, table id = some v → number v = id) (k : K) :
    (lists k).getD [] = ((records count table).filter fun v => key v = k).map number := by
  rw [← filterMap_numbers, ← h k, List.map_filterMap]
  refine ((List.filterMap_congr fun id hid => ?_).trans List.filterMap_some).symm
  rw [h k] at hid
  exact hdense.number_eq hown (List.mem_of_mem_filter hid)

section Log

variable {summary : V → R} {number : R → ℕ} {log : List R}

omit [DecidableEq K] in
theorem logged_empty (summary : V → R) (number : R → ℕ) :
    Logged summary number 0 (fun _ => none) [] :=
  ⟨dense_empty, fun _ _ h => absurd h (by simp), rfl⟩

omit [DecidableEq K] in
theorem Logged.push (h : Logged summary number count table log) (v : V)
    (hv : number (summary v) = count+1) :
    Logged summary number (count+1) (update table (count+1) (some v)) (log ++ [summary v]) := by
  refine ⟨h.dense.push v, fun id u hu => ?_, ?_⟩
  · by_cases hid : id = count+1
    · rw [hid, update_self] at hu
      rw [← Option.some.inj hu, hid, hv]
    · rw [update_of_ne hid] at hu
      exact h.own id u hu
  · rw [records_push, List.map_append, h.entered, List.map_singleton]

omit [DecidableEq K] in
/-- Entries that are rewritten with the same summary are entered as before. -/
theorem Logged.congr (h : Logged summary number count table log)
    (hsame : ∀ id, (table' id).map summary = (table id).map summary) :
    Logged summary number count table' log := by
  have hsome (id : ℕ) : (table' id).isSome = (table id).isSome := by
    rw [← Option.isSome_map (f := summary), hsame id, Option.isSome_map]
  refine ⟨h.dense.congr hsome, fun id v' hv' => ?_, ?_⟩
  · have heq := hsame id
    rw [hv', Option.map_some, eq_comm, Option.map_eq_some_iff] at heq
    obtain ⟨v, hv, hsummary⟩ := heq
    rw [← hsummary]
    exact h.own id v hv
  · rw [← h.entered, records, records, List.map_filterMap, List.map_filterMap]
    exact List.filterMap_congr fun id _ => hsame id

omit [DecidableEq K] in
/-- Whatever is stored has been entered. -/
theorem Logged.mem (h : Logged summary number count table log) {id : ℕ} {v : V}
    (hv : table id = some v) : summary v ∈ log := by
  rw [← h.entered, records]
  have hrange : id ∈ List.range' 1 count := by
    have hle := h.dense.pos_le hv
    rw [List.mem_range'_1]
    omega
  exact List.mem_map_of_mem (List.mem_filterMap.mpr ⟨id, hrange, hv⟩)

omit [DecidableEq K] in
theorem Logged.map_records (h : Logged summary number count table log) :
    (records count table).map (fun v => number (summary v)) = List.range' 1 count :=
  h.dense.map_records h.own

omit [DecidableEq K] in
/-- The numbers entered are those from one on, in the order in which they were entered. -/
theorem Logged.map_number (h : Logged summary number count table log) :
    log.map number = List.range' 1 count := by
  rw [← h.map_records, ← h.entered, List.map_map]
  rfl

/-- An index over a field of the summary is kept with the summaries. -/
theorem Indexed.congr_summary {field : R → K}
    (h : Indexed (fun v => field (summary v)) count table lists)
    (hsame : ∀ id, (table' id).map summary = (table id).map summary) :
    Indexed (fun v => field (summary v)) count table' lists := by
  apply h.congr
  intro id
  have hfield := congrArg (Option.map field) (hsame id)
  rwa [Option.map_map, Option.map_map] at hfield

end Log

end HubAssist.NumberedTable
