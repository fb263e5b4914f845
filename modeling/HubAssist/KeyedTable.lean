import Mathlib.Data.List.Find
import Mathlib.Data.List.Nodup
import Mathlib.Tactic.Common

/-! A database table as the list of its rows, with a primary key read off each row. Saving a
row replaces the one that has its key, or appends it. -/
namespace HubAssist.KeyedTable

variable {R K : Type*} [DecidableEq K] (key : R → K)

/-- No two rows have the same key. -/
def Keyed (rows : List R) : Prop := (rows.map key).Nodup

def findRow (rows : List R) (k : K) : Option R := rows.find? fun r => key r = k

def save (rows : List R) (row : R) : List R :=
  if key row ∈ rows.map key then rows.map fun r => if key r = key row then row else r
  else rows ++ [row]

def saveAll (rows news : List R) : List R := news.foldl (save key) rows

/-- The rows with another key. -/
def others (rows : List R) (k : K) : List R := rows.filter fun r => key r ≠ k

variable {key} {rows news : List R} {row : R} {k : K}

theorem findRow_eq_some (h : findRow key rows k = some row) : row ∈ rows ∧ key row = k :=
  ⟨List.mem_of_find?_eq_some h, by simpa using List.find?_some h⟩

theorem others_eq_self (h : k ∉ rows.map key) : others key rows k = rows := by
  rw [others, List.filter_eq_self]
  intro r hr
  simp only [ne_eq, decide_not, Bool.not_eq_eq_eq_not, Bool.not_true, decide_eq_false_iff_not]
  rintro rfl
  exact h (List.mem_map_of_mem hr)

theorem save_fresh (h : key row ∉ rows.map key) : save key rows row = rows ++ [row] := if_neg h

/-- The rows after a save are the one saved and rows from before. -/
theorem mem_of_mem_save {r : R} (h : r ∈ save key rows row) : r = row ∨ r ∈ rows := by
  rw [save] at h
  split_ifs at h
  · obtain ⟨old, hold, rfl⟩ := List.mem_map.mp h
    split_ifs
    · exact Or.inl rfl
    · exact Or.inr hold
  · rcases List.mem_append.mp h with hold | hnew
    · exact Or.inr hold
    · exact Or.inl (List.mem_singleton.mp hnew)

theorem mem_of_mem_saveAll {r : R} (h : r ∈ saveAll key rows news) : r ∈ news ∨ r ∈ rows := by
  induction news generalizing rows with
  | nil => exact Or.inr h
  | cons row news ih =>
    rw [List.mem_cons]
    rcases ih h with hnews | hrows
    · exact Or.inl (Or.inr hnews)
    · rcases mem_of_mem_save hrows with rfl | hold
      · exact Or.inl (Or.inl rfl)
      · exact Or.inr hold

/-- The row that is saved is the one that is found. -/
theorem findRow_save_self : findRow key (save key rows row) (key row) = some row := by
  by_cases h : key row ∈ rows.map key
  · rw [findRow, save, if_pos h, List.find?_map]
    obtain ⟨old, hold, hkey⟩ := List.mem_map.mp h
    cases hfind : rows.find? _ with
    | none =>
      have hne := List.find?_eq_none.mp hfind old hold
      simp [hkey] at hne
    | some r =>
      have hr := List.find?_some hfind
      simp only [Function.comp_apply, decide_eq_true_eq] at hr
      split_ifs at hr with hsame
      · simp [hsame]
      · exact absurd hr hsame
  · have hnone : rows.find? (fun r => key r = key row) = none := by
      rw [List.find?_eq_none]
      intro r hr hkey
      exact h (of_decide_eq_true hkey ▸ List.mem_map_of_mem hr)
    rw [findRow, save_fresh h, List.find?_append, hnone, Option.none_or]
    simp

/-- The other rows are found as before. -/
theorem findRow_save_of_ne (h : k ≠ key row) :
    findRow key (save key rows row) k = findRow key rows k := by
  by_cases hmem : key row ∈ rows.map key
  · -- a row that is rewritten has another key, before and after
    have hsame : ((fun r => decide (key r = k)) ∘ fun r => if key r = key row then row else r) =
        fun r => decide (key r = k) := by
      funext r
      simp only [Function.comp_apply, decide_eq_decide]
      split_ifs with hr
      · rw [hr]
      · rfl
    rw [findRow, save, if_pos hmem, List.find?_map, hsame, findRow]
    cases hfind : rows.find? fun r => key r = k with
    | none => rfl
    | some r =>
      have hr : key r = k := by simpa using List.find?_some hfind
      rw [Option.map_some, if_neg (hr ▸ h)]
  · rw [findRow, save_fresh hmem, List.find?_append, findRow]
    cases rows.find? fun r => key r = k with
    | none => simp [h.symm]
    | some r => rfl

/-- A row whose key is new is appended, whatever comes before it. -/
theorem saveAll_fresh (h : ((rows ++ news).map key).Nodup) :
    saveAll key rows news = rows ++ news := by
  induction news generalizing rows with
  | nil => exact (List.append_nil rows).symm
  | cons row news ih =>
    have hfresh : key row ∉ rows.map key := by
      intro hmem
      rw [List.map_append, List.nodup_append] at h
      exact h.2.2 (key row) hmem (key row) (by simp) rfl
    have hrest : ((rows ++ [row] ++ news).map key).Nodup := by
      rwa [List.append_cons] at h
    rw [saveAll, List.foldl_cons, save_fresh hfresh, ← saveAll, ih hrest, List.append_assoc]
    rfl

/-- Saving a row whose key is there changes no key. -/
theorem map_save_of_mem (h : key row ∈ rows.map key) :
    (save key rows row).map key = rows.map key := by
  rw [save, if_pos h, List.map_map]
  apply List.map_congr_left
  intro r _
  simp only [Function.comp_apply]
  split_ifs with hk
  · exact hk.symm
  · rfl

/-- What none of the saved rows has for its key is found as before. -/
theorem findRow_saveAll_of_not_mem (h : k ∉ news.map key) :
    findRow key (saveAll key rows news) k = findRow key rows k := by
  induction news generalizing rows with
  | nil => rfl
  | cons row news ih =>
    rw [List.map_cons, List.mem_cons, not_or] at h
    rw [saveAll, List.foldl_cons, ← saveAll, ih h.2, findRow_save_of_ne h.1]

/-- Under a key of the saved rows, one of them is found. -/
theorem findRow_saveAll_of_mem (h : k ∈ news.map key) :
    ∃ row ∈ news, key row = k ∧ findRow key (saveAll key rows news) k = some row := by
  induction news generalizing rows with
  | nil => exact absurd h List.not_mem_nil
  | cons row news ih =>
    rw [saveAll, List.foldl_cons, ← saveAll]
    by_cases hnews : k ∈ news.map key
    · obtain ⟨r, hr, hkey, hfind⟩ := ih hnews
      exact ⟨r, List.mem_cons_of_mem row hr, hkey, hfind⟩
    · rw [List.map_cons] at h
      obtain rfl := (List.mem_cons.mp h).resolve_right hnews
      exact ⟨row, List.mem_cons_self, rfl,
        (findRow_saveAll_of_not_mem hnews).trans findRow_save_self⟩

theorem map_saveAll_of_mem (h : ∀ row ∈ news, key row ∈ rows.map key) :
    (saveAll key rows news).map key = rows.map key := by
  induction news generalizing rows with
  | nil => rfl
  | cons row news ih =>
    obtain ⟨hrow, hnews⟩ := List.forall_mem_cons.mp h
    have hkeys := map_save_of_mem hrow
    rw [saveAll, List.foldl_cons, ← saveAll, ih, hkeys]
    intro r hr
    rw [hkeys]
    exact hnews r hr

/-- With unique keys a row is the only one of its key. -/
theorem Keyed.perm_others (h : Keyed key rows) (hrow : row ∈ rows) :
    rows.Perm (row :: others key rows (key row)) := by
  induction rows with
  | nil => exact absurd hrow List.not_mem_nil
  | cons r rows ih =>
    obtain ⟨hr, hrows⟩ := List.nodup_cons.mp h
    by_cases hk : key r = key row
    · have hsame : r = row := by
        rcases List.mem_cons.mp hrow with heq | hmem
        · exact heq.symm
        · exact absurd (hk ▸ List.mem_map_of_mem hmem) hr
      subst hsame
      have hothers : others key (r :: rows) (key r) = rows := by
        rw [others, List.filter_cons_of_neg (by simp)]
        exact others_eq_self hr
      rw [hothers]
    · have hmem : row ∈ rows := (List.mem_cons.mp hrow).resolve_left fun heq => hk (heq ▸ rfl)
      have hothers : others key (r :: rows) (key row) = r :: others key rows (key row) := by
        rw [others, List.filter_cons_of_pos (by simpa using hk), others]
      rw [hothers]
      exact ((ih hrows hmem).cons r).trans (List.Perm.swap row r _)

/-- Saving leaves the other rows as they are and has the row once. -/
theorem Keyed.save_perm (h : Keyed key rows) (row : R) :
    (save key rows row).Perm (row :: others key rows (key row)) := by
  by_cases hmem : key row ∈ rows.map key
  · rw [save, if_pos hmem]
    obtain ⟨old, hold, hkey⟩ := List.mem_map.mp hmem
    -- the rewriting leaves the other rows alone, since their keys differ
    have hothers : (others key rows (key row)).map (fun r => if key r = key row then row else r) =
        others key rows (key row) := by
      refine (List.map_congr_left fun r hr => if_neg ?_).trans (List.map_id _)
      exact of_decide_eq_true (List.mem_filter.mp hr).2
    have hperm := (h.perm_others hold).map fun r => if key r = key row then row else r
    rwa [List.map_cons, if_pos hkey, hkey, hothers] at hperm
  · rw [save_fresh hmem, others_eq_self hmem]
    exact List.perm_append_singleton row rows

/-- After a save the rows are the one saved and those with another key. -/
theorem Keyed.mem_save_iff (h : Keyed key rows) {r : R} :
    r ∈ save key rows row ↔ r = row ∨ r ∈ rows ∧ key r ≠ key row := by
  rw [(h.save_perm row).mem_iff, List.mem_cons, others, List.mem_filter, decide_eq_true_eq]

omit [DecidableEq K] in
theorem Keyed.of_perm (h : Keyed key rows) (hperm : rows.Perm news) : Keyed key news :=
  (hperm.map key).nodup_iff.mp h

theorem Keyed.others (h : Keyed key rows) (k : K) : Keyed key (others key rows k) :=
  h.sublist (List.filter_sublist.map key)

theorem Keyed.save (h : Keyed key rows) (row : R) : Keyed key (save key rows row) := by
  refine Keyed.of_perm ?_ (h.save_perm row).symm
  refine List.nodup_cons.mpr ⟨?_, h.others (key row)⟩
  intro hmem
  obtain ⟨r, hr, hkey⟩ := List.mem_map.mp hmem
  exact of_decide_eq_true (List.mem_filter.mp hr).2 hkey

theorem Keyed.saveAll (h : Keyed key rows) (news : List R) : Keyed key (saveAll key rows news) := by
  induction news generalizing rows with
  | nil => exact h
  | cons row news ih => exact ih (h.save row)

omit [DecidableEq K] in
theorem Keyed.eq_of_key (h : Keyed key rows) {r r' : R} (hr : r ∈ rows) (hr' : r' ∈ rows)
    (hkey : key r = key r') : r = r' := List.inj_on_of_nodup_map h hr hr' hkey

/-- Every row is the one found under its key. -/
theorem Keyed.findRow_of_mem (h : Keyed key rows) (hrow : row ∈ rows) :
    findRow key rows (key row) = some row := by
  cases hfind : findRow key rows (key row) with
  | none => exact absurd (decide_eq_true rfl) (List.find?_eq_none.mp hfind row hrow)
  | some r =>
    obtain ⟨hr, hkey⟩ := findRow_eq_some hfind
    exact congrArg some (h.eq_of_key hr hrow hkey)

/-- A row that is there already is saved without a change. -/
theorem Keyed.save_of_mem (h : Keyed key rows) (hrow : row ∈ rows) :
    KeyedTable.save key rows row = rows := by
  rw [KeyedTable.save, if_pos (List.mem_map_of_mem hrow)]
  have hsame : ∀ r ∈ rows, (if key r = key row then row else r) = r := by
    intro r hr
    split_ifs with hkey
    · exact (h.eq_of_key hr hrow hkey).symm
    · rfl
  rw [List.map_congr_left hsame, List.map_id']

theorem Keyed.saveAll_of_mem (h : Keyed key rows) (hnews : ∀ row ∈ news, row ∈ rows) :
    KeyedTable.saveAll key rows news = rows := by
  induction news with
  | nil => rfl
  | cons row news ih =>
    obtain ⟨hrow, hrest⟩ := List.forall_mem_cons.mp hnews
    rw [KeyedTable.saveAll, List.foldl_cons, h.save_of_mem hrow]
    exact ih hrest

/-- Rows that have been saved are in the table. -/
theorem mem_saveAll_of_keyed (h : Keyed key news) (hrow : row ∈ news) :
    row ∈ saveAll key rows news := by
  have hmem : key row ∈ news.map key := List.mem_map_of_mem hrow
  obtain ⟨r, hr, hkey, hfound⟩ : ∃ r ∈ news, key r = key row ∧
      findRow key (saveAll key rows news) (key row) = some r := findRow_saveAll_of_mem hmem
  obtain rfl := h.eq_of_key hr hrow hkey
  exact (findRow_eq_some hfound).1

/-- What is found after a row has been replaced by one that a search does not tell from it. -/
theorem Keyed.find?_save (h : Keyed key rows) {old new : R} (hold : old ∈ rows)
    (hkey : key new = key old) (q : R → Bool) (hq : q new = q old) :
    (KeyedTable.save key rows new).find? q =
      (rows.find? q).map fun r => if key r = key new then new else r := by
  rw [KeyedTable.save, if_pos (hkey ▸ List.mem_map_of_mem hold), List.find?_map]
  congr 1
  apply List.find?_congr
  intro r hr
  by_cases hr' : key r = key new
  · obtain rfl := h.eq_of_key hr hold (hr'.trans hkey)
    simp [hr', hq]
  · simp [hr']

/-- A save that changes no entry of a column leaves the column as it is. -/
theorem Keyed.map_save (h : Keyed key rows) {L : Type*} {column : R → L} {old new : R}
    (hold : old ∈ rows) (hkey : key new = key old) (hcolumn : column new = column old) :
    (KeyedTable.save key rows new).map column = rows.map column := by
  have hmem : key new ∈ rows.map key := hkey ▸ List.mem_map_of_mem hold
  rw [KeyedTable.save, if_pos hmem, List.map_map]
  apply List.map_congr_left
  intro r hr
  by_cases hsame : key r = key new
  · obtain rfl := h.eq_of_key hr hold (hsame.trans hkey)
    simp [hkey, hcolumn]
  · simp [hsame]

/-- Counting before and after a row of the table is saved. -/
theorem Keyed.countP_save (h : Keyed key rows) (p : R → Bool) (row : R) :
    (KeyedTable.save key rows row).countP p =
      (KeyedTable.others key rows (key row)).countP p+if p row then 1 else 0 := by
  rw [(h.save_perm row).countP_eq p, List.countP_cons]

theorem Keyed.countP_others (h : Keyed key rows) (p : R → Bool) (hrow : row ∈ rows) :
    rows.countP p = (KeyedTable.others key rows (key row)).countP p+if p row then 1 else 0 := by
  rw [(h.perm_others hrow).countP_eq p, List.countP_cons]

section Fold

/- A loop over rows, each step of which can be observed at the key of its row only. -/
variable {S O : Type*} {observe : S → K → O} {step : S → R → S}

omit [DecidableEq K] in
theorem observe_foldl_of_notMem (hother : ∀ s r k, k ≠ key r → observe (step s r) k = observe s k)
    (h : k ∉ rows.map key) (s : S) : observe (rows.foldl step s) k = observe s k := by
  induction rows generalizing s with
  | nil => rfl
  | cons r rows ih =>
    rw [List.map_cons, List.mem_cons, not_or] at h
    rw [List.foldl_cons, ih h.2, hother s r k h.1]

omit [DecidableEq K] in
theorem Keyed.observe_foldl (h : Keyed key rows) (observe : S → K → O) (result : R → O → O)
    (hself : ∀ s r, observe (step s r) (key r) = result r (observe s (key r)))
    (hother : ∀ s r k, k ≠ key r → observe (step s r) k = observe s k) (hrow : row ∈ rows) (s : S) :
    observe (rows.foldl step s) (key row) = result row (observe s (key row)) := by
  induction rows generalizing s with
  | nil => cases hrow
  | cons r rows ih =>
    obtain ⟨hfresh, hrest⟩ := List.nodup_cons.mp h
    rw [List.foldl_cons]
    rcases List.mem_cons.mp hrow with rfl | hmem
    · rw [observe_foldl_of_notMem hother hfresh, hself]
    · have hne : key row ≠ key r := fun heq => hfresh (heq ▸ List.mem_map_of_mem hmem)
      rw [ih hrest hmem, hother s r _ hne]

end Fold

end HubAssist.KeyedTable
