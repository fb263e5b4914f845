import HubAssist.KeyedTable
import Mathlib.Algebra.BigOperators.Group.List.Basic
import Mathlib.Data.Finset.Sort
import Mathlib.Data.List.Induction

/-! Grouping a list by a key: each element is added to the row of its group, which is made when the
first one comes. A row collects the elements of its group in order, and what the rows hold in all
is what the elements bring. -/
namespace HubAssist.GroupTable
open KeyedTable

variable {R K X M : Type*} [DecidableEq K] (key : R → K) (fresh : K → R) (add : R → X → R)
variable (groupOf : X → K)

def enter (rows : List R) (x : X) : List R :=
  save key rows (add ((findRow key rows (groupOf x)).getD (fresh (groupOf x))) x)

def group (xs : List X) : List R := xs.foldl (enter key fresh add groupOf) []

/-- The elements of a group. -/
def members (xs : List X) (k : K) : List X := xs.filter fun x => groupOf x = k

/-- A new row has its key, and adding to a row keeps it. -/
structure Lawful : Prop where
  key_fresh (k : K) : key (fresh k) = k
  key_add (r : R) (x : X) : key (add r x) = key r

variable {key fresh add groupOf} {rows : List R} {xs : List X} {x : X} {r : R} {k : K}

theorem group_concat (xs : List X) (x : X) : group key fresh add groupOf (xs ++ [x]) =
    enter key fresh add groupOf (group key fresh add groupOf xs) x := by
  rw [group, List.foldl_concat]
  rfl

theorem keyed_group (xs : List X) : Keyed key (group key fresh add groupOf xs) := by
  induction xs using List.reverseRecOn with
  | nil => exact List.nodup_nil
  | append_singleton xs x ih =>
    rw [group_concat]
    exact Keyed.save ih _

/-- The row that an element goes to. -/
theorem key_target (h : Lawful key fresh add) (rows : List R) (x : X) :
    key (add ((findRow key rows (groupOf x)).getD (fresh (groupOf x))) x) = groupOf x := by
  rw [h.key_add]
  cases hfind : findRow key rows (groupOf x) with
  | none => exact h.key_fresh (groupOf x)
  | some r => exact (findRow_eq_some hfind).2

theorem findRow_enter_self (h : Lawful key fresh add) (rows : List R) (x : X) :
    findRow key (enter key fresh add groupOf rows x) (groupOf x) =
      some (add ((findRow key rows (groupOf x)).getD (fresh (groupOf x))) x) := by
  have hkey : key _ = groupOf x := key_target h rows x
  rw [enter]
  generalize add ((findRow key rows (groupOf x)).getD (fresh (groupOf x))) x = row at hkey ⊢
  rw [← hkey, findRow_save_self]

theorem findRow_enter_of_ne (h : Lawful key fresh add) (rows : List R) (hne : groupOf x ≠ k) :
    findRow key (enter key fresh add groupOf rows x) k = findRow key rows k := by
  have hkey : key _ = groupOf x := key_target h rows x
  rw [enter, findRow_save_of_ne]
  rw [hkey]
  exact hne.symm

/-- The row of a group is made of its elements, and is there once it has one. -/
theorem findRow_group (h : Lawful key fresh add) (xs : List X) (k : K) :
    findRow key (group key fresh add groupOf xs) k =
      if members groupOf xs k = [] then none
      else some ((members groupOf xs k).foldl add (fresh k)) := by
  induction xs using List.reverseRecOn with
  | nil => rfl
  | append_singleton xs x ih =>
    rw [group_concat, members, List.filter_append, ← members]
    by_cases hx : groupOf x = k
    · subst hx
      have hself : List.filter (fun y => decide (groupOf y = groupOf x)) [x] = [x] := by simp
      rw [hself, if_neg (by simp), List.foldl_concat, findRow_enter_self h, ih]
      split_ifs with hnone
      · rw [hnone]
        rfl
      · rfl
    · have hother : List.filter (fun y => decide (groupOf y = k)) [x] = [] := by simp [hx]
      rw [hother, List.append_nil, findRow_enter_of_ne h _ hx, ih]

theorem mem_group_iff (h : Lawful key fresh add) : r ∈ group key fresh add groupOf xs ↔
    members groupOf xs (key r) ≠ [] ∧
      r = (members groupOf xs (key r)).foldl add (fresh (key r)) := by
  have hfind : findRow key (group key fresh add groupOf xs) (key r) = _ :=
    findRow_group h xs (key r)
  constructor
  · intro hr
    rw [Keyed.findRow_of_mem (keyed_group xs) hr] at hfind
    split_ifs at hfind with hnone
    exact ⟨hnone, Option.some.inj hfind⟩
  · rintro ⟨hne, heq⟩
    rw [if_neg hne, ← heq] at hfind
    exact (findRow_eq_some hfind).1

/-- The groups that have a row are those of the elements. -/
theorem exists_row_iff (h : Lawful key fresh add) :
    (∃ r ∈ group key fresh add groupOf xs, key r = k) ↔ ∃ x ∈ xs, groupOf x = k := by
  have hfind : findRow key (group key fresh add groupOf xs) k = _ := findRow_group h xs k
  have hmembers : members groupOf xs k ≠ [] ↔ ∃ x ∈ xs, groupOf x = k := by
    simp [members]
  rw [← hmembers]
  constructor
  · rintro ⟨r, hr, rfl⟩
    exact ((mem_group_iff h).mp hr).1
  · intro hne
    rw [if_neg hne] at hfind
    exact ⟨_, findRow_eq_some hfind⟩

variable [AddCommMonoid M] {f : R → M} {g : X → M}

/-- A row that is saved in the place of the one found adds what it has more. -/
theorem sum_enter (hfresh : ∀ k, f (fresh k) = 0) (hadd : ∀ r x, f (add r x) = f r+g x)
    (h : Lawful key fresh add) (hrows : Keyed key rows) (x : X) :
    ((enter key fresh add groupOf rows x).map f).sum = (rows.map f).sum+g x := by
  rw [enter, ((hrows.save_perm _).map f).sum_eq, List.map_cons, List.sum_cons, hadd,
    key_target h]
  cases hfind : findRow key rows (groupOf x) with
  | none =>
    have hnew : groupOf x ∉ rows.map key := by
      intro hmem
      obtain ⟨r, hr, hkey⟩ := List.mem_map.mp hmem
      exact List.find?_eq_none.mp hfind r hr (decide_eq_true hkey)
    rw [Option.getD_none, hfresh, zero_add, others_eq_self hnew, add_comm]
  | some r =>
    obtain ⟨hr, hkey⟩ := findRow_eq_some hfind
    rw [Option.getD_some, ((hrows.perm_others hr).map f).sum_eq, List.map_cons, List.sum_cons,
      hkey, add_right_comm]

/-- What the rows hold in all is what the elements have brought. -/
theorem sum_group (hfresh : ∀ k, f (fresh k) = 0) (hadd : ∀ r x, f (add r x) = f r+g x)
    (h : Lawful key fresh add) (xs : List X) :
    ((group key fresh add groupOf xs).map f).sum = (xs.map g).sum := by
  induction xs using List.reverseRecOn with
  | nil => rfl
  | append_singleton xs x ih =>
    rw [group_concat, sum_enter hfresh hadd h (keyed_group xs), ih, List.map_append,
      List.sum_append, List.map_singleton, List.sum_singleton]

/-- Distinct keys that cover the elements share out what these bring. -/
theorem sum_members {ks : List K} (hks : ks.Nodup) (hall : ∀ x ∈ xs, groupOf x ∈ ks) :
    (ks.map fun k => ((members groupOf xs k).map g).sum).sum = (xs.map g).sum := by
  induction xs with
  | nil => simp [members]
  | cons x xs ih =>
    obtain ⟨hx, hrest⟩ := List.forall_mem_cons.mp hall
    have hself : members groupOf (x :: xs) (groupOf x) = x :: members groupOf xs (groupOf x) :=
      List.filter_cons_of_pos (by simp)
    have hothers : (ks.erase (groupOf x)).map (fun k =>
          ((members groupOf (x :: xs) k).map g).sum) =
        (ks.erase (groupOf x)).map fun k => ((members groupOf xs k).map g).sum := by
      apply List.map_congr_left
      intro k hk
      have hne : groupOf x ≠ k := by
        rintro rfl
        exact hks.not_mem_erase hk
      rw [members, List.filter_cons_of_neg (by simpa using hne), members]
    have hperm := List.perm_cons_erase hx
    rw [(hperm.map _).sum_eq, List.map_cons, List.sum_cons, hself, hothers, List.map_cons,
      List.sum_cons, List.map_cons, List.sum_cons, add_assoc, ← ih hrest, (hperm.map _).sum_eq,
      List.map_cons, List.sum_cons]

section Ordered
variable {K L X M : Type*} [LinearOrder K] [DecidableEq L] (groupOf : X → K) (xs : List X)

/-- The keys of the groups that have an element, in their order. -/
def keys : List K := (xs.map groupOf).toFinset.sort

/-- The groups in the order of their keys, each with its elements. -/
def ordered : List (K × List X) := (keys groupOf xs).map fun k => (k, members groupOf xs k)

variable {groupOf xs} {k : K} {p : K × List X}

theorem mem_keys : k ∈ keys groupOf xs ↔ ∃ x ∈ xs, groupOf x = k := by
  simp [keys]

theorem nodup_keys : (keys groupOf xs).Nodup := Finset.sort_nodup _ _

theorem keys_lt : (keys groupOf xs).Pairwise (· < ·) := (Finset.sortedLT_sort _).pairwise

theorem ordered_lt : (ordered groupOf xs).Pairwise fun p p' => p.1 < p'.1 :=
  List.pairwise_map.mpr keys_lt

theorem mem_ordered : p ∈ ordered groupOf xs ↔
    (∃ x ∈ xs, groupOf x = p.1) ∧ p.2 = members groupOf xs p.1 := by
  constructor
  · intro hp
    obtain ⟨k, hk, rfl⟩ := List.mem_map.mp hp
    exact ⟨mem_keys.mp hk, rfl⟩
  · rintro ⟨hk, hmembers⟩
    exact List.mem_map.mpr ⟨p.1, mem_keys.mpr hk, Prod.ext rfl hmembers.symm⟩

variable [AddCommMonoid M] {g : X → M}

/-- Groups that are joined by a coarser key bring together what the coarser group brings. -/
theorem sum_ordered_filter (coarse : K → L) (l : L) :
    (((ordered groupOf xs).filter fun p => coarse p.1 = l).map fun p => (p.2.map g).sum).sum =
      ((members (fun x => coarse (groupOf x)) xs l).map g).sum := by
  have hcover : ∀ x ∈ members (fun x => coarse (groupOf x)) xs l,
      groupOf x ∈ (keys groupOf xs).filter fun k => coarse k = l := by
    intro x hx
    obtain ⟨hmem, hl⟩ := List.mem_filter.mp hx
    exact List.mem_filter.mpr ⟨mem_keys.mpr ⟨x, hmem, rfl⟩, hl⟩
  rw [← sum_members (nodup_keys.filter _) hcover, ordered, List.filter_map, List.map_map]
  congr 1
  apply List.map_congr_left
  intro k hk
  have hl : coarse k = l := by simpa using (List.mem_filter.mp hk).2
  -- an element of the finer group is one of the coarser group too
  have hmembers : members groupOf (members (fun x => coarse (groupOf x)) xs l) k =
      members groupOf xs k := by
    rw [members, members, List.filter_filter, members]
    apply List.filter_congr
    intro x _
    by_cases hx : groupOf x = k
    · simp [hx, hl]
    · simp [hx]
  rw [hmembers]
  rfl

theorem sum_ordered : ((ordered groupOf xs).map fun p => (p.2.map g).sum).sum = (xs.map g).sum := by
  have h := @sum_ordered_filter K Unit X M _ _ groupOf xs _ g (fun _ => ()) ()
  simpa [members] using h

end Ordered

end HubAssist.GroupTable
