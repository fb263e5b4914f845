import Mathlib.Data.List.Nodup
import Mathlib.Tactic.Common

/-! Rows read page by page at offsets, newest first, while new rows come in between the requests. -/
namespace HubAssist.OffsetFeed

variable {R : Type*}

def skipTake (page limit : ℕ) (rows : List R) : List R := (rows.drop ((page-1)*limit)).take limit

/-- The quotient, rounded up. -/
def pageCount (total limit : ℕ) : ℕ := (total+limit-1)/limit

/-- A client that asks for one page after another up to the last one. -/
structure Reader (R : Type*) where
  page : ℕ
  shown : List R
  done : Bool

def Reader.start : Reader R := ⟨1, [], false⟩

def Reader.read (limit : ℕ) (rows : List R) (r : Reader R) : Reader R :=
  if r.done then r
  else ⟨r.page+1, r.shown ++ skipTake r.page limit rows, pageCount rows.length limit ≤ r.page⟩

variable {limit total page : ℕ} {first rows new : List R} {r : Reader R}

theorem pageCount_le_iff (hlimit : 0 < limit) :
    pageCount total limit ≤ page ↔ total ≤ page*limit := by
  rw [pageCount, Nat.div_le_iff_le_mul_add_pred hlimit, Nat.mul_comm]
  omega

/-- Every row is on a page, and a page holds nothing else. -/
theorem mem_skipTake_iff (hlimit : 0 < limit) {x : R} :
    (∃ page, 1 ≤ page ∧ x ∈ skipTake page limit rows) ↔ x ∈ rows := by
  constructor
  · rintro ⟨page, _, hx⟩
    exact List.mem_of_mem_drop (List.mem_of_mem_take hx)
  · intro hx
    obtain ⟨i, hi, rfl⟩ := List.mem_iff_getElem.mp hx
    have hdiv : i/limit*limit+i%limit = i := Nat.div_add_mod' i limit
    have hmod : i%limit < limit := Nat.mod_lt i hlimit
    refine ⟨i/limit+1, Nat.le_add_left 1 _, ?_⟩
    rw [skipTake, Nat.add_sub_cancel]
    have hlength : i%limit < ((rows.drop (i/limit*limit)).take limit).length := by
      rw [List.length_take, List.length_drop]
      omega
    have hget : ((rows.drop (i/limit*limit)).take limit)[i%limit] = rows[i] := by
      rw [List.getElem_take, List.getElem_drop]
      simp only [hdiv]
    exact hget ▸ List.getElem_mem hlength

theorem take_skipTake (h : 1 ≤ page) :
    rows.take ((page-1)*limit) ++ skipTake page limit rows = rows.take (page*limit) := by
  have hpage : page*limit = (page-1)*limit+limit := by
    rw [← Nat.succ_mul, Nat.succ_eq_add_one, Nat.sub_add_cancel h]
  rw [hpage, List.take_add]
  rfl

/-- The client has been shown those of the first rows that stand before its page, and all of them
when it is done. -/
structure Reads (limit : ℕ) (first rows : List R) (r : Reader R) : Prop where
  page_pos : 1 ≤ r.page
  before : ∀ x ∈ rows.take ((r.page-1)*limit), x ∈ first → x ∈ r.shown
  finished : r.done = true → ∀ x ∈ first, x ∈ r.shown
  kept : ∀ x ∈ first, x ∈ rows

theorem Reads.start : Reads limit rows rows Reader.start :=
  ⟨Nat.le_refl 1, by simp [Reader.start], by simp [Reader.start], fun _ hx => hx⟩

/-- New rows push the others on, so what has been shown is still before the page. -/
theorem Reads.push (h : Reads limit first rows r) (hnew : ∀ x ∈ new, x ∉ first) :
    Reads limit first (new ++ rows) r := by
  refine ⟨h.page_pos, fun x hx hfirst => ?_, h.finished, fun x hx => ?_⟩
  · rw [List.take_append] at hx
    rcases List.mem_append.mp hx with hx | hx
    · exact absurd hfirst (hnew x (List.mem_of_mem_take hx))
    · exact h.before x (List.take_subset_take_left _ (Nat.sub_le _ _) hx) hfirst
  · exact List.mem_append_right new (h.kept x hx)

theorem Reads.read (hlimit : 0 < limit) (h : Reads limit first rows r) :
    Reads limit first rows (r.read limit rows) := by
  unfold Reader.read
  split_ifs with hdone
  · exact h
  · have hbefore : ∀ x ∈ rows.take (r.page*limit), x ∈ first →
        x ∈ r.shown ++ skipTake r.page limit rows := by
      intro x hx hfirst
      rw [← take_skipTake h.page_pos] at hx
      rcases List.mem_append.mp hx with hx | hx
      · exact List.mem_append_left _ (h.before x hx hfirst)
      · exact List.mem_append_right _ hx
    refine ⟨Nat.le_add_left 1 _, hbefore, fun hlast x hx => ?_, h.kept⟩
    have hall : rows.length ≤ r.page*limit :=
      (pageCount_le_iff hlimit).mp (of_decide_eq_true hlast)
    apply hbefore x _ hx
    rw [List.take_of_length_le hall]
    exact h.kept x hx

/-- The client has been shown exactly the rows before its page. -/
def Exact (limit : ℕ) (rows : List R) (r : Reader R) : Prop :=
  1 ≤ r.page ∧ r.shown = rows.take ((r.page-1)*limit) ∧ (r.done = true → r.shown = rows)

theorem Exact.start : Exact limit rows Reader.start := by simp [Exact, Reader.start]

theorem Exact.read (hlimit : 0 < limit) (h : Exact limit rows r) :
    Exact limit rows (r.read limit rows) := by
  have ⟨hpage, hshown, _⟩ := h
  unfold Reader.read
  split_ifs with hdone
  · exact h
  · have hnext : r.shown ++ skipTake r.page limit rows = rows.take (r.page*limit) := by
      rw [hshown, take_skipTake hpage]
    refine ⟨Nat.le_add_left 1 _, hnext, fun hlast => ?_⟩
    have hall : rows.length ≤ r.page*limit :=
      (pageCount_le_iff hlimit).mp (of_decide_eq_true hlast)
    exact hnext.trans (List.take_of_length_le hall)

/-- A client that is not done has read as many pages as it has asked for, and there was more. -/
def Pending (limit reads : ℕ) (rows : List R) (r : Reader R) : Prop :=
  r.done = false → r.page = reads+1 ∧ (0 < reads → reads*limit < rows.length)

theorem Pending.start : Pending limit 0 rows Reader.start :=
  fun _ => ⟨rfl, fun h => absurd h (by decide)⟩

theorem Pending.push {reads : ℕ} (h : Pending limit reads rows r) :
    Pending limit reads (new ++ rows) r := by
  intro hdone
  obtain ⟨hpage, hmore⟩ := h hdone
  refine ⟨hpage, fun hreads => ?_⟩
  rw [List.length_append]
  have := hmore hreads
  omega

theorem Pending.read {reads : ℕ} (hlimit : 0 < limit) (h : Pending limit reads rows r) :
    Pending limit (reads+1) rows (r.read limit rows) := by
  unfold Reader.read
  split_ifs with hdone
  · intro hopen
    rw [hdone] at hopen
    cases hopen
  · intro hlast
    obtain ⟨hpage, _⟩ := h (eq_false_of_ne_true hdone)
    have hmore := mt (pageCount_le_iff hlimit).mpr (of_decide_eq_false hlast)
    rw [hpage] at hmore ⊢
    exact ⟨rfl, fun _ => by omega⟩

end HubAssist.OffsetFeed
