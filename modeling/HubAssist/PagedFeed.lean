import Mathlib.Data.List.Basic
import Mathlib.Data.List.Nodup
import Mathlib.Order.Lattice
import Mathlib.Tactic.Common

/-! A feed read page by page: a request answers with items and, where there are more, with the
cursor of the next request. -/
namespace HubAssist.PagedFeed

variable {E C R : Type*}

/-- The items of one answer and the cursor that leads on. -/
structure Page (R C : Type*) where
  items : List R
  next : Option C

/-- A client that starts at a cursor and follows every cursor it is given comes to an end, with
these items in this order. -/
inductive Follows (request : Option C → Except E (Page R C)) : Option C → List R → Prop where
  | last {c p} (hpage : request c = .ok p) (hnext : p.next = none) : Follows request c p.items
  | more {c p c' rest} (hpage : request c = .ok p) (hnext : p.next = some c')
      (hrest : Follows request (some c') rest) : Follows request c (p.items ++ rest)

variable {request : Option C → Except E (Page R C)}

/-- What a request answers decides how the client goes on. -/
theorem follows_iff {c : Option C} {p : Page R C} (hpage : request c = .ok p) {items : List R} :
    Follows request c items ↔
      match p.next with
      | none => items = p.items
      | some c' => ∃ rest, items = p.items ++ rest ∧ Follows request (some c') rest := by
  constructor
  · intro h
    cases h with
    | last hpage' hnext =>
      obtain rfl := Except.ok.inj (hpage.symm.trans hpage')
      rw [hnext]
    | more hpage' hnext hrest =>
      obtain rfl := Except.ok.inj (hpage.symm.trans hpage')
      rw [hnext]
      exact ⟨_, rfl, hrest⟩
  · intro h
    cases hnext : p.next with
    | none =>
      rw [hnext] at h
      exact h ▸ .last hpage hnext
    | some c' =>
      rw [hnext] at h
      obtain ⟨rest, rfl, hrest⟩ := h
      exact .more hpage hnext hrest

theorem not_follows_of_error {c : Option C} {e : E} (h : request c = .error e) (items : List R) :
    ¬Follows request c items := by
  intro hf
  cases hf with
  | last hpage => exact absurd (h.symm.trans hpage) (by simp)
  | more hpage => exact absurd (h.symm.trans hpage) (by simp)

section Keyset

variable (limit : ℕ) (mark : R → C) (beyond : C → R → Bool)

/-- A page of these rows, with the mark of its last item where it does not hold them all. -/
def pageOf (rows : List R) : Page R C where
  items := rows.take limit
  next := if limit < rows.length then (rows.take limit).getLast?.map mark else none

/-- One row ends a full page and the other one comes next. -/
def PageEnd (rows : List R) (a b : R) : Prop :=
  ∃ i, rows[i]? = some a ∧ rows[i+1]? = some b ∧ limit ∣ i+1

/-- What lies beyond the mark of a row comes after the row, and with a row so does everything
behind it. -/
structure Keyset (rows : List R) : Prop where
  self : ∀ a ∈ rows, beyond (mark a) a = false
  back : rows.Pairwise fun a b => beyond (mark b) a = false
  closed : ∀ m ∈ rows, rows.Pairwise fun a b => beyond (mark m) a = true → beyond (mark m) b = true
  trans : ∀ a ∈ rows, ∀ b ∈ rows, ∀ c ∈ rows, beyond (mark a) b = true →
    beyond (mark b) c = true → beyond (mark a) c = true

variable {limit mark beyond} {rows front rest items : List R} {a b : R} {c : Option C}

theorem pageOf_last (h : rows.length ≤ limit) : pageOf limit mark rows = ⟨rows, none⟩ := by
  rw [pageOf, List.take_of_length_le h, if_neg (by omega)]

/-- The mark of a page that is not the last. -/
theorem pageOf_more {i : ℕ} (hlimit : limit = i+1) (ha : rows[i]? = some a)
    (h : limit < rows.length) : pageOf limit mark rows = ⟨rows.take limit, some (mark a)⟩ := by
  have hlast : (rows.take limit).getLast? = some a := by
    rw [List.getLast?_eq_getElem?, List.length_take, List.getElem?_take, if_pos (by omega), ← ha]
    congr 1
    omega
  rw [pageOf, if_pos h, hlast]
  rfl

/-- The ends of pages: that of the first one, and those of the rows behind it. -/
theorem pageEnd_iff {i : ℕ} (hlimit : limit = i+1) :
    PageEnd limit rows a b ↔ (rows[i]? = some a ∧ rows[i+1]? = some b) ∨
      PageEnd limit (rows.drop limit) a b := by
  constructor
  · rintro ⟨j, ha, hb, hdvd⟩
    -- a page end is the first one, or lies a whole page further
    by_cases hj : j = i
    · subst hj
      exact Or.inl ⟨ha, hb⟩
    · have hle : limit+limit ≤ j+1 := by
        obtain ⟨k, hk⟩ := hdvd
        have hk0 : k ≠ 0 := by
          rintro rfl
          omega
        have hk1 : k ≠ 1 := by
          rintro rfl
          omega
        calc limit+limit = limit*2 := by omega
          _ ≤ limit*k := Nat.mul_le_mul_left limit (by omega)
          _ = j+1 := hk.symm
      refine Or.inr ⟨j-limit, ?_, ?_, ?_⟩
      · rw [List.getElem?_drop, ← ha]
        congr 1
        omega
      · rw [List.getElem?_drop, ← hb]
        congr 1
        omega
      · have := Nat.dvd_sub hdvd (Nat.dvd_refl limit)
        rwa [show j+1-limit = j-limit+1 by omega] at this
  · rintro (⟨ha, hb⟩ | ⟨j, ha, hb, hdvd⟩)
    · exact ⟨i, ha, hb, hlimit ▸ Nat.dvd_refl _⟩
    · rw [List.getElem?_drop] at ha hb
      exact ⟨limit+j, ha, hb, (Nat.dvd_add_right (Nat.dvd_refl limit)).mpr hdvd⟩

/-- No page ends within rows that one page holds. -/
theorem not_pageEnd (h : rows.length ≤ limit) : ¬PageEnd limit rows a b := by
  rintro ⟨i, _, hb, hdvd⟩
  have hle := Nat.le_of_dvd (Nat.succ_pos i) hdvd
  have hlt := (List.getElem?_eq_some_iff.mp hb).1
  omega

/-- After a full page a client is shown what is left exactly when it is from the mark on. -/
theorem follows_pageOf_more {i : ℕ} (hlimit : limit = i+1) (ha : rows[i]? = some a)
    (hmore : limit < rows.length) (hpage : request c = .ok (pageOf limit mark rows)) :
    Follows request c rows ↔ Follows request (some (mark a)) (rows.drop limit) := by
  rw [pageOf_more hlimit ha hmore] at hpage
  rw [follows_iff hpage]
  constructor
  · rintro ⟨rest, hrest, hfollows⟩
    rwa [List.append_cancel_left (hrest.symm.trans (List.take_append_drop limit rows).symm)]
      at hfollows
  · exact fun hfollows => ⟨_, (List.take_append_drop limit rows).symm, hfollows⟩

namespace Keyset

variable (hkey : Keyset mark beyond rows)
  (hrequest : ∀ a ∈ rows, request (some (mark a)) =
    .ok (pageOf limit mark (rows.filter (beyond (mark a)))))
include hkey

/-- The rows before and at a mark do not lie beyond it. -/
theorem filter_beyond (hrows : rows = front ++ a :: rest) :
    rows.filter (beyond (mark a)) = rest.filter (beyond (mark a)) := by
  have hback := hkey.back
  rw [hrows] at hback
  have hself := hkey.self a (by simp [hrows])
  have hfront : front.filter (beyond (mark a)) = [] := by
    rw [List.filter_eq_nil_iff]
    intro r hr
    rw [(List.pairwise_append.mp hback).2.2 r hr a List.mem_cons_self]
    exact Bool.false_ne_true
  rw [hrows, List.filter_append, hfront, List.nil_append, List.filter_cons, hself,
    if_neg Bool.false_ne_true]

/-- All of what follows a row lies beyond its mark when the next one does. -/
theorem filter_eq_self (hrows : rows = front ++ a :: b :: rest) (hb : beyond (mark a) b = true) :
    (b :: rest).filter (beyond (mark a)) = b :: rest := by
  have hclosed := hkey.closed a (by simp [hrows])
  rw [hrows, List.pairwise_append, List.pairwise_cons, List.pairwise_cons] at hclosed
  rw [List.filter_eq_self]
  intro r hr
  rcases List.mem_cons.mp hr with rfl | hr
  · exact hb
  · exact hclosed.2.1.2.1 r hr hb

include hrequest

/-- A client never gets past rows that are closed under what lies beyond them. -/
theorem follows_subset (hfollows : Follows request c items) {shown : List R}
    (hshown : shown ⊆ rows)
    (hclosed : ∀ a ∈ shown, ∀ r ∈ rows, beyond (mark a) r = true → r ∈ shown)
    (hpage : request c = .ok (pageOf limit mark shown)) : items ⊆ shown := by
  -- on the pages that the client has read; `shown` shrinks to what lies beyond the last mark
  induction hfollows generalizing shown with
  | last hp hnext =>
    obtain rfl := Except.ok.inj (hpage.symm.trans hp)
    exact List.take_subset limit shown
  | more hp hnext hrest ih =>
    obtain rfl := Except.ok.inj (hpage.symm.trans hp)
    refine List.append_subset.mpr ⟨List.take_subset limit shown, ?_⟩
    unfold pageOf at hnext
    dsimp only at hnext
    split_ifs at hnext with hmore
    obtain ⟨a, hlast, rfl⟩ := Option.map_eq_some_iff.mp hnext
    have ha : a ∈ shown := List.mem_of_mem_take (List.mem_of_getLast? hlast)
    have hsub := ih (List.filter_subset_self _) (fun b hb r hr hbr =>
      List.mem_filter.mpr ⟨hr, hkey.trans a (hshown ha) b (List.mem_filter.mp hb).1 r hr
        (List.mem_filter.mp hb).2 hbr⟩) (hrequest a (hshown ha))
    intro r hr
    have hmem := List.mem_filter.mp (hsub hr)
    exact hclosed a ha r hmem.1 hmem.2

/-- A client that goes on from a mark is shown only what lies beyond it. -/
theorem beyond_of_follows (ha : a ∈ rows) (hfollows : Follows request (some (mark a)) items)
    (hb : b ∈ items) : beyond (mark a) b = true := by
  have hsub := hkey.follows_subset hrequest hfollows (List.filter_subset_self rows)
    (fun x hx r hr hxr => List.mem_filter.mpr ⟨hr, hkey.trans a ha x (List.mem_filter.mp hx).1 r hr
      (List.mem_filter.mp hx).2 hxr⟩) (hrequest a ha)
  exact (List.mem_filter.mp (hsub hb)).2

/-- From a page on, the client is shown all rows exactly when at every end of a page the next row
lies beyond the mark. -/
theorem follows_rest_iff (hlimit : 0 < limit) {tail : List R} (hrows : rows = front ++ tail)
    (hpage : request c = .ok (pageOf limit mark tail)) :
    Follows request c tail ↔ ∀ a b, PageEnd limit tail a b → beyond (mark a) b = true := by
  -- on the rows that are left; `front` holds those that have been shown
  induction hn : tail.length using Nat.strongRecOn generalizing front tail c with
  | ind n ih =>
    subst hn
    by_cases hmore : limit < tail.length
    · obtain ⟨i, hi⟩ : ∃ i, limit = i+1 := ⟨limit-1, by omega⟩
      obtain ⟨a, ha⟩ : ∃ a, tail[i]? = some a := ⟨_, List.getElem?_eq_getElem (by omega)⟩
      obtain ⟨b, hb⟩ : ∃ b, tail[i+1]? = some b := ⟨_, List.getElem?_eq_getElem (by omega)⟩
      have hdrop : tail.drop limit = b :: tail.drop (limit+1) := by
        obtain ⟨hlt, rfl⟩ := List.getElem?_eq_some_iff.mp hb
        rw [hi, List.drop_eq_getElem_cons hlt]
      have hsplit : rows = (front ++ tail.take i) ++ a :: tail.drop limit := by
        obtain ⟨hlt, rfl⟩ := List.getElem?_eq_some_iff.mp ha
        rw [hrows, hi, List.append_assoc, ← List.drop_eq_getElem_cons hlt, List.take_append_drop]
      have hamem : a ∈ rows := by simp [hsplit]
      rw [follows_pageOf_more hi ha hmore hpage]
      by_cases hbeyond : beyond (mark a) b = true
      · have hnext := hrequest a hamem
        have hall : rows.filter (beyond (mark a)) = tail.drop limit := by
          rw [hkey.filter_beyond hsplit, hdrop]
          exact hkey.filter_eq_self (hdrop ▸ hsplit) hbeyond
        rw [hall] at hnext
        have hfront : rows = (front ++ tail.take limit) ++ tail.drop limit := by
          rw [hrows, List.append_assoc, List.take_append_drop]
        rw [ih _ (by rw [List.length_drop]; omega) hfront hnext rfl]
        constructor
        · intro h x y hxy
          rcases (pageEnd_iff hi).mp hxy with ⟨hx, hy⟩ | hxy
          · rw [ha] at hx
            rw [hb] at hy
            rwa [← Option.some.inj hx, ← Option.some.inj hy]
          · exact h x y hxy
        · exact fun h x y hxy => h x y ((pageEnd_iff hi).mpr (Or.inr hxy))
      · -- the next row is skipped, and no later page goes back to it
        constructor
        · intro hfollows
          have hmem : b ∈ tail.drop limit := hdrop ▸ List.mem_cons_self
          exact absurd (hkey.beyond_of_follows hrequest hamem hfollows hmem) hbeyond
        · exact fun h => absurd (h a b ((pageEnd_iff hi).mpr (Or.inl ⟨ha, hb⟩))) hbeyond
    · have hlast : tail.length ≤ limit := by omega
      rw [pageOf_last hlast] at hpage
      rw [follows_iff hpage]
      exact iff_of_true rfl fun a b hend => absurd hend (not_pageEnd hlast)

/-- A client that starts at the first page is shown every row once, in order, exactly when at every
end of a page the next row lies beyond the mark of the last one. -/
theorem follows_all_iff (hlimit : 0 < limit) (hpage : request none = .ok (pageOf limit mark rows)) :
    Follows request none rows ↔ ∀ a b, PageEnd limit rows a b → beyond (mark a) b = true :=
  hkey.follows_rest_iff hrequest hlimit (List.nil_append rows).symm hpage

end Keyset

end Keyset

/-! A feed whose next page is what has a greater key than the last row shown, while its rows come in
an order of their own. -/

section Marked

variable {K : Type*} [LinearOrder K] {limit : ℕ} {mark : R → C} {key : R → K}
variable {rows front rest items : List R} {a : R} {c : Option C}

section Client

variable (hrequest : ∀ a ∈ rows, request (some (mark a)) =
  .ok (pageOf limit mark (rows.filter fun r => key a < key r)))
include hrequest

end Client

end Marked

end HubAssist.PagedFeed
