import Mathlib.Logic.Function.Basic
import Mathlib.Tactic.Common

/-! A cache whose entries live for a given time. Times are instants of one clock; an entry is
found before the instant at which it expires and not from then on. -/
namespace HubAssist.TtlCache

structure Entry (V : Type*) where
  value : V
  expiresAt : ℕ
  deriving DecidableEq

abbrev Cache (K V : Type*) := K → Option (Entry V)

variable {K V : Type*} [DecidableEq K]

def empty : Cache K V := fun _ => none

def get (c : Cache K V) (now : ℕ) (k : K) : Option V :=
  match c k with
  | some e => if now < e.expiresAt then some e.value else none
  | none => none

def set (c : Cache K V) (now ttl : ℕ) (k : K) (v : V) : Cache K V :=
  Function.update c k (some ⟨v, now+ttl⟩)

def del (c : Cache K V) (k : K) : Cache K V := Function.update c k none

/-- From `lo` on and before `hi`, a lookup of `k` gives `found`. -/
def Throughout (c : Cache K V) (lo hi : ℕ) (k : K) (found : Option V) : Prop :=
  ∀ t, lo ≤ t → t < hi → get c t k = found

/-- No entry expires before `hi`. -/
def Lasting (c : Cache K V) (hi : ℕ) : Prop := ∀ k e, c k = some e → hi ≤ e.expiresAt

variable {c : Cache K V} {now ttl t lo hi : ℕ} {k k' : K} {v : V} {found : Option V}

theorem get_set_self (h : t < now+ttl) : get (set c now ttl k v) t k = some v := by
  simp [get, set, h]

@[simp] theorem get_set_of_ne (h : k' ≠ k) : get (set c now ttl k v) t k' = get c t k' := by
  simp [get, set, h]

@[simp] theorem get_del_of_ne (h : k' ≠ k) : get (del c k) t k' = get c t k' := by
  simp [get, del, h]

omit [DecidableEq K] in
theorem get_eq_some (h : get c t k = some v) : ∃ e, c k = some e ∧ e.value = v := by
  unfold get at h
  split at h
  · next e he =>
    split_ifs at h
    exact ⟨e, he, Option.some.inj h⟩
  · cases h

omit [DecidableEq K] in
/-- Something is found all the while from `lo` on and before `hi`. -/
theorem found_until_iff : (∀ t, lo ≤ t → t < hi → (get c t k).isSome = true) ↔
    (lo < hi → ∃ e, c k = some e ∧ hi ≤ e.expiresAt) := by
  constructor
  · intro h hlt
    have hlast := h (hi-1) (by omega) (by omega)
    unfold get at hlast
    split at hlast
    · next e he =>
      split_ifs at hlast with hexpires
      · exact ⟨e, he, by omega⟩
      · exact absurd hlast (by simp)
    · exact absurd hlast (by simp)
  · intro h t hlo hhi
    obtain ⟨e, he, hexpires⟩ := h (by omega)
    simp [get, he, show t < e.expiresAt by omega]

theorem set_eq_some {e : Entry V} (h : set c now ttl k v k' = some e) :
    k' = k ∧ e.value = v ∨ c k' = some e := by
  by_cases hk : k' = k
  · subst hk
    rw [set, Function.update_self] at h
    obtain rfl := Option.some.inj h
    exact .inl ⟨rfl, rfl⟩
  · rw [set, Function.update_of_ne hk] at h
    exact .inr h

theorem del_eq_some {e : Entry V} (h : del c k k' = some e) : c k' = some e := by
  by_cases hk : k' = k
  · subst hk
    rw [del, Function.update_self] at h
    cases h
  · rwa [del, Function.update_of_ne hk] at h

/-- What is written within the time that entries live is found until that time is over. -/
theorem throughout_set_self (hlo : lo ≤ now) :
    Throughout (set c now ttl k v) lo (lo+ttl) k (some v) := by
  intro t _ ht
  apply get_set_self
  omega

theorem Throughout.set_of_ne (h : Throughout c lo hi k' found) (hne : k' ≠ k) :
    Throughout (set c now ttl k v) lo hi k' found := by
  intro t hlo hhi
  rw [get_set_of_ne hne]
  exact h t hlo hhi

theorem Throughout.del_of_ne (h : Throughout c lo hi k' found) (hne : k' ≠ k) :
    Throughout (del c k) lo hi k' found := by
  intro t hlo hhi
  rw [get_del_of_ne hne]
  exact h t hlo hhi

omit [DecidableEq K] in
theorem lasting_empty : Lasting (empty : Cache K V) hi := by
  intro k e h
  cases h

theorem Lasting.set (h : Lasting c hi) (hle : hi ≤ now+ttl) :
    Lasting (TtlCache.set c now ttl k v) hi := by
  intro k' e he
  by_cases hk : k' = k
  · subst hk
    rw [TtlCache.set, Function.update_self] at he
    obtain rfl := Option.some.inj he
    exact hle
  · rw [TtlCache.set, Function.update_of_ne hk] at he
    exact h k' e he

theorem Lasting.del (h : Lasting c hi) : Lasting (TtlCache.del c k) hi :=
  fun k' e he => h k' e (del_eq_some he)

omit [DecidableEq K] in
/-- What is found at one time is found at any, as long as no entry expires. -/
theorem Lasting.throughout (h : Lasting c hi) (hlt : t < hi) (hget : get c t k = found) :
    Throughout c lo hi k found := by
  intro t' _ ht'
  rw [← hget]
  unfold get
  cases he : c k with
  | none => rfl
  | some e =>
    have hle := h k e he
    dsimp only
    rw [if_pos (by omega), if_pos (by omega)]

omit [DecidableEq K] in
/-- Two things that are found throughout a time that is not empty are one. -/
theorem Throughout.unique {found' : Option V} (h : Throughout c lo hi k found)
    (h' : Throughout c lo hi k found') (hlt : lo < hi) : found = found' :=
  (h lo (Nat.le_refl lo) hlt).symm.trans (h' lo (Nat.le_refl lo) hlt)

end HubAssist.TtlCache
