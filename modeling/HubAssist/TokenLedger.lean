import Mathlib.Data.Int.Basic
import Mathlib.Tactic.Common

/-! An external fungible token, known only through its documented behaviour: a transfer
moves exactly its amount or changes nothing. -/
namespace HubAssist.TokenLedger

variable {Account : Type} [DecidableEq Account]

/-- A standard token contract. `transfer` is `none` where the token rejects the call. -/
structure Token (Account : Type) [DecidableEq Account] where
  State : Type
  balance : State → Account → ℤ
  transfer : State → Account → Account → ℤ → Option State
  balance_nonneg : ∀ s a, 0 ≤ balance s a
  transfer_nonneg : ∀ {s a b n s'}, transfer s a b n = some s' → 0 ≤ n
  transfer_balance : ∀ {s a b n s'}, transfer s a b n = some s' → ∀ x,
    balance s' x = balance s x - (if x = a then n else 0) + (if x = b then n else 0)

namespace Token

variable (T : Token Account)

/-- The token rejects no transfer that the sender's balance covers. -/
def Live : Prop :=
  ∀ s a b n, 0 ≤ n → n ≤ T.balance s a → (T.transfer s a b n).isSome

variable {T}

theorem transfer_sender {s s' : T.State} {a b : Account} {n : ℤ}
    (h : T.transfer s a b n = some s') (hab : a ≠ b) : T.balance s' a = T.balance s a - n := by
  rw [T.transfer_balance h a, if_pos rfl, if_neg hab, Int.add_zero]

theorem transfer_receiver {s s' : T.State} {a b : Account} {n : ℤ}
    (h : T.transfer s a b n = some s') (hab : a ≠ b) : T.balance s' b = T.balance s b + n := by
  rw [T.transfer_balance h b, if_neg hab.symm, if_pos rfl, Int.sub_zero]

theorem transfer_covered {s s' : T.State} {a b : Account} {n : ℤ}
    (h : T.transfer s a b n = some s') (hab : a ≠ b) : n ≤ T.balance s a := by
  have hs := transfer_sender h hab
  have hn := T.balance_nonneg s' a
  omega

end Token

/-- The token that keeps its balances in a map and rejects exactly what they do not cover. -/
def mapToken : Token Account where
  State := Account → ℕ
  balance s a := s a
  transfer s a b n :=
    if 0 ≤ n ∧ n ≤ s a then
      some (Function.update (Function.update s a (s a-n.toNat)) b
        (Function.update s a (s a-n.toNat) b+n.toNat))
    else none
  balance_nonneg _ _ := Int.natCast_nonneg _
  transfer_nonneg := by
    intro s a b n s' h
    split_ifs at h with hn
    exact hn.1
  transfer_balance := by
    intro s a b n s' h x
    split_ifs at h with hn
    obtain rfl := Option.some.inj h
    by_cases hxb : x = b
    · subst hxb
      by_cases hxa : x = a
      · subst hxa
        simp only [Function.update_self, ↓reduceIte]
        omega
      · simp only [Function.update_self, Function.update_of_ne hxa, if_neg hxa, ↓reduceIte]
        omega
    · by_cases hxa : x = a
      · subst hxa
        simp only [Function.update_of_ne hxb, Function.update_self, if_neg hxb, ↓reduceIte]
        omega
      · simp only [Function.update_of_ne hxb, Function.update_of_ne hxa, if_neg hxb, if_neg hxa]
        omega

theorem mapToken_live : Token.Live (mapToken : Token Account) := by
  intro s a b n h0 hn
  have hc : 0 ≤ n ∧ n ≤ (s a : ℤ) := ⟨h0, hn⟩
  simp [mapToken, hc]

end HubAssist.TokenLedger
