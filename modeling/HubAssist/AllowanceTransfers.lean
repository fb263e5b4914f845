import HubAssist.TokenSteps
import HubAssist.ManageHubPrivilege

/-! Transfers by an allowance. The allowance module reads a token as a record of its own, which no
token is that the membership module has issued. -/
namespace HubAssist.ManageHub.Allowances
open SorobanHost RunSystem
open Tokens (getToken getToken_eq_ok)

variable {Address : Type} [DecidableEq Address] {C : Chain Address} {K : Crypto Address}
variable {env : Env C} {w : ManageWorld C K} {spender sender receiver : Address}
variable {tokenId : BytesN32} {token : MembershipToken Address}

/-- The token is issued, active and the sender's, and the spender signs with an allowance of the
sender that has not expired. -/
structure Entitled (env : Env C) (w : ManageWorld C K) (spender sender : Address)
    (tokenId : BytesN32) (token : MembershipToken Address) : Prop where
  signed : spender ∈ env.signers
  issued : getToken w.store tokenId = .ok token
  active : token.status = .active
  owner : token.user = sender
  approved : (getAllowance w.store sender spender tokenId).approved = true
  live : w.now < (getAllowance w.store sender spender tokenId).expiry

/-- The transfer is accepted. The token is the receiver's afterwards and otherwise the same, the
allowance is used up, and no other entry has changed. -/
def MovesToken (env : Env C) (w : ManageWorld C K) (spender sender receiver : Address)
    (tokenId : BytesN32) (token : MembershipToken Address) : Prop :=
  ∃ w', transferFrom env spender sender receiver tokenId w = .ok w' ∧
    getToken w'.store tokenId = .ok { token with user := receiver } ∧
      w'.store.allowance (sender, spender, tokenId) = none ∧
        w' = w.setStore { w.store with
          token := Function.update w.store.token tokenId (w'.store.token tokenId)
          allowance := Function.update w.store.allowance (sender, spender, tokenId) none }

/-- The allowance is in order, and the token does not decode as the record that it is read as. -/
theorem Entitled.fails (h : Entitled env w spender sender tokenId token) (receiver : Address) :
    transferFrom env spender sender receiver tokenId w = .error (.panic "conversion error") := by
  obtain ⟨info, hinfo⟩ : ∃ info, w.store.allowance (sender, spender, tokenId) = some info := by
    apply Option.ne_none_iff_exists'.mp
    intro hnone
    have happroved := h.approved
    rw [getAllowance, hnone] at happroved
    exact nomatch happroved
  have happroved := h.approved
  have hlive := h.live
  simp only [getAllowance, hinfo, Option.getD_some] at happroved hlive
  -- the record is the membership module's, which has an id and an expiry date as well
  have hread : readAs TokenRecord.bare? (w.store.token tokenId) (.panic "token not found") =
      .error (.panic "conversion error") := by
    rw [getToken_eq_ok.mp h.issued]
    rfl
  have hlater : ¬info.expiry ≤ w.now := not_le.mpr hlive
  simp [transferFrom, requireAuth, failIf, h.signed, hinfo, getOr, happroved, hlater, hread, bind,
    Except.bind]

/-- However good the allowance is, it moves no token that has been issued. -/
theorem transferFrom_moves_nothing (h : Entitled env w spender sender tokenId token)
    (receiver : Address) : ¬MovesToken env w spender sender receiver tokenId token := by
  rintro ⟨w', hok, _⟩
  exact nomatch hok.symm.trans (h.fails receiver)

/-- Account 1 gets the token 61 and lets account 2 transfer it. -/
def lent : ManageWorld numberedChain plainCrypto :=
  run exec
    (run Tokens.exec (deployed 0 (fun _ _ => (0 : ℕ)) 500)
      [.invoke (signedBy 5) (.setAdmin 6), .invoke (signedBy 5) (.issueToken 61 1 9000)])
    [.invoke (signedBy 0) (.approve 1 2 61 8000)]

theorem lent_entitled : Entitled (signedBy 1) lent 2 1 61 ⟨61, 1, 9000, .active⟩ where
  signed := by decide
  issued := getToken_eq_ok.mpr (by decide)
  active := rfl
  owner := rfl
  approved := by decide
  live := by decide

theorem transferFrom_lent_moves_nothing :
    ¬MovesToken (signedBy 1) lent 2 1 3 61 ⟨61, 1, 9000, .active⟩ :=
  transferFrom_moves_nothing lent_entitled 3

/-- Not every allowance that is in order moves its token. -/
theorem entitled_without_effect : ¬∀ (spender sender receiver : ℕ) (tokenId : BytesN32)
    (token : MembershipToken ℕ), Entitled (signedBy 1) lent spender sender tokenId token →
      MovesToken (signedBy 1) lent spender sender receiver tokenId token := by
  intro h
  obtain ⟨w', hok, _⟩ := h 2 1 3 61 _ lent_entitled
  exact nomatch hok.symm.trans (lent_entitled.fails 3)

end HubAssist.ManageHub.Allowances
