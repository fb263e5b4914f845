import HubAssist.ManageHubTokens

/-! What accepted calls of the membership_token and batch modules require and write. -/
namespace HubAssist.ManageHub.Tokens
open SorobanHost

variable {Address : Type} [DecidableEq Address] {C : Chain Address} {K : Crypto Address}
variable {env : Env C} {w w' : ManageWorld C K}
variable {Digest : Type} {s s' : Storage Address Digest} {id : BytesN32}

theorem requireAdmin_eq_ok {u : Unit} :
    requireAdmin env w = .ok u ↔ ∃ admin, w.store.admin = some admin ∧ admin ∈ env.signers := by
  simp only [requireAdmin, bind_eq_ok, getOr_eq_ok, requireAuth_eq_ok]

section
omit [DecidableEq Address]

theorem getToken_eq_ok {token : MembershipToken Address} :
    getToken s id = .ok token ↔ s.token id = some (.membership token) := by
  simp only [getToken, readAs, bind_eq_ok, getOr_eq_ok]
  constructor
  · rintro ⟨record, hrecord, hdecode⟩
    cases record with
    | membership issued => rw [hrecord, Option.some.inj hdecode]
    | bare other => exact nomatch hdecode
  · intro htoken
    exact ⟨_, htoken, rfl⟩

theorem issueOne_eq_ok {now : ℕ} {p : IssueParams Address} : issueOne now p s = .ok s' ↔
    s.token p.id = none ∧ now < p.expiryDate ∧
      setToken s p.id (.membership ⟨p.id, p.user, p.expiryDate, .active⟩) = s' := by
  simp only [issueOne, bind_eq_ok, failIf_eq_ok, Option.not_isSome_iff_eq_none, not_le, pure_eq_ok,
    exists_const]

end

theorem transferOne_eq_ok {p : TransferParams Address} : transferOne env p s = .ok s' ↔
    ∃ token, s.token p.id = some (.membership token) ∧ token.user ∈ env.signers ∧
      token.status = .active ∧
        setToken s p.id (.membership { token with user := p.newUser }) = s' := by
  simp only [transferOne, bind_eq_ok, getToken_eq_ok, requireAuth_eq_ok, failIf_eq_ok, not_not,
    pure_eq_ok, exists_const]

/-- The tokens alone have changed, and the module has written all that are new. -/
structure Issues (s s' : Storage Address Digest) : Prop where
  rest : s' = { s with token := s'.token }
  tokens : ∀ id, s'.token id = s.token id ∨ ∃ token, s'.token id = some (.membership token)

section
omit [DecidableEq Address]

theorem Issues.refl (s : Storage Address Digest) : Issues s s := ⟨rfl, fun _ => Or.inl rfl⟩

theorem Issues.trans {s₁ s₂ s₃ : Storage Address Digest} (h : Issues s₁ s₂) (h' : Issues s₂ s₃) :
    Issues s₁ s₃ := by
  refine ⟨?_, fun id => ?_⟩
  · calc s₃ = { s₂ with token := s₃.token } := h'.rest
      _ = { s₁ with token := s₃.token } := by rw [h.rest]
  · rcases h'.tokens id with hsame | hnew
    · rw [hsame]
      exact h.tokens id
    · exact Or.inr hnew

theorem issues_setToken (s : Storage Address Digest) (id : BytesN32)
    (token : MembershipToken Address) : Issues s (setToken s id (.membership token)) := by
  refine ⟨rfl, fun other => ?_⟩
  by_cases heq : other = id
  · subst heq
    exact Or.inr ⟨token, Function.update_self ..⟩
  · exact Or.inl (Function.update_of_ne heq ..)

theorem issues_issueAll {now : ℕ} {params : List (IssueParams Address)}
    (h : issueAll now params s = .ok s') : Issues s s' := by
  induction params generalizing s with
  | nil =>
    obtain rfl := pure_eq_ok.mp h
    exact .refl s
  | cons p params ih =>
    obtain ⟨s₁, hone, hrest⟩ := bind_eq_ok.mp h
    obtain ⟨_, _, rfl⟩ := issueOne_eq_ok.mp hone
    exact (issues_setToken s _ _).trans (ih hrest)

end

theorem issues_transferAll {params : List (TransferParams Address)}
    (h : transferAll env params s = .ok s') : Issues s s' := by
  induction params generalizing s with
  | nil =>
    obtain rfl := pure_eq_ok.mp h
    exact .refl s
  | cons p params ih =>
    obtain ⟨s₁, hone, hrest⟩ := bind_eq_ok.mp h
    obtain ⟨token, _, _, _, rfl⟩ := transferOne_eq_ok.mp hone
    exact (issues_setToken s _ _).trans (ih hrest)

/-- The calls other than `setAdmin` write tokens, and nothing else. -/
theorem exec_issues {call : Call Address} (h : exec env call w = .ok w') :
    (∃ admin, call = .setAdmin admin ∧ w.setStore { w.store with admin := some admin } = w') ∨
      ∃ s, Issues w.store s ∧ w.setStore s = w' := by
  cases call with
  | setAdmin admin =>
    simp only [exec, setAdmin, bind_eq_ok, pure_eq_ok] at h
    obtain ⟨_, _, rfl⟩ := h
    exact Or.inl ⟨admin, rfl, rfl⟩
  | issueToken id user expiryDate =>
    simp only [exec, issueToken, bind_eq_ok, issueOne_eq_ok, pure_eq_ok] at h
    obtain ⟨_, _, _, ⟨_, _, rfl⟩, rfl⟩ := h
    exact Or.inr ⟨_, issues_setToken w.store _ _, rfl⟩
  | transferToken id newUser =>
    simp only [exec, transferToken, bind_eq_ok, transferOne_eq_ok, pure_eq_ok] at h
    obtain ⟨_, ⟨token, _, _, _, rfl⟩, rfl⟩ := h
    exact Or.inr ⟨_, issues_setToken w.store _ _, rfl⟩
  | revokeToken admin id =>
    simp only [exec, revokeToken, bind_eq_ok, pure_eq_ok] at h
    obtain ⟨_, _, _, _, token, _, rfl⟩ := h
    exact Or.inr ⟨_, issues_setToken w.store _ _, rfl⟩
  | renewToken admin id newExpiry =>
    simp only [exec, renewToken, bind_eq_ok, pure_eq_ok] at h
    obtain ⟨_, _, _, _, _, _, token, _, _, _, rfl⟩ := h
    exact Or.inr ⟨_, issues_setToken w.store _ _, rfl⟩
  | batchIssueTokens params =>
    simp only [exec, batchIssueTokens, bind_eq_ok, pure_eq_ok] at h
    obtain ⟨_, _, s, hall, rfl⟩ := h
    exact Or.inr ⟨s, issues_issueAll hall, rfl⟩
  | batchTransferTokens params =>
    simp only [exec, batchTransferTokens, bind_eq_ok, pure_eq_ok] at h
    obtain ⟨s, hall, rfl⟩ := h
    exact Or.inr ⟨s, issues_transferAll hall, rfl⟩

end HubAssist.ManageHub.Tokens

namespace HubAssist.ManageHub.Batch
open SorobanHost

/-- The metadata of tokens alone is written. -/
theorem updateAll_rest {Address Digest : Type} {params : List UpdateParams}
    {s s' : Storage Address Digest} (h : updateAll params s = .ok s') :
    s' = { s with tokenMetadata := s'.tokenMetadata } := by
  induction params generalizing s with
  | nil =>
    obtain rfl := pure_eq_ok.mp h
    rfl
  | cons param params ih =>
    simp only [updateAll, bind_eq_ok] at h
    obtain ⟨_, _, _, _, hrest⟩ := h
    have hafter := ih hrest
    exact hafter

end HubAssist.ManageHub.Batch
