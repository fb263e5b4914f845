import HubAssist.AllowanceOwnership

/-! Which tokens change hands. A transfer looks at the stored status of the token, which the passing
of time does not write, and not at its expiry date. -/
namespace HubAssist.ManageHub.Ownership
open SorobanHost RunSystem
open Shared (AllIssued allIssued_deployed transferFrom_fails)
open Tokens (getToken getToken_eq_ok setToken)

variable {Address : Type} [DecidableEq Address] {C : Chain Address} {K : Crypto Address}
variable {env : Env C} {w w' : ManageWorld C K} {owner : Address} {id : BytesN32}
variable {a : Action C (Call Address)} {as : List (Action C (Call Address))}

/-- The token is not revoked and its expiry date has not passed. -/
def InForce (w : ManageWorld C K) (id : BytesN32) : Prop :=
  ∃ token, getToken w.store id = .ok token ∧ token.status ≠ .revoked ∧ w.now ≤ token.expiryDate

/-- A token that has a user gets another one, be it within a batch only, while it is in force. -/
def ChangesInForce (w : ManageWorld C K) (a : Action C (Call Address)) : Prop :=
  ∀ id owner, userOf w.store id = some owner →
    HandsOver id w a ∨ userOf (step exec w a).store id ≠ some owner → InForce w id

/-- The step transfers no active token to another user after its expiry date. -/
def Timely (w : ManageWorld C K) : Action C (Call Address) → Prop
  | .invoke env (.tokens (.transferToken id newUser)) =>
    ∀ token, getToken w.store id = .ok token → token.user ∈ env.signers → token.status = .active →
      newUser ≠ token.user → w.now ≤ token.expiryDate
  | .invoke env (.tokens (.batchTransferTokens params)) =>
    (∃ s, Tokens.transferAll env params w.store = .ok s) →
      ∀ p ∈ params, ∀ token, getToken w.store p.id = .ok token → p.newUser ≠ token.user →
        w.now ≤ token.expiryDate
  | _ => True

section
omit [DecidableEq Address]
variable {Digest : Type} {s s' : Storage Address Digest}

theorem setToken_of_ne {other : BytesN32} {record : TokenRecord Address} (h : id ≠ other) :
    (setToken s other record).token id = s.token id := Function.update_of_ne h ..

theorem issueAll_fresh {now : ℕ} {params : List (Tokens.IssueParams Address)}
    (h : Tokens.issueAll now params s = .ok s') : ∀ p ∈ params, s.token p.id = none := by
  induction params generalizing s with
  | nil => simp
  | cons p params ih =>
    obtain ⟨s₁, hone, hrest⟩ := bind_eq_ok.mp h
    obtain ⟨hnone, _, rfl⟩ := Tokens.issueOne_eq_ok.mp hone
    rw [List.forall_mem_cons]
    refine ⟨hnone, fun q hq => ?_⟩
    -- what is still free after the first token is issued was free before
    have hfree := ih hrest q hq
    by_cases heq : q.id = p.id
    · rw [heq]
      exact hnone
    · rwa [setToken_of_ne heq] at hfree

end

theorem transferAll_active {params : List (Tokens.TransferParams Address)}
    {s s' : Storage Address K.Digest} (h : Tokens.transferAll env params s = .ok s') :
    ∀ p ∈ params, ∃ token, getToken s p.id = .ok token ∧ token.status = .active := by
  induction params generalizing s with
  | nil => simp
  | cons p params ih =>
    obtain ⟨s₁, hone, hrest⟩ := bind_eq_ok.mp h
    obtain ⟨token, htoken, _, hactive, rfl⟩ := Tokens.transferOne_eq_ok.mp hone
    rw [List.forall_mem_cons]
    refine ⟨⟨token, getToken_eq_ok.mpr htoken, hactive⟩, fun q hq => ?_⟩
    -- the first transfer leaves the status of every token
    obtain ⟨token', htoken', hactive'⟩ := ih hrest q hq
    by_cases heq : q.id = p.id
    · rw [heq]
      exact ⟨token, getToken_eq_ok.mpr htoken, hactive⟩
    · rw [getToken_eq_ok, setToken_of_ne heq] at htoken'
      exact ⟨token', getToken_eq_ok.mpr htoken', hactive'⟩

theorem inForce_of_active {token : MembershipToken Address}
    (htoken : getToken w.store id = .ok token)
    (hactive : token.status = .active) (htime : w.now ≤ token.expiryDate) : InForce w id :=
  ⟨token, htoken, by simp [hactive], htime⟩

/-- A step that hands a token over is an accepted transfer, of an active token. -/
theorem Timely.inForce (h : Timely w a) (hw : AllIssued w.store)
    (howner : userOf w.store id = some owner) (hchange : HandsOver id w a) : InForce w id := by
  obtain ⟨token, htoken, rfl⟩ := userOf_eq_some.mp howner
  cases a with
  | tick d => exact hchange.elim
  | external other next => exact hchange.elim
  | invoke env call =>
    obtain ⟨⟨w', hok⟩, hchange⟩ := hchange
    cases call with
    | allowances call =>
      cases call with
      | transferFrom spender sender receiver other =>
        exact absurd hok (transferFrom_fails hw spender sender receiver other)
      | approve => exact hchange.elim
      | revokeAllowance => exact hchange.elim
    | tokens call =>
      cases call with
      | issueToken other user expiryDate =>
        obtain rfl : other = id := hchange
        simp only [exec, Tokens.exec, Tokens.issueToken, bind_eq_ok, Tokens.issueOne_eq_ok] at hok
        obtain ⟨_, _, _, ⟨hnone, _⟩, _⟩ := hok
        rw [getToken_eq_ok] at htoken
        exact absurd (hnone.symm.trans htoken) (by simp)
      | batchIssueTokens params =>
        obtain ⟨p, hp, rfl⟩ := hchange
        simp only [exec, Tokens.exec, Tokens.batchIssueTokens, bind_eq_ok] at hok
        obtain ⟨_, _, s, hall, _⟩ := hok
        rw [getToken_eq_ok] at htoken
        exact absurd ((issueAll_fresh hall p hp).symm.trans htoken) (by simp)
      | transferToken other newUser =>
        obtain ⟨rfl, hnew⟩ := hchange
        simp only [exec, Tokens.exec, Tokens.transferToken, bind_eq_ok, Tokens.transferOne_eq_ok]
          at hok
        obtain ⟨_, ⟨token', htoken', hsigned, hactive, _⟩, _⟩ := hok
        rw [← getToken_eq_ok] at htoken'
        obtain rfl := Except.ok.inj (htoken.symm.trans htoken')
        rw [howner, ne_eq, Option.some.injEq, eq_comm] at hnew
        exact inForce_of_active htoken hactive (h token htoken hsigned hactive hnew)
      | batchTransferTokens params =>
        obtain ⟨p, hp, rfl, hnew⟩ := hchange
        simp only [exec, Tokens.exec, Tokens.batchTransferTokens, bind_eq_ok] at hok
        obtain ⟨s, hall, _⟩ := hok
        obtain ⟨token', htoken', hactive⟩ := transferAll_active hall p hp
        obtain rfl := Except.ok.inj (htoken.symm.trans htoken')
        rw [howner, ne_eq, Option.some.injEq, eq_comm] at hnew
        exact inForce_of_active htoken hactive (h ⟨s, hall⟩ p hp token htoken hnew)
      | _ => exact hchange.elim

theorem ChangesInForce.timely (h : ChangesInForce w a) : Timely w a := by
  have hexpiry {id : BytesN32} {token : MembershipToken Address}
      (htoken : getToken w.store id = .ok token) (hchange : HandsOver id w a) :
      w.now ≤ token.expiryDate := by
    obtain ⟨token', htoken', _, htime⟩ :=
      h id token.user (userOf_eq_some.mpr ⟨token, htoken, rfl⟩) (Or.inl hchange)
    obtain rfl := Except.ok.inj (htoken.symm.trans htoken')
    exact htime
  cases a with
  | tick d => trivial
  | external other next => trivial
  | invoke env call =>
    cases call with
    | allowances call => trivial
    | tokens call =>
      cases call with
      | transferToken id newUser =>
        intro token htoken hsigned hactive hnew
        have huser := userOf_eq_some.mpr ⟨token, htoken, rfl⟩
        have hone : Tokens.transferOne env ⟨id, newUser⟩ w.store =
            .ok (setToken w.store id (.membership { token with user := newUser })) :=
          Tokens.transferOne_eq_ok.mpr ⟨token, getToken_eq_ok.mp htoken, hsigned, hactive, rfl⟩
        refine hexpiry htoken ⟨⟨w.setStore _, bind_eq_ok.mpr ⟨_, hone, rfl⟩⟩, rfl, ?_⟩
        rw [huser, ne_eq, Option.some.injEq, eq_comm]
        exact hnew
      | batchTransferTokens params =>
        rintro ⟨s, hall⟩ p hp token htoken hnew
        have huser := userOf_eq_some.mpr ⟨token, htoken, rfl⟩
        refine hexpiry htoken ⟨⟨w.setStore s, bind_eq_ok.mpr ⟨s, hall, rfl⟩⟩, p, hp, rfl, ?_⟩
        rw [huser, ne_eq, Option.some.injEq, eq_comm]
        exact hnew
      | _ => trivial

/-- In every run from the deployed contract, tokens change hands in force only, exactly when no
active token is transferred to another user after its expiry date. -/
theorem changesInForce_iff (wasm : BytesN32) (tokens : Address → C.token.State) (now : ℕ)
    (as : List (Action C (Call Address))) :
    Guarded (step exec) ChangesInForce (deployed wasm tokens now : ManageWorld C K) as ↔
      Guarded (step exec) Timely (deployed wasm tokens now : ManageWorld C K) as := by
  constructor
  · exact guarded_of_invariant (step exec) (J := fun _ => True) (fun _ _ _ => trivial)
      (fun v a _ h => h.timely) trivial
  · refine guarded_of_invariant (step exec) (J := fun v : ManageWorld C K => AllIssued v.store)
      (fun v a hv => allIssued_step hv a) ?_ (allIssued_deployed wasm tokens now)
    intro v a hv h id owner howner hchange
    apply h.inForce hv howner
    by_contra hstays
    rcases hchange with hchange | hother
    · exact hstays hchange
    · exact hother ((user_kept hv hstays).trans howner)

/-- Account 1 hands the token 61 on after it has expired. -/
theorem expired_transferred : ¬Guarded (step exec) ChangesInForce
    (deployed 0 (fun _ _ => (0 : ℕ)) 300 : ManageWorld numberedChain plainCrypto)
    [.invoke (signedBy 5) (.tokens (.setAdmin 6)),
     .invoke (signedBy 5) (.tokens (.issueToken 62 1 400)),
     .tick 101,
     .invoke (signedBy 0) (.tokens (.transferToken 62 3))] := by
  rintro ⟨_, _, _, h, _⟩
  obtain ⟨token, htoken, _, htime⟩ := h 62 1 (by decide) (Or.inr (by decide))
  have hstored : Except.ok ⟨62, 1, 400, .active⟩ = Except.ok token := htoken
  rw [← Except.ok.inj hstored] at htime
  exact absurd htime (by decide)

end HubAssist.ManageHub.Ownership
