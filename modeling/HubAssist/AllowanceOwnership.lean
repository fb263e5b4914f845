import HubAssist.ManageHubIsolation

/-! Allowances against the ownership they were granted under, over the calls of the
membership_token and allowance modules together. The one keeps no account of the other: an
allowance is not looked at where a token changes hands, nor the token where one is granted. -/
namespace HubAssist.ManageHub.Ownership
open SorobanHost RunSystem
open Shared (AllIssued AllIssued.issues allIssued_deployed transferFrom_fails)
open Tokens (getToken getToken_eq_ok setToken)
open Allowances (getAllowance)

variable {Address : Type} [DecidableEq Address] {C : Chain Address} {K : Crypto Address}
variable {env : Env C} {w w' start : ManageWorld C K} {owner spender : Address} {id : BytesN32}

/-- The entry points that write tokens or allowances. -/
inductive Call (Address : Type) where
  | tokens (call : Tokens.Call Address)
  | allowances (call : Allowances.Call Address)
  deriving DecidableEq

variable {call : Call Address} {a : Action C (Call Address)} {as : List (Action C (Call Address))}

def exec (env : Env C) : Call Address → ManageWorld C K → Outcome C K
  | .tokens call, w => Tokens.exec env call w
  | .allowances call, w => Allowances.exec env call w

/-- The user of the token, where there is one. -/
def userOf {Digest : Type} (s : Storage Address Digest) (id : BytesN32) : Option Address :=
  (getToken s id).toOption.map MembershipToken.user

/-- The allowance is approved and has not expired. -/
structure Live (w : ManageWorld C K) (owner spender : Address) (id : BytesN32) : Prop where
  approved : (getAllowance w.store owner spender id).approved = true
  unexpired : w.now < (getAllowance w.store owner spender id).expiry

/-- Through the call, where it is accepted, somebody becomes the user of the token who was not, be
it for a part of a batch only. -/
def ChangesUser (id : BytesN32) (w : ManageWorld C K) : Call Address → Prop
  | .tokens (.issueToken other _ _) => other = id
  | .tokens (.batchIssueTokens params) => ∃ p ∈ params, p.id = id
  | .tokens (.transferToken other newUser) => other = id ∧ userOf w.store id ≠ some newUser
  | .tokens (.batchTransferTokens params) =>
    ∃ p ∈ params, p.id = id ∧ userOf w.store id ≠ some p.newUser
  | .allowances (.transferFrom _ sender receiver other) => other = id ∧ sender ≠ receiver
  | _ => False

/-- The step is an accepted call that changes the user of the token. -/
def HandsOver (id : BytesN32) (w : ManageWorld C K) : Action C (Call Address) → Prop
  | .invoke env call => (∃ w', exec env call w = .ok w') ∧ ChangesUser id w call
  | .tick _ | .external _ _ => False

/-- The step is an accepted approval of the spender by the owner. -/
def Grants (owner spender : Address) (id : BytesN32) (w : ManageWorld C K) :
    Action C (Call Address) → Prop
  | .invoke env call => (∃ w', exec env call w = .ok w') ∧
    ∃ expiry, call = .allowances (.approve owner spender id expiry)
  | .tick _ | .external _ _ => False

/-- The owner of the allowance is the user of the token, and has granted it since the last change of
that user: the one that made the token the owner's. -/
structure Backed (start : ManageWorld C K) (as : List (Action C (Call Address)))
    (owner spender : Address) (id : BytesN32) : Prop where
  owned : userOf (SorobanHost.run exec start as).store id = some owner
  granted : Since (step exec) (Grants owner spender id) (HandsOver id) start as

/-- Every allowance that is in force after the steps is backed. -/
def Sound (start : ManageWorld C K) (as : List (Action C (Call Address))) : Prop :=
  ∀ owner spender id, Live (SorobanHost.run exec start as) owner spender id →
    Backed start as owner spender id

/-- Nobody grants an allowance but the user of the token, and no token changes its user while an
allowance for it is in force. -/
def Respects (w : ManageWorld C K) (a : Action C (Call Address)) : Prop :=
  (∀ owner spender id, Grants owner spender id w a → userOf w.store id = some owner) ∧
    ∀ owner spender id, Live w owner spender id → ¬HandsOver id w a

section
omit [DecidableEq Address]
variable {Digest : Type} {s s' : Storage Address Digest}

theorem userOf_eq_some : userOf s id = some owner ↔
    ∃ token, getToken s id = .ok token ∧ token.user = owner := by
  unfold userOf
  cases getToken s id with
  | error fault => simp [Except.toOption]
  | ok token => simp [Except.toOption]

theorem userOf_congr (h : s'.token id = s.token id) : userOf s' id = userOf s id := by
  rw [userOf, userOf, getToken, getToken, h]

theorem userOf_setToken_self (token : MembershipToken Address) :
    userOf (setToken s id (.membership token)) id = some token.user :=
  userOf_eq_some.mpr ⟨token, getToken_eq_ok.mpr (Function.update_self ..), rfl⟩

theorem userOf_setToken_of_ne {other : BytesN32} {record : TokenRecord Address} (h : id ≠ other) :
    userOf (setToken s other record) id = userOf s id :=
  userOf_congr (Function.update_of_ne h ..)

/-- A token may be written with its user left as it is. -/
theorem userOf_setToken {other : BytesN32} {token : MembershipToken Address}
    (h : other = id → userOf s id = some token.user) :
    userOf (setToken s other (.membership token)) id = userOf s id := by
  by_cases heq : other = id
  · rw [h heq]
    subst heq
    exact userOf_setToken_self token
  · exact userOf_setToken_of_ne (Ne.symm heq)

/-- Batches of new tokens. -/
theorem userOf_issueAll {now : ℕ} {params : List (Tokens.IssueParams Address)}
    (h : Tokens.issueAll now params s = .ok s') (hids : ¬∃ p ∈ params, p.id = id) :
    userOf s' id = userOf s id := by
  induction params generalizing s with
  | nil =>
    obtain rfl := pure_eq_ok.mp h
    rfl
  | cons p params ih =>
    simp only [List.mem_cons, exists_eq_or_imp, not_or] at hids
    obtain ⟨s₁, hone, hrest⟩ := bind_eq_ok.mp h
    obtain ⟨_, _, rfl⟩ := Tokens.issueOne_eq_ok.mp hone
    rw [ih hrest hids.2]
    exact userOf_setToken_of_ne (Ne.symm hids.1)

end

/-- Batches of transfers, each of the token to the user it has already. -/
theorem userOf_transferAll {params : List (Tokens.TransferParams Address)}
    {s s' : Storage Address K.Digest} (h : Tokens.transferAll env params s = .ok s')
    (hids : ¬∃ p ∈ params, p.id = id ∧ userOf s id ≠ some p.newUser) :
    userOf s' id = userOf s id := by
  induction params generalizing s with
  | nil =>
    obtain rfl := pure_eq_ok.mp h
    rfl
  | cons p params ih =>
    simp only [List.mem_cons, exists_eq_or_imp, not_or, not_and, not_not] at hids
    obtain ⟨hfirst, hothers⟩ := hids
    obtain ⟨s₁, hone, hrest⟩ := bind_eq_ok.mp h
    obtain ⟨token, _, _, _, rfl⟩ := Tokens.transferOne_eq_ok.mp hone
    -- the first transfer leaves the user, so the others are to that user as well
    have hkept : userOf (setToken s p.id (.membership { token with user := p.newUser })) id =
        userOf s id := userOf_setToken hfirst
    rw [ih hrest (by simpa [hkept] using hothers), hkept]

/-- A call of the membership_token module that changes no user of the token. -/
theorem userOf_tokens {call : Tokens.Call Address} (h : Tokens.exec env call w = .ok w')
    (hsame : ¬ChangesUser id w (.tokens call)) : userOf w'.store id = userOf w.store id := by
  cases call with
  | setAdmin admin =>
    simp only [Tokens.exec, Tokens.setAdmin, bind_eq_ok, pure_eq_ok] at h
    obtain ⟨_, _, rfl⟩ := h
    exact userOf_congr rfl
  | issueToken other user expiryDate =>
    simp only [Tokens.exec, Tokens.issueToken, bind_eq_ok, Tokens.issueOne_eq_ok, pure_eq_ok] at h
    obtain ⟨_, _, _, ⟨_, _, rfl⟩, rfl⟩ := h
    exact userOf_setToken_of_ne (Ne.symm hsame)
  | transferToken other newUser =>
    simp only [Tokens.exec, Tokens.transferToken, bind_eq_ok, Tokens.transferOne_eq_ok,
      pure_eq_ok] at h
    obtain ⟨_, ⟨token, _, _, _, rfl⟩, rfl⟩ := h
    simp only [ChangesUser, not_and, not_not] at hsame
    exact userOf_setToken hsame
  | revokeToken admin other =>
    simp only [Tokens.exec, Tokens.revokeToken, bind_eq_ok, pure_eq_ok] at h
    obtain ⟨_, _, _, _, token, htoken, rfl⟩ := h
    exact userOf_setToken (by rintro rfl; exact userOf_eq_some.mpr ⟨token, htoken, rfl⟩)
  | renewToken admin other newExpiry =>
    simp only [Tokens.exec, Tokens.renewToken, bind_eq_ok, pure_eq_ok] at h
    obtain ⟨_, _, _, _, _, _, token, htoken, _, _, rfl⟩ := h
    exact userOf_setToken (by rintro rfl; exact userOf_eq_some.mpr ⟨token, htoken, rfl⟩)
  | batchIssueTokens params =>
    simp only [Tokens.exec, Tokens.batchIssueTokens, bind_eq_ok, pure_eq_ok] at h
    obtain ⟨_, _, s, hall, rfl⟩ := h
    exact userOf_issueAll hall hsame
  | batchTransferTokens params =>
    simp only [Tokens.exec, Tokens.batchTransferTokens, bind_eq_ok, pure_eq_ok] at h
    obtain ⟨s, hall, rfl⟩ := h
    exact userOf_transferAll hall hsame

/-- What an accepted call does, where all tokens are ones that the membership_token module has
written. A transfer by an allowance is accepted of no such token. -/
inductive Effect (env : Env C) (w : ManageWorld C K) :
    Call Address → ManageWorld C K → Prop where
  | approves (owner spender : Address) (id : BytesN32) (expiry : ℕ) (later : w.now < expiry) :
    Effect env w (.allowances (.approve owner spender id expiry)) (w.setStore { w.store with
      allowance := Function.update w.store.allowance (owner, spender, id) (some ⟨true, expiry⟩) })
  | withdraws (owner spender : Address) (id : BytesN32) :
    Effect env w (.allowances (.revokeAllowance owner spender id)) (w.setStore { w.store with
      allowance := Function.update w.store.allowance (owner, spender, id) none })
  | tokens (call : Tokens.Call Address) (s : Storage Address K.Digest)
    (ok : Tokens.exec env call w = .ok (w.setStore s)) (kept : s.allowance = w.store.allowance)
    (issued : AllIssued s) : Effect env w (.tokens call) (w.setStore s)

theorem exec_effect (hw : AllIssued w.store) (h : exec env call w = .ok w') :
    Effect env w call w' := by
  cases call with
  | tokens call =>
    rcases Tokens.exec_issues h with ⟨admin, rfl, rfl⟩ | ⟨s, hissues, rfl⟩
    · exact .tokens _ _ h rfl hw
    · exact .tokens call s h (by rw [hissues.rest]) (hw.issues hissues)
  | allowances call =>
    cases call with
    | approve owner spender id expiry =>
      simp only [exec, Allowances.exec, Allowances.approve, bind_eq_ok, failIf_eq_ok, not_le,
        pure_eq_ok] at h
      obtain ⟨_, _, _, hlater, rfl⟩ := h
      exact .approves owner spender id expiry hlater
    | transferFrom spender sender receiver id =>
      exact absurd h (transferFrom_fails hw spender sender receiver id)
    | revokeAllowance owner spender id =>
      simp only [exec, Allowances.exec, Allowances.revokeAllowance, bind_eq_ok, pure_eq_ok] at h
      obtain ⟨_, _, rfl⟩ := h
      exact .withdraws owner spender id

theorem allIssued_step (hw : AllIssued w.store) (a : Action C (Call Address)) :
    AllIssued (step exec w a).store := by
  refine step_keeps (fun v : ManageWorld C K => AllIssued v.store) hw
    (fun env call w' _ hok => ?_) (fun _ _ => hw) fun _ _ _ _ => hw
  cases exec_effect hw hok with
  | approves => exact hw
  | withdraws => exact hw
  | tokens _ _ _ _ hissued => exact hissued

theorem user_kept (hw : AllIssued w.store) (h : ¬HandsOver id w a) :
    userOf (step exec w a).store id = userOf w.store id := by
  refine step_keeps (fun v : ManageWorld C K => userOf v.store id = userOf w.store id) rfl
    (fun env call w' ha hok => ?_) (fun _ _ => rfl) fun _ _ _ _ => rfl
  subst ha
  have hsame : ¬ChangesUser id w call := fun hchange => h ⟨⟨w', hok⟩, hchange⟩
  cases exec_effect hw hok with
  | approves => exact userOf_congr rfl
  | withdraws => exact userOf_congr rfl
  | tokens _ _ htokens _ _ => exact userOf_tokens htokens hsame

theorem live_iff : Live w owner spender id ↔
    ∃ info, w.store.allowance (owner, spender, id) = some info ∧ info.approved = true ∧
      w.now < info.expiry := by
  constructor
  · rintro ⟨happroved, hlive⟩
    cases hstored : w.store.allowance (owner, spender, id) with
    | none =>
      rw [getAllowance, hstored] at happroved
      exact nomatch happroved
    | some info =>
      simp only [getAllowance, hstored, Option.getD_some] at happroved hlive
      exact ⟨info, rfl, happroved, hlive⟩
  · rintro ⟨info, hstored, happroved, hlive⟩
    constructor <;> simpa only [getAllowance, hstored, Option.getD_some]

/-- An allowance that is in force after a step was so before, or the step grants it. -/
theorem live_before (hw : AllIssued w.store) (h : Live (step exec w a) owner spender id) :
    Live w owner spender id ∨ Grants owner spender id w a := by
  refine step_keeps (fun v : ManageWorld C K => Live v owner spender id →
      Live w owner spender id ∨ Grants owner spender id w a) Or.inl
    (fun env call w' ha hok hafter => ?_) (fun d _ hafter => ?_)
    (fun _ _ _ _ hafter => Or.inl ⟨hafter.approved, hafter.unexpired⟩) h
  · subst ha
    obtain ⟨info, hstored, hinfo⟩ := live_iff.mp hafter
    have hkept (hold : w.store.allowance (owner, spender, id) = some info)
        (hnow : w'.now = w.now) : Live w owner spender id :=
      live_iff.mpr ⟨info, hold, hnow ▸ hinfo⟩
    cases exec_effect hw hok with
    | approves grantor grantee other expiry =>
      -- the call grants this very allowance, or leaves it
      rcases StorageMap.update_cases hstored with ⟨hkey, _⟩ | ⟨_, hold⟩
      · obtain ⟨rfl, rfl, rfl⟩ : owner = grantor ∧ spender = grantee ∧ id = other := by
          simpa using hkey
        exact Or.inr ⟨⟨_, hok⟩, expiry, rfl⟩
      · exact Or.inl (hkept hold rfl)
    | withdraws =>
      rcases StorageMap.update_cases hstored with ⟨_, hnone⟩ | ⟨_, hold⟩
      · exact nomatch hnone
      · exact Or.inl (hkept hold rfl)
    | tokens _ s _ hsame _ =>
      exact Or.inl (hkept ((congrFun hsame _).symm.trans hstored) rfl)
  · obtain ⟨info, hstored, happroved, hlive⟩ := live_iff.mp hafter
    exact Or.inl (live_iff.mpr ⟨info, hstored, happroved, (Nat.le_add_right _ _).trans_lt hlive⟩)

/-- The allowance is in force at once. -/
theorem Grants.live (hw : AllIssued w.store) (h : Grants owner spender id w a) :
    Live (step exec w a) owner spender id := by
  cases a with
  | invoke env call =>
    obtain ⟨⟨w', hok⟩, expiry, rfl⟩ := h
    rw [step_invoke_ok hok]
    cases exec_effect hw hok with
    | approves _ _ _ _ hlater =>
      exact live_iff.mpr ⟨⟨true, expiry⟩, Function.update_self .., rfl, hlater⟩
  | tick _ => exact h.elim
  | external _ _ => exact h.elim

theorem Grants.not_handsOver (h : Grants owner spender id w a) : ¬HandsOver id w a := by
  cases a with
  | invoke env call =>
    obtain ⟨_, expiry, rfl⟩ := h
    exact fun hchange => hchange.2
  | tick _ => exact not_false
  | external _ _ => exact not_false

/-- A change of the user takes no allowance back. -/
theorem Live.handsOver (hw : AllIssued w.store) (h : Live w owner spender id)
    (hchange : HandsOver id w a) : Live (step exec w a) owner spender id := by
  cases a with
  | invoke env call =>
    obtain ⟨⟨w', hok⟩, hchange⟩ := hchange
    rw [step_invoke_ok hok]
    obtain ⟨info, hstored, hinfo⟩ := live_iff.mp h
    cases exec_effect hw hok with
    | approves => exact hchange.elim
    | withdraws => exact hchange.elim
    | tokens _ s _ hsame _ => exact live_iff.mpr ⟨info, (congrFun hsame _).trans hstored, hinfo⟩
  | tick _ => exact hchange.elim
  | external _ _ => exact hchange.elim

/-- Allowances stay backed through a step that grants none but to the user of a token and hands over
no token with an allowance in force. -/
theorem Sound.concat (h : Sound start as) (hw : AllIssued (SorobanHost.run exec start as).store)
    (ha : Respects (SorobanHost.run exec start as) a) : Sound start (as ++ [a]) := by
  intro owner spender id hlive
  rw [SorobanHost.run, run_concat] at hlive
  -- the token has the same user before and after the step
  have hstays : ¬HandsOver id (SorobanHost.run exec start as) a := by
    rcases live_before hw hlive with hold | hgrants
    · exact ha.2 owner spender id hold
    · exact hgrants.not_handsOver
  constructor
  · rw [SorobanHost.run, run_concat, user_kept hw hstays]
    rcases live_before hw hlive with hold | hgrants
    · exact (h owner spender id hold).owned
    · exact ha.1 owner spender id hgrants
  · rw [since_concat]
    rcases live_before hw hlive with hold | hgrants
    · exact ⟨Or.inl (h owner spender id hold).granted, hstays⟩
    · exact ⟨Or.inr hgrants, hstays⟩

/-- Where the allowances are backed after a step, the step has respected who has the tokens. -/
theorem Sound.respects (h : Sound start (as ++ [a]))
    (hw : AllIssued (SorobanHost.run exec start as).store) :
    Respects (SorobanHost.run exec start as) a := by
  have hafter (owner spender : Address) (id : BytesN32)
      (hlive : Live (step exec (SorobanHost.run exec start as) a) owner spender id) :
      Backed start (as ++ [a]) owner spender id := by
    apply h owner spender id
    rwa [SorobanHost.run, run_concat]
  constructor
  · intro owner spender id hgrants
    have howned := (hafter owner spender id (hgrants.live hw)).owned
    rwa [SorobanHost.run, run_concat, user_kept hw hgrants.not_handsOver] at howned
  · intro owner spender id hlive hchange
    have hgranted := (hafter owner spender id (hlive.handsOver hw hchange)).granted
    exact ((since_concat _).mp hgranted).2 hchange

/-- In every run from the deployed contract, whatever allowance is in force at any moment is the
token's user's and granted since the token came to them, exactly when nobody grants an allowance but
the user of the token and no token changes its user while an allowance for it is in force. -/
theorem allowances_backed_iff (wasm : BytesN32) (tokens : Address → C.token.State) (now : ℕ)
    (as : List (Action C (Call Address))) :
    (∀ pre post, as = pre ++ post → Sound (deployed wasm tokens now : ManageWorld C K) pre) ↔
      Guarded (step exec) Respects (deployed wasm tokens now : ManageWorld C K) as := by
  have hissued (pre : List (Action C (Call Address))) :
      AllIssued (SorobanHost.run exec (deployed wasm tokens now : ManageWorld C K) pre).store :=
    run_invariant_all (I := fun v : ManageWorld C K => AllIssued v.store) (step exec)
      (fun _ a hw => allIssued_step hw a) (allIssued_deployed wasm tokens now) pre
  have hstart : Sound (deployed wasm tokens now : ManageWorld C K) [] :=
    fun owner spender id hlive => nomatch hlive.approved
  exact prefixes_iff_guarded (step exec) hstart (fun as a h ha => h.concat (hissued as) ha)
    fun as a h => h.respects (hissued as)

/-- Account 1 gets the token 51, lets account 2 transfer it, and hands it on to account 3. -/
theorem allowance_outlives : ¬∀ pre post,
    ([.invoke (signedBy 5) (.tokens (.setAdmin 6)),
      .invoke (signedBy 5) (.tokens (.issueToken 51 1 9500)),
      .invoke (signedBy 0) (.allowances (.approve 1 2 51 8500)),
      .invoke (signedBy 0) (.tokens (.transferToken 51 3))] :
        List (Action numberedChain (Call ℕ))) = pre ++ post →
      Sound (deployed 0 (fun _ _ => (0 : ℕ)) 700 : ManageWorld numberedChain plainCrypto) pre := by
  intro h
  have hbacked := h _ [] (List.append_nil _).symm 1 2 51 ⟨by decide, by decide⟩
  exact absurd hbacked.owned (by decide)

end HubAssist.ManageHub.Ownership
