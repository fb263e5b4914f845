import HubAssist.MembershipBatch
import HubAssist.NumberedTable

/-! The numbers of the tokens: two calls give them out from one counter, one at a time and in
blocks, and no number is ever given out twice. -/
namespace HubAssist.Membership
open SorobanHost CheckedArith RunSystem NumberedTable

variable {Address : Type} [DecidableEq Address] {C : Chain Address}
variable {env : Env C} {s s' : Storage Address} {w w' : MembershipWorld C}

/-- The numbers that this step returns. -/
def returnedIds (w : MembershipWorld C) : Action C (Call Address) → List ℕ
  | .invoke env (.issueToken admin owner tier expiryDate) =>
    match issueToken env admin owner tier expiryDate w with
    | .ok (id, _) => [id]
    | .error _ => []
  | .invoke env (.batchIssueTokens admin params) =>
    match batchIssueTokens env admin params w with
    | .ok (ids, _) => ids
    | .error _ => []
  | _ => []

/-- The stored tokens have the numbers up to the counter, which are the numbers that were returned,
in order; and no step changes the number, the tier or the date of issue of a token. -/
structure IdsDense (w : MembershipWorld C) (returned : List ℕ) : Prop where
  stored : ∀ id, (w.store.token id).isSome = true ↔ 1 ≤ id ∧ id ≤ w.store.tokenCount.getD 0
  own : ∀ id token, w.store.token id = some token → token.id = id
  returned_eq : returned = List.range' 1 (w.store.tokenCount.getD 0)
  increasing : returned.Pairwise (· < ·)
  kept : ∀ a id token, w.store.token id = some token →
    ∃ token', (step exec w a).store.token id = some token' ∧ token'.id = token.id ∧
      token'.tier = token.tier ∧ token'.issuedAt = token.issuedAt

/-- The storage holds tokens under exactly the numbers returned. -/
def Issued (s : Storage Address) (returned : List ℕ) : Prop :=
  Logged MembershipToken.id (fun id => id) (s.tokenCount.getD 0) s.token returned

omit [DecidableEq Address] in
theorem Issued.numbered {returned : List ℕ} (h : Issued s returned) : Numbered s :=
  fun k token hk => ⟨h.own k token hk, (h.dense.pos_le hk).2⟩

omit [DecidableEq Address] in
theorem Issued.saveToken {returned : List ℕ} {token token' : MembershipToken Address}
    (h : Issued s returned) (htoken : s.token token.id = some token) (hid : token'.id = token.id) :
    Issued (saveToken s token') returned := by
  apply Logged.congr h
  intro k
  by_cases hk : k = token'.id
  · rw [hk, saveToken_token_self, hid, htoken, Option.map_some, Option.map_some, hid]
  · rw [saveToken_token_of_ne s hk]

omit [DecidableEq Address] in
theorem Issued.issued {returned : List ℕ} (h : Issued s returned) (now : ℕ) (owner : Address)
    (tier expiryDate : ℕ) :
    Issued (Membership.issued s now (s.tokenCount.getD 0+1) owner tier expiryDate)
      (returned ++ [s.tokenCount.getD 0+1]) :=
  Logged.push h ⟨s.tokenCount.getD 0+1, owner, tier, now, expiryDate, .active⟩ rfl

omit [DecidableEq Address] in
/-- A block of numbers is given out like the single numbers, one after the other. -/
theorem Issued.issuedEach {returned : List ℕ} (h : Issued s returned) (now : ℕ)
    (params : List (IssueParams Address)) :
    Issued (Membership.issuedEach now params s)
      (returned ++ List.range' (s.tokenCount.getD 0+1) params.length) := by
  induction params generalizing s returned with
  | nil =>
    rw [List.length_nil, List.range'_zero, List.append_nil]
    exact h
  | cons p params ih =>
    have hrest := ih (h.issued now p.owner p.tier p.expiryDate)
    rw [List.append_assoc, List.singleton_append] at hrest
    rw [List.length_cons, List.range'_succ]
    exact hrest

omit [DecidableEq Address] in
theorem Issued.issuedBatch {returned : List ℕ} (h : Issued s returned) (now : ℕ)
    (params : List (IssueParams Address)) :
    Issued (Membership.issuedBatch s now params)
      (returned ++ List.range' (s.tokenCount.getD 0+1) params.length) := by
  have heach := h.issuedEach now params
  have hcount : (Membership.issuedEach now params s).tokenCount.getD 0 =
      s.tokenCount.getD 0+params.length := by
    rw [issuedEach_tokenCount]
    split_ifs with hnil
    · rw [hnil, List.length_nil, Nat.add_zero]
    · rfl
  rw [Issued, hcount] at heach
  rw [Issued, issuedBatch_eq]
  exact heach

theorem returnedIds_of_administers {call : Call Address} (h : call.Administers) :
    returnedIds w (.invoke env call) = [] := by
  cases call <;> first | rfl | exact h.elim

theorem returnedIds_of_transfers {call : Call Address} {params : List (TransferParams Address)}
    (h : call.transfers = some params) : returnedIds w (.invoke env call) = [] := by
  cases call <;> first | rfl | exact absurd h.symm (Option.some_ne_none params)

theorem exec_issued {call : Call Address} {returned : List ℕ} (h : exec env call w = .ok w')
    (hw : Issued w.store returned) :
    Issued w'.store (returned ++ returnedIds w (.invoke env call)) := by
  obtain ⟨s', rfl, heffect⟩ := exec_effect h
  rw [World.setStore_store]
  cases heffect with
  | administer hcall htoken hcount _ _ =>
    rw [returnedIds_of_administers hcall, List.append_nil, Issued, htoken, hcount]
    exact hw
  | @issue admin owner tier expiryDate id _ hid =>
    obtain ⟨⟨k, w₁⟩, hissue, _⟩ := map_eq_ok.mp h
    obtain ⟨_, _, _, _, hk, _⟩ := issueToken_eq_ok.mp hissue
    rw [returnedIds, hissue, ← hk, hid]
    exact hw.issued w.now owner tier expiryDate
  | transfer hcall hmove =>
    rw [returnedIds_of_transfers hcall, List.append_nil]
    have hsame := moveAll_token_map (f := MembershipToken.id) hw.numbered hmove fun _ _ => rfl
    obtain ⟨_, rfl⟩ := moveAll_tokensOnly hmove
    exact Logged.congr hw hsame
  | @renew admin id expiryDate token _ _ htoken _ =>
    change Issued (renewed w.store id token expiryDate) (returned ++ [])
    rw [List.append_nil]
    obtain ⟨rfl, _⟩ := hw.numbered _ _ htoken
    exact hw.saveToken htoken rfl
  | @revoke admin id token htoken _ =>
    change Issued (Membership.saveToken w.store { token with status := .revoked }) (returned ++ [])
    rw [List.append_nil]
    obtain ⟨rfl, _⟩ := hw.numbered _ _ htoken
    exact hw.saveToken htoken rfl
  | @issueBatch admin params _ =>
    obtain ⟨⟨ids, w₁⟩, hissue, _⟩ := map_eq_ok.mp h
    obtain ⟨_, _, _, _, _, hids, _⟩ := batchIssueTokens_eq_ok.mp hissue
    rw [returnedIds, hissue, ← hids]
    exact hw.issuedBatch w.now params

theorem returnedIds_error {call : Call Address} {fault : Fault ContractError}
    (h : exec env call w = .error fault) : returnedIds w (.invoke env call) = [] := by
  cases call with
  | issueToken admin owner tier expiryDate =>
    cases hissue : issueToken env admin owner tier expiryDate w with
    | ok result => rw [exec, hissue] at h; cases h
    | error fault => rw [returnedIds, hissue]
  | batchIssueTokens admin params =>
    cases hissue : batchIssueTokens env admin params w with
    | ok result => rw [exec, hissue] at h; cases h
    | error fault => rw [returnedIds, hissue]
  | _ => rfl

theorem step_issued {returned : List ℕ} (hw : Issued w.store returned)
    (a : Action C (Call Address)) :
    Issued (step exec w a).store (returned ++ returnedIds w a) := by
  refine step_emits (fun v returned => Issued v.store returned) returnedIds hw ?_
    (fun _ _ _ => returnedIds_error) (fun _ => ⟨rfl, hw⟩) (fun _ _ => ⟨rfl, hw⟩) a
  intro env call w' hcall
  exact exec_issued hcall hw

theorem TokenChange.issue_kept {call : Call Address} {k : ℕ} {token : MembershipToken Address}
    {o : Option (MembershipToken Address)} (h : TokenChange env call w k (some token) o) :
    ∃ token', o = some token' ∧ token'.id = token.id ∧ token'.tier = token.tier ∧
      token'.issuedAt = token.issuedAt := by
  cases h with
  | handed hmoves =>
    obtain ⟨owner, rfl⟩ := hmoves.frame
    exact ⟨_, rfl, rfl, rfl, rfl⟩
  | renewed => exact ⟨_, rfl, rfl, rfl, rfl⟩
  | revoked => exact ⟨_, rfl, rfl, rfl, rfl⟩

theorem step_issue_kept {k : ℕ} {token : MembershipToken Address} (hs : Numbered w.store)
    (a : Action C (Call Address)) (htoken : w.store.token k = some token) :
    ∃ token', (step exec w a).store.token k = some token' ∧ token'.id = token.id ∧
      token'.tier = token.tier ∧ token'.issuedAt = token.issuedAt := by
  obtain ⟨_, _, hstore | ⟨env, call, s', rfl, _, hstep, _, hchange⟩⟩ := step_token w a hs
  · exact ⟨token, hstore ▸ htoken, rfl, rfl, rfl⟩
  · have hk := hchange k
    rw [htoken] at hk
    rw [hstep]
    exact hk.issue_kept

theorem deployed_issued (w : MembershipWorld C) (wasm : Hash) (gracePeriodDays : Option ℕ) :
    Issued (deployed w wasm gracePeriodDays).store [] := logged_empty _ _

/-- In every state of a run from a deployed contract the tokens have the numbers from one up to the
counter, the calls so far have returned exactly these, in order, and nothing takes a token's number,
tier or date of issue from it. -/
theorem ids_dense (w : MembershipWorld C) (wasm : Hash) (gracePeriodDays : Option ℕ)
    (as : List (Action C (Call Address))) :
    IdsDense (run exec (deployed w wasm gracePeriodDays) as)
      (trace (step exec) returnedIds (deployed w wasm gracePeriodDays) as) := by
  have hrun := trace_invariant_all (step exec) returnedIds
    (J := fun w returned => Issued w.store returned) (fun _ a _ hw => step_issued hw a)
    (deployed_issued w wasm gracePeriodDays) as
  have hids := hrun.map_number
  rw [List.map_id'] at hids
  refine ⟨hrun.dense, hrun.own, hids, ?_, fun a id token => step_issue_kept hrun.numbered a⟩
  rw [hids]
  exact List.pairwise_lt_range' 1

end HubAssist.Membership
