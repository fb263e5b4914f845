import HubAssist.MembershipModel
import HubAssist.StorageMap

/-! What the calls of the membership_token contract require and write. -/
namespace HubAssist.Membership
open SorobanHost CheckedArith

variable {Address : Type} [DecidableEq Address] {C : Chain Address}
variable {env : Env C} {s s' : Storage Address}

theorem requireAdmin_eq_ok {w : MembershipWorld C} {caller : Address} {u : Unit} :
    requireAdmin env w caller = .ok u ↔ caller ∈ env.signers ∧ w.store.admin = some caller := by
  simp only [requireAdmin, bind_eq_ok, requireAuth_eq_ok, getOr_eq_ok, failIf_eq_ok, exists_const,
    not_not]
  constructor
  · rintro ⟨hs, admin, hadmin, rfl⟩
    exact ⟨hs, hadmin⟩
  · rintro ⟨hs, hadmin⟩
    exact ⟨hs, caller, hadmin, rfl⟩

/-- The two storages differ in their tokens alone. -/
def TokensOnly (s s' : Storage Address) : Prop := ∃ tokens, s' = { s with token := tokens }

omit [DecidableEq Address] in
theorem TokensOnly.refl (s : Storage Address) : TokensOnly s s := ⟨s.token, rfl⟩

omit [DecidableEq Address] in
theorem TokensOnly.trans {s'' : Storage Address} (h : TokensOnly s s') (h' : TokensOnly s' s'') :
    TokensOnly s s'' := by
  obtain ⟨tokens, rfl⟩ := h
  obtain ⟨tokens', rfl⟩ := h'
  exact ⟨tokens', rfl⟩

omit [DecidableEq Address] in
theorem saveToken_tokensOnly (s : Storage Address) (token : MembershipToken Address) :
    TokensOnly s (saveToken s token) := ⟨_, rfl⟩

theorem moveToken_tokensOnly {now id : ℕ} {newOwner : Address}
    (h : moveToken env now id newOwner s = .ok s') : TokensOnly s s' := by
  simp only [moveToken, bind_eq_ok, pure_eq_ok] at h
  obtain ⟨token, _, _, _, _, _, _, _, rfl⟩ := h
  exact saveToken_tokensOnly s _

theorem moveAll_tokensOnly {now : ℕ} {params : List (TransferParams Address)}
    (h : moveAll env now params s = .ok s') : TokensOnly s s' := by
  induction params generalizing s with
  | nil =>
    obtain rfl := pure_eq_ok.mp h
    exact TokensOnly.refl s
  | cons p params ih =>
    obtain ⟨s₁, hmove, hrest⟩ := bind_eq_ok.mp h
    exact (moveToken_tokensOnly hmove).trans (ih hrest)

/-- Tokens are stored under their own numbers, all of which have been given out. -/
def Numbered (s : Storage Address) : Prop :=
  ∀ k token, s.token k = some token → token.id = k ∧ k ≤ s.tokenCount.getD 0

omit [DecidableEq Address] in
theorem Numbered.token_fresh (h : Numbered s) {k : ℕ} (hk : s.tokenCount.getD 0 < k) :
    s.token k = none := by
  cases htoken : s.token k with
  | none => rfl
  | some token => exact absurd (h k token htoken).2 (Nat.not_le.mpr hk)

omit [DecidableEq Address] in
@[simp] theorem saveToken_token_self (s : Storage Address) (token : MembershipToken Address) :
    (saveToken s token).token token.id = some token := Function.update_self ..

omit [DecidableEq Address] in
theorem saveToken_token_of_ne (s : Storage Address) {token : MembershipToken Address} {k : ℕ}
    (h : k ≠ token.id) : (saveToken s token).token k = s.token k := Function.update_of_ne h _ _

omit [DecidableEq Address] in
theorem saveToken_token_cases {token token' : MembershipToken Address} {k : ℕ}
    (h : (saveToken s token).token k = some token') :
    (k = token.id ∧ token' = token) ∨ (k ≠ token.id ∧ s.token k = some token') := by
  rcases StorageMap.update_cases h with ⟨hk, htoken⟩ | hold
  · exact Or.inl ⟨hk, (Option.some.inj htoken).symm⟩
  · exact Or.inr hold

omit [DecidableEq Address] in
/-- A token saved under a number that has been given out leaves the tokens numbered. -/
theorem Numbered.saveToken {token : MembershipToken Address} (h : Numbered s)
    (hid : token.id ≤ s.tokenCount.getD 0) : Numbered (saveToken s token) := by
  intro k token' hk
  rcases saveToken_token_cases hk with ⟨rfl, rfl⟩ | ⟨_, hold⟩
  · exact ⟨rfl, hid⟩
  · exact h k token' hold

omit [DecidableEq Address] in
theorem issueAll_tokensOnly (now : ℕ) (params : List (IssueParams Address)) (id : ℕ)
    (s : Storage Address) : TokensOnly s (issueAll now params id s).2 := by
  induction params generalizing id s with
  | nil => exact TokensOnly.refl s
  | cons p params ih => exact (saveToken_tokensOnly s _).trans (ih (id+1) _)

omit [DecidableEq Address] in
/-- A batch stores its tokens under the numbers it gives out and touches no other. -/
theorem issueAll_token_cases (now : ℕ) (params : List (IssueParams Address)) (id k : ℕ)
    (s : Storage Address) :
    ((issueAll now params id s).2.token k = s.token k ∧ (k ≤ id ∨ id+params.length < k)) ∨
      (id < k ∧ k ≤ id+params.length ∧ ∃ p ∈ params,
        (issueAll now params id s).2.token k =
          some ⟨k, p.owner, p.tier, now, p.expiryDate, .active⟩) := by
  induction params generalizing id s with
  | nil => exact Or.inl ⟨rfl, by simpa using Nat.lt_or_ge id k |>.symm⟩
  | cons p params ih =>
    simp only [issueAll, List.length_cons]
    rcases ih (id+1) (saveToken s ⟨id+1, p.owner, p.tier, now, p.expiryDate, .active⟩) with
      ⟨hold, hk⟩ | ⟨hlt, hle, q, hq, hnew⟩
    · by_cases hself : k = id+1
      · -- the first parameter's own number, which the rest of the batch leaves alone
        refine Or.inr ⟨by omega, by omega, p, List.mem_cons_self, ?_⟩
        rw [hold, hself]
        exact saveToken_token_self ..
      · exact Or.inl ⟨hold.trans (saveToken_token_of_ne s hself), by omega⟩
    · exact Or.inr ⟨by omega, by omega, q, List.mem_cons_of_mem p hq, hnew⟩

/-- The status that the clock alone gives, once the grace period and its end are known. -/
def timedStatus (now expiryDate graceEnd : ℕ) : MembershipStatus :=
  if now ≤ expiryDate then .active else if now ≤ graceEnd then .gracePeriod else .expired

omit [DecidableEq Address] in
/-- The status of a token that is not revoked is the one the clock gives. -/
theorem computeStatus_timed {now : ℕ} {token : MembershipToken Address} {st : MembershipStatus}
    (hrevoked : token.status ≠ .revoked) (h : computeStatus s now token = .ok st) :
    st = timedStatus now token.expiryDate
      (token.expiryDate+s.gracePeriodDays.getD 30*secondsPerDay) := by
  rw [computeStatus, if_neg hrevoked] at h
  simp only [bind_eq_ok, checked_eq_ok, u64Mul, Option.ite_none_right_eq_some,
    Option.some.injEq] at h
  obtain ⟨gracePeriodSecs, ⟨_, rfl⟩, h⟩ := h
  unfold timedStatus
  by_cases hactive : now ≤ token.expiryDate
  · rw [if_pos hactive] at h ⊢
    exact (pure_eq_ok.mp h).symm
  · rw [if_neg hactive] at h ⊢
    obtain ⟨graceEnd, hend, h⟩ := bind_eq_ok.mp h
    obtain ⟨_, rfl⟩ := u64Add_eq_some.mp (checked_eq_ok.mp hend)
    exact (pure_eq_ok.mp h).symm

omit [DecidableEq Address] in
theorem computeStatus_revoked_iff {now : ℕ} {token : MembershipToken Address} :
    computeStatus s now token = .ok .revoked ↔ token.status = .revoked := by
  constructor
  · intro h
    by_contra hrevoked
    have htimed := computeStatus_timed hrevoked h
    unfold timedStatus at htimed
    split_ifs at htimed
  · intro hrevoked
    rw [computeStatus, if_pos hrevoked]
    rfl

omit [DecidableEq Address] in
/-- The status reads the grace period, the expiry date and the mark of revocation only. -/
theorem computeStatus_congr {now : ℕ} {token token' : MembershipToken Address}
    (hgrace : s'.gracePeriodDays = s.gracePeriodDays) (hstatus : token'.status = token.status)
    (hexpiry : token'.expiryDate = token.expiryDate) :
    computeStatus s' now token' = computeStatus s now token := by
  simp only [computeStatus, hgrace, hstatus, hexpiry]

theorem validateTransition_active {st : MembershipStatus} {u : Unit} :
    validateTransition st .active = .ok u ↔ st = .gracePeriod := by
  cases st <;> simp [validateTransition]

theorem validateTransition_revoked {st : MembershipStatus} {u : Unit} :
    validateTransition st .revoked = .ok u ↔ st = .active := by
  cases st <;> simp [validateTransition]

theorem requireTransferable_eq_ok {st : MembershipStatus} {u : Unit} :
    requireTransferable st = .ok u ↔ st = .active := by
  cases st <;> simp [requireTransferable]

/-- The storage once the token with the number `id` has been issued alone. -/
def issued (s : Storage Address) (now id : ℕ) (owner : Address) (tier expiryDate : ℕ) :
    Storage Address :=
  { saveToken { s with tokenCount := some id } ⟨id, owner, tier, now, expiryDate, .active⟩ with
    expiryIndex := pushToDay s.expiryIndex (expiryDay expiryDate) id }

/-- The storage once the token `id` has been renewed until `expiryDate`. -/
def renewed (s : Storage Address) (id : ℕ) (token : MembershipToken Address) (expiryDate : ℕ) :
    Storage Address :=
  saveToken { s with
    expiryIndex := pushToDay (dropFromDay s.expiryIndex (expiryDay token.expiryDate) id)
      (expiryDay expiryDate) id } { token with expiryDate := expiryDate, status := .active }

/-- The storage once a batch has been issued. -/
def issuedBatch (s : Storage Address) (now : ℕ) (params : List (IssueParams Address)) :
    Storage Address :=
  (issueAll now params (s.tokenCount.getD 0)
    { s with tokenCount := some (s.tokenCount.getD 0+params.length) }).2

omit [DecidableEq Address] in
theorem issuedBatch_frame (s : Storage Address) (now : ℕ) (params : List (IssueParams Address)) :
    ∃ tokens, issuedBatch s now params =
      { s with tokenCount := some (s.tokenCount.getD 0+params.length), token := tokens } :=
  issueAll_tokensOnly now params (s.tokenCount.getD 0) _

omit [DecidableEq Address] in
theorem issuedBatch_token_cases (s : Storage Address) (now : ℕ)
    (params : List (IssueParams Address)) (k : ℕ) :
    (issuedBatch s now params).token k = s.token k ∨
      (s.tokenCount.getD 0 < k ∧ k ≤ s.tokenCount.getD 0+params.length ∧ ∃ p ∈ params,
        (issuedBatch s now params).token k =
          some ⟨k, p.owner, p.tier, now, p.expiryDate, .active⟩) :=
  (issueAll_token_cases now params (s.tokenCount.getD 0) k _).imp And.left id

omit [DecidableEq Address] in
/-- Every parameter of a batch becomes a token with a new number. -/
theorem issueAll_token_of_mem (now : ℕ) {params : List (IssueParams Address)}
    {p : IssueParams Address} (hp : p ∈ params) (id : ℕ) (s : Storage Address) :
    ∃ k, id < k ∧ (issueAll now params id s).2.token k =
      some ⟨k, p.owner, p.tier, now, p.expiryDate, .active⟩ := by
  induction params generalizing id s with
  | nil => exact absurd hp List.not_mem_nil
  | cons q params ih =>
    simp only [issueAll]
    rcases List.mem_cons.mp hp with rfl | hp
    · refine ⟨id+1, Nat.lt_succ_self id, ?_⟩
      rcases issueAll_token_cases now params (id+1) (id+1) (saveToken s
        ⟨id+1, p.owner, p.tier, now, p.expiryDate, .active⟩) with ⟨hold, _⟩ | ⟨hlt, _⟩
      · rw [hold]
        exact saveToken_token_self ..
      · exact absurd hlt (Nat.lt_irrefl _)
    · obtain ⟨k, hk, htoken⟩ := ih hp (id+1) (saveToken s
        ⟨id+1, q.owner, q.tier, now, q.expiryDate, .active⟩)
      exact ⟨k, Nat.lt_of_succ_lt hk, htoken⟩

omit [DecidableEq Address] in
theorem issuedBatch_token_of_mem (s : Storage Address) (now : ℕ)
    {params : List (IssueParams Address)} {p : IssueParams Address} (hp : p ∈ params) :
    ∃ k, s.tokenCount.getD 0 < k ∧ (issuedBatch s now params).token k =
      some ⟨k, p.owner, p.tier, now, p.expiryDate, .active⟩ :=
  issueAll_token_of_mem now hp (s.tokenCount.getD 0) _

/-- The calls that leave the tokens and their index alone. -/
def Call.Administers : Call Address → Prop
  | .initializeContract _ | .pause _ | .unpause _ | .upgrade _ _ => True
  | _ => False

/-- The transfers that a call makes, in order. -/
def Call.transfers : Call Address → Option (List (TransferParams Address))
  | .transferToken id newOwner => some [⟨id, newOwner⟩]
  | .batchTransferTokens params => some params
  | _ => none

/-- What an accepted call leaves in the storage. -/
inductive Effect (env : Env C) (w : MembershipWorld C) : Call Address → Storage Address → Prop where
  | administer {call s'} (hcall : call.Administers) (htoken : s'.token = w.store.token)
      (hcount : s'.tokenCount = w.store.tokenCount) (hindex : s'.expiryIndex = w.store.expiryIndex)
      (hgrace : s'.gracePeriodDays = w.store.gracePeriodDays) : Effect env w call s'
  | issue {admin owner tier expiryDate id} (hexpiry : w.now < expiryDate)
      (hid : id = w.store.tokenCount.getD 0+1) :
      Effect env w (.issueToken admin owner tier expiryDate)
        (issued w.store w.now id owner tier expiryDate)
  | transfer {call params s'} (hcall : call.transfers = some params)
      (h : moveAll env w.now params w.store = .ok s') : Effect env w call s'
  | renew {admin id expiryDate token} (hsigned : admin ∈ env.signers)
      (hadmin : w.store.admin = some admin) (htoken : w.store.token id = some token)
      (hstatus : computeStatus w.store w.now token = .ok .gracePeriod) :
      Effect env w (.renewToken admin id expiryDate) (renewed w.store id token expiryDate)
  | revoke {admin id token} (htoken : w.store.token id = some token)
      (hstatus : computeStatus w.store w.now token = .ok .active) :
      Effect env w (.revokeToken admin id) (saveToken w.store { token with status := .revoked })
  | issueBatch {admin params} (hexpiry : ∀ p ∈ params, w.now < p.expiryDate) :
      Effect env w (.batchIssueTokens admin params) (issuedBatch w.store w.now params)

theorem exec_effect {call : Call Address} {w w' : MembershipWorld C}
    (h : exec env call w = .ok w') : ∃ s', w' = w.setStore s' ∧ Effect env w call s' := by
  cases call with
  | initializeContract admin =>
    simp only [exec, initializeContract, bind_eq_ok, pure_eq_ok] at h
    obtain ⟨_, _, rfl⟩ := h
    exact ⟨_, rfl, .administer trivial rfl rfl rfl rfl⟩
  | pause admin =>
    simp only [exec, pause, bind_eq_ok, pure_eq_ok] at h
    obtain ⟨_, _, rfl⟩ := h
    exact ⟨_, rfl, .administer trivial rfl rfl rfl rfl⟩
  | unpause admin =>
    simp only [exec, unpause, bind_eq_ok, pure_eq_ok] at h
    obtain ⟨_, _, rfl⟩ := h
    exact ⟨_, rfl, .administer trivial rfl rfl rfl rfl⟩
  | issueToken admin owner tier expiryDate =>
    obtain ⟨⟨id, w₁⟩, hc, rfl⟩ := map_eq_ok.mp h
    simp only [issueToken, bind_eq_ok, failIf_eq_ok, nextId, checked_eq_ok, u64Add_eq_some,
      pure_eq_ok, not_le] at hc
    obtain ⟨_, _, _, _, _, hexpiry, _, ⟨_, rfl⟩, hc⟩ := hc
    obtain ⟨rfl, rfl⟩ := Prod.mk.inj hc
    exact ⟨_, rfl, .issue hexpiry rfl⟩
  | transferToken id newOwner =>
    simp only [exec, transferToken, bind_eq_ok, pure_eq_ok] at h
    obtain ⟨_, _, s, hmove, rfl⟩ := h
    have hall : moveAll env w.now [⟨id, newOwner⟩] w.store = .ok s :=
      bind_eq_ok.mpr ⟨s, hmove, rfl⟩
    exact ⟨s, rfl, .transfer rfl hall⟩
  | renewToken admin id newExpiryDate =>
    simp only [exec, renewToken, bind_eq_ok, loadToken, getOr_eq_ok, requireAdmin_eq_ok,
      validateTransition_active, pure_eq_ok] at h
    obtain ⟨_, _, _, ⟨hsigned, hadmin⟩, token, htoken, _, hstatus, _, rfl, rfl⟩ := h
    exact ⟨_, rfl, .renew hsigned hadmin htoken hstatus⟩
  | revokeToken admin id =>
    simp only [exec, revokeToken, bind_eq_ok, loadToken, getOr_eq_ok, validateTransition_revoked,
      pure_eq_ok] at h
    obtain ⟨_, _, _, _, token, htoken, _, hstatus, _, rfl, rfl⟩ := h
    exact ⟨_, rfl, .revoke htoken hstatus⟩
  | batchIssueTokens admin params =>
    obtain ⟨⟨ids, w₁⟩, hc, rfl⟩ := map_eq_ok.mp h
    simp only [batchIssueTokens, bind_eq_ok, failIf_eq_ok, checked_eq_ok, u64Add_eq_some,
      pure_eq_ok, not_exists, not_and, not_le] at hc
    obtain ⟨_, _, _, _, _, _, _, hexpiry, _, ⟨_, rfl⟩, hc⟩ := hc
    obtain ⟨rfl, rfl⟩ := Prod.mk.inj hc
    exact ⟨_, rfl, .issueBatch hexpiry⟩
  | batchTransferTokens params =>
    simp only [exec, batchTransferTokens, bind_eq_ok, pure_eq_ok] at h
    obtain ⟨_, _, s, hmove, rfl⟩ := h
    exact ⟨s, rfl, .transfer rfl hmove⟩
  | upgrade admin newWasmHash =>
    simp only [exec, upgrade, bind_eq_ok, pure_eq_ok] at h
    obtain ⟨_, _, rfl⟩ := h
    exact ⟨_, rfl, .administer trivial rfl rfl rfl rfl⟩

end HubAssist.Membership
