import HubAssist.MembershipExpiry

/-! The batch calls of the membership contract against the single calls they stand for. -/
namespace HubAssist.Membership
open SorobanHost CheckedArith RunSystem BucketIndex

variable {Address : Type} [DecidableEq Address] {C : Chain Address}
variable {env : Env C} {s s' : Storage Address} {w w' : MembershipWorld C}

def Paused (w : MembershipWorld C) : Prop := w.store.paused.getD false = true

/-- `issueToken` for one set of parameters after the other; the first failure ends it. -/
def issueEach (env : Env C) (admin : Address) : List (IssueParams Address) → MembershipWorld C →
    Except (Fault ContractError) (List ℕ × MembershipWorld C)
  | [], w => return ([], w)
  | p :: params, w => do
    let (id, w) ← issueToken env admin p.owner p.tier p.expiryDate w
    let (ids, w) ← issueEach env admin params w
    return (id :: ids, w)

/-- `transferToken` for one set of parameters after the other; the first failure ends it. -/
def transferEach (env : Env C) : List (TransferParams Address) → MembershipWorld C → Outcome C
  | [], w => return w
  | p :: params, w => do
    let w ← transferToken env p.id p.newOwner w
    transferEach env params w

/-- The batch returns the numbers and leaves the storage that the single issues do, and fails where
one of them does, which leaves the state as it was. -/
def IssuesAlike (env : Env C) (admin : Address) (params : List (IssueParams Address))
    (w : MembershipWorld C) : Prop :=
  (∀ ids w', issueEach env admin params w = .ok (ids, w') →
    batchIssueTokens env admin params w = .ok (ids, w')) ∧
  (∀ fault, issueEach env admin params w = .error fault →
    (∃ fault', batchIssueTokens env admin params w = .error fault') ∧
      step exec w (.invoke env (.batchIssueTokens admin params)) = w)

/-- The batch has the outcome of the single transfers, and where it fails the state is as it was. -/
def TransfersAlike (env : Env C) (params : List (TransferParams Address))
    (w : MembershipWorld C) : Prop :=
  (∀ w', transferEach env params w = .ok w' → batchTransferTokens env params w = .ok w') ∧
  (∀ fault, transferEach env params w = .error fault →
    (∃ fault', batchTransferTokens env params w = .error fault') ∧
      step exec w (.invoke env (.batchTransferTokens params)) = w)

/-- Nothing is issued: there is nothing to issue, where the contract is not paused and has a
counter, or one of the parameters cannot be issued. -/
def IssuesNothing (params : List (IssueParams Address)) (w : MembershipWorld C) : Prop :=
  (params = [] ∧ ¬Paused w ∧ w.store.tokenCount ≠ none) ∨
    (params ≠ [] ∧ (Paused w ∨ (∃ p ∈ params, p.expiryDate ≤ w.now) ∨
      u64Bound ≤ w.store.tokenCount.getD 0+params.length))

/-- The storage once every parameter has been issued alone. -/
def issuedEach (now : ℕ) : List (IssueParams Address) → Storage Address → Storage Address
  | [], s => s
  | p :: params, s =>
    issuedEach now params (issued s now (s.tokenCount.getD 0+1) p.owner p.tier p.expiryDate)

theorem issueToken_eq_ok {admin owner : Address} {tier expiryDate id : ℕ} :
    issueToken env admin owner tier expiryDate w = .ok (id, w') ↔
      ¬Paused w ∧ (admin ∈ env.signers ∧ w.store.admin = some admin) ∧ w.now < expiryDate ∧
        w.store.tokenCount.getD 0+1 < u64Bound ∧ w.store.tokenCount.getD 0+1 = id ∧
          w.setStore (issued w.store w.now id owner tier expiryDate) = w' := by
  simp only [issueToken, requireNotPaused, nextId, bind_eq_ok, failIf_eq_ok, requireAdmin_eq_ok,
    checked_eq_ok, u64Add_eq_some, pure_eq_ok, exists_const, Prod.mk.injEq, Paused, not_le]
  constructor
  · rintro ⟨hp, hadmin, hexpiry, _, ⟨hlt, rfl⟩, rfl, rfl⟩
    exact ⟨hp, hadmin, hexpiry, hlt, rfl, rfl⟩
  · rintro ⟨hp, hadmin, hexpiry, hlt, rfl, rfl⟩
    exact ⟨hp, hadmin, hexpiry, _, ⟨hlt, rfl⟩, rfl, rfl⟩

omit [DecidableEq Address] in
theorem issueAll_ids (now : ℕ) (params : List (IssueParams Address)) (id : ℕ)
    (s : Storage Address) :
    (issueAll now params id s).1 = List.range' (id+1) params.length := by
  induction params generalizing id s with
  | nil => rfl
  | cons p params ih => simp only [issueAll, ih, List.length_cons, List.range'_succ]

omit [DecidableEq Address] in
/-- The loop of a batch writes what the single issues write, but for the counter and the index. -/
theorem issueAll_eq_issuedEach (now : ℕ) (params : List (IssueParams Address))
    (s : Storage Address) (count : Option ℕ) (index : ℕ → Option (List ℕ)) :
    (issueAll now params (s.tokenCount.getD 0)
        { s with tokenCount := count, expiryIndex := index }).2 =
      { issuedEach now params s with tokenCount := count, expiryIndex := index } := by
  induction params generalizing s with
  | nil => rfl
  | cons p params ih =>
    exact ih (issued s now (s.tokenCount.getD 0+1) p.owner p.tier p.expiryDate)

omit [DecidableEq Address] in
theorem issuedEach_tokenCount (now : ℕ) (params : List (IssueParams Address))
    (s : Storage Address) : (issuedEach now params s).tokenCount =
      if params = [] then s.tokenCount else some (s.tokenCount.getD 0+params.length) := by
  induction params generalizing s with
  | nil => rfl
  | cons p params ih =>
    rw [issuedEach, ih, if_neg (List.cons_ne_nil p params), List.length_cons]
    split_ifs with hnil
    · subst hnil
      rfl
    · change some (s.tokenCount.getD 0+1+params.length) = _
      rw [Nat.add_assoc, Nat.add_comm 1]

omit [DecidableEq Address] in
theorem issuedBatch_eq (now : ℕ) (params : List (IssueParams Address)) (s : Storage Address) :
    issuedBatch s now params = { issuedEach now params s with
      tokenCount := some (s.tokenCount.getD 0+params.length)
      expiryIndex := s.expiryIndex } := issueAll_eq_issuedEach now params s _ _

omit [DecidableEq Address] in
/-- A batch that issues something leaves what the single issues leave, without their entries in the
index of expiry days. -/
theorem issuedBatch_eq_issuedEach (now : ℕ) {params : List (IssueParams Address)}
    (hne : params ≠ []) (s : Storage Address) :
    issuedBatch s now params = { issuedEach now params s with expiryIndex := s.expiryIndex } := by
  have hcount := issuedEach_tokenCount now params s
  rw [if_neg hne] at hcount
  rw [issuedBatch_eq, ← hcount]

omit [DecidableEq Address] in
theorem issuedEach_bucket_length (now : ℕ) (params : List (IssueParams Address))
    (s : Storage Address) (day : ℕ) : (bucket s.expiryIndex day).length ≤
      (bucket (issuedEach now params s).expiryIndex day).length := by
  induction params generalizing s with
  | nil => exact Nat.le_refl _
  | cons p params ih =>
    refine Nat.le_trans ?_ (ih _)
    change _ ≤ (bucket (pushToDay s.expiryIndex (expiryDay p.expiryDate) _) day).length
    rw [bucket_pushToDay, push]
    by_cases hday : day = expiryDay p.expiryDate
    · rw [hday, Function.update_self, List.length_append]
      omega
    · rw [Function.update_of_ne hday]

omit [DecidableEq Address] in
/-- Single issues are found in the index: some bucket has grown. -/
theorem issuedEach_expiryIndex_ne (now : ℕ) {params : List (IssueParams Address)}
    (hne : params ≠ []) (s : Storage Address) :
    (issuedEach now params s).expiryIndex ≠ s.expiryIndex := by
  cases params with
  | nil => exact absurd rfl hne
  | cons p params =>
    intro heq
    have hgrown := issuedEach_bucket_length now params
      (issued s now (s.tokenCount.getD 0+1) p.owner p.tier p.expiryDate) (expiryDay p.expiryDate)
    have hpushed : (bucket (issued s now (s.tokenCount.getD 0+1) p.owner p.tier
        p.expiryDate).expiryIndex (expiryDay p.expiryDate)).length =
          (bucket s.expiryIndex (expiryDay p.expiryDate)).length+1 := by
      change (bucket (pushToDay s.expiryIndex (expiryDay p.expiryDate) _) _).length = _
      rw [bucket_pushToDay, push, Function.update_self, List.length_append, List.length_singleton]
    rw [issuedEach] at heq
    rw [heq, hpushed] at hgrown
    omega

theorem issueEach_eq_ok {admin : Address} {params : List (IssueParams Address)}
    (hne : params ≠ []) {ids : List ℕ} :
    issueEach env admin params w = .ok (ids, w') ↔
      ¬Paused w ∧ (admin ∈ env.signers ∧ w.store.admin = some admin) ∧
        (∀ p ∈ params, w.now < p.expiryDate) ∧
          w.store.tokenCount.getD 0+params.length < u64Bound ∧
            List.range' (w.store.tokenCount.getD 0+1) params.length = ids ∧
              w.setStore (issuedEach w.now params w.store) = w' := by
  induction params generalizing w w' ids with
  | nil => exact absurd rfl hne
  | cons p params ih =>
    simp only [issueEach, bind_eq_ok, Prod.exists, issueToken_eq_ok, pure_eq_ok, Prod.mk.injEq,
      List.forall_mem_cons, List.length_cons, List.range'_succ, issuedEach]
    -- after the first issue the contract is neither paused nor given another admin
    by_cases hnil : params = []
    · subst hnil
      simp only [issueEach, pure_eq_ok, Prod.mk.injEq, List.length_nil, List.range'_zero,
        issuedEach, List.not_mem_nil, false_implies, implies_true, and_true, Nat.zero_add]
      constructor
      · rintro ⟨id, w₁, ⟨hp, hadmin, hexpiry, hlt, rfl, rfl⟩, _, _, ⟨rfl, rfl⟩, rfl, rfl⟩
        exact ⟨hp, hadmin, hexpiry, hlt, rfl, rfl⟩
      · rintro ⟨hp, hadmin, hexpiry, hlt, rfl, rfl⟩
        exact ⟨_, _, ⟨hp, hadmin, hexpiry, hlt, rfl, rfl⟩, _, _, ⟨rfl, rfl⟩, rfl, rfl⟩
    · simp only [ih hnil]
      constructor
      · rintro ⟨id, w₁, ⟨hp, hadmin, hexpiry, hlt, rfl, rfl⟩, _, _,
          ⟨_, _, hrest, hcount, rfl, rfl⟩, rfl, rfl⟩
        have hcount' : w.store.tokenCount.getD 0+1+params.length < u64Bound := hcount
        exact ⟨hp, hadmin, ⟨hexpiry, hrest⟩, by omega, rfl, rfl⟩
      · rintro ⟨hp, hadmin, ⟨hexpiry, hrest⟩, hcount, rfl, rfl⟩
        have hcount' : w.store.tokenCount.getD 0+1+params.length < u64Bound := by omega
        exact ⟨_, _, ⟨hp, hadmin, hexpiry, by omega, rfl, rfl⟩, _, _,
          ⟨hp, hadmin, hrest, hcount', rfl, rfl⟩, rfl, rfl⟩

theorem batchIssueTokens_eq_ok {admin : Address} {params : List (IssueParams Address)}
    {ids : List ℕ} :
    batchIssueTokens env admin params w = .ok (ids, w') ↔
      ¬Paused w ∧ (admin ∈ env.signers ∧ w.store.admin = some admin) ∧ params.length ≤ 50 ∧
        (∀ p ∈ params, w.now < p.expiryDate) ∧
          w.store.tokenCount.getD 0+params.length < u64Bound ∧
            List.range' (w.store.tokenCount.getD 0+1) params.length = ids ∧
              w.setStore (issuedBatch w.store w.now params) = w' := by
  simp only [batchIssueTokens, requireNotPaused, bind_eq_ok, failIf_eq_ok, requireAdmin_eq_ok,
    checked_eq_ok, u64Add_eq_some, pure_eq_ok, exists_const, Prod.mk.injEq, Paused, not_lt,
    not_exists, not_and, not_le, issueAll_ids, issuedBatch]
  constructor
  · rintro ⟨hp, hadmin, hlength, hexpiry, _, ⟨hlt, rfl⟩, rfl, rfl⟩
    exact ⟨hp, hadmin, hlength, hexpiry, hlt, rfl, rfl⟩
  · rintro ⟨hp, hadmin, hlength, hexpiry, hlt, rfl, rfl⟩
    exact ⟨hp, hadmin, hlength, hexpiry, _, ⟨hlt, rfl⟩, rfl, rfl⟩

/-- The counter never leaves the range of its type. -/
theorem tokenCount_lt {call : Call Address} (h : exec env call w = .ok w')
    (hw : w.store.tokenCount.getD 0 < u64Bound) : w'.store.tokenCount.getD 0 < u64Bound := by
  obtain ⟨s', rfl, heffect⟩ := exec_effect h
  cases heffect with
  | administer _ _ hcount _ _ =>
    rw [World.setStore_store, hcount]
    exact hw
  | issue _ hid =>
    obtain ⟨⟨id, w₁⟩, hissue, _⟩ := map_eq_ok.mp h
    obtain ⟨_, _, _, hlt, _⟩ := issueToken_eq_ok.mp hissue
    exact hid ▸ hlt
  | transfer _ hmove =>
    obtain ⟨_, rfl⟩ := moveAll_tokensOnly hmove
    exact hw
  | renew => exact hw
  | revoke => exact hw
  | issueBatch =>
    obtain ⟨⟨ids, w₁⟩, hissue, _⟩ := map_eq_ok.mp h
    obtain ⟨_, _, _, _, hlt, _⟩ := batchIssueTokens_eq_ok.mp hissue
    obtain ⟨_, hframe⟩ := issuedBatch_frame w.store w.now _
    rw [World.setStore_store, hframe]
    exact hlt

theorem tokenCount_lt_run (hw : w.store.tokenCount.getD 0 < u64Bound)
    (as : List (Action C (Call Address))) :
    (run exec w as).store.tokenCount.getD 0 < u64Bound := by
  refine run_invariant_all (step exec) (I := fun w => w.store.tokenCount.getD 0 < u64Bound) ?_ hw as
  intro w a hw
  exact step_keeps (fun v => v.store.tokenCount.getD 0 < u64Bound) hw
    (fun _ _ _ _ h => tokenCount_lt h hw) (fun _ _ => hw) fun _ _ _ _ => hw

theorem IssuesNothing.refused {admin : Address} {params : List (IssueParams Address)}
    (hne : params ≠ []) (h : IssuesNothing params w) (ids : List ℕ) :
    issueEach env admin params w ≠ .ok (ids, w') ∧
      batchIssueTokens env admin params w ≠ .ok (ids, w') := by
  have hblocked : ¬(¬Paused w ∧ (∀ p ∈ params, w.now < p.expiryDate) ∧
      w.store.tokenCount.getD 0+params.length < u64Bound) := by
    rintro ⟨hp, hexpiry, hlt⟩
    rcases h with ⟨hnil, _⟩ | ⟨_, hpaused | ⟨p, hmem, hpast⟩ | hover⟩
    · exact hne hnil
    · exact hp hpaused
    · exact absurd (hexpiry p hmem) (Nat.not_lt.mpr hpast)
    · omega
  constructor
  · intro heach
    obtain ⟨hp, _, hexpiry, hlt, _⟩ := (issueEach_eq_ok hne).mp heach
    exact hblocked ⟨hp, hexpiry, hlt⟩
  · intro hbatch
    obtain ⟨hp, _, _, hexpiry, hlt, _⟩ := batchIssueTokens_eq_ok.mp hbatch
    exact hblocked ⟨hp, hexpiry, hlt⟩

theorem issuesAlike_nil {admin : Address} (hcount : w.store.tokenCount.getD 0 < u64Bound)
    (hsigned : admin ∈ env.signers) (hadmin : w.store.admin = some admin) :
    IssuesAlike env admin [] w ↔ ¬Paused w ∧ w.store.tokenCount ≠ none := by
  constructor
  · rintro ⟨h, _⟩
    obtain ⟨hp, _, _, _, _, _, hstore⟩ := batchIssueTokens_eq_ok.mp (h [] w rfl)
    refine ⟨hp, fun hnone => ?_⟩
    -- the batch of nothing writes the counter
    have hwritten := congrArg (fun v : MembershipWorld C => v.store.tokenCount) hstore
    exact absurd (hwritten.trans hnone) (by simp [issuedBatch, issueAll])
  · rintro ⟨hp, hsome⟩
    refine ⟨fun ids w' h => ?_, fun fault h => ?_⟩
    · simp only [issueEach, pure_eq_ok, Prod.mk.injEq] at h
      obtain ⟨rfl, rfl⟩ := h
      obtain ⟨n, hn⟩ := Option.ne_none_iff_exists'.mp hsome
      refine batchIssueTokens_eq_ok.mpr ⟨hp, ⟨hsigned, hadmin⟩, Nat.zero_le _, by simp, hcount, rfl,
        ?_⟩
      have hkept : issuedBatch w.store w.now [] = w.store := by
        rw [issuedBatch, issueAll, hn, Option.getD_some, List.length_nil, Nat.add_zero, ← hn]
      rw [hkept]
      rfl
    · simp [issueEach, pure, Except.pure] at h

/-- A batch is like its single issues exactly when it issues nothing. -/
theorem issuesAlike_iff {admin : Address} {params : List (IssueParams Address)}
    (hcount : w.store.tokenCount.getD 0 < u64Bound) (hsigned : admin ∈ env.signers)
    (hadmin : w.store.admin = some admin) (hlength : params.length ≤ 50) :
    IssuesAlike env admin params w ↔ IssuesNothing params w := by
  by_cases hne : params = []
  · subst hne
    rw [issuesAlike_nil hcount hsigned hadmin]
    simp [IssuesNothing]
  constructor
  · rintro ⟨h, _⟩
    by_contra hissues
    simp only [IssuesNothing, hne, false_and, false_or, ne_eq, not_false_eq_true, true_and, not_or,
      not_exists, not_and, not_le] at hissues
    obtain ⟨hp, hexpiry, hlt⟩ := hissues
    have heach := (issueEach_eq_ok hne).mpr ⟨hp, ⟨hsigned, hadmin⟩, hexpiry, hlt, rfl, rfl⟩
    obtain ⟨_, _, _, _, _, _, hsame⟩ := batchIssueTokens_eq_ok.mp (h _ _ heach)
    -- the two differ in the index, which the batch has left alone
    have hindex := congrArg (fun v : MembershipWorld C => v.store.expiryIndex) hsame
    rw [issuedBatch_eq_issuedEach w.now hne] at hindex
    exact issuedEach_expiryIndex_ne w.now hne w.store hindex.symm
  · intro h
    refine ⟨fun ids w' heach => absurd heach (h.refused hne ids).1, fun fault _ => ?_⟩
    cases hbatch : batchIssueTokens env admin params w with
    | ok result => exact absurd hbatch (h.refused hne result.1).2
    | error fault' =>
      have hcall : exec env (.batchIssueTokens admin params) w = .error fault' := by
        rw [exec, hbatch]
        rfl
      exact ⟨⟨fault', rfl⟩, step_invoke_error hcall⟩

theorem requireNotPaused_of_paused (hp : Paused w) :
    requireNotPaused w = .error (.error .contractPaused) := if_pos hp

theorem requireNotPaused_of_not_paused (hp : ¬Paused w) : requireNotPaused w = .ok () := if_neg hp

theorem transferEach_eq_moveAll (hp : ¬Paused w) (params : List (TransferParams Address)) :
    transferEach env params w = (moveAll env w.now params w.store).map w.setStore := by
  induction params generalizing w with
  | nil => rfl
  | cons p params ih =>
    have hfirst : transferToken env p.id p.newOwner w =
        (moveToken env w.now p.id p.newOwner w.store).map w.setStore := by
      rw [transferToken, requireNotPaused_of_not_paused hp]
      rfl
    rw [transferEach, moveAll, hfirst]
    cases hmove : moveToken env w.now p.id p.newOwner w.store with
    | error fault => rfl
    | ok s₁ =>
      -- a transfer does not pause the contract, so the next one is not refused for that
      have hp₁ : ¬Paused (w.setStore s₁) := by
        obtain ⟨_, rfl⟩ := moveToken_tokensOnly hmove
        exact hp
      exact ih hp₁

/-- The batch and the single transfers have one outcome, faults included, unless there is nothing to
transfer: then only the batch looks at the pause. -/
theorem transferEach_eq_batch {params : List (TransferParams Address)}
    (h : params ≠ [] ∨ ¬Paused w) :
    transferEach env params w = batchTransferTokens env params w := by
  by_cases hp : Paused w
  · cases params with
    | nil => exact absurd hp (h.resolve_left fun hne => hne rfl)
    | cons p params =>
      rw [transferEach, transferToken, batchTransferTokens, requireNotPaused_of_paused hp]
      rfl
  · rw [transferEach_eq_moveAll hp, batchTransferTokens, requireNotPaused_of_not_paused hp]
    rfl

theorem transfersAlike_iff {params : List (TransferParams Address)} :
    TransfersAlike env params w ↔ params ≠ [] ∨ ¬Paused w := by
  constructor
  · rintro ⟨h, _⟩
    by_contra hneither
    obtain ⟨hnil, hp⟩ : params = [] ∧ Paused w := by simpa [not_or] using hneither
    subst hnil
    have hbatch := h w rfl
    rw [batchTransferTokens, requireNotPaused_of_paused hp] at hbatch
    cases hbatch
  · intro h
    have heq : transferEach env params w = batchTransferTokens env params w :=
      transferEach_eq_batch h
    refine ⟨fun w' hok => heq ▸ hok, fun fault herror => ?_⟩
    rw [heq] at herror
    exact ⟨⟨fault, herror⟩, step_invoke_error herror⟩

/-- In every state of a run a batch of issues is like the single issues exactly when nothing is
issued, since a batch files none of its tokens under their expiry days. A batch of transfers is like
the single transfers, but for a batch of none while the contract is paused. -/
theorem batches_alike_iff (w : MembershipWorld C) (wasm : Hash) (gracePeriodDays : Option ℕ)
    (as : List (Action C (Call Address))) (env : Env C) (admin : Address)
    (params : List (IssueParams Address)) (transfers : List (TransferParams Address))
    (hsigned : admin ∈ env.signers)
    (hadmin : (run exec (deployed w wasm gracePeriodDays) as).store.admin = some admin)
    (hlength : params.length ≤ 50) :
    (IssuesAlike env admin params (run exec (deployed w wasm gracePeriodDays) as) ↔
        IssuesNothing params (run exec (deployed w wasm gracePeriodDays) as)) ∧
      (TransfersAlike env transfers (run exec (deployed w wasm gracePeriodDays) as) ↔
        transfers ≠ [] ∨ ¬Paused (run exec (deployed w wasm gracePeriodDays) as)) := by
  have hstart : (deployed w wasm gracePeriodDays).store.tokenCount.getD 0 < u64Bound := by
    change 0 < u64Bound
    decide
  exact ⟨issuesAlike_iff (tokenCount_lt_run hstart as) hsigned hadmin hlength, transfersAlike_iff⟩

/-- The admin is set and has issued one token alone. -/
def oneIssued : List (Action numberedChain (Call ℕ)) :=
  [.invoke (signedBy 0) (.initializeContract 1), .invoke (signedBy 0) (.issueToken 1 6 2 172800)]

def oneMore : List (IssueParams ℕ) := [⟨7, 3, 259200⟩]

theorem oneIssued_admin : (run exec freshContract oneIssued).store.admin = some 1 := rfl

theorem batches_alike_iff_oneMore :
    (1 ∈ (signedBy 0).signers ∧ (run exec freshContract oneIssued).store.admin = some 1 ∧
        oneMore.length ≤ 50) ∧
      (IssuesAlike (signedBy 0) 1 oneMore (run exec freshContract oneIssued) ↔
        IssuesNothing oneMore (run exec freshContract oneIssued)) ∧
      (TransfersAlike (signedBy 0) [⟨1, 8⟩] (run exec freshContract oneIssued) ↔
        ([⟨1, 8⟩] : List (TransferParams ℕ)) ≠ [] ∨ ¬Paused (run exec freshContract oneIssued)) :=
  ⟨⟨by decide, oneIssued_admin, by decide⟩, batches_alike_iff _ 0 none oneIssued (signedBy 0) 1
    oneMore [⟨1, 8⟩] (by decide) oneIssued_admin (by decide)⟩

/-- One more token by a batch of one is a token that the index does not have. -/
theorem batch_not_alike :
    (1 ∈ (signedBy 0).signers ∧ (run exec freshContract oneIssued).store.admin = some 1 ∧
        oneMore.length ≤ 50) ∧
      ¬IssuesAlike (signedBy 0) 1 oneMore (run exec freshContract oneIssued) := by
  refine ⟨⟨by decide, oneIssued_admin, by decide⟩, fun h => ?_⟩
  have hnothing := (issuesAlike_iff (by decide) (by decide) oneIssued_admin (by decide)).mp h
  rcases hnothing with ⟨hnil, _⟩ | ⟨_, hpaused | ⟨p, hmem, hpast⟩ | hover⟩
  · exact absurd hnil (by decide)
  · revert hpaused
    unfold Paused
    decide
  · obtain rfl := List.mem_singleton.mp hmem
    revert hpast
    decide
  · revert hover
    decide

end HubAssist.Membership
