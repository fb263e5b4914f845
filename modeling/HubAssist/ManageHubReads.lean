import HubAssist.ManageHubShared
import HubAssist.ManageHubPrivilege

/-! The calls of the five modules that come to a tier or a token, and where what they find there is
a record of another module. -/
namespace HubAssist.ManageHub.Shared
open SorobanHost CheckedArith ContractParts

variable {Address : Type} [DecidableEq Address] {C : Chain Address} {K : Crypto Address}
variable {env : Env C} {w : ManageWorld C K}

def StakingAt {Digest : Type} (s : Storage Address Digest) (id : BytesN32) : Prop :=
  ∃ tier, s.tier id = some (.staking tier)

def SubscriptionAt {Digest : Type} (s : Storage Address Digest) (id : BytesN32) : Prop :=
  ∃ tier, s.tier id = some (.subscription tier)

def IssuedAt {Digest : Type} (s : Storage Address Digest) (id : BytesN32) : Prop :=
  ∃ token, s.token id = some (.membership token)

/-- The call comes to the tier `id`. -/
def ReadsTier (env : Env C) (w : ManageWorld C K) : Call Address K.Digest → BytesN32 → Prop
  | .staking (.stake staker amount tierId), id => staker ∈ env.signers ∧
    (∃ config, w.store.config = some config ∧ config.minStakeAmount ≤ amount ∧
      amount ≤ config.maxStakeAmount) ∧ id = tierId
  | .staking (.unstake staker), id | .staking (.claimStakingRewards staker), id =>
    staker ∈ env.signers ∧ ∃ info, w.store.stake staker = some info ∧ id = info.tierId
  | .staking (.partialUnstake staker amount), id => staker ∈ env.signers ∧ ∃ info,
    w.store.stake staker = some info ∧ 0 < amount ∧ amount ≤ info.amount ∧ id = info.tierId
  | .staking (.claimRewards staker), id => staker ∈ env.signers ∧ ∃ info,
    w.store.stake staker = some info ∧ info.emergencyUnstaked = false ∧ id = info.tierId
  | .getStakingTier tierId, id | .getTier tierId, id => id = tierId
  | .listStakingTiers, id | .listTiers, id => id ∈ w.store.tierList.getD []
  | .tiers (.updateTier admin tierId _), id | .tiers (.deactivateTier admin tierId), id =>
    (w.store.admin = some admin ∧ admin ∈ env.signers) ∧ id = tierId
  -- the member's present tier is read after the new one
  | .tiers (.requestTierChange user newTierId _), id => user ∈ env.signers ∧ ∃ current,
    w.store.userTier user = some current ∧ (id = newTierId ∨ id = current ∧ ∃ tier,
      w.store.tier newTierId = some (.subscription tier) ∧ tier.isActive = true)
  | .tiers (.applyPromoCode user code), id => user ∈ env.signers ∧ ∃ promo,
    w.store.promotion code = some promo ∧ promo.isActive = true ∧ promo.validFrom ≤ w.now ∧
      w.now ≤ promo.validUntil ∧ id = promo.tierId
  | .subscriptions (.createSubscription user _ _ tierId _ _), id =>
    user ∈ env.signers ∧ id = tierId
  | .hasFeature subscriber _, id => ∃ sub, w.store.subscription subscriber = some sub ∧
    sub.status = .active ∧ id = sub.tierId
  | _, _ => False

/-- A tier of the other type than the one that the module takes it for. -/
def Module.ForeignTier {Digest : Type} (s : Storage Address Digest) (id : BytesN32) :
    Module → Prop
  | .staking => SubscriptionAt s id
  | .tierManagement | .subscription | .membershipToken | .allowance => StakingAt s id

/-- The call of the allowance module comes to a token that the membership module has issued. -/
def ReadsIssued (env : Env C) (w : ManageWorld C K) : Call Address K.Digest → Prop
  | .allowances (.transferFrom spender sender _ tokenId) => spender ∈ env.signers ∧
    ∃ info, w.store.allowance (sender, spender, tokenId) = some info ∧ info.approved = true ∧
      w.now < info.expiry ∧ IssuedAt w.store tokenId
  | _ => False

/-- The call comes to an entry that another module has written as a record of its own type. -/
def Mistyped (env : Env C) (w : ManageWorld C K) (call : Call Address K.Digest) : Prop :=
  (∃ id, ReadsTier env w call id ∧ call.module.ForeignTier w.store id) ∨ ReadsIssued env w call

/-- The allowance module's own type of token is stored nowhere. -/
def AllIssued {Digest : Type} (s : Storage Address Digest) : Prop :=
  ∀ id token, s.token id ≠ some (.bare token)

/-- A read that finds a record of another type. -/
abbrev Traps {T : Type} (result : Except (Fault ModuleError) T) : Prop :=
  FailsWith (fun fault => fault = conversionError) result

theorem traps_iff {T : Type} {result : Except (Fault ModuleError) T} :
    Traps result ↔ result = .error conversionError := by
  simp [Traps, FailsWith]

@[simp] theorem panic_eq_conversionError {message : String} :
    (.panic message : Fault ModuleError) = conversionError ↔ message = "conversion error" := by
  simp [conversionError]

@[simp] theorem error_ne_conversionError {e : ModuleError} :
    (.error e : Fault ModuleError) = conversionError ↔ False := by
  simp [conversionError]

@[simp] theorem auth_ne_conversionError :
    (.auth : Fault ModuleError) = conversionError ↔ False := by
  simp [conversionError]

@[simp] theorem overflow_ne_conversionError :
    (.overflow : Fault ModuleError) = conversionError ↔ False := by
  simp [conversionError]

@[simp] theorem transfer_ne_conversionError :
    (.transfer : Fault ModuleError) = conversionError ↔ False := by
  simp [conversionError]

theorem subscription?_eq_none {record : TierRecord} :
    record.subscription? = none ↔ ∃ tier, record = .staking tier := by
  cases record <;> simp [TierRecord.subscription?]

theorem staking?_eq_none {record : TierRecord} :
    record.staking? = none ↔ ∃ tier, record = .subscription tier := by
  cases record <;> simp [TierRecord.staking?]

/-- A read traps on what is stored, unless its own fault for an entry that is not there reads like
the trap. -/
theorem traps_readAs {R T : Type} {decode : R → Option T} {entry : Option R} {message : String} :
    Traps (readAs decode entry (.panic message)) ↔
      entry = none ∧ message = "conversion error" ∨
        ∃ record, entry = some record ∧ decode record = none := by
  simp only [readAs, failsWith_bind, failsWith_getOr, panic_eq_conversionError, getOr_eq_ok,
    and_true]

/-- What does not decode is a record of the other type. -/
theorem other_iff {R T : Type} {decode : R → Option T} {other : Type} {wrap : other → R}
    (h : ∀ record, decode record = none ↔ ∃ x, record = wrap x) {entry : Option R} :
    (∃ record, entry = some record ∧ decode record = none) ↔ ∃ x, entry = some (wrap x) := by
  constructor
  · rintro ⟨record, hrecord, hnone⟩
    obtain ⟨x, rfl⟩ := (h record).mp hnone
    exact ⟨x, hrecord⟩
  · rintro ⟨x, hx⟩
    exact ⟨wrap x, hx, (h _).mpr ⟨x, rfl⟩⟩

omit [DecidableEq Address] in
@[simp] theorem traps_readTier {Digest : Type} {s : Storage Address Digest} {id : BytesN32}
    {message : String} : Traps (readTier s id message) ↔
      s.tier id = none ∧ message = "conversion error" ∨ StakingAt s id := by
  rw [readTier, traps_readAs, other_iff fun _ => subscription?_eq_none, StakingAt]

omit [DecidableEq Address] in
/-- A list of tiers is read without a trap exactly when every record on it has the right type. -/
theorem traps_listAs {Digest T : Type} {decode : TierRecord → Option T} {s : Storage Address Digest}
    {ids : List BytesN32} : Traps (listAs decode s ids) ↔
      ∃ id ∈ ids, ∃ record, s.tier id = some record ∧ decode record = none := by
  induction ids with
  | nil => simp [listAs, failsWith_pure]
  | cons id ids ih =>
    rw [List.exists_mem_cons_iff, listAs]
    cases hrecord : s.tier id with
    | none => simp [ih]
    | some record =>
      simp only [failsWith_bind, failsWith_getOr, getOr_eq_ok, failsWith_pure, and_true, ih,
        Option.some.injEq, and_false, exists_false, or_false]
      cases hdecode : decode record with
      | none => simp [hdecode]
      | some tier => simp [hdecode]

@[simp] theorem traps_requireAdmin {admin : Address} :
    Traps (Tiers.requireAdmin env w admin) ↔ False := by
  simp [Tiers.requireAdmin]

theorem tiers_traps {call : Tiers.Call Address K.Digest} :
    Traps (Tiers.exec env call w) ↔ Mistyped env w (.tiers call) := by
  cases call with
  | setTierAdmin admin => simp [Tiers.exec, Tiers.setTierAdmin, Mistyped, ReadsTier, ReadsIssued]
  | addTier admin tier => simp [Tiers.exec, Tiers.addTier, Mistyped, ReadsTier, ReadsIssued]
  | updateTier admin tierId updates =>
    simp [Tiers.exec, Tiers.updateTier, Tiers.requireAdmin_eq_ok, Mistyped, ReadsTier, ReadsIssued,
      Call.module, Module.ForeignTier]
  | deactivateTier admin tierId =>
    simp [Tiers.exec, Tiers.deactivateTier, Tiers.requireAdmin_eq_ok, Mistyped, ReadsTier,
      ReadsIssued, Call.module, Module.ForeignTier]
  | requestTierChange user newTierId sequence =>
    have htraps : Traps (Tiers.exec env (.requestTierChange user newTierId sequence) w) ↔
        user ∈ env.signers ∧ ∃ current, w.store.userTier user = some current ∧
          (StakingAt w.store newTierId ∨ ∃ tier,
            w.store.tier newTierId = some (.subscription tier) ∧ tier.isActive = true ∧
              StakingAt w.store current) := by
      simp [Tiers.exec, Tiers.requestTierChange, requireAuth_eq_ok, getOr_eq_ok, failIf_eq_ok,
        readTier_eq_ok]
    rw [htraps]
    constructor
    · rintro ⟨hs, current, hcurrent, hnew | ⟨tier, htier, hactive, hold⟩⟩
      · exact Or.inl ⟨newTierId, ⟨hs, current, hcurrent, Or.inl rfl⟩, hnew⟩
      · exact Or.inl ⟨current, ⟨hs, current, hcurrent, Or.inr ⟨rfl, tier, htier, hactive⟩⟩, hold⟩
    · rintro (⟨_, ⟨hs, current, hcurrent, rfl | ⟨rfl, tier, htier, hactive⟩⟩, hforeign⟩ | hfalse)
      · exact ⟨hs, current, hcurrent, Or.inl hforeign⟩
      · exact ⟨hs, _, hcurrent, Or.inr ⟨tier, htier, hactive, hforeign⟩⟩
      · exact hfalse.elim
  | approveTierChange admin requestId =>
    simp [Tiers.exec, Tiers.approveTierChange, Tiers.pendingRequest, Mistyped, ReadsTier,
      ReadsIssued]
  | rejectTierChange admin requestId =>
    simp [Tiers.exec, Tiers.rejectTierChange, Tiers.pendingRequest, Mistyped, ReadsTier,
      ReadsIssued]
  | createPromotion admin promo =>
    simp [Tiers.exec, Tiers.createPromotion, Mistyped, ReadsTier, ReadsIssued]
  | applyPromoCode user code =>
    simp [Tiers.exec, Tiers.applyPromoCode, requireAuth_eq_ok, getOr_eq_ok, failIf_eq_ok, Mistyped,
      ReadsTier, ReadsIssued, Call.module, Module.ForeignTier, and_assoc]

theorem subscriptions_traps {call : Subscriptions.Call Address} :
    Traps (Subscriptions.exec env call w) ↔ Mistyped env w (.subscriptions call) := by
  cases call with
  | setTierFeatures admin tier features =>
    simp [Subscriptions.exec, Subscriptions.setTierFeatures, Mistyped, ReadsTier, ReadsIssued]
  | setTier tierId tier =>
    simp [Subscriptions.exec, Subscriptions.setTier, Mistyped, ReadsTier, ReadsIssued]
  | createSubscription user paymentToken amount tierId billingCycle sequence =>
    simp [Subscriptions.exec, Subscriptions.createSubscription, requireAuth_eq_ok, Mistyped,
      ReadsTier, ReadsIssued, Call.module, Module.ForeignTier]
  | cancelSubscription user =>
    simp [Subscriptions.exec, Subscriptions.cancelSubscription, Subscriptions.load, Mistyped,
      ReadsTier, ReadsIssued]
  | pauseSubscription user reason =>
    simp [Subscriptions.exec, Subscriptions.pauseSubscription, Subscriptions.load,
      Subscriptions.requireInterval, Mistyped, ReadsTier, ReadsIssued]
  | resumeSubscription user =>
    simp [Subscriptions.exec, Subscriptions.resumeSubscription, Subscriptions.load, Mistyped,
      ReadsTier, ReadsIssued]
  | renewSubscription user =>
    simp [Subscriptions.exec, Subscriptions.renewSubscription, Subscriptions.load, Mistyped,
      ReadsTier, ReadsIssued]

theorem hasFeature_traps {subscriber : Address} {feature : FeatureFlag} :
    Traps (Subscriptions.hasFeature w.store subscriber feature) ↔
      ∃ sub, w.store.subscription subscriber = some sub ∧ sub.status = .active ∧
        StakingAt w.store sub.tierId := by
  unfold Subscriptions.hasFeature
  cases hsub : w.store.subscription subscriber with
  | none => simp
  | some sub => simp

omit [DecidableEq Address] in
theorem AllIssued.setToken {Digest : Type} {s : Storage Address Digest} (h : AllIssued s)
    (id : BytesN32) (token : MembershipToken Address) :
    AllIssued (Tokens.setToken s id (.membership token)) := by
  intro other record
  by_cases heq : other = id
  · subst heq
    simp [Tokens.setToken]
  · simpa only [Tokens.setToken, Function.update_of_ne heq] using h other record

omit [DecidableEq Address] in
/-- Where every token has been issued by the membership module, that module can read it. -/
theorem AllIssued.getToken {Digest : Type} {s : Storage Address Digest} (h : AllIssued s)
    (id : BytesN32) : Traps (Tokens.getToken s id) ↔ False := by
  simp only [Tokens.getToken, traps_readAs, String.reduceEq, and_false, false_or, iff_false]
  rintro ⟨record, hrecord, hdecode⟩
  cases record with
  | membership token => exact absurd hdecode (by simp [TokenRecord.membership?])
  | bare token => exact h id token hrecord

omit [DecidableEq Address] in
theorem issueAll_traps {Digest : Type} {now : ℕ} {params : List (Tokens.IssueParams Address)}
    {s : Storage Address Digest} : Traps (Tokens.issueAll now params s) ↔ False := by
  induction params generalizing s with
  | nil => simp [Tokens.issueAll]
  | cons param params ih => simp [Tokens.issueAll, Tokens.issueOne, ih]

theorem transferAll_traps {Digest : Type} {params : List (Tokens.TransferParams Address)}
    {s : Storage Address Digest} (hs : AllIssued s) :
    Traps (Tokens.transferAll env params s) ↔ False := by
  induction params generalizing s with
  | nil => simp [Tokens.transferAll]
  | cons param params ih =>
    have hone : Traps (Tokens.transferOne env param s) ↔ False := by
      simp [Tokens.transferOne, hs.getToken]
    simp only [Tokens.transferAll, failsWith_bind, hone, false_or, iff_false]
    rintro ⟨s', hs', htraps⟩
    simp only [Tokens.transferOne, bind_eq_ok, pure_eq_ok] at hs'
    obtain ⟨_, _, _, _, _, _, rfl⟩ := hs'
    exact (ih (hs.setToken _ _)).mp htraps

theorem tokens_traps (hw : AllIssued w.store) {call : Tokens.Call Address} :
    Traps (Tokens.exec env call w) ↔ Mistyped env w (.tokens call) := by
  have hnever : ¬Mistyped env w (.tokens call) := by simp [Mistyped, ReadsTier, ReadsIssued]
  rw [iff_false_right hnever, ← iff_false]
  cases call with
  | setAdmin admin =>
    have hcurrent : Traps (Tokens.requireCurrent env w.store.admin) ↔ False := by
      cases w.store.admin with
      | none => simp [Tokens.requireCurrent, FailsWith]
      | some current => simp [Tokens.requireCurrent]
    simp [Tokens.exec, Tokens.setAdmin, hcurrent]
  | issueToken id user expiryDate =>
    simp [Tokens.exec, Tokens.issueToken, Tokens.requireAdmin, Tokens.issueOne]
  | transferToken id newUser =>
    simp [Tokens.exec, Tokens.transferToken, Tokens.transferOne, hw.getToken]
  | revokeToken admin id =>
    simp [Tokens.exec, Tokens.revokeToken, Tokens.requireAdmin, hw.getToken]
  | renewToken admin id newExpiry =>
    simp [Tokens.exec, Tokens.renewToken, Tokens.requireAdmin, hw.getToken]
  | batchIssueTokens params =>
    simp [Tokens.exec, Tokens.batchIssueTokens, Tokens.requireAdmin, issueAll_traps]
  | batchTransferTokens params =>
    simp [Tokens.exec, Tokens.batchTransferTokens, transferAll_traps hw]

omit [DecidableEq Address] in
theorem bare?_eq_none {record : TokenRecord Address} :
    record.bare? = none ↔ ∃ token, record = .membership token := by
  cases record <;> simp [TokenRecord.bare?]

theorem allowances_traps {call : Allowances.Call Address} :
    Traps (Allowances.exec env call w) ↔ Mistyped env w (.allowances call) := by
  cases call with
  | approve owner spender tokenId expiry =>
    simp [Allowances.exec, Allowances.approve, Mistyped, ReadsTier, ReadsIssued]
  | transferFrom spender sender receiver tokenId =>
    have hread : Traps (readAs TokenRecord.bare? (w.store.token tokenId)
        (.panic "token not found")) ↔ IssuedAt w.store tokenId := by
      simp only [traps_readAs, String.reduceEq, and_false, false_or,
        other_iff fun _ => bare?_eq_none, IssuedAt]
    simp [Allowances.exec, Allowances.transferFrom, hread, requireAuth_eq_ok, getOr_eq_ok,
      failIf_eq_ok, Mistyped, ReadsTier, ReadsIssued]
  | revokeAllowance owner spender tokenId =>
    simp [Allowances.exec, Allowances.revokeAllowance, Mistyped, ReadsTier, ReadsIssued]

/-- A fault of the staking module behind which there is a trap: its tier is missing although
something is stored there, as `stored` says. -/
def Misread (stored : Prop) (fault : Fault Staking.ModuleError) : Prop :=
  (fault = .panic "tier not found" ∨ fault = .error (.staking .tierNotFound)) ∧ stored ∨
    fault = .panic "conversion error"

section
variable {stored : Prop}

@[simp] theorem misread_panic {message : String} : Misread stored (.panic message) ↔
    message = "tier not found" ∧ stored ∨ message = "conversion error" := by
  simp [Misread]

@[simp] theorem misread_error {e : Staking.ModuleError} :
    Misread stored (.error e) ↔ e = .staking .tierNotFound ∧ stored := by
  simp [Misread]

@[simp] theorem misread_auth : Misread stored .auth ↔ False := by simp [Misread]

@[simp] theorem misread_overflow : Misread stored .overflow ↔ False := by simp [Misread]

@[simp] theorem misread_transfer : Misread stored .transfer ↔ False := by simp [Misread]

end

theorem execStaking_traps {call : Staking.Call Address} :
    Traps (execStaking env call w) ↔
      FailsWith (Misread (((stakeTier w.store call).bind w.store.tier).isSome = true))
        (Staking.exec env call (withStore w (stakingPart.get w.store))) := by
  unfold execStaking Part.call
  cases Staking.exec env call (withStore w (stakingPart.get w.store)) with
  | ok v => simp [FailsWith]
  | error fault =>
    have hmissing : tierMissing (mapError ModuleError.staking fault) = true ↔
        fault = .panic "tier not found" ∨ fault = .error (.staking .tierNotFound) := by
      cases fault <;> simp [tierMissing, mapError]
    have hconversion : mapError ModuleError.staking fault = conversionError ↔
        fault = .panic "conversion error" := by
      cases fault <;> simp [mapError, conversionError]
    have hmisread (stored : Prop) : FailsWith (Misread stored) (.error fault :
        Except _ (Staking.StakingWorld C)) ↔ Misread stored fault := by simp [FailsWith]
    have htraps (other : Fault ModuleError) : Traps (.error other : Outcome C K) ↔
        other = conversionError := by simp [FailsWith]
    rw [hmisread, Misread, ← hmissing]
    dsimp only
    split_ifs with h
    · rw [htraps]
      exact iff_of_true rfl (Or.inl h)
    · rw [htraps, hconversion, or_iff_right h]

omit [DecidableEq Address] in
/-- The staking module misses a tier that is there exactly when it is a subscription tier. -/
theorem missing_iff {Digest : Type} {s : Storage Address Digest} {id : BytesN32} :
    (stakingPart.get s).tier id = none ∧ (s.tier id).isSome = true ↔ SubscriptionAt s id := by
  change (s.tier id).bind TierRecord.staking? = none ∧ _ ↔ _
  cases htier : s.tier id with
  | none => simp [SubscriptionAt, htier]
  | some record => cases record <;> simp [SubscriptionAt, htier, TierRecord.staking?]

omit [DecidableEq Address] in
@[simp] theorem stakingPart_stake {Digest : Type} (s : Storage Address Digest) :
    (stakingPart.get s).stake = s.stake := rfl

omit [DecidableEq Address] in
@[simp] theorem stakingPart_config {Digest : Type} (s : Storage Address Digest) :
    (stakingPart.get s).config = s.config := rfl

/-- The calls of a staker that look at nothing but the stake before they read its tier. -/
theorem unstake_misread {v : Staking.StakingWorld C} {stored : Prop} {staker : Address} :
    FailsWith (Misread stored) (Staking.exec env (.unstake staker) v) ↔ staker ∈ env.signers ∧
      ∃ info, v.store.stake staker = some info ∧ v.store.tier info.tierId = none ∧ stored := by
  simp [Staking.exec, Staking.unstake, Staking.getStake, Staking.getStakingTier, requireAuth_eq_ok,
    getOr_eq_ok]

theorem claimStakingRewards_misread {v : Staking.StakingWorld C} {stored : Prop}
    {staker : Address} :
    FailsWith (Misread stored) (Staking.exec env (.claimStakingRewards staker) v) ↔
      staker ∈ env.signers ∧
        ∃ info, v.store.stake staker = some info ∧ v.store.tier info.tierId = none ∧ stored := by
  simp [Staking.exec, Staking.claimStakingRewards, requireAuth_eq_ok, getOr_eq_ok]

theorem partialUnstake_misread {v : Staking.StakingWorld C} {stored : Prop} {staker : Address}
    {amount : ℤ} : FailsWith (Misread stored) (Staking.exec env (.partialUnstake staker amount) v) ↔
      staker ∈ env.signers ∧ ∃ info, v.store.stake staker = some info ∧
        (0 < amount ∧ amount ≤ info.amount) ∧ v.store.tier info.tierId = none ∧ stored := by
  simp [Staking.exec, Staking.partialUnstake, requireAuth_eq_ok, getOr_eq_ok, failIf_eq_ok]

theorem claimRewards_misread {v : Staking.StakingWorld C} {stored : Prop} {staker : Address} :
    FailsWith (Misread stored) (Staking.exec env (.claimRewards staker) v) ↔
      staker ∈ env.signers ∧ ∃ info, v.store.stake staker = some info ∧
        info.emergencyUnstaked = false ∧ v.store.tier info.tierId = none ∧ stored := by
  simp [Staking.exec, Staking.claimRewards, Staking.getStake, Staking.calculatePendingRewards,
    Staking.getStakingTier, requireAuth_eq_ok, getOr_eq_ok]

theorem stake_misread {v : Staking.StakingWorld C} {stored : Prop} {staker : Address} {amount : ℤ}
    {tierId : BytesN32} :
    FailsWith (Misread stored) (Staking.exec env (.stake staker amount tierId) v) ↔
      staker ∈ env.signers ∧ ∃ config, v.store.config = some config ∧
        config.minStakeAmount ≤ amount ∧ amount ≤ config.maxStakeAmount ∧
          v.store.tier tierId = none ∧ stored := by
  simp [Staking.exec, Staking.stake, Staking.getStakingTier, requireAuth_eq_ok, getOr_eq_ok,
    failIf_eq_ok]

theorem staking_traps {call : Staking.Call Address} :
    Traps (execStaking env call w) ↔ Mistyped env w (.staking call) := by
  rw [execStaking_traps]
  cases call with
  | setStakingConfig admin config =>
    simp [Staking.exec, Staking.setStakingConfig, Mistyped, ReadsTier, ReadsIssued]
  | addStakingTier admin tier =>
    simp [Staking.exec, Staking.addStakingTier, Staking.requireAdmin, Mistyped, ReadsTier,
      ReadsIssued]
  | setCooldownDays admin days =>
    simp [Staking.exec, Staking.setCooldownDays, Staking.requireAdmin, Mistyped, ReadsTier,
      ReadsIssued]
  | stake staker amount tierId =>
    cases hconfig : w.store.config <;>
      simp [stake_misread, hconfig, missing_iff, stakeTier, Mistyped, ReadsTier, ReadsIssued,
        Call.module, Module.ForeignTier, and_assoc]
  | unstake staker =>
    cases hstake : w.store.stake staker <;>
      simp [unstake_misread, hstake, missing_iff, stakeTier, Mistyped, ReadsTier, ReadsIssued,
        Call.module, Module.ForeignTier]
  | claimUnstaked staker =>
    simp [Staking.exec, Staking.claimUnstaked, Mistyped, ReadsTier, ReadsIssued]
  | emergencyUnstake staker =>
    simp [Staking.exec, Staking.emergencyUnstake, Staking.getStake, Mistyped, ReadsTier,
      ReadsIssued]
  | partialUnstake staker amount =>
    cases hstake : w.store.stake staker <;>
      simp [partialUnstake_misread, hstake, missing_iff, stakeTier, Mistyped, ReadsTier,
        ReadsIssued, Call.module, Module.ForeignTier, and_assoc]
  | claimStakingRewards staker =>
    cases hstake : w.store.stake staker <;>
      simp [claimStakingRewards_misread, hstake, missing_iff, stakeTier, Mistyped, ReadsTier,
        ReadsIssued, Call.module, Module.ForeignTier]
  | claimRewards staker =>
    cases hstake : w.store.stake staker <;>
      simp [claimRewards_misread, hstake, missing_iff, stakeTier, Mistyped, ReadsTier, ReadsIssued,
        Call.module, Module.ForeignTier, and_assoc]

omit [DecidableEq Address] in
theorem listTiers_traps {s : Storage Address K.Digest} :
    Traps (listTiers s) ↔ ∃ id ∈ s.tierList.getD [], StakingAt s id := by
  simp only [listTiers, traps_listAs, other_iff fun _ => subscription?_eq_none, StakingAt]

omit [DecidableEq Address] in
theorem listStakingTiers_traps {s : Storage Address K.Digest} :
    Traps (listStakingTiers s) ↔ ∃ id ∈ s.tierList.getD [], SubscriptionAt s id := by
  simp only [listStakingTiers, traps_listAs, other_iff fun _ => staking?_eq_none, SubscriptionAt]

/-- Where every token has been issued by the membership module, a call traps exactly when it comes
to a record of another module. -/
theorem exec_traps (hw : AllIssued w.store) {call : Call Address K.Digest} :
    Traps (exec env call w) ↔ Mistyped env w call := by
  cases call with
  | staking call => exact staking_traps
  | tiers call => exact tiers_traps
  | subscriptions call => exact subscriptions_traps
  | tokens call => exact tokens_traps hw
  | allowances call => exact allowances_traps
  | getStakingTier tierId =>
    simp [exec, reading, getStakingTier, traps_readAs, staking?_eq_none, Mistyped, ReadsTier,
      ReadsIssued, Call.module, Module.ForeignTier, SubscriptionAt]
  | listStakingTiers =>
    simp [exec, reading, listStakingTiers_traps, Mistyped, ReadsTier, ReadsIssued, Call.module,
      Module.ForeignTier]
  | getTier tierId =>
    simp [exec, reading, getTier, Mistyped, ReadsTier, ReadsIssued, Call.module,
      Module.ForeignTier]
  | listTiers =>
    simp [exec, reading, listTiers_traps, Mistyped, ReadsTier, ReadsIssued, Call.module,
      Module.ForeignTier]
  | hasFeature subscriber feature =>
    simp [exec, reading, hasFeature_traps, Mistyped, ReadsTier, ReadsIssued, Call.module,
      Module.ForeignTier, and_assoc]
  | getToken id => simp [exec, reading, hw.getToken, Mistyped, ReadsTier, ReadsIssued]

end HubAssist.ManageHub.Shared
