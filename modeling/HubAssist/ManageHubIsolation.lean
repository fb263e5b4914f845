import HubAssist.ManageHubReads

/-! Where the modules of the manage_hub contract get in each other's way: a read that finds a record
of another module, and a call that moves the admin or the list of tiers of another module. -/
namespace HubAssist.ManageHub.Shared
open SorobanHost CheckedArith ContractParts RunSystem

variable {Address : Type} [DecidableEq Address] {C : Chain Address} {K : Crypto Address}
variable {env : Env C} {w w' : ManageWorld C K}

/-- The call is accepted and makes another address the admin of three modules. -/
def ReplacesAdmin (env : Env C) (w : ManageWorld C K) : Call Address K.Digest → Prop
  | .staking (.setStakingConfig admin _) | .tiers (.setTierAdmin admin) =>
    admin ∈ env.signers ∧ w.store.admin ≠ some admin
  | .tokens (.setAdmin admin) =>
    (∀ current, w.store.admin = some current → current ∈ env.signers) ∧
      w.store.admin ≠ some admin
  | _ => False

/-- The call is accepted and puts a tier on the list that two modules go through. -/
def AddsTier (env : Env C) (w : ManageWorld C K) : Call Address K.Digest → Prop
  | .staking (.addStakingTier admin _) => w.store.admin = some admin ∧ admin ∈ env.signers
  | .tiers (.addTier admin tier) =>
    (w.store.admin = some admin ∧ admin ∈ env.signers) ∧ w.store.tier tier.id = none
  | _ => False

/-- The step lets no read come to a record of another module, and leaves alone what the other
modules take for their admin and their list of tiers. -/
def Isolated (w : ManageWorld C K) : Action C (Call Address K.Digest) → Prop
  | .invoke env call => exec env call w ≠ .error conversionError ∧
    ∀ w', exec env call w = .ok w' → ∀ m : Module, m ≠ call.module →
      m.admin w'.store = m.admin w.store ∧ m.tierList w'.store = m.tierList w.store
  | .tick _ | .external _ _ => True

/-- The step is no call that comes to a record of another module, replaces the admin or lengthens
the list of tiers. -/
def Separate (w : ManageWorld C K) : Action C (Call Address K.Digest) → Prop
  | .invoke env call =>
    ¬Mistyped env w call ∧ ¬ReplacesAdmin env w call ∧ ¬AddsTier env w call
  | .tick _ | .external _ _ => True

/-- What an accepted call leaves as it is. -/
structure Kept (env : Env C) (w : ManageWorld C K) (call : Call Address K.Digest)
    (w' : ManageWorld C K) : Prop where
  admin : ¬ReplacesAdmin env w call → w'.store.admin = w.store.admin
  tierList : ¬AddsTier env w call → w'.store.tierList = w.store.tierList
  issued : AllIssued w.store → AllIssued w'.store

theorem Kept.of_same {call : Call Address K.Digest} (hadmin : w'.store.admin = w.store.admin)
    (htierList : w'.store.tierList = w.store.tierList) (htoken : w'.store.token = w.store.token) :
    Kept env w call w' :=
  ⟨fun _ => hadmin, fun _ => htierList, fun h id => by rw [htoken]; exact h id⟩

theorem execStaking_eq_ok {call : Staking.Call Address} : execStaking env call w = .ok w' ↔
    stakingPart.call ModuleError.staking (Staking.exec env call) w = .ok w' := by
  unfold execStaking
  cases stakingPart.call ModuleError.staking (Staking.exec env call) w with
  | ok v => exact Iff.rfl
  | error fault =>
    dsimp only
    split_ifs <;> simp

theorem kept_staking {call : Staking.Call Address} (h : execStaking env call w = .ok w') :
    Kept env w (.staking call) w' := by
  obtain ⟨v, hv, rfl⟩ := Part.call_eq_ok.mp (execStaking_eq_ok.mp h)
  cases Staking.exec_effect hv with
  | configures admin config =>
    -- whoever signs the configuration becomes the admin
    obtain ⟨_, hs, _⟩ := bind_eq_ok.mp hv
    refine ⟨fun hsame => ?_, fun _ => rfl, id⟩
    exact (not_not.mp fun hne => hsame ⟨requireAuth_eq_ok.mp hs, hne⟩).symm
  | addsTier admin tier =>
    exact ⟨fun _ => rfl, fun hnone => absurd (Staking.addStakingTier_admin hv) hnone, id⟩
  | setsCooldown => exact .of_same rfl rfl rfl
  | stakes => exact .of_same rfl rfl rfl
  | unstakes => exact .of_same rfl rfl rfl
  | unstakesPart => exact .of_same rfl rfl rfl
  | withdraws => exact .of_same rfl rfl rfl
  | leaves => exact .of_same rfl rfl rfl
  | claimsStaking => exact .of_same rfl rfl rfl
  | claimsRewards => exact .of_same rfl rfl rfl
  | nothingDue => exact .of_same rfl rfl rfl

theorem kept_tiers {call : Tiers.Call Address K.Digest} (h : Tiers.exec env call w = .ok w') :
    Kept env w (.tiers call) w' := by
  cases call with
  | setTierAdmin admin =>
    simp only [Tiers.exec, Tiers.setTierAdmin, bind_eq_ok, requireAuth_eq_ok, pure_eq_ok] at h
    obtain ⟨_, hs, rfl⟩ := h
    exact ⟨fun hsame => (not_not.mp fun hne => hsame ⟨hs, hne⟩).symm, fun _ => rfl, id⟩
  | addTier admin tier =>
    simp only [Tiers.exec, Tiers.addTier, bind_eq_ok, Tiers.requireAdmin_eq_ok, failIf_eq_ok,
      Option.not_isSome_iff_eq_none, pure_eq_ok] at h
    obtain ⟨_, hadmin, _, hnone, rfl⟩ := h
    exact ⟨fun _ => rfl, fun hlist => absurd ⟨hadmin, hnone⟩ hlist, id⟩
  | updateTier admin tierId updates =>
    simp only [Tiers.exec, Tiers.updateTier, bind_eq_ok, pure_eq_ok] at h
    obtain ⟨_, _, _, _, rfl⟩ := h
    exact .of_same rfl rfl rfl
  | deactivateTier admin tierId =>
    simp only [Tiers.exec, Tiers.deactivateTier, bind_eq_ok, pure_eq_ok] at h
    obtain ⟨_, _, _, _, rfl⟩ := h
    exact .of_same rfl rfl rfl
  | requestTierChange user newTierId sequence =>
    simp only [Tiers.exec, Tiers.requestTierChange, map_eq_ok, bind_eq_ok, pure_eq_ok] at h
    obtain ⟨_, ⟨_, _, _, _, _, _, _, _, _, _, rfl⟩, rfl⟩ := h
    exact .of_same rfl rfl rfl
  | approveTierChange admin requestId =>
    simp only [Tiers.exec, Tiers.approveTierChange, bind_eq_ok, pure_eq_ok] at h
    obtain ⟨_, _, _, _, rfl⟩ := h
    exact .of_same rfl rfl rfl
  | rejectTierChange admin requestId =>
    simp only [Tiers.exec, Tiers.rejectTierChange, bind_eq_ok, pure_eq_ok] at h
    obtain ⟨_, _, _, _, rfl⟩ := h
    exact .of_same rfl rfl rfl
  | createPromotion admin promo =>
    simp only [Tiers.exec, Tiers.createPromotion, bind_eq_ok, pure_eq_ok] at h
    obtain ⟨_, _, _, _, _, _, _, _, _, _, rfl⟩ := h
    exact .of_same rfl rfl rfl
  | applyPromoCode user code =>
    simp only [Tiers.exec, Tiers.applyPromoCode, map_eq_ok, bind_eq_ok, pure_eq_ok] at h
    obtain ⟨_, ⟨_, _, _, _, _, _, _, _, _, _, _, _, _, _, _, _, _, _, rfl⟩, rfl⟩ := h
    exact .of_same rfl rfl rfl

theorem kept_subscriptions {call : Subscriptions.Call Address}
    (h : Subscriptions.exec env call w = .ok w') : Kept env w (.subscriptions call) w' := by
  cases call with
  | setTierFeatures admin tier features =>
    simp only [Subscriptions.exec, Subscriptions.setTierFeatures, bind_eq_ok, pure_eq_ok] at h
    obtain ⟨_, _, rfl⟩ := h
    exact .of_same rfl rfl rfl
  | setTier tierId tier =>
    obtain rfl := pure_eq_ok.mp h
    exact .of_same rfl rfl rfl
  | createSubscription user paymentToken amount tierId billingCycle sequence =>
    simp only [Subscriptions.exec, Subscriptions.createSubscription, map_eq_ok, bind_eq_ok,
      World.transfer_eq_ok, pure_eq_ok] at h
    obtain ⟨_, ⟨_, _, _, _, _, _, _, ⟨_, _, rfl⟩, _, _, rfl⟩, rfl⟩ := h
    exact .of_same rfl rfl rfl
  | cancelSubscription user =>
    simp only [Subscriptions.exec, Subscriptions.cancelSubscription, bind_eq_ok, pure_eq_ok] at h
    obtain ⟨_, _, _, _, _, _, rfl⟩ := h
    exact .of_same rfl rfl rfl
  | pauseSubscription user reason =>
    simp only [Subscriptions.exec, Subscriptions.pauseSubscription, bind_eq_ok, pure_eq_ok] at h
    obtain ⟨_, _, _, _, _, _, _, _, _, _, _, _, rfl⟩ := h
    exact .of_same rfl rfl rfl
  | resumeSubscription user =>
    simp only [Subscriptions.exec, Subscriptions.resumeSubscription, bind_eq_ok, pure_eq_ok] at h
    obtain ⟨_, _, _, _, _, _, _, _, _, _, rfl⟩ := h
    exact .of_same rfl rfl rfl
  | renewSubscription user =>
    simp only [Subscriptions.exec, Subscriptions.renewSubscription, bind_eq_ok,
      World.transfer_eq_ok, pure_eq_ok] at h
    obtain ⟨_, _, _, _, _, _, _, ⟨_, _, rfl⟩, _, _, rfl⟩ := h
    exact .of_same rfl rfl rfl

omit [DecidableEq Address] in
theorem AllIssued.issues {Digest : Type} {s s' : Storage Address Digest} (h : AllIssued s)
    (hissues : Tokens.Issues s s') : AllIssued s' := by
  intro id token hbare
  rcases hissues.tokens id with hsame | ⟨issued, hissued⟩
  · exact h id token (hsame.symm.trans hbare)
  · exact nomatch hissued.symm.trans hbare

theorem Kept.of_issues {call : Call Address K.Digest} (h : Tokens.Issues w.store w'.store) :
    Kept env w call w' := by
  refine ⟨fun _ => ?_, fun _ => ?_, fun hall => hall.issues h⟩ <;> rw [h.rest]

theorem kept_tokens {call : Tokens.Call Address} (h : Tokens.exec env call w = .ok w') :
    Kept env w (.tokens call) w' := by
  rcases Tokens.exec_issues h with ⟨admin, rfl, rfl⟩ | ⟨s, hissues, rfl⟩
  · obtain ⟨_, hcurrent, _⟩ := bind_eq_ok.mp h
    have hsigned (current : Address) (hs : w.store.admin = some current) :
        current ∈ env.signers := by
      rw [hs] at hcurrent
      exact requireAuth_eq_ok.mp hcurrent
    exact ⟨fun hsame => (not_not.mp fun hne => hsame ⟨hsigned, hne⟩).symm, fun _ => rfl, id⟩
  · exact .of_issues hissues

/-- As long as the allowance module's own type of token is stored nowhere, no transfer by an
allowance goes through. -/
theorem transferFrom_fails (hw : AllIssued w.store) (spender sender receiver : Address)
    (tokenId : BytesN32) :
    Allowances.transferFrom env spender sender receiver tokenId w ≠ .ok w' := by
  intro h
  simp only [Allowances.transferFrom, readAs, bind_eq_ok, getOr_eq_ok] at h
  obtain ⟨_, _, info, _, _, _, _, _, token, ⟨record, hrecord, hbare⟩, _⟩ := h
  cases record with
  | membership issued => exact absurd hbare (by simp [TokenRecord.bare?])
  | bare other => exact hw tokenId other hrecord

theorem kept_allowances {call : Allowances.Call Address}
    (h : Allowances.exec env call w = .ok w') : Kept env w (.allowances call) w' := by
  cases call with
  | approve owner spender tokenId expiry =>
    simp only [Allowances.exec, Allowances.approve, bind_eq_ok, pure_eq_ok] at h
    obtain ⟨_, _, _, _, rfl⟩ := h
    exact .of_same rfl rfl rfl
  | transferFrom spender sender receiver tokenId =>
    -- the one call that would store a token of the other type does not go through
    have hfails (hw : AllIssued w.store) : AllIssued w'.store :=
      absurd h (transferFrom_fails hw spender sender receiver tokenId)
    simp only [Allowances.exec, Allowances.transferFrom, bind_eq_ok, pure_eq_ok] at h
    obtain ⟨_, _, info, _, _, _, _, _, token, _, _, _, _, _, rfl⟩ := h
    exact ⟨fun _ => rfl, fun _ => rfl, hfails⟩
  | revokeAllowance owner spender tokenId =>
    simp only [Allowances.exec, Allowances.revokeAllowance, bind_eq_ok, pure_eq_ok] at h
    obtain ⟨_, _, rfl⟩ := h
    exact .of_same rfl rfl rfl

theorem kept_reading {T : Type} {result : Except (Fault ModuleError) T}
    {call : Call Address K.Digest} (h : reading w result = .ok w') : Kept env w call w' := by
  obtain ⟨_, _, rfl⟩ := map_eq_ok.mp h
  exact .of_same rfl rfl rfl

theorem exec_kept {call : Call Address K.Digest} (h : exec env call w = .ok w') :
    Kept env w call w' := by
  cases call with
  | staking call => exact kept_staking h
  | tiers call => exact kept_tiers h
  | subscriptions call => exact kept_subscriptions h
  | tokens call => exact kept_tokens h
  | allowances call => exact kept_allowances h
  | getStakingTier => exact kept_reading h
  | listStakingTiers => exact kept_reading h
  | getTier => exact kept_reading h
  | listTiers => exact kept_reading h
  | hasFeature => exact kept_reading h
  | getToken => exact kept_reading h

/-- The admin that is replaced is the one of another module too. -/
theorem ReplacesAdmin.accepted {call : Call Address K.Digest} (h : ReplacesAdmin env w call) :
    ∃ w', exec env call w = .ok w' ∧
      ∃ m : Module, m ≠ call.module ∧ m.admin w'.store ≠ m.admin w.store := by
  unfold ReplacesAdmin at h
  split at h
  · next admin config =>
    have hset : Staking.exec env (.setStakingConfig admin config)
        (withStore w (stakingPart.get w.store)) = .ok _ :=
      bind_eq_ok.mpr ⟨(), requireAuth_eq_ok.mpr h.1, rfl⟩
    exact ⟨_, execStaking_eq_ok.mpr (Part.call_eq_ok.mpr ⟨_, hset, rfl⟩), .tierManagement, nofun,
      h.2.symm⟩
  · next admin =>
    exact ⟨_, bind_eq_ok.mpr ⟨(), requireAuth_eq_ok.mpr h.1, rfl⟩, .staking, nofun, h.2.symm⟩
  · next admin =>
    have hcurrent : Tokens.requireCurrent env w.store.admin = .ok () := by
      cases hadmin : w.store.admin with
      | none => rfl
      | some current => exact requireAuth_eq_ok.mpr (h.1 current hadmin)
    exact ⟨_, bind_eq_ok.mpr ⟨(), hcurrent, rfl⟩, .staking, nofun, h.2.symm⟩
  · exact h.elim

/-- The list that gets longer is the one of another module too. -/
theorem AddsTier.accepted {call : Call Address K.Digest} (h : AddsTier env w call) :
    ∃ w', exec env call w = .ok w' ∧
      ∃ m : Module, m ≠ call.module ∧ m.tierList w'.store ≠ m.tierList w.store := by
  have hlonger (id : BytesN32) : w.store.tierList.getD [] ++ [id] ≠ w.store.tierList.getD [] :=
    fun heq => absurd (congrArg List.length heq) (by simp)
  unfold AddsTier at h
  split at h
  · next admin tier =>
    have hadmin : Staking.requireAdmin env (withStore w (stakingPart.get w.store)) admin = .ok () :=
      stakingAdmin_eq_ok.mpr h
    have hadd : Staking.exec env (.addStakingTier admin tier)
        (withStore w (stakingPart.get w.store)) = .ok _ := bind_eq_ok.mpr ⟨(), hadmin, rfl⟩
    exact ⟨_, execStaking_eq_ok.mpr (Part.call_eq_ok.mpr ⟨_, hadd, rfl⟩), .tierManagement, nofun,
      hlonger tier.id⟩
  · next admin tier =>
    have hnone : ¬(w.store.tier tier.id).isSome = true := by simp [h.2]
    exact ⟨_, bind_eq_ok.mpr ⟨(), Tiers.requireAdmin_eq_ok.mpr h.1, bind_eq_ok.mpr
      ⟨(), failIf_eq_ok.mpr hnone, rfl⟩⟩, .staking, nofun, hlonger tier.id⟩
  · exact h.elim

/-- Where every token has been issued by the membership module, the modules stay out of each
other's way in a step exactly when it is separate. -/
theorem isolated_iff (hw : AllIssued w.store) (a : Action C (Call Address K.Digest)) :
    Isolated w a ↔ Separate w a := by
  cases a with
  | tick => exact Iff.rfl
  | external => exact Iff.rfl
  | invoke env call =>
    constructor
    · rintro ⟨htraps, hkept⟩
      -- an accepted call that moves a shared entry moves it for a second module as well
      refine ⟨fun h => htraps (traps_iff.mp ((exec_traps hw).mpr h)), fun h => ?_, fun h => ?_⟩
      · obtain ⟨w', hok, m, hm, hmoved⟩ := h.accepted
        exact hmoved (hkept w' hok m hm).1
      · obtain ⟨w', hok, m, hm, hmoved⟩ := h.accepted
        exact hmoved (hkept w' hok m hm).2
    · rintro ⟨htyped, hadmin, htier⟩
      refine ⟨fun h => htyped ((exec_traps hw).mp (traps_iff.mpr h)), fun w' hok m _ => ?_⟩
      have hkept := exec_kept hok
      cases m with
      | staking => exact ⟨hkept.admin hadmin, congrArg (·.getD []) (hkept.tierList htier)⟩
      | tierManagement => exact ⟨hkept.admin hadmin, congrArg (·.getD []) (hkept.tierList htier)⟩
      | subscription => exact ⟨rfl, rfl⟩
      | membershipToken => exact ⟨hkept.admin hadmin, rfl⟩
      | allowance => exact ⟨rfl, rfl⟩

theorem AllIssued.step (hw : AllIssued w.store) (a : Action C (Call Address K.Digest)) :
    AllIssued (SorobanHost.step exec w a).store :=
  step_keeps (fun v => AllIssued v.store) hw (fun _ _ _ _ hok => (exec_kept hok).issued hw)
    (fun _ _ => hw) fun _ _ _ _ => hw

theorem allIssued_deployed (wasm : BytesN32) (tokens : Address → C.token.State) (now : ℕ) :
    AllIssued (deployed wasm tokens now : ManageWorld C K).store := by
  intro id token h
  exact absurd h (by simp [deployed, Storage.empty])

/-- In every run of the deployed contract, all tokens have been issued by the membership module. -/
theorem allIssued_run (wasm : BytesN32) (tokens : Address → C.token.State) (now : ℕ)
    (as : List (Action C (Call Address K.Digest))) :
    AllIssued (SorobanHost.run exec (deployed wasm tokens now) as).store := by
  have hstep (w : ManageWorld C K) (a : Action C (Call Address K.Digest))
      (hw : AllIssued w.store) : AllIssued (SorobanHost.step exec w a).store := hw.step a
  exact run_invariant_all (SorobanHost.step exec) hstep (allIssued_deployed wasm tokens now) as

/-- No transfer by an allowance goes through, in any state that the deployed contract reaches. -/
theorem transferFrom_fails_run (wasm : BytesN32) (tokens : Address → C.token.State) (now : ℕ)
    (as : List (Action C (Call Address K.Digest))) (env : Env C)
    (spender sender receiver : Address) (tokenId : BytesN32) (w' : ManageWorld C K) :
    Allowances.transferFrom env spender sender receiver tokenId
      (SorobanHost.run exec (deployed wasm tokens now) as) ≠ .ok w' :=
  transferFrom_fails (allIssued_run wasm tokens now as) spender sender receiver tokenId

/-- From every state that the deployed contract reaches, the modules stay out of each other's way
in all of a run exactly when every step of it is separate. -/
theorem storage_isolated_iff (wasm : BytesN32) (tokens : Address → C.token.State) (now : ℕ)
    (before as : List (Action C (Call Address K.Digest))) :
    Guarded (SorobanHost.step exec) Isolated
        (SorobanHost.run exec (deployed wasm tokens now) before) as ↔
      Guarded (SorobanHost.step exec) Separate
        (SorobanHost.run exec (deployed wasm tokens now) before) as := by
  have hissued := allIssued_run wasm tokens now before
  have hkept (w : ManageWorld C K) (a : Action C (Call Address K.Digest))
      (hw : AllIssued w.store) : AllIssued (SorobanHost.step exec w a).store := hw.step a
  constructor
  · exact guarded_of_invariant (SorobanHost.step exec) hkept
      (fun w a hw => (isolated_iff hw a).mp) hissued
  · exact guarded_of_invariant (SorobanHost.step exec) hkept
      (fun w a hw => (isolated_iff hw a).mpr) hissued

/-- Account 1 configures the staking module, and then account 2 makes itself the admin by the tier
module's own setup. A tier that the subscription module has registered is in the way of the staking
module's reader. -/
theorem storage_not_isolated :
    ¬Guarded (SorobanHost.step exec) Isolated
        (SorobanHost.run exec (deployed 0 (fun _ _ => (0 : ℕ)) 5 : ManageWorld numberedChain
          plainCrypto) [.invoke (signedBy 0) (.staking (.setStakingConfig 1 ⟨10, 90, 500⟩))])
        [.invoke (signedBy 1) (.tiers (.setTierAdmin 2))] ∧
      ¬Guarded (SorobanHost.step exec) Isolated
        (deployed 0 (fun _ _ => (0 : ℕ)) 5 : ManageWorld numberedChain plainCrypto)
        [.invoke (signedBy 1)
            (.subscriptions (.setTier 7 ⟨7, "desk", .basic, 30, 30, [], true, 4⟩)),
          .invoke (signedBy 2) (.getStakingTier 7)] := by
  constructor
  · rintro ⟨⟨_, hkept⟩, _⟩
    have hsame := (hkept _ rfl .staking nofun).1
    exact absurd hsame (by decide : (some 2 : Option ℕ) ≠ some 1)
  · rintro ⟨_, ⟨htyped, _⟩, _⟩
    exact htyped rfl

end HubAssist.ManageHub.Shared
