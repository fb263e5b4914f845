import HubAssist.MembershipSteps
import Mathlib.Logic.Relation

/-! The status of a membership token along a run of the contract: what ends it, what brings it
back to active, and who may hand the token on. -/
namespace HubAssist.Membership
open SorobanHost CheckedArith RunSystem

variable {Address : Type} [DecidableEq Address] {C : Chain Address}
variable {env : Env C} {s s' : Storage Address} {w : MembershipWorld C}

/-- One handover of a token, authorised by the owner it has then, while it is active. -/
def Handover (env : Env C) (s : Storage Address) (now : ℕ)
    (token token' : MembershipToken Address) : Prop :=
  token.owner ∈ env.signers ∧ computeStatus s now token = .ok .active ∧
    ∃ newOwner, token' = { token with owner := newOwner }

/-- Any number of handovers, one after the other. -/
abbrev Handovers (env : Env C) (s : Storage Address) (now : ℕ) :=
  Relation.ReflTransGen (Handover env s now)

theorem Handovers.frame {now : ℕ} {token token' : MembershipToken Address}
    (h : Handovers env s now token token') : ∃ owner, token' = { token with owner := owner } := by
  induction h with
  | refl => exact ⟨token.owner, rfl⟩
  | tail _ hlast ih =>
    obtain ⟨owner, rfl⟩ := ih
    obtain ⟨_, _, newOwner, rfl⟩ := hlast
    exact ⟨newOwner, rfl⟩

/-- Where the owner has changed, the first owner has signed and the token was active. -/
theorem Handovers.authorised {now : ℕ} {token token' : MembershipToken Address}
    (h : Handovers env s now token token') (howner : token'.owner ≠ token.owner) :
    token.owner ∈ env.signers ∧ computeStatus s now token = .ok .active := by
  cases h.cases_head with
  | inl heq => exact absurd (congrArg MembershipToken.owner heq.symm) howner
  | inr hfirst =>
    obtain ⟨_, hfirst, _⟩ := hfirst
    exact ⟨hfirst.1, hfirst.2.1⟩

theorem moveToken_token {now id : ℕ} {newOwner : Address} (hs : Numbered s)
    (h : moveToken env now id newOwner s = .ok s') :
    Numbered s' ∧ ∀ k, (s.token k = none → s'.token k = none) ∧
      ∀ token, s.token k = some token →
        ∃ token', s'.token k = some token' ∧ Handovers env s now token token' := by
  simp only [moveToken, loadToken, bind_eq_ok, getOr_eq_ok, requireAuth_eq_ok,
    requireTransferable_eq_ok, pure_eq_ok] at h
  obtain ⟨token, htoken, _, hsigned, _, hstatus, _, rfl, rfl⟩ := h
  obtain ⟨rfl, hid⟩ := hs id token htoken
  refine ⟨hs.saveToken hid, fun k => ?_⟩
  by_cases hk : k = token.id
  · subst hk
    refine ⟨fun hnone => absurd (hnone.symm.trans htoken) (by simp), fun old hold => ?_⟩
    obtain rfl := Option.some.inj (htoken.symm.trans hold)
    exact ⟨_, Function.update_self .., .single ⟨hsigned, hstatus, newOwner, rfl⟩⟩
  · have hkeep : (saveToken s { token with owner := newOwner }).token k = s.token k :=
      Function.update_of_ne hk _ _
    exact ⟨fun hnone => hkeep.trans hnone, fun old hold => ⟨old, hkeep.trans hold, .refl⟩⟩

theorem moveAll_token {now : ℕ} {params : List (TransferParams Address)} (hs : Numbered s)
    (h : moveAll env now params s = .ok s') :
    Numbered s' ∧ ∀ k, (s.token k = none → s'.token k = none) ∧
      ∀ token, s.token k = some token →
        ∃ token', s'.token k = some token' ∧ Handovers env s now token token' := by
  -- on the transfers, each of which hands a token on from where the last one has left it
  induction params generalizing s with
  | nil =>
    obtain rfl := pure_eq_ok.mp h
    exact ⟨hs, fun k => ⟨id, fun token htoken => ⟨token, htoken, .refl⟩⟩⟩
  | cons p params ih =>
    obtain ⟨s₁, hmove, hrest⟩ := bind_eq_ok.mp h
    obtain ⟨hs₁, hfirst⟩ := moveToken_token hs hmove
    obtain ⟨hs', hlater⟩ := ih hs₁ hrest
    obtain ⟨_, rfl⟩ := moveToken_tokensOnly hmove
    refine ⟨hs', fun k => ⟨fun hnone => (hlater k).1 ((hfirst k).1 hnone), fun token htoken => ?_⟩⟩
    obtain ⟨token₁, htoken₁, hmoves₁⟩ := (hfirst k).2 token htoken
    obtain ⟨token', htoken', hmoves⟩ := (hlater k).2 token₁ htoken₁
    exact ⟨token', htoken', hmoves₁.trans hmoves⟩

/-- What an accepted call does to the token of one number. -/
inductive TokenChange (env : Env C) (call : Call Address) (w : MembershipWorld C) (k : ℕ) :
    Option (MembershipToken Address) → Option (MembershipToken Address) → Prop where
  | absent : TokenChange env call w k none none
  | issued {token} (hactive : token.status = .active) : TokenChange env call w k none (some token)
  | handed {token token'} (h : Handovers env w.store w.now token token') :
      TokenChange env call w k (some token) (some token')
  | renewed {admin expiryDate token} (hcall : call = .renewToken admin k expiryDate)
      (hsigned : admin ∈ env.signers) (hadmin : w.store.admin = some admin)
      (hstatus : computeStatus w.store w.now token = .ok .gracePeriod) :
      TokenChange env call w k (some token)
        (some { token with expiryDate := expiryDate, status := .active })
  | revoked {token} (hstatus : computeStatus w.store w.now token = .ok .active) :
      TokenChange env call w k (some token) (some { token with status := .revoked })

theorem TokenChange.kept {call : Call Address} {k : ℕ} {o o' : Option (MembershipToken Address)}
    (h : o' = o) : TokenChange env call w k o o' := by
  subst h
  cases o' with
  | none => exact .absent
  | some token => exact .handed .refl

/-- A call that writes the token `token` under its number changes only the token found there. -/
theorem TokenChange.of_saveToken {call : Call Address} {token : MembershipToken Address} {k : ℕ}
    (h : k = token.id → TokenChange env call w k (s.token k) (some token)) :
    TokenChange env call w k (s.token k) ((saveToken s token).token k) := by
  by_cases hk : k = token.id
  · have hself : (saveToken s token).token k = some token := by rw [hk, saveToken_token_self]
    rw [hself]
    exact h hk
  · exact .kept (saveToken_token_of_ne s hk)

/-- Every accepted call leaves the tokens numbered and the grace period alone, and changes each
token in one of the ways above. -/
theorem Effect.token {call : Call Address} (h : Effect env w call s') (hs : Numbered w.store) :
    Numbered s' ∧ s'.gracePeriodDays = w.store.gracePeriodDays ∧
      ∀ k, TokenChange env call w k (w.store.token k) (s'.token k) := by
  cases h with
  | administer _ htoken hcount _ hgrace =>
    refine ⟨fun k token hk => ?_, hgrace, fun k => .kept (congrFun htoken k)⟩
    rw [hcount]
    exact hs k token (htoken ▸ hk)
  | @issue admin owner tier expiryDate id _ hid =>
    have hfresh : w.store.token id = none := hs.token_fresh (by omega)
    have hnumbered : Numbered { w.store with tokenCount := some id } := fun k token hk =>
      ⟨(hs k token hk).1, ((hs k token hk).2.trans (by omega) : k ≤ id)⟩
    refine ⟨hnumbered.saveToken (Nat.le_refl id), rfl, fun k => .of_saveToken ?_⟩
    rintro rfl
    exact hfresh ▸ .issued rfl
  | transfer _ hmove =>
    obtain ⟨hs', hall⟩ := moveAll_token hs hmove
    obtain ⟨_, rfl⟩ := moveAll_tokensOnly hmove
    refine ⟨hs', rfl, fun k => ?_⟩
    cases htoken : w.store.token k with
    | none =>
      rw [(hall k).1 htoken]
      exact .absent
    | some token =>
      obtain ⟨token', htoken', hmoves⟩ := (hall k).2 token htoken
      rw [htoken']
      exact .handed hmoves
  | renew hsigned hadmin htoken hstatus =>
    obtain ⟨rfl, hid⟩ := hs _ _ htoken
    refine ⟨Numbered.saveToken hs hid, rfl, fun k => .of_saveToken ?_⟩
    rintro rfl
    exact htoken ▸ .renewed rfl hsigned hadmin hstatus
  | revoke htoken hstatus =>
    obtain ⟨rfl, hid⟩ := hs _ _ htoken
    refine ⟨hs.saveToken hid, rfl, fun k => .of_saveToken ?_⟩
    rintro rfl
    exact htoken ▸ .revoked hstatus
  | @issueBatch admin params _ =>
    have hcases := issuedBatch_token_cases w.store w.now params
    obtain ⟨tokens, heq⟩ := issuedBatch_frame w.store w.now params
    rw [heq] at hcases ⊢
    refine ⟨fun k token hk => ?_, rfl, fun k => ?_⟩
    · rcases hcases k with hold | ⟨_, hle, p, _, hnew⟩
      · obtain ⟨hid, hcount⟩ := hs k token (hold ▸ hk)
        exact ⟨hid, hcount.trans (Nat.le_add_right _ _)⟩
      · obtain rfl := Option.some.inj (hnew.symm.trans hk)
        exact ⟨rfl, hle⟩
    · rcases hcases k with hold | ⟨hlt, _, p, _, hnew⟩
      · exact .kept hold
      · rw [hnew, hs.token_fresh hlt]
        exact .issued rfl

/-- A renewal of the token `k` that the admin makes and the contract accepts. -/
def RenewedBy (admin : Address) (w : MembershipWorld C) (k : ℕ) : Action C (Call Address) → Prop
  | .invoke env (.renewToken caller id expiryDate) => caller = admin ∧ id = k ∧
      admin ∈ env.signers ∧ ∃ w', exec env (.renewToken caller id expiryDate) w = .ok w'
  | _ => False

/-- What one step may do to the status and the owner of the token `k`. -/
structure StepLaw (w : MembershipWorld C) (a : Action C (Call Address)) (k : ℕ) : Prop where
  active_again : getTokenStatus k w = .ok .gracePeriod →
    getTokenStatus k (step exec w a) = .ok .active →
      ∃ admin, w.store.admin = some admin ∧ RenewedBy admin w k a
  revoked_while_active : getTokenStatus k w ≠ .ok .revoked →
    getTokenStatus k (step exec w a) = .ok .revoked → getTokenStatus k w = .ok .active
  owner_authorised : ∀ token token', w.store.token k = some token →
    (step exec w a).store.token k = some token' → token'.owner ≠ token.owner →
      ∃ env call, a = .invoke env call ∧ token.owner ∈ env.signers ∧
        getTokenStatus k w = .ok .active ∧ Handovers env w.store w.now token token'

/-- How far the status has gone. -/
def MembershipStatus.stage : MembershipStatus → ℕ
  | .active => 0
  | .gracePeriod => 1
  | .expired => 2
  | .revoked => 3

/-- What a run may do to the status of the token `k`. -/
structure RunLaw (w : MembershipWorld C) (as : List (Action C (Call Address))) (k : ℕ) : Prop where
  revoked_final : getTokenStatus k w = .ok .revoked →
    getTokenStatus k (run exec w as) = .ok .revoked
  expired_final : getTokenStatus k w = .ok .expired →
    getTokenStatus k (run exec w as) = .ok .expired
  forward : Guarded (step exec) (fun w a => ∀ admin, ¬RenewedBy admin w k a) w as →
    ∀ st st', getTokenStatus k w = .ok st → getTokenStatus k (run exec w as) = .ok st' →
      st.stage ≤ st'.stage

theorem getTokenStatus_eq_ok {k : ℕ} {st : MembershipStatus} :
    getTokenStatus k w = .ok st ↔
      ∃ token, w.store.token k = some token ∧ computeStatus w.store w.now token = .ok st := by
  simp only [getTokenStatus, loadToken, bind_eq_ok, getOr_eq_ok]

/-- A step leaves the tokens numbered, and is either an accepted call or one that leaves the
storage alone. -/
theorem step_token (w : MembershipWorld C) (a : Action C (Call Address)) (hs : Numbered w.store) :
    Numbered (step exec w a).store ∧ w.now ≤ (step exec w a).now ∧
      ((step exec w a).store = w.store ∨ ∃ env call s', a = .invoke env call ∧
        exec env call w = .ok (w.setStore s') ∧ step exec w a = w.setStore s' ∧
          s'.gracePeriodDays = w.store.gracePeriodDays ∧
            ∀ k, TokenChange env call w k (w.store.token k) (s'.token k)) := by
  cases a with
  | invoke env call =>
    cases hcall : exec env call w with
    | error fault =>
      rw [step_invoke_error hcall]
      exact ⟨hs, Nat.le_refl _, Or.inl rfl⟩
    | ok w' =>
      obtain ⟨s', rfl, heffect⟩ := exec_effect hcall
      obtain ⟨hs', hgrace, htoken⟩ := heffect.token hs
      rw [step_invoke_ok hcall]
      exact ⟨hs', Nat.le_refl _, Or.inr ⟨env, call, s', rfl, hcall, rfl, hgrace, htoken⟩⟩
  | tick seconds => exact ⟨hs, Nat.le_add_right _ _, Or.inl rfl⟩
  | external token next =>
    rw [step_external_store]
    exact ⟨hs, step_external_keeps (fun v => w.now ≤ v.now) le_rfl le_rfl, Or.inl rfl⟩

theorem timedStatus_stage_mono {now later expiryDate graceEnd : ℕ} (h : now ≤ later) :
    (timedStatus now expiryDate graceEnd).stage ≤ (timedStatus later expiryDate graceEnd).stage := by
  unfold timedStatus
  split_ifs <;> first | omega | decide

omit [DecidableEq Address] in
/-- A token past its grace period is past it at every later time. -/
theorem computeStatus_expired_later {now later : ℕ} {token : MembershipToken Address}
    (h : computeStatus s now token = .ok .expired) (hlater : now ≤ later) :
    computeStatus s later token = .ok .expired := by
  have hrevoked : token.status ≠ .revoked := fun hrevoked =>
    absurd ((computeStatus_revoked_iff.mpr hrevoked).symm.trans h) (by simp)
  rw [computeStatus, if_neg hrevoked] at h ⊢
  obtain ⟨gracePeriodSecs, hgrace, h⟩ := bind_eq_ok.mp h
  by_cases hactive : now ≤ token.expiryDate
  · rw [if_pos hactive] at h
    exact absurd (pure_eq_ok.mp h) (by decide)
  · rw [if_neg hactive] at h
    obtain ⟨graceEnd, hend, h⟩ := bind_eq_ok.mp h
    -- only the last branch of `computeStatus` is left
    have hpast : ¬now ≤ graceEnd := by
      intro hgraceful
      rw [if_pos hgraceful] at h
      exact absurd (pure_eq_ok.mp h) (by decide)
    refine bind_eq_ok.mpr ⟨gracePeriodSecs, hgrace, ?_⟩
    rw [if_neg (by omega)]
    refine bind_eq_ok.mpr ⟨graceEnd, hend, ?_⟩
    rw [if_neg (by omega)]
    rfl

/-- Handovers leave the status as it is. -/
theorem Handovers.status_eq {token token' : MembershipToken Address}
    (hgrace : s'.gracePeriodDays = w.store.gracePeriodDays)
    (h : Handovers env w.store w.now token token') :
    computeStatus s' w.now token' = computeStatus w.store w.now token := by
  obtain ⟨owner, rfl⟩ := h.frame
  exact computeStatus_congr hgrace rfl rfl

/-- Where the storage is the same and the clock has not gone back, the status is no earlier. -/
theorem getTokenStatus_forward {w w' : MembershipWorld C} {k : ℕ}
    {token token' : MembershipToken Address} {st st' : MembershipStatus} (hnow : w.now ≤ w'.now)
    (hgrace : w'.store.gracePeriodDays = w.store.gracePeriodDays)
    (htoken : w.store.token k = some token) (htoken' : w'.store.token k = some token')
    (hexpiry : token'.expiryDate = token.expiryDate)
    (hkept : token'.status = token.status ∨ token'.status = .revoked)
    (h : getTokenStatus k w = .ok st) (h' : getTokenStatus k w' = .ok st') :
    st.stage ≤ st'.stage := by
  obtain ⟨old, hold, hst⟩ := getTokenStatus_eq_ok.mp h
  obtain rfl := Option.some.inj (hold.symm.trans htoken)
  obtain ⟨new, hnew, hst'⟩ := getTokenStatus_eq_ok.mp h'
  obtain rfl := Option.some.inj (hnew.symm.trans htoken')
  by_cases hrevoked : new.status = .revoked
  · obtain rfl : st' = .revoked :=
      (Except.ok.inj (hst'.symm.trans (computeStatus_revoked_iff.mpr hrevoked)))
    cases st <;> decide
  · have hlive : old.status ≠ .revoked := by
      rcases hkept with heq | hrev
      · rwa [← heq]
      · exact absurd hrev hrevoked
    rw [computeStatus_timed hlive hst, computeStatus_timed hrevoked hst', hexpiry, hgrace]
    exact timedStatus_stage_mono hnow

theorem step_active_again {w : MembershipWorld C} {a : Action C (Call Address)} {k : ℕ}
    (hs : Numbered w.store) (hgrace : getTokenStatus k w = .ok .gracePeriod)
    (hactive : getTokenStatus k (step exec w a) = .ok .active) :
    ∃ admin, w.store.admin = some admin ∧ RenewedBy admin w k a := by
  obtain ⟨token, htoken, hst⟩ := getTokenStatus_eq_ok.mp hgrace
  obtain ⟨_, hnow, hstore | ⟨env, call, s', rfl, hcall, hstep, hkept, hchange⟩⟩ := step_token w a hs
  · -- with the storage as it was the status cannot have gone back
    have hforward := getTokenStatus_forward hnow (by rw [hstore]) htoken (by rw [hstore, htoken])
      rfl (Or.inl rfl) hgrace hactive
    exact absurd hforward (by decide)
  · rw [hstep] at hactive
    obtain ⟨token', htoken', hst'⟩ := getTokenStatus_eq_ok.mp hactive
    have hk := hchange k
    rw [World.setStore_store] at htoken'
    rw [htoken, htoken'] at hk
    cases hk with
    | handed hmoves =>
      have hsame := (hmoves.status_eq hkept).symm.trans hst'
      exact absurd (hst.symm.trans hsame) (by simp)
    | renewed hcall' hsigned hadmin _ =>
      subst hcall'
      exact ⟨_, hadmin, rfl, rfl, hsigned, _, hcall⟩
    | revoked hst'' => exact absurd (hst.symm.trans hst'') (by simp)

theorem step_revoked_while_active {w : MembershipWorld C} {a : Action C (Call Address)} {k : ℕ}
    (hs : Numbered w.store) (hlive : getTokenStatus k w ≠ .ok .revoked)
    (hrevoked : getTokenStatus k (step exec w a) = .ok .revoked) :
    getTokenStatus k w = .ok .active := by
  obtain ⟨token', htoken', hst'⟩ := getTokenStatus_eq_ok.mp hrevoked
  rw [computeStatus_revoked_iff] at hst'
  -- a token marked before has the status already
  have hmarked (token : MembershipToken Address) (htoken : w.store.token k = some token) :
      token.status ≠ .revoked := fun hmark =>
    hlive (getTokenStatus_eq_ok.mpr ⟨token, htoken, computeStatus_revoked_iff.mpr hmark⟩)
  obtain ⟨_, _, hstore | ⟨env, call, s', rfl, _, hstep, _, hchange⟩⟩ := step_token w a hs
  · rw [hstore] at htoken'
    exact absurd hst' (hmarked _ htoken')
  · have hk := hchange k
    rw [hstep, World.setStore_store] at htoken'
    rw [htoken'] at hk
    cases htoken : w.store.token k with
    | none =>
      rw [htoken] at hk
      cases hk with
      | issued hactive => exact absurd (hactive.symm.trans hst') (by decide)
    | some token =>
      rw [htoken] at hk
      cases hk with
      | handed hmoves =>
        obtain ⟨owner, rfl⟩ := hmoves.frame
        exact absurd hst' (hmarked token htoken)
      | renewed => exact absurd hst' (by simp)
      | revoked hst => exact getTokenStatus_eq_ok.mpr ⟨token, htoken, hst⟩

theorem step_owner_authorised {w : MembershipWorld C} {a : Action C (Call Address)} {k : ℕ}
    (hs : Numbered w.store) {token token' : MembershipToken Address}
    (htoken : w.store.token k = some token) (htoken' : (step exec w a).store.token k = some token')
    (howner : token'.owner ≠ token.owner) :
    ∃ env call, a = .invoke env call ∧ token.owner ∈ env.signers ∧
      getTokenStatus k w = .ok .active ∧ Handovers env w.store w.now token token' := by
  obtain ⟨_, _, hstore | ⟨env, call, s', rfl, _, hstep, _, hchange⟩⟩ := step_token w a hs
  · rw [hstore] at htoken'
    obtain rfl := Option.some.inj (htoken.symm.trans htoken')
    exact absurd rfl howner
  · have hk := hchange k
    rw [hstep, World.setStore_store] at htoken'
    rw [htoken, htoken'] at hk
    cases hk with
    | handed hmoves =>
      obtain ⟨hsigned, hactive⟩ := hmoves.authorised howner
      exact ⟨env, call, rfl, hsigned, getTokenStatus_eq_ok.mpr ⟨token, htoken, hactive⟩, hmoves⟩
    | renewed => exact absurd rfl howner
    | revoked => exact absurd rfl howner

theorem step_law (w : MembershipWorld C) (a : Action C (Call Address)) (k : ℕ)
    (hs : Numbered w.store) : StepLaw w a k :=
  ⟨step_active_again hs, step_revoked_while_active hs,
    fun _ _ htoken htoken' => step_owner_authorised hs htoken htoken'⟩

/-- A token that a step does not renew keeps its expiry date, and its mark unless it is
revoked. -/
theorem step_unrenewed {w : MembershipWorld C} {a : Action C (Call Address)} {k : ℕ}
    (hs : Numbered w.store) (hrenewed : ∀ admin, ¬RenewedBy admin w k a)
    {token : MembershipToken Address} (htoken : w.store.token k = some token) :
    ∃ token', (step exec w a).store.token k = some token' ∧
      token'.expiryDate = token.expiryDate ∧
        (token'.status = token.status ∨ token'.status = .revoked) := by
  obtain ⟨_, _, hstore | ⟨env, call, s', rfl, hcall, hstep, _, hchange⟩⟩ := step_token w a hs
  · exact ⟨token, hstore ▸ htoken, rfl, Or.inl rfl⟩
  · have hk := hchange k
    rw [hstep, World.setStore_store]
    rw [htoken] at hk
    generalize s'.token k = o at hk
    cases hk with
    | handed hmoves =>
      obtain ⟨owner, rfl⟩ := hmoves.frame
      exact ⟨_, rfl, rfl, Or.inl rfl⟩
    | renewed hcall' hsigned _ _ =>
      subst hcall'
      exact absurd ⟨rfl, rfl, hsigned, _, hcall⟩ (hrenewed _)
    | revoked => exact ⟨_, rfl, rfl, Or.inr rfl⟩

theorem step_gracePeriodDays {w : MembershipWorld C} (a : Action C (Call Address))
    (hs : Numbered w.store) :
    (step exec w a).store.gracePeriodDays = w.store.gracePeriodDays := by
  obtain ⟨_, _, hstore | ⟨_, _, s', _, _, hstep, hkept, _⟩⟩ := step_token w a hs
  · rw [hstore]
  · rw [hstep, World.setStore_store, hkept]

/-- A renewal finds its token in the grace period. -/
theorem RenewedBy.status {admin : Address} {w : MembershipWorld C} {k : ℕ}
    {a : Action C (Call Address)} (h : RenewedBy admin w k a) :
    getTokenStatus k w = .ok .gracePeriod := by
  cases a with
  | invoke env call =>
    cases call with
    | renewToken caller id expiryDate =>
      obtain ⟨_, rfl, _, w', hcall⟩ := h
      obtain ⟨_, _, heffect⟩ := exec_effect hcall
      cases heffect with
      | administer hcall => exact hcall.elim
      | transfer hcall => exact absurd hcall.symm (Option.some_ne_none _)
      | renew _ _ htoken hstatus => exact getTokenStatus_eq_ok.mpr ⟨_, htoken, hstatus⟩
    | _ => exact absurd h id
  | _ => exact absurd h id

theorem numbered_run {w : MembershipWorld C} (hs : Numbered w.store)
    (as : List (Action C (Call Address))) : Numbered (run exec w as).store :=
  RunSystem.run_invariant_all (step exec) (I := fun w => Numbered w.store)
    (fun w a hw => (step_token w a hw).1) hs as

/-- A run that does not renew a token keeps its expiry date, and its mark unless it is revoked,
while the clock goes on and the grace period stays what it was. -/
theorem run_unrenewed {w : MembershipWorld C} {as : List (Action C (Call Address))} {k : ℕ}
    (hs : Numbered w.store)
    (hg : Guarded (step exec) (fun w a => ∀ admin, ¬RenewedBy admin w k a) w as)
    {token : MembershipToken Address} (htoken : w.store.token k = some token) :
    w.now ≤ (run exec w as).now ∧
      (run exec w as).store.gracePeriodDays = w.store.gracePeriodDays ∧
        ∃ token', (run exec w as).store.token k = some token' ∧
          token'.expiryDate = token.expiryDate ∧
            (token'.status = token.status ∨ token'.status = .revoked) := by
  induction as generalizing w token with
  | nil => exact ⟨Nat.le_refl _, rfl, token, htoken, rfl, Or.inl rfl⟩
  | cons a as ih =>
    -- no step of the rest renews the token either, so the dates chain
    obtain ⟨hrenewed, hrest⟩ := hg
    obtain ⟨hs₁, hnow₁, _⟩ := step_token w a hs
    obtain ⟨token₁, htoken₁, hexpiry₁, hmark₁⟩ := step_unrenewed hs hrenewed htoken
    obtain ⟨hnow, hgrace, token', htoken', hexpiry, hmark⟩ := ih hs₁ hrest htoken₁
    refine ⟨hnow₁.trans hnow, hgrace.trans (step_gracePeriodDays a hs), token', htoken',
      hexpiry.trans hexpiry₁, ?_⟩
    rcases hmark with heq | hrev
    · exact hmark₁.imp heq.trans heq.trans
    · exact Or.inr hrev

theorem run_revoked_final {w : MembershipWorld C} {k : ℕ} (hs : Numbered w.store)
    (h : getTokenStatus k w = .ok .revoked) (as : List (Action C (Call Address))) :
    getTokenStatus k (run exec w as) = .ok .revoked := by
  have hstep (w : MembershipWorld C) (a : Action C (Call Address))
      (hw : Numbered w.store ∧ getTokenStatus k w = .ok .revoked) :
      Numbered (step exec w a).store ∧ getTokenStatus k (step exec w a) = .ok .revoked := by
    obtain ⟨hs, h⟩ := hw
    obtain ⟨token, htoken, hst⟩ := getTokenStatus_eq_ok.mp h
    -- a renewal would find the token in its grace period
    have hrenewed (admin : Address) (hr : RenewedBy admin w k a) : False :=
      absurd (hr.status.symm.trans h) (by simp)
    obtain ⟨token', htoken', _, hmark⟩ := step_unrenewed hs hrenewed htoken
    have hrevoked := computeStatus_revoked_iff.mp hst
    refine ⟨(step_token w a hs).1, getTokenStatus_eq_ok.mpr ⟨token', htoken', ?_⟩⟩
    exact computeStatus_revoked_iff.mpr (hmark.elim (·.trans hrevoked) id)
  exact (RunSystem.run_invariant_all (step exec) hstep ⟨hs, h⟩ as).2

theorem step_expired_final {w : MembershipWorld C} {a : Action C (Call Address)} {k : ℕ}
    (hs : Numbered w.store) (h : getTokenStatus k w = .ok .expired) :
    getTokenStatus k (step exec w a) = .ok .expired := by
  obtain ⟨token, htoken, hst⟩ := getTokenStatus_eq_ok.mp h
  obtain ⟨_, hnow, hstore | ⟨env, call, s', rfl, _, hstep, hgrace, hchange⟩⟩ := step_token w a hs
  · refine getTokenStatus_eq_ok.mpr ⟨token, hstore ▸ htoken, ?_⟩
    rw [hstore]
    exact computeStatus_expired_later hst hnow
  · have hk := hchange k
    rw [htoken] at hk
    rw [hstep, getTokenStatus_eq_ok, World.setStore_store]
    generalize s'.token k = o at hk
    cases hk with
    | handed hmoves => exact ⟨_, rfl, (hmoves.status_eq hgrace).trans hst⟩
    | renewed _ _ _ hst' => exact absurd (hst.symm.trans hst') (by simp)
    | revoked hst' => exact absurd (hst.symm.trans hst') (by simp)

theorem run_expired_final {w : MembershipWorld C} {k : ℕ} (hs : Numbered w.store)
    (h : getTokenStatus k w = .ok .expired) (as : List (Action C (Call Address))) :
    getTokenStatus k (run exec w as) = .ok .expired := by
  have hinv := RunSystem.run_invariant_all (step exec)
    (I := fun w => Numbered w.store ∧ getTokenStatus k w = .ok .expired)
    (fun w a hw => ⟨(step_token w a hw.1).1, step_expired_final hw.1 hw.2⟩) ⟨hs, h⟩ as
  exact hinv.2

theorem run_forward {w : MembershipWorld C} {as : List (Action C (Call Address))} {k : ℕ}
    (hs : Numbered w.store)
    (hg : Guarded (step exec) (fun w a => ∀ admin, ¬RenewedBy admin w k a) w as)
    {st st' : MembershipStatus} (h : getTokenStatus k w = .ok st)
    (h' : getTokenStatus k (run exec w as) = .ok st') : st.stage ≤ st'.stage := by
  obtain ⟨token, htoken, _⟩ := getTokenStatus_eq_ok.mp h
  obtain ⟨hnow, hgrace, token', htoken', hexpiry, hmark⟩ := run_unrenewed hs hg htoken
  exact getTokenStatus_forward hnow hgrace htoken htoken' hexpiry hmark h h'

/-- The contract as deployed: no token yet, and a grace period that no call writes. -/
def deployed (w : MembershipWorld C) (wasm : Hash) (gracePeriodDays : Option ℕ) :
    MembershipWorld C :=
  w.setStore { Storage.empty wasm with gracePeriodDays := gracePeriodDays }

theorem deployed_numbered (w : MembershipWorld C) (wasm : Hash) (gracePeriodDays : Option ℕ) :
    Numbered (deployed w wasm gracePeriodDays).store :=
  fun _ _ h => nomatch h

/-- The status machine of a membership token, in every run from a deployed contract: revoked and
expired are final, without a renewal the status only goes forward, a renewal by the admin alone
leads from the grace period back to active, only an active token is revoked, and the owner of an
active token has signed where it is handed on. -/
theorem status_machine (w : MembershipWorld C) (wasm : Hash) (gracePeriodDays : Option ℕ)
    (as bs : List (Action C (Call Address))) (k : ℕ) :
    RunLaw (run exec (deployed w wasm gracePeriodDays) as) bs k ∧
      ∀ a, StepLaw (run exec (deployed w wasm gracePeriodDays) as) a k := by
  have hs := numbered_run (deployed_numbered w wasm gracePeriodDays) as
  refine ⟨⟨fun h => run_revoked_final hs h bs, fun h => run_expired_final hs h bs,
    fun hg _ _ h h' => run_forward hs hg h h'⟩, fun a => step_law _ a k hs⟩

end HubAssist.Membership
