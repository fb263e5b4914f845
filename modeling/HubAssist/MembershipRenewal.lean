import HubAssist.MembershipBatch

/-! Renewal: what it does to the status, the date and the entry in the index of a token. The new
date is compared with nothing, so a renewal may leave a token that is not active. -/
namespace HubAssist.Membership
open SorobanHost CheckedArith RunSystem BucketIndex

variable {Address : Type} [DecidableEq Address] {C : Chain Address}
variable {env : Env C} {s s' : Storage Address} {w w' : MembershipWorld C}

/-- The guards of `renewToken`. -/
def RenewAllowed (env : Env C) (admin : Address) (id : ℕ) (w : MembershipWorld C) : Prop :=
  ¬Paused w ∧ (admin ∈ env.signers ∧ w.store.admin = some admin) ∧
    getTokenStatus id w = .ok .gracePeriod

/-- If the renewal is accepted the token is active until after now, the index has it once, under
its new expiry day, and the other tokens and their entries are as they were. -/
def RenewsProperly (env : Env C) (admin : Address) (id newExpiryDate : ℕ)
    (w : MembershipWorld C) : Prop :=
  ∀ w', exec env (.renewToken admin id newExpiryDate) w = .ok w' →
    (getTokenStatus id w' = .ok .active ∧
      ∃ token, w'.store.token id = some token ∧ w'.now < token.expiryDate) ∧
    (∀ day, (bucket w'.store.expiryIndex day).count id =
      if day = expiryDay newExpiryDate then 1 else 0) ∧
    (∀ k, k ≠ id → w'.store.token k = w.store.token k) ∧
    ∀ day, (bucket w'.store.expiryIndex day).filter (fun k => k ≠ id) =
      (bucket w.store.expiryIndex day).filter fun k => k ≠ id

theorem renewToken_eq_ok {admin : Address} {id newExpiryDate : ℕ} :
    renewToken env admin id newExpiryDate w = .ok w' ↔
      RenewAllowed env admin id w ∧ ∃ token, w.store.token id = some token ∧
        w.setStore (renewed w.store id token newExpiryDate) = w' := by
  simp only [renewToken, requireNotPaused, loadToken, bind_eq_ok, failIf_eq_ok, getOr_eq_ok,
    requireAdmin_eq_ok, validateTransition_active, pure_eq_ok, exists_const, RenewAllowed, Paused,
    getTokenStatus_eq_ok]
  constructor
  · rintro ⟨hp, hadmin, token, htoken, _, hstatus, rfl, rfl⟩
    exact ⟨⟨hp, hadmin, token, htoken, hstatus⟩, token, htoken, rfl⟩
  · rintro ⟨⟨hp, hadmin, token, htoken, hstatus⟩, token', htoken', rfl⟩
    obtain rfl := Option.some.inj (htoken.symm.trans htoken')
    exact ⟨hp, hadmin, token, htoken, _, hstatus, rfl, rfl⟩

omit [DecidableEq Address] in
/-- A token whose status could be computed and that is marked active has the status active until
its expiry date. -/
theorem computeStatus_active_of_le {now : ℕ} {token token' : MembershipToken Address}
    {st : MembershipStatus} (h : computeStatus s now token = .ok st)
    (hrevoked : token.status ≠ .revoked) (hgrace : s'.gracePeriodDays = s.gracePeriodDays)
    (hactive : token'.status = .active) (hnow : now ≤ token'.expiryDate) :
    computeStatus s' now token' = .ok .active := by
  rw [computeStatus, if_neg hrevoked] at h
  -- the grace period is computed before the date is looked at
  obtain ⟨gracePeriodSecs, hsecs, _⟩ := bind_eq_ok.mp h
  rw [computeStatus, if_neg (by rw [hactive]; decide), hgrace]
  exact bind_eq_ok.mpr ⟨gracePeriodSecs, hsecs, if_pos hnow⟩

omit [DecidableEq Address] in
theorem bucket_renewed (id : ℕ) (token : MembershipToken Address) (newExpiryDate : ℕ) :
    bucket (renewed s id token newExpiryDate).expiryIndex =
      push (drop (bucket s.expiryIndex) (expiryDay token.expiryDate) id)
        (expiryDay newExpiryDate) id := by
  change bucket (pushToDay (dropFromDay s.expiryIndex _ id) _ id) = _
  rw [bucket_pushToDay, bucket_dropFromDay]

/-- Whatever the old and the new day are, the renewed token stands in the bucket of the new one. -/
theorem Indexed.renewed_count {listed : List ℕ} (hi : Indexed w.store listed) {admin : Address}
    {id newExpiryDate : ℕ} (h : exec env (.renewToken admin id newExpiryDate) w = .ok w')
    (day : ℕ) : (bucket w'.store.expiryIndex day).count id =
      if day = expiryDay newExpiryDate then 1 else 0 := by
  obtain ⟨s', hs', heffect⟩ := exec_effect h
  have hfiled := (heffect.indexed hi).filed
  obtain ⟨_, token, htoken, hw'⟩ := renewToken_eq_ok.mp h
  obtain ⟨hid, _⟩ := hi.numbered id token htoken
  have hstore : s' = renewed w.store id token newExpiryDate :=
    congrArg World.store (hs'.symm.trans hw'.symm)
  have hhome : home s' (listing (.renewToken admin id newExpiryDate) w (w.setStore s') listed) id =
      some (expiryDay newExpiryDate) := by
    subst hid
    rw [hstore]
    simp [home, listing, renewed, saveToken]
  rw [hs']
  exact hfiled.count_eq hhome day

theorem renewsProperly_iff {listed : List ℕ} (hi : Indexed w.store listed) {admin : Address}
    {id newExpiryDate : ℕ} : RenewsProperly env admin id newExpiryDate w ↔
      (RenewAllowed env admin id w → w.now < newExpiryDate) := by
  constructor
  · intro h hallowed
    obtain ⟨token, htoken, _⟩ := getTokenStatus_eq_ok.mp hallowed.2.2
    obtain ⟨⟨_, token', htoken', hlater⟩, _⟩ :=
      h _ (renewToken_eq_ok.mpr ⟨hallowed, token, htoken, rfl⟩)
    obtain ⟨rfl, _⟩ := hi.numbered id token htoken
    have hnew : (renewed w.store token.id token newExpiryDate).token token.id =
        some { token with expiryDate := newExpiryDate, status := .active } :=
      Function.update_self ..
    obtain rfl := Option.some.inj (hnew.symm.trans htoken')
    exact hlater
  · intro hlater w' hcall
    refine ⟨?_, hi.renewed_count hcall, ?_⟩
    · obtain ⟨hallowed, token, htoken, rfl⟩ := renewToken_eq_ok.mp hcall
      obtain ⟨rfl, _⟩ := hi.numbered id token htoken
      obtain ⟨old, hold, hstatus⟩ := getTokenStatus_eq_ok.mp hallowed.2.2
      obtain rfl := Option.some.inj (htoken.symm.trans hold)
      have hrevoked : token.status ≠ .revoked := fun hmark =>
        absurd ((computeStatus_revoked_iff.mpr hmark).symm.trans hstatus) (by simp)
      have hnew : (renewed w.store token.id token newExpiryDate).token token.id =
          some { token with expiryDate := newExpiryDate, status := .active } :=
        Function.update_self ..
      refine ⟨getTokenStatus_eq_ok.mpr ⟨_, hnew, ?_⟩, _, hnew, hlater hallowed⟩
      exact computeStatus_active_of_le hstatus hrevoked rfl rfl (hlater hallowed).le
    · obtain ⟨_, token, htoken, rfl⟩ := renewToken_eq_ok.mp hcall
      obtain ⟨rfl, _⟩ := hi.numbered id token htoken
      refine ⟨fun k hk => saveToken_token_of_ne _ hk, fun day => ?_⟩
      rw [World.setStore_store, bucket_renewed, filter_push, filter_drop]

theorem indexed_run (w : MembershipWorld C) (wasm : Hash) (gracePeriodDays : Option ℕ)
    (as : List (Action C (Call Address))) :
    ∃ listed, Indexed (run exec (deployed w wasm gracePeriodDays) as).store listed := by
  refine run_invariant_all (step exec) (I := fun w => ∃ listed, Indexed w.store listed) ?_
    ⟨[], deployed_indexed w wasm gracePeriodDays⟩ as
  rintro w a ⟨listed, hi⟩
  exact ⟨_, step_indexed a hi⟩

/-- In every state of a run a renewal that the contract accepts makes the token valid again, with
its entry under the new day and all else as it was, exactly when the new date is after now. -/
theorem renewal_iff (w : MembershipWorld C) (wasm : Hash) (gracePeriodDays : Option ℕ)
    (as : List (Action C (Call Address))) (env : Env C) (admin : Address) (id newExpiryDate : ℕ) :
    RenewsProperly env admin id newExpiryDate (run exec (deployed w wasm gracePeriodDays) as) ↔
      (RenewAllowed env admin id (run exec (deployed w wasm gracePeriodDays) as) →
        (run exec (deployed w wasm gracePeriodDays) as).now < newExpiryDate) := by
  obtain ⟨listed, hi⟩ := indexed_run w wasm gracePeriodDays as
  exact renewsProperly_iff hi

/-- One token issued alone that is in its grace period. -/
def issuedAndLapsed : List (Action numberedChain (Call ℕ)) :=
  [.invoke (signedBy 0) (.initializeContract 1), .invoke (signedBy 0) (.issueToken 1 5 0 70000),
    .tick 95000]

/-- Its renewal until a date that has passed is accepted, and leaves it in its grace period. -/
theorem renewal_not_valid :
    RenewAllowed (signedBy 0) 1 1 (run exec freshContract issuedAndLapsed) ∧
      ¬RenewsProperly (signedBy 0) 1 1 80000 (run exec freshContract issuedAndLapsed) := by
  have hallowed : RenewAllowed (signedBy 0) 1 1 (run exec freshContract issuedAndLapsed) := by
    refine ⟨?_, by decide, by decide⟩
    unfold Paused
    decide
  refine ⟨hallowed, fun h => ?_⟩
  obtain ⟨listed, hi⟩ := indexed_run (C := numberedChain)
    ⟨Storage.empty 0, fun _ _ => (0 : ℕ), [], 0⟩ 0 none issuedAndLapsed
  have hlater := (renewsProperly_iff hi).mp h hallowed
  revert hlater
  decide

end HubAssist.Membership
