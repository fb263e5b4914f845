import HubAssist.AccessTransfer

/-! The pause of the access control: which calls still write while it lasts. The cancellation of
a transfer and the migration of the roles do not test for it. -/
namespace HubAssist.Access
open SorobanHost RunSystem

variable {Address : Type} [DecidableEq Address] {C : Chain Address}
variable {env : Env C} {w w' : AccessWorld C} {call : Call Address} {admin : Address}

/-- The admin, the roles, the proposals and their count, what is pending and the version of the
storage are the same in two worlds. -/
structure SameAccess (w w' : AccessWorld C) : Prop where
  admin : w'.store.admin = w.store.admin
  role : w'.store.role = w.store.role
  proposal : w'.store.proposal = w.store.proposal
  proposalCount : w'.store.proposalCount = w.store.proposalCount
  pendingAdmin : w'.store.pendingAdmin = w.store.pendingAdmin
  pendingUpgrade : w'.store.pendingUpgrade = w.store.pendingUpgrade
  storageVersion : w'.store.storageVersion = w.store.storageVersion

theorem SameAccess.refl (w : AccessWorld C) : SameAccess w w := ⟨rfl, rfl, rfl, rfl, rfl, rfl, rfl⟩

/-- The calls with which the admin pauses, resumes and configures the contract. -/
def Call.Configures : Call Address → Prop
  | .pause _ | .unpause _ | .updateConfig _ _ => True
  | _ => False

/-- A call made during the pause changes nothing that the pause is to freeze. -/
def Frozen (w : AccessWorld C) : Action C (Call Address) → Prop
  | .invoke env call => Paused w → ¬call.Configures → SameAccess w (step exec w (.invoke env call))
  | .tick _ | .external _ _ => True

/-- During the pause the admin cancels no transfer that is pending, and migrates no roles that
have not been migrated. -/
def Halted (w : AccessWorld C) : Action C (Call Address) → Prop
  | .invoke env (.cancelAdminTransfer admin) =>
    Paused w → admin ∈ env.signers → w.store.admin = some admin → w.store.pendingAdmin = none
  | .invoke env (.migrateRolesV2 admin) =>
    Paused w → admin ∈ env.signers → w.store.admin = some admin → 2 ≤ getStorageVersion w
  | _ => True

/-- The other calls of a contract that has been set up test for the pause, or only configure. -/
theorem sameAccess_of_paused (hp : Paused w) (hsetup : ¬call.SetsUp)
    (hcancel : ∀ admin, call ≠ .cancelAdminTransfer admin)
    (hmigrate : ∀ admin, call ≠ .migrateRolesV2 admin) (h : exec env call w = .ok w') :
    SameAccess w w' := by
  cases call with
  | initializeContract admin multisig => exact absurd ⟨admin, multisig, rfl⟩ hsetup
  | setRole admin user role => exact absurd hp (setRole_eq_ok.mp h).1
  | removeRole admin user => exact absurd hp (removeRole_eq_ok.mp h).1
  | updateConfig admin config =>
    obtain ⟨_, _, rfl⟩ := updateConfig_eq_ok.mp h
    exact ⟨rfl, rfl, rfl, rfl, rfl, rfl, rfl⟩
  | pause admin =>
    obtain ⟨_, _, rfl⟩ := pause_eq_ok.mp h
    exact ⟨rfl, rfl, rfl, rfl, rfl, rfl, rfl⟩
  | unpause admin =>
    obtain ⟨_, _, rfl⟩ := unpause_eq_ok.mp h
    exact ⟨rfl, rfl, rfl, rfl, rfl, rfl, rfl⟩
  | createProposal proposer action =>
    obtain ⟨⟨id, w₁⟩, hc, rfl⟩ := map_eq_ok.mp h
    exact absurd hp (createProposal_eq_ok.mp hc).1
  | approveProposal approver id => exact absurd hp (approveProposal_eq_ok.mp h).1
  | executeProposal executor id =>
    obtain ⟨p, hexec, _⟩ := executeProposal_eq_ok.mp h
    exact absurd hp hexec.running
  | proposeAdminTransfer admin newAdmin => exact absurd hp (proposeAdminTransfer_eq_ok.mp h).1
  | acceptAdminTransfer newAdmin => exact absurd hp (acceptAdminTransfer_eq_ok.mp h).1
  | migrateRolesV2 admin => exact absurd rfl (hmigrate admin)
  | cancelAdminTransfer admin => exact absurd rfl (hcancel admin)

theorem sameAccess_cancel_iff :
    SameAccess w (step exec w (.invoke env (.cancelAdminTransfer admin))) ↔
      (admin ∈ env.signers → w.store.admin = some admin → w.store.pendingAdmin = none) := by
  rw [step_invoke_keeps_iff (SameAccess w) (SameAccess.refl w)]
  constructor
  · intro h hs hadmin
    by_contra hpending
    have hsame := h _ (cancelAdminTransfer_eq_ok.mpr ⟨hs, hadmin, hpending, rfl⟩)
    exact hpending hsame.pendingAdmin.symm
  · intro h w' hcall
    obtain ⟨hs, hadmin, hpending, _⟩ := cancelAdminTransfer_eq_ok.mp hcall
    exact absurd (h hs hadmin) hpending

theorem sameAccess_migrate_iff :
    SameAccess w (step exec w (.invoke env (.migrateRolesV2 admin))) ↔
      (admin ∈ env.signers → w.store.admin = some admin → 2 ≤ getStorageVersion w) := by
  rw [step_invoke_keeps_iff (SameAccess w) (SameAccess.refl w)]
  constructor
  · intro h hs hadmin
    by_contra hversion
    have hsame := h _ (migrateRolesV2_eq_ok.mpr ⟨hs, hadmin, rfl⟩)
    rw [if_neg hversion] at hsame
    -- the version that is written is the old one, and not below itself
    have htwo : some 2 = w.store.storageVersion := hsame.storageVersion
    rw [getStorageVersion, ← htwo] at hversion
    exact hversion le_rfl
  · intro h w' hcall
    obtain ⟨hs, hadmin, rfl⟩ := migrateRolesV2_eq_ok.mp hcall
    rw [if_pos (h hs hadmin)]
    exact SameAccess.refl w

theorem frozen_iff_halted {a : Action C (Call Address)} (hr : Routine a) :
    Frozen w a ↔ Halted w a := by
  cases a with
  | tick => exact Iff.rfl
  | external => exact Iff.rfl
  | invoke env call =>
    cases call with
    | cancelAdminTransfer admin =>
      refine imp_congr_right fun _ => ?_
      rw [← sameAccess_cancel_iff]
      exact ⟨fun h => h id, fun h _ => h⟩
    | migrateRolesV2 admin =>
      refine imp_congr_right fun _ => ?_
      rw [← sameAccess_migrate_iff]
      exact ⟨fun h => h id, fun h _ => h⟩
    | _ =>
      refine iff_of_true (fun hp _ => ?_) trivial
      rw [step_invoke_keeps_iff (SameAccess w) (SameAccess.refl w)]
      intro w' hcall
      exact sameAccess_of_paused hp hr (fun _ h => nomatch h) (fun _ h => nomatch h) hcall

/-- Along a run after one setup the pause freezes the access control exactly when no transfer is
cancelled and no roles are migrated while it lasts. -/
theorem access_frozen_iff (d : Deployment C) (as : List (Action C (Call Address)))
    (hr : ∀ a ∈ as, Routine a) :
    Guarded (step exec) Frozen d.start as ↔ Guarded (step exec) Halted d.start as := by
  have hroutine : Guarded (step exec) (fun _ a => Routine a) d.start as :=
    guarded_of_forall_mem (step exec) hr
  rw [guarded_iff_steps] at hroutine
  simp only [guarded_iff_steps]
  constructor
  · intro h pre a post heq
    exact (frozen_iff_halted (hroutine pre a post heq)).mp (h pre a post heq)
  · intro h pre a post heq
    exact (frozen_iff_halted (hroutine pre a post heq)).mpr (h pre a post heq)

/-- A transfer is pending when the admin pauses the contract. -/
def pausedTransfer : List (Action numberedChain (Call ℕ)) :=
  [.invoke (signedBy 0) (.proposeAdminTransfer 1 5), .invoke (signedBy 0) (.pause 1)]

theorem routine_pausedTransfer {env : Env numberedChain} {call : Call ℕ} (h : ¬call.SetsUp) :
    ∀ a ∈ pausedTransfer ++ [.invoke env call], Routine a := by
  intro a ha
  simp only [pausedTransfer, List.mem_append, List.mem_cons, List.not_mem_nil, or_false] at ha
  rcases ha with (rfl | rfl) | rfl
  · simp [Routine, Call.SetsUp]
  · simp [Routine, Call.SetsUp]
  · exact h

theorem access_frozen_iff_pausedTransfer :
    Guarded (step exec) Frozen smallDeployment.start
      (pausedTransfer ++ [.invoke (signedBy 4) (.acceptAdminTransfer 5)]) :=
  (access_frozen_iff smallDeployment _ (routine_pausedTransfer (by simp [Call.SetsUp]))).mpr
    ⟨trivial, trivial, trivial, trivial⟩

/-- The cancellation goes through in the pause. -/
theorem access_not_frozen :
    (∀ a ∈ pausedTransfer ++ [.invoke (signedBy 0) (.cancelAdminTransfer 1)], Routine a) ∧
      ¬Guarded (step exec) Frozen smallDeployment.start
        (pausedTransfer ++ [.invoke (signedBy 0) (.cancelAdminTransfer 1)]) := by
  refine ⟨routine_pausedTransfer (by simp [Call.SetsUp]), fun h => ?_⟩
  have hlast := (guarded_iff_steps (step exec) _ _ _).mp h pausedTransfer
    (.invoke (signedBy 0) (.cancelAdminTransfer 1)) [] rfl
  have hsame := (hlast (by decide) id).pendingAdmin
  revert hsame
  decide

end HubAssist.Access
