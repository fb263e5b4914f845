import HubAssist.AccessTransfer
import HubAssist.AccessQuorum

/-! The admin stands in the storage twice, as the admin and with a role on record: what a
replaced admin can still do. Neither route that replaces the admin takes the old one's role. -/
namespace HubAssist.Access
open SorobanHost RunSystem CheckedArith

variable {Address : Type} [DecidableEq Address] {C : Chain Address}
variable {env : Env C} {w w' : AccessWorld C} {call : Call Address}
variable {u : Address} {d : Deployment C} {a : Action C (Call Address)}
variable {as : List (Action C (Call Address))}

/-- The step is an accepted call that gives `u` the role of an admin, by the admin or by a
proposal. -/
def GivesAdminRole (u : Address) (w : AccessWorld C) : Action C (Call Address) → Prop
  | .invoke env (.setRole admin user role) => user = u ∧ role = .admin ∧
    ∃ w', exec env (.setRole admin user role) w = .ok w'
  | .invoke env (.executeProposal executor id) =>
    ∃ p, p.action = .setRole u .admin ∧ Executable env w executor id p
  | _ => False

/-- `u` has been given the role in the run `as`, and has not been the admin from then on. -/
def RegrantedSince (d : Deployment C) (as : List (Action C (Call Address))) (u : Address) : Prop :=
  ∃ pre a post, as = pre ++ a :: post ∧ GivesAdminRole u (run exec d.start pre) a ∧
    Always (step exec) (fun w => w.store.admin ≠ some u) (run exec d.start pre) (a :: post)

/-- After the run `as` whoever has been admin and is not any more has no access as admin, unless
it has been given the role since. -/
def RightsLost (d : Deployment C) (as : List (Action C (Call Address))) : Prop :=
  ∀ u, Occurred (step exec) (fun w _ => w.store.admin = some u) d.start as →
    (run exec d.start as).store.admin ≠ some u → checkAccess (run exec d.start as) u .admin →
      RegrantedSince d as u

def ReplacedLoseRights (d : Deployment C) (as : List (Action C (Call Address))) : Prop :=
  ∀ pre post, as = pre ++ post → RightsLost d pre

/-- What `acceptAdminTransfer` tests. -/
structure Acceptable (env : Env C) (w : AccessWorld C) (newAdmin : Address) (since : ℕ) : Prop where
  running : ¬Paused w
  signed : newAdmin ∈ env.signers
  pending : w.store.pendingAdmin = some ⟨newAdmin, since⟩
  fits : since+adminTransferLock < u64Bound
  unlocked : since+adminTransferLock ≤ w.now

/-- An admin that the step replaces by another address has no role of an admin on record. -/
def Demoted (w : AccessWorld C) : Action C (Call Address) → Prop
  | .invoke env (.acceptAdminTransfer newAdmin) => ∀ since old, Acceptable env w newAdmin since →
    w.store.admin = some old → old ≠ newAdmin → ¬checkAccess w old .admin
  | .invoke env (.executeProposal executor id) => ∀ p newAdmin old,
    Executable env w executor id p → p.action = .setAdmin newAdmin → w.store.admin = some old →
      old ≠ newAdmin → ¬checkAccess w old .admin
  | _ => True

/-- The step takes the place of the admin from `u`. -/
def Replaces (u : Address) (w : AccessWorld C) (a : Action C (Call Address)) : Prop :=
  w.store.admin = some u ∧ (step exec w a).store.admin ≠ some u

theorem acceptAdminTransfer_of_acceptable {newAdmin : Address} {since : ℕ}
    (h : Acceptable env w newAdmin since) :
    exec env (.acceptAdminTransfer newAdmin) w = .ok (w.setStore { w.store with
      admin := some newAdmin
      role := grantRole w.store.role newAdmin .admin w.now
      pendingAdmin := none }) :=
  acceptAdminTransfer_eq_ok.mpr ⟨h.running, h.signed, since, h.pending, h.fits, h.unlocked, rfl⟩

theorem checkAccess_congr {role : UserRole} (h : w'.store.role u = w.store.role u) :
    checkAccess w' u role ↔ checkAccess w u role := by
  rw [checkAccess, checkAccess, currentRole, currentRole, h]

theorem currentRole_of_some {info : MembershipInfo Address} (h : w.store.role u = some info) :
    currentRole w u = info.role := by
  rw [currentRole, h]

theorem currentRole_of_none (h : w.store.role u = none) : currentRole w u = .guest := by
  rw [currentRole, h]

theorem eq_admin_of_rank_le {role : UserRole} (h : UserRole.admin.rank ≤ role.rank) :
    role = .admin := by
  cases role with
  | admin => rfl
  | _ => exact absurd h (by decide)

/-- Whoever has access as admin after an action, and is not the admin, had it before or has been
given the role by the action. -/
theorem access_before_action (w : AccessWorld C) (now : ℕ) (action : ProposalAction Address)
    (hnot : w'.store.admin ≠ some u) (hafter : checkAccess w' u .admin)
    (hrole : w'.store.role = (applyAction w.store now action).role)
    (hadmin : w'.store.admin = (applyAction w.store now action).admin) :
    checkAccess w u .admin ∨ action = .setRole u .admin := by
  have hsame (h : w'.store.role u = w.store.role u) : checkAccess w u .admin :=
    (checkAccess_congr h).mp hafter
  cases action with
  | setRole user role =>
    by_cases huser : u = user
    · subst huser
      have hu : w'.store.role u = some ⟨u, role, now⟩ := by
        rw [hrole]
        exact Function.update_self u _ _
      rw [checkAccess, currentRole_of_some hu] at hafter
      have hadminRole : role = .admin := eq_admin_of_rank_le hafter
      rw [hadminRole]
      exact Or.inr rfl
    · refine Or.inl (hsame ?_)
      rw [hrole]
      exact Function.update_of_ne huser _ _
  | removeRole user =>
    by_cases huser : u = user
    · -- without a record `u` is a guest
      subst huser
      have hu : w'.store.role u = none := by
        rw [hrole]
        exact Function.update_self u _ _
      rw [checkAccess, currentRole_of_none hu] at hafter
      exact absurd hafter (by decide)
    · refine Or.inl (hsame ?_)
      rw [hrole]
      exact Function.update_of_ne huser _ _
  | setAdmin newAdmin =>
    -- the role of the new admin is the only one that is written
    have huser : u ≠ newAdmin := by
      rintro rfl
      exact hnot hadmin
    refine Or.inl (hsame ?_)
    rw [hrole]
    exact Function.update_of_ne huser _ _
  | scheduleUpgrade hash =>
    refine Or.inl (hsame ?_)
    rw [hrole]
    rfl

theorem access_before_call (h : exec env call w = .ok w') (hsetup : ¬call.SetsUp)
    (hnot : w'.store.admin ≠ some u) (hafter : checkAccess w' u .admin) :
    checkAccess w u .admin ∨ GivesAdminRole u w (.invoke env call) := by
  cases call with
  | initializeContract admin multisig => exact absurd ⟨admin, multisig, rfl⟩ hsetup
  | setRole admin user role =>
    have hcall := h
    obtain ⟨_, _, _, rfl⟩ := setRole_eq_ok.mp h
    rcases access_before_action w w.now (.setRole user role) hnot hafter rfl rfl
      with hold | hnew
    · exact Or.inl hold
    · obtain ⟨rfl, rfl⟩ := ProposalAction.setRole.inj hnew
      exact Or.inr ⟨rfl, rfl, _, hcall⟩
  | removeRole admin user =>
    obtain ⟨_, _, _, _, rfl⟩ := removeRole_eq_ok.mp h
    rcases access_before_action w w.now (.removeRole user) hnot hafter rfl rfl
      with hold | hnew
    · exact Or.inl hold
    · exact nomatch hnew
  | executeProposal executor id =>
    obtain ⟨p, hexec, rfl⟩ := executeProposal_eq_ok.mp h
    rcases access_before_action w w.now p.action hnot hafter rfl rfl with hold | hnew
    · exact Or.inl hold
    · exact Or.inr ⟨p, hnew, hexec⟩
  | acceptAdminTransfer newAdmin =>
    obtain ⟨_, _, _, _, _, _, rfl⟩ := acceptAdminTransfer_eq_ok.mp h
    rcases access_before_action w w.now (.setAdmin newAdmin) hnot hafter rfl rfl
      with hold | hnew
    · exact Or.inl hold
    · exact nomatch hnew
  | updateConfig admin config =>
    obtain ⟨_, _, rfl⟩ := updateConfig_eq_ok.mp h
    exact Or.inl hafter
  | pause admin =>
    obtain ⟨_, _, rfl⟩ := pause_eq_ok.mp h
    exact Or.inl hafter
  | unpause admin =>
    obtain ⟨_, _, rfl⟩ := unpause_eq_ok.mp h
    exact Or.inl hafter
  | createProposal proposer action =>
    obtain ⟨⟨id, w₁⟩, hc, rfl⟩ := map_eq_ok.mp h
    obtain ⟨_, _, _, _, _, _, rfl⟩ := createProposal_eq_ok.mp hc
    exact Or.inl hafter
  | approveProposal approver id =>
    obtain ⟨_, _, _, _, _, _, rfl⟩ := approveProposal_eq_ok.mp h
    exact Or.inl hafter
  | migrateRolesV2 admin =>
    obtain ⟨_, _, rfl⟩ := migrateRolesV2_eq_ok.mp h
    split_ifs at hafter <;> exact Or.inl hafter
  | proposeAdminTransfer admin newAdmin =>
    obtain ⟨_, _, _, rfl⟩ := proposeAdminTransfer_eq_ok.mp h
    exact Or.inl hafter
  | cancelAdminTransfer admin =>
    obtain ⟨_, _, _, rfl⟩ := cancelAdminTransfer_eq_ok.mp h
    exact Or.inl hafter

/-- Whoever has access as admin after a step, and is not the admin, had it before or has been
given the role by the step. -/
theorem access_before (hr : Routine a) (hnot : (step exec w a).store.admin ≠ some u)
    (hafter : checkAccess (step exec w a) u .admin) :
    checkAccess w u .admin ∨ GivesAdminRole u w a := by
  cases a with
  | tick => exact Or.inl hafter
  | external token next =>
    refine Or.inl ((checkAccess_congr ?_).mp hafter)
    rw [step_external_store]
  | invoke env call =>
    cases hcall : exec env call w with
    | ok w' =>
      rw [step_invoke_ok hcall] at hnot hafter
      exact access_before_call hcall hr hnot hafter
    | error fault =>
      rw [step_invoke_error hcall] at hafter
      exact Or.inl hafter

/-- The two ways to make `newAdmin` the admin. -/
inductive Replacement (w : AccessWorld C) (newAdmin : Address) :
    Action C (Call Address) → Prop where
  | accepted (env : Env C) (since : ℕ) (h : Acceptable env w newAdmin since) :
      Replacement w newAdmin (.invoke env (.acceptAdminTransfer newAdmin))
  | voted (env : Env C) (executor : Address) (id : ℕ) (p : PendingProposal Address)
      (h : Executable env w executor id p) (haction : p.action = .setAdmin newAdmin) :
      Replacement w newAdmin (.invoke env (.executeProposal executor id))

/-- Either way only the admin and the role of the new one change. -/
theorem Replacement.step_eq {newAdmin : Address} (h : Replacement w newAdmin a) :
    (step exec w a).store.admin = some newAdmin ∧
      (step exec w a).store.role = grantRole w.store.role newAdmin .admin w.now := by
  cases h with
  | accepted env since h =>
    rw [step_invoke_ok (acceptAdminTransfer_of_acceptable h)]
    exact ⟨rfl, rfl⟩
  | voted env executor id p h haction =>
    have hok : exec env (.executeProposal executor id) w = .ok _ :=
      executeProposal_eq_ok.mpr ⟨p, h, rfl⟩
    rw [step_invoke_ok hok, haction]
    exact ⟨rfl, rfl⟩

theorem Replaces.replacement (h : Replaces u w a) (hr : Routine a) :
    ∃ newAdmin, u ≠ newAdmin ∧ Replacement w newAdmin a := by
  obtain ⟨hu, hreplaced⟩ := h
  have hsame (heq : (step exec w a).store.admin = w.store.admin) :
      ∃ newAdmin, u ≠ newAdmin ∧ Replacement w newAdmin a :=
    absurd (heq.trans hu) hreplaced
  cases a with
  | tick => exact hsame rfl
  | external token next =>
    apply hsame
    rw [step_external_store]
  | invoke env call =>
    cases hcall : exec env call w with
    | error fault =>
      apply hsame
      rw [step_invoke_error hcall]
    | ok w' =>
      rw [step_invoke_ok hcall] at hsame hreplaced
      cases call with
      | initializeContract admin multisig => exact absurd ⟨admin, multisig, rfl⟩ hr
      | executeProposal executor id =>
        obtain ⟨p, hexec, rfl⟩ := executeProposal_eq_ok.mp hcall
        rcases applyAction_admin w.store w.now p.action with ⟨newAdmin, haction, hnew⟩ | hkept
        · refine ⟨newAdmin, ?_, .voted env executor id p hexec haction⟩
          rintro rfl
          exact hreplaced hnew
        · exact hsame hkept
      | acceptAdminTransfer newAdmin =>
        obtain ⟨hp, hs, since, hpending, hfits, hnow, rfl⟩ := acceptAdminTransfer_eq_ok.mp hcall
        refine ⟨newAdmin, ?_, .accepted env since ⟨hp, hs, hpending, hfits, hnow⟩⟩
        rintro rfl
        exact hreplaced rfl
      | _ => cases exec_effect hcall <;> exact hsame rfl

/-- The guard looks at all replacements alike. -/
theorem demoted_iff : Demoted w a ↔ ∀ newAdmin old, Replacement w newAdmin a →
    w.store.admin = some old → old ≠ newAdmin → ¬checkAccess w old .admin := by
  constructor
  · rintro h newAdmin old (⟨env, since, hacceptable⟩ | ⟨env, executor, id, p, hexec, haction⟩)
    · exact h since old hacceptable
    · exact h p newAdmin old hexec haction
  · intro h
    cases a with
    | invoke env call =>
      cases call with
      | acceptAdminTransfer newAdmin =>
        intro since old hacceptable
        exact h newAdmin old (.accepted env since hacceptable)
      | executeProposal executor id =>
        intro p newAdmin old hexec haction
        exact h newAdmin old (.voted env executor id p hexec haction)
      | _ => trivial
    | _ => trivial

/-- Giving somebody a role changes no admin. -/
theorem GivesAdminRole.admin_eq (h : GivesAdminRole u w a) :
    (step exec w a).store.admin = w.store.admin := by
  cases a with
  | tick => exact False.elim h
  | external => exact False.elim h
  | invoke env call =>
    cases call with
    | setRole admin user role =>
      obtain ⟨_, _, w', hok⟩ := h
      rw [step_invoke_ok hok]
      obtain ⟨_, _, _, rfl⟩ := setRole_eq_ok.mp hok
      rfl
    | executeProposal executor id =>
      obtain ⟨p, haction, hexec⟩ := h
      have hok : exec env (.executeProposal executor id) w = .ok _ :=
        executeProposal_eq_ok.mpr ⟨p, hexec, rfl⟩
      rw [step_invoke_ok hok, haction]
      rfl
    | _ => exact False.elim h

theorem RightsLost.step (h : RightsLost d as) (hr : Routine a)
    (hdemoted : Demoted (run exec d.start as) a) : RightsLost d (as ++ [a]) := by
  intro u hwas hnot haccess
  rw [SorobanHost.run, run_concat] at hnot haccess
  have hold := access_before hr hnot haccess
  by_cases hu : (run exec d.start as).store.admin = some u
  · -- `u` is replaced by this very step, in which nobody is given a role
    have hreplaces : Replaces u (run exec d.start as) a := ⟨hu, hnot⟩
    obtain ⟨newAdmin, hne, hreplacement⟩ := hreplaces.replacement hr
    have hlost := demoted_iff.mp hdemoted newAdmin u hreplacement hu hne
    rcases hold with hbefore | hgives
    · exact absurd hbefore hlost
    · exact absurd (hgives.admin_eq.trans hu) hnot
  · rcases hold with hbefore | hgives
    · rcases (occurred_concat (SorobanHost.step exec)).mp hwas with hearlier | hnow
      · obtain ⟨pre, b, post, rfl, hgives, halways⟩ := h u hearlier hu hbefore
        refine ⟨pre, b, post ++ [a], by simp, hgives, ?_⟩
        rw [← List.cons_append, always_concat]
        refine ⟨halways, ?_⟩
        have hrun : RunSystem.run (SorobanHost.step exec) (run exec d.start pre)
            (b :: post ++ [a]) = SorobanHost.step exec (run exec d.start (pre ++ b :: post)) a := by
          rw [run_concat, ← run_append]
        rwa [hrun]
      · exact absurd hnow hu
    · exact ⟨as, a, [], rfl, hgives, hu, hnot⟩

theorem RightsLost.demoted (h : RightsLost d (as ++ [a])) : Demoted (run exec d.start as) a := by
  rw [demoted_iff]
  intro newAdmin old hreplacement hold hne haccess
  obtain ⟨hadmin, hrole⟩ := hreplacement.step_eq
  have hwas : Occurred (SorobanHost.step exec) (fun w _ => w.store.admin = some old) d.start
      (as ++ [a]) := occurred_last (SorobanHost.step exec) hold
  have hnot : (run exec d.start (as ++ [a])).store.admin ≠ some old := by
    rw [SorobanHost.run, run_concat, hadmin]
    exact fun heq => hne (Option.some.inj heq).symm
  have hafter : checkAccess (run exec d.start (as ++ [a])) old .admin := by
    rw [SorobanHost.run, run_concat, checkAccess_congr]
    · exact haccess
    · rw [hrole]
      exact Function.update_of_ne hne _ _
  -- the role would have been given after this step, which is the last one
  obtain ⟨pre, b, post, heq, _, halways⟩ := h old hwas hnot hafter
  obtain ⟨mid, rfl, hmid⟩ := split_concat heq
  rw [hmid, always_append] at halways
  have hlast := halways.2.1
  rw [← run_append] at hlast
  exact hlast hold

/-- Along a run after one setup every replaced admin loses its rights exactly when none that is
replaced has a role of an admin on record at that moment. -/
theorem replaced_lose_rights_iff (d : Deployment C) (as : List (Action C (Call Address)))
    (hr : ∀ a ∈ as, Routine a) :
    ReplacedLoseRights d as ↔ Guarded (step exec) Demoted d.start as := by
  constructor
  · intro h
    rw [guarded_iff_steps]
    rintro pre a post rfl
    have hlost := h (pre ++ [a]) post (by rw [List.append_assoc, List.singleton_append])
    exact hlost.demoted
  · rintro hdemoted pre post rfl
    have hpre := ((guarded_append (step exec) Demoted d.start pre post).mp hdemoted).1
    have hroutine : Guarded (step exec) (fun _ a => Routine a) d.start pre :=
      guarded_of_forall_mem (step exec) fun a ha => hr a (List.mem_append_left _ ha)
    have hstart : RightsLost d [] := fun u hwas => absurd hwas (not_occurred_nil (step exec))
    exact guarded_history_invariant (I := fun _ as => RightsLost d as) (step exec) hstart
      (fun as a h ha => h.step ha.1 ha.2) (guarded_and (step exec) hroutine hpre)

/-- Admin 1 gives up its own role before it hands over to 5. -/
def steppedDown : List (Action numberedChain (Call ℕ)) :=
  [.invoke (signedBy 0) (.proposeAdminTransfer 1 5), .invoke (signedBy 0) (.setRole 1 1 .member),
   .tick 172800, .invoke (signedBy 4) (.acceptAdminTransfer 5)]

theorem replaced_lose_rights_steppedDown :
    (run exec smallDeployment.start steppedDown).store.admin = some 5 ∧
      ReplacedLoseRights smallDeployment steppedDown := by
  refine ⟨by decide, (replaced_lose_rights_iff smallDeployment steppedDown ?_).mpr
    ⟨trivial, trivial, trivial, ?_, trivial⟩⟩
  · intro a ha
    simp only [steppedDown, List.mem_cons, List.not_mem_nil, or_false] at ha
    rcases ha with rfl | rfl | rfl | rfl <;> simp [Routine, Call.SetsUp]
  · intro since old _ hold _
    obtain rfl := Option.some.inj hold
    decide

/-- After the plain handover of two days account 1 still passes for an admin. -/
theorem replaced_keeps_rights :
    (∀ a ∈ handover, Routine a) ∧ ¬ReplacedLoseRights smallDeployment handover := by
  refine ⟨routine_handover, fun h => ?_⟩
  have hwas : Occurred (step exec) (fun w _ => w.store.admin = some 1) smallDeployment.start
      handover := ⟨[], _, _, rfl, rfl⟩
  obtain ⟨pre, a, post, heq, hgives, _⟩ :=
    h handover [] (List.append_nil _).symm 1 hwas (by decide) (by decide)
  -- no call of the run gives anybody a role
  have hmem : a ∈ handover := by
    rw [heq]
    exact List.mem_append_right _ List.mem_cons_self
  simp only [handover, List.mem_cons, List.not_mem_nil, or_false] at hmem
  rcases hmem with rfl | rfl | rfl <;> exact hgives

end HubAssist.Access
