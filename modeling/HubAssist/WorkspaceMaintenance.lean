import HubAssist.WorkspaceRecords

/-! Scheduled maintenance. A workspace that is to return at some time can be opened before it
only by way of the state `unavailable`, which does not keep that time. -/
namespace HubAssist.WorkspaceBooking
open SorobanHost RunSystem StorageMap

variable {Address : Type} [DecidableEq Address] {C : Chain Address}
variable {env : Env C} {w w' : BookingWorld C} {call : Call Address}

def StateIs (w : BookingWorld C) (id : ℕ) (state : WorkspaceState) : Prop :=
  ∃ workspace, w.store.workspace id = some workspace ∧ workspace.state = state

/-- The step books the workspace. -/
def Books (id : ℕ) (w : BookingWorld C) (a : Action C (Call Address)) : Prop :=
  ∃ env member startTime endTime amount hash w',
    a = .invoke env (.book member id startTime endTime amount hash) ∧
      exec env (.book member id startTime endTime amount hash) w = .ok w'

/-- The step is the admin's, and opens the workspace while it is `unavailable`. -/
def Reopens (id : ℕ) (w : BookingWorld C) (a : Action C (Call Address)) : Prop :=
  ∃ env admin reason, a = .invoke env (.transitionWorkspaceState admin id .available) ∧
    (w.store.admin = some admin ∧ admin ∈ env.signers) ∧ StateIs w id (.unavailable reason)

/-- Once a workspace is in maintenance until `r`, it is not available before `r`, nor booked. -/
def MaintenanceKept (w : BookingWorld C) (as : List (Action C (Call Address))) : Prop :=
  ∀ pre post id r, as = pre ++ post → StateIs (SorobanHost.run exec w pre) id (.maintenance r) →
    Always (step exec) (fun v => v.now < r → ¬StateIs v id .available)
        (SorobanHost.run exec w pre) post ∧
      Guarded (step exec) (fun v a => Books id v a → r ≤ v.now) (SorobanHost.run exec w pre) post

/-- While the time has not come, the workspace is in maintenance or `unavailable`. -/
def Away (id r : ℕ) (w : BookingWorld C) : Prop :=
  w.now < r → StateIs w id (.maintenance r) ∨ ∃ reason, StateIs w id (.unavailable reason)

theorem StateIs.unique {id : ℕ} {state state' : WorkspaceState} (h : StateIs w id state)
    (h' : StateIs w id state') : state = state' := by
  obtain ⟨workspace, hstored, rfl⟩ := h
  obtain ⟨workspace', hstored', rfl⟩ := h'
  rw [Option.some.inj (hstored.symm.trans hstored')]

theorem Away.not_available {id r : ℕ} (h : Away id r w) (hnow : w.now < r) :
    ¬StateIs w id .available := by
  intro havailable
  rcases h hnow with hstate | ⟨reason, hstate⟩
  · exact absurd (hstate.unique havailable) (by simp)
  · exact absurd (hstate.unique havailable) (by simp)

theorem Reopens.opens {id : ℕ} {a : Action C (Call Address)} (h : Reopens id w a) :
    StateIs (step exec w a) id .available ∧ (step exec w a).now = w.now := by
  obtain ⟨env, admin, reason, rfl, hadmin, workspace, hstored, hstate⟩ := h
  have hcall : exec env (.transitionWorkspaceState admin id .available) w =
      .ok (setWorkspace w id { workspace with state := .available }) :=
    transitionWorkspaceState_eq_ok.mpr ⟨hadmin, workspace, hstored, true, by rw [hstate]; rfl, rfl⟩
  rw [step_invoke_ok hcall]
  exact ⟨⟨{ workspace with state := .available }, by simp [setWorkspace], rfl⟩, rfl⟩

/-- Only an accepted transition of the workspace itself changes its state. -/
theorem StateIs.edits {id : ℕ} {state : WorkspaceState} (h : StateIs w id state)
    (hedits : Edits w w' call) (hw : Numbered w.store) :
    StateIs w' id state ∨ ∃ admin newState, call = .transitionWorkspaceState admin id newState ∧
      allowedTransition w.now state newState = .ok true ∧ StateIs w' id newState := by
  obtain ⟨workspace, hstored, rfl⟩ := h
  cases hedits with
  | nothing _ hworkspace _ => exact Or.inl ⟨workspace, hworkspace ▸ hstored, rfl⟩
  | registers _ _ _ _ _ k hk hworkspace _ =>
    -- the new workspace has a number of its own
    have hne : id ≠ k := by
      have hle := (hw id workspace hstored).2.2
      omega
    exact Or.inl ⟨workspace, by rw [hworkspace, Function.update_of_ne hne, hstored], rfl⟩
  | updates _ k availability workspace' hstored' hset =>
    subst hset
    by_cases hid : id = k
    · subst hid
      obtain rfl := Option.some.inj (hstored.symm.trans hstored')
      exact Or.inl ⟨{ workspace with availability := availability }, by simp [setWorkspace], rfl⟩
    · exact Or.inl ⟨workspace, by simp [setWorkspace, hid, hstored], rfl⟩
  | transitions admin k newState workspace' hstored' hallowed hset =>
    subst hset
    by_cases hid : id = k
    · subst hid
      obtain rfl := Option.some.inj (hstored.symm.trans hstored')
      exact Or.inr ⟨admin, newState, rfl, hallowed,
        { workspace with state := newState }, by simp [setWorkspace], rfl⟩
    · exact Or.inl ⟨workspace, by simp [setWorkspace, hid, hstored], rfl⟩

/-- From maintenance a workspace goes to `unavailable`, or opens when the time has come. -/
theorem allowed_of_maintenance {now r : ℕ} {newState : WorkspaceState}
    (h : allowedTransition now (.maintenance r) newState = .ok true) :
    (∃ reason, newState = .unavailable reason) ∨ newState = .available ∧ r ≤ now := by
  cases newState with
  | available =>
    simp only [allowedTransition, bind_eq_ok, failIf_eq_ok, not_lt, exists_const] at h
    exact Or.inr ⟨rfl, h.1⟩
  | unavailable reason => exact Or.inl ⟨reason, rfl⟩
  | maintenance r' => simp only [allowedTransition, bind_eq_ok, pure_eq_ok, reduceCtorEq, and_false,
      exists_const] at h

theorem allowed_of_unavailable {now : ℕ} {reason : String} {newState : WorkspaceState}
    (h : allowedTransition now (.unavailable reason) newState = .ok true) :
    newState = .available := by
  cases newState with
  | available => rfl
  | unavailable reason' =>
    simp only [allowedTransition, bind_eq_ok, pure_eq_ok, reduceCtorEq, and_false,
      exists_const] at h
  | maintenance r => simp only [allowedTransition, bind_eq_ok, pure_eq_ok, reduceCtorEq, and_false,
      exists_const] at h

theorem away_step {id r : ℕ} (hw : Numbered w.store) (h : Away id r w) (a : Action C (Call Address))
    (hclosed : w.now < r → ¬Reopens id w a) : Away id r (step exec w a) := by
  cases a with
  | tick d => exact fun hnow => h (lt_of_le_of_lt (Nat.le_add_right _ d) hnow)
  | external token next => exact step_external_keeps (fun v => Away id r v) h h
  | invoke env call =>
    cases hcall : exec env call w with
    | error fault => rwa [step_invoke_error hcall]
    | ok w' =>
      rw [step_invoke_ok hcall]
      intro hnow
      obtain ⟨hedits, _, htime, _⟩ := exec_cases hcall
      rw [htime] at hnow
      rcases h hnow with hstate | ⟨reason, hstate⟩
      -- to open it out of maintenance the time must have come
      · rcases hstate.edits hedits hw with hsame | ⟨_, newState, _, hallowed, hnew⟩
        · exact Or.inl hsame
        · rcases allowed_of_maintenance hallowed with ⟨reason, rfl⟩ | ⟨_, hr⟩
          · exact Or.inr ⟨reason, hnew⟩
          · omega
      -- to open it out of `unavailable` is what the guard excludes
      · rcases hstate.edits hedits hw with hsame | ⟨admin, newState, rfl, hallowed, _⟩
        · exact Or.inr ⟨reason, hsame⟩
        · obtain rfl := allowed_of_unavailable hallowed
          have hadmin := (transitionWorkspaceState_eq_ok.mp hcall).1
          exact absurd ⟨env, admin, reason, rfl, hadmin, hstate⟩ (hclosed hnow)

/-- From maintenance on, a workspace is not available before its time exactly when it is not
opened from `unavailable` before that time. -/
theorem not_available_iff {id r : ℕ} (hw : Numbered w.store) (h : Away id r w)
    (as : List (Action C (Call Address))) :
    Always (step exec) (fun v => v.now < r → ¬StateIs v id .available) w as ↔
      Guarded (step exec) (fun v a => v.now < r → ¬Reopens id v a) w as := by
  refine always_iff_guarded_of_kept (J := fun v : BookingWorld C => Numbered v.store ∧ Away id r v)
    (step exec) (fun v hv => hv.2.not_available) ?_ ?_ ⟨hw, h⟩
  · intro v a hv hclosed
    exact ⟨numbered_step hv.1 a, away_step hv.1 hv.2 a hclosed⟩
  · intro v a _ hnot hnow hopens
    obtain ⟨havailable, htime⟩ := hopens.opens
    exact hnot (htime.symm ▸ hnow) havailable

theorem maintenance_kept_iff (d : Deployment C) (as : List (Action C (Call Address))) :
    MaintenanceKept d.start as ↔ ∀ pre post id r, as = pre ++ post →
      StateIs (SorobanHost.run exec d.start pre) id (.maintenance r) →
        Guarded (step exec) (fun v a => v.now < r → ¬Reopens id v a)
          (SorobanHost.run exec d.start pre) post := by
  have haway (pre : List (Action C (Call Address))) (id r : ℕ)
      (h : StateIs (SorobanHost.run exec d.start pre) id (.maintenance r)) :
      Away id r (SorobanHost.run exec d.start pre) := fun _ => Or.inl h
  constructor
  · intro h pre post id r has hstate
    rw [← not_available_iff (numbered_run d pre) (haway pre id r hstate)]
    exact (h pre post id r has hstate).1
  · intro h pre post id r has hstate
    have hclosed := (not_available_iff (numbered_run d pre) (haway pre id r hstate) post).mpr
      (h pre post id r has hstate)
    refine ⟨hclosed, ?_⟩
    -- what is booked is available, so its time has come
    refine guarded_of_invariant (step exec) (J := fun _ : BookingWorld C => True)
      (fun _ _ _ => trivial) ?_ trivial (hclosed.guarded (step exec))
    rintro v a _ hnot ⟨env, member, startTime, endTime, amount, hash, w', rfl, hcall⟩
    by_contra hnow
    obtain ⟨⟨k, w₁⟩, hb, rfl⟩ := map_eq_ok.mp hcall
    obtain ⟨workspace, hstored, hstate, _⟩ := book_open hb
    exact hnot (not_le.mp hnow) ⟨workspace, hstored, hstate⟩

/-- A workspace goes into maintenance until 100, and is opened and booked at once. -/
def cutShort : List (Action numberedChain (Call ℕ)) :=
  [.invoke (signedBy 0) (.registerWorkspace 1 "desk" 1 1 3),
   .invoke (signedBy 0) (.transitionWorkspaceState 1 1 (.maintenance 100)),
   .invoke (signedBy 0) (.transitionWorkspaceState 1 1 (.unavailable "cleaning")),
   .invoke (signedBy 0) (.transitionWorkspaceState 1 1 .available),
   .invoke (signedBy 1) (.book 2 1 200 3800 3 0)]

theorem maintenance_cutShort : ¬MaintenanceKept smallDeployment.start cutShort := by
  intro h
  have hkept := (h (cutShort.take 2) (cutShort.drop 2) 1 100 (by simp)
    ⟨⟨1, "desk", 1, 1, 3, .available, .maintenance 100⟩, by decide, rfl⟩).1
  have hend := (always_iff_prefixes (step exec) _ _ _).mp hkept (cutShort.drop 2) [] (by simp)
  exact hend (by decide) ⟨⟨1, "desk", 1, 1, 3, .available, .available⟩, by decide, rfl⟩

end HubAssist.WorkspaceBooking
