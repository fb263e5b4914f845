import HubAssist.WorkspacePayment

/-! The list of workspaces against what `book` takes. The list looks at the availability of a
workspace only, and `book` at its state as well. -/
namespace HubAssist.WorkspaceBooking
open Checks SorobanHost CheckedArith RunSystem StorageMap

variable {Address : Type}

/-- Some time late enough is free. -/
theorem exists_free (s : Storage Address) (ids : List ℕ) :
    ∃ startTime, ∀ endTime, overlapsAny s ids startTime endTime = false := by
  induction ids with
  | nil => exact ⟨0, fun _ => rfl⟩
  | cons id ids ih =>
    obtain ⟨startTime, hfree⟩ := ih
    have hlater (later : ℕ) (hle : startTime ≤ later)
        (hid : ∀ b, s.booking id = some b → b.endTime ≤ later) (endTime : ℕ) :
        overlapsAny s (id :: ids) later endTime = false := by
      rw [overlapsAny_eq_false]
      intro k hk b hb hstatus
      rcases List.mem_cons.mp hk with rfl | hk
      · exact Or.inr (hid b hb)
      · have hbefore := overlapsAny_eq_false.mp (hfree endTime) k hk b hb hstatus
        omega
    cases hb : s.booking id with
    | none => exact ⟨startTime, hlater startTime le_rfl (by simp [hb])⟩
    | some b =>
      refine ⟨max startTime b.endTime, hlater _ (le_max_left _ _) ?_⟩
      intro b' hb'
      obtain rfl := Option.some.inj (hb.symm.trans hb')
      exact le_max_right _ _

variable [DecidableEq Address] {C : Chain Address}
variable {env : Env C} {w w' : BookingWorld C} {call : Call Address}

/-- A signed call of `book` for a time that is free, with enough money. -/
structure ValidRequest (env : Env C) (w : BookingWorld C) (workspace : Workspace)
    (member : Address) (workspaceId startTime endTime : ℕ) (amount : ℤ) : Prop where
  signed : member ∈ env.signers
  time : startTime < endTime
  free : overlapsAny w.store ((w.store.workspaceBookings workspaceId).getD []) startTime endTime =
    false
  paid : price workspace.pricePerHour startTime endTime ≤ amount

/-- The list is in the order of the numbers, without repetition, and of the registered workspaces
it has exactly those for which a valid request is not rejected as unavailable. -/
structure ListingAgrees (w : BookingWorld C) : Prop where
  ordered : ((listWorkspaces w).map Workspace.id).Pairwise (· < ·)
  registered : ∀ workspace ∈ listWorkspaces w, w.store.workspace workspace.id = some workspace
  bookable : ∀ id workspace, w.store.workspace id = some workspace →
    ∀ (env : Env C) member startTime endTime amount hash,
      ValidRequest env w workspace member id startTime endTime amount →
        (workspace ∈ listWorkspaces w ↔ book env member id startTime endTime amount hash w ≠
          .error (.error .workspaceUnavailable))

/-- No workspace has its availability say that it can be booked, and its state that it cannot. -/
def Consistent (w : BookingWorld C) : Prop :=
  ∀ id workspace, w.store.workspace id = some workspace → workspace.availability = .available →
    workspace.state = .available

/-- The step lets no workspace stay on the list when it leaves the state `available`, and puts none
on it that is in another state. -/
def KeepsInStep (w : BookingWorld C) : Action C (Call Address) → Prop
  | .invoke env (.transitionWorkspaceState admin id newState) =>
    w.store.admin = some admin ∧ admin ∈ env.signers → ∀ workspace,
      w.store.workspace id = some workspace → workspace.availability = .available →
        allowedTransition w.now workspace.state newState = .ok true → newState = .available
  | .invoke env (.updateWorkspaceAvailability caller id availability) =>
    w.store.admin = some caller ∧ caller ∈ env.signers → ∀ workspace,
      w.store.workspace id = some workspace → availability = .available →
        workspace.state = .available
  | _ => True

theorem mem_listWorkspaces (hw : Numbered w.store) {workspace : Workspace} :
    workspace ∈ listWorkspaces w ↔ w.store.workspace workspace.id = some workspace ∧
      workspace.availability = .available := by
  rw [listWorkspaces, List.mem_filter, List.mem_filterMap]
  constructor
  · rintro ⟨⟨id, _, hstored⟩, havailable⟩
    rw [(hw id workspace hstored).1]
    exact ⟨hstored, of_decide_eq_true havailable⟩
  · rintro ⟨hstored, havailable⟩
    obtain ⟨_, hpos, hle⟩ := hw workspace.id workspace hstored
    exact ⟨⟨workspace.id, by rw [List.mem_range'_1]; omega, hstored⟩, decide_eq_true havailable⟩

theorem listWorkspaces_ordered (hw : Numbered w.store) :
    ((listWorkspaces w).map Workspace.id).Pairwise (· < ·) := by
  rw [List.pairwise_map, listWorkspaces]
  -- the list goes through the numbers in order and leaves some out
  apply List.Pairwise.filter
  refine List.Pairwise.filterMap w.store.workspace ?_ (List.pairwise_lt_range' 1)
  intro i j hij v hv v' hv'
  rw [(hw i v hv).1, (hw j v' hv').1]
  exact hij

/-- A signed call for a registered workspace is turned away as unavailable by either field. -/
theorem workspaceUnavailable_iff {workspace : Workspace} {member : Address}
    {id startTime endTime : ℕ} {amount : ℤ} {hash : BitVec 256} (hpaused : ¬Paused w)
    (hsigned : member ∈ env.signers) (htime : startTime < endTime)
    (hstored : w.store.workspace id = some workspace) :
    book env member id startTime endTime amount hash w = .error (.error .workspaceUnavailable) ↔
      ¬(workspace.state = .available ∧ workspace.availability = .available) := by
  have hpassed : requireNotPaused w = .ok () := failIf_eq_ok.mpr hpaused
  have hfails : FailsWith (fun fault => fault = .error .workspaceUnavailable)
      (book env member id startTime endTime amount hash w) ↔
        ¬(workspace.state = .available ∧ workspace.availability = .available) := by
    -- no other test of `book` fails with this error
    simp only [book, hpassed, ok_bind, failsWith_bind, failsWith_requireAuth, failsWith_failIf,
      failsWith_getOr, getWorkspace, hstored, failsWith_checked, failsWith_pure, requireAuth_eq_ok,
      getOr_eq_ok, failIf_eq_ok, hsigned, not_le.mpr htime, Option.some.injEq, exists_eq_left',
      reduceCtorEq, Fault.error.injEq, and_false, or_false, false_or, exists_const,
      not_false_eq_true, true_and, and_true]
    by_cases hstate : workspace.state = .available
    · simp [hstate]
    · simp [hstate]
  refine Iff.trans ?_ hfails
  simp [FailsWith]

theorem exists_validRequest {member : Address} (hmember : member ≠ C.self) (w : BookingWorld C)
    (workspace : Workspace) (id : ℕ) :
    ∃ (env : Env C) (startTime endTime : ℕ) (amount : ℤ),
      ValidRequest env w workspace member id startTime endTime amount := by
  obtain ⟨startTime, hfree⟩ := exists_free w.store ((w.store.workspaceBookings id).getD [])
  exact ⟨Env.single member hmember, startTime, startTime+1,
    price workspace.pricePerHour startTime (startTime+1), by simp [Env.single], by omega,
    hfree (startTime+1), le_rfl⟩

theorem Consistent.listingAgrees (h : Consistent w) (hw : Numbered w.store) (hpaused : ¬Paused w) :
    ListingAgrees w := by
  refine ⟨listWorkspaces_ordered hw, fun _ hlisted => ((mem_listWorkspaces hw).mp hlisted).1, ?_⟩
  intro id workspace hstored env member startTime endTime amount hash hvalid
  rw [mem_listWorkspaces hw, (hw id workspace hstored).1, ne_eq,
    workspaceUnavailable_iff hpaused hvalid.signed hvalid.time hstored, not_not]
  constructor
  · rintro ⟨_, havailable⟩
    exact ⟨h id workspace hstored havailable, havailable⟩
  · rintro ⟨_, havailable⟩
    exact ⟨hstored, havailable⟩

/-- Where the list agrees with `book`, what is on it is in the state `available`. -/
theorem ListingAgrees.state {workspace : Workspace} {member : Address} {id : ℕ}
    (h : ListingAgrees w) (hw : Numbered w.store) (hpaused : ¬Paused w) (hmember : member ≠ C.self)
    (hstored : w.store.workspace id = some workspace)
    (havailable : workspace.availability = .available) :
    workspace.state = .available := by
  obtain ⟨env, startTime, endTime, amount, hvalid⟩ := exists_validRequest hmember w workspace id
  have hlisted : workspace ∈ listWorkspaces w := by
    rw [mem_listWorkspaces hw, (hw id workspace hstored).1]
    exact ⟨hstored, havailable⟩
  have hbooked := (h.bookable id workspace hstored env member startTime endTime amount 0 hvalid).mp
    hlisted
  rw [ne_eq, workspaceUnavailable_iff hpaused hvalid.signed hvalid.time hstored, not_not] at hbooked
  exact hbooked.1

theorem Consistent.setWorkspace {id : ℕ} {workspace : Workspace} (h : Consistent w)
    (hnew : workspace.availability = .available → workspace.state = .available) :
    Consistent (setWorkspace w id workspace) := by
  intro k v hv
  rcases update_cases hv with ⟨_, hset⟩ | ⟨_, hold⟩
  · obtain rfl := Option.some.inj hset
    exact hnew
  · exact h k v hold

theorem consistent_step (h : Consistent w) {a : Action C (Call Address)}
    (hkeeps : KeepsInStep w a) :
    Consistent (step exec w a) := by
  refine step_keeps Consistent h ?_ (fun _ _ => h) fun _ _ _ _ => h
  rintro env call w' rfl hcall
  cases (exec_cases hcall).1 with
  | nothing _ hworkspace _ =>
    intro id workspace hstored
    rw [hworkspace] at hstored
    exact h id workspace hstored
  | registers caller name typeId capacity price id _ hworkspace _ =>
    intro k v hv
    rw [hworkspace] at hv
    rcases update_cases hv with ⟨_, hnew⟩ | ⟨_, hold⟩
    · obtain rfl := Option.some.inj hnew
      exact fun _ => rfl
    · exact h k v hold
  | updates caller id availability workspace hstored hset =>
    subst hset
    have hadmin := (updateWorkspaceAvailability_eq_ok.mp hcall).2.1
    exact h.setWorkspace (hkeeps hadmin workspace hstored)
  | transitions admin id newState workspace hstored hallowed hset =>
    subst hset
    have hadmin := (transitionWorkspaceState_eq_ok.mp hcall).1
    exact h.setWorkspace fun havailable => hkeeps hadmin workspace hstored havailable hallowed

/-- A step after which the list agrees with `book` keeps the two fields in step. -/
theorem keepsInStep_of_agrees (hw : Numbered w.store) (hpaused : ¬Paused w)
    {a : Action C (Call Address)} (h : ListingAgrees (step exec w a)) : KeepsInStep w a := by
  have hw' := numbered_step hw a
  have hpaused' := unpaused_step hpaused a
  cases a with
  | tick d => trivial
  | external token next => trivial
  | invoke env call =>
    cases call with
    | transitionWorkspaceState admin id newState =>
      intro hadmin workspace hstored havailable hallowed
      have hcall : exec env (.transitionWorkspaceState admin id newState) w =
          .ok (setWorkspace w id { workspace with state := newState }) :=
        transitionWorkspaceState_eq_ok.mpr ⟨hadmin, workspace, hstored, true, hallowed, rfl⟩
      -- the workspace is on the list afterwards, so its new state lets it be booked
      rw [step_invoke_ok hcall] at h hw' hpaused'
      exact h.state hw' hpaused' (env.ne_self hadmin.2) (Function.update_self id _ _) havailable
    | updateWorkspaceAvailability caller id availability =>
      intro hadmin workspace hstored havailable
      have hcall : exec env (.updateWorkspaceAvailability caller id availability) w =
          .ok (setWorkspace w id { workspace with availability := availability }) :=
        updateWorkspaceAvailability_eq_ok.mpr ⟨hpaused, hadmin, workspace, hstored, rfl⟩
      rw [step_invoke_ok hcall] at h hw' hpaused'
      have hset : (setWorkspace w id { workspace with availability := availability }).store.workspace
          id = some { workspace with availability := availability } := Function.update_self id _ _
      have hstate : ({ workspace with availability := availability } : Workspace).state = .available :=
        h.state hw' hpaused' (env.ne_self hadmin.2) hset havailable
      exact hstate
    | _ => trivial

/-- The list agrees with `book` all along a run exactly when no step of it takes a workspace that
is on the list out of the state `available`, or puts one on it that is in another. -/
theorem listingAgrees_run (d : Deployment C) (as : List (Action C (Call Address))) :
    Always (step exec) ListingAgrees d.start as ↔ Guarded (step exec) KeepsInStep d.start as := by
  refine always_iff_guarded_of_kept
    (J := fun v : BookingWorld C => Numbered v.store ∧ ¬Paused v ∧ Consistent v) (step exec)
    (fun v hv => hv.2.2.listingAgrees hv.1 hv.2.1) ?_ ?_
    ⟨d.start_numbered, d.start_unpaused, fun _ _ hstored => nomatch hstored⟩
  · rintro v a ⟨hw, hpaused, h⟩ hkeeps
    exact ⟨numbered_step hw a, unpaused_step hpaused a, consistent_step h hkeeps⟩
  · rintro v a ⟨hw, hpaused, _⟩ h
    exact keepsInStep_of_agrees hw hpaused h

/-- A workspace goes into maintenance and stays on the list. -/
def listedInMaintenance : List (Action numberedChain (Call ℕ)) :=
  [.invoke (signedBy 0) (.registerWorkspace 1 "desk" 1 2 4),
   .invoke (signedBy 0) (.transitionWorkspaceState 1 1 (.maintenance 500))]

theorem listing_maintenance :
    ¬Always (step exec) ListingAgrees smallDeployment.start listedInMaintenance := by
  intro h
  have hend := (always_iff_prefixes (step exec) _ _ _).mp h listedInMaintenance [] (by simp)
  have hbooked := hend.bookable 1 ⟨1, "desk", 1, 2, 4, .available, .maintenance 500⟩ rfl
    (signedBy 1) 2 10 20 4 0 ⟨by decide, by decide, by decide, by decide⟩
  exact hbooked.mp (by decide) rfl

end HubAssist.WorkspaceBooking
