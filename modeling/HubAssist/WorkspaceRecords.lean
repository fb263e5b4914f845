import HubAssist.WorkspaceOccupancy

/-! What the calls do to the workspaces themselves: their numbering, and the two fields that say
whether one can be booked. -/
namespace HubAssist.WorkspaceBooking
open SorobanHost CheckedArith RunSystem StorageMap

variable {Address : Type} [DecidableEq Address] {C : Chain Address}
variable {env : Env C} {w w' : BookingWorld C} {call : Call Address}

/-- What an accepted call does to the workspaces: nothing, add the next one, or change the
availability or the state of one. -/
inductive Edits (w w' : BookingWorld C) : Call Address → Prop where
  | nothing (call : Call Address) (hworkspace : w'.store.workspace = w.store.workspace)
      (hcount : w'.store.workspaceCount = w.store.workspaceCount) : Edits w w' call
  | registers (caller : Address) (name : String) (typeId capacity : ℕ) (price : ℤ) (id : ℕ)
      (hid : w.store.workspaceCount.getD 0+1 = id)
      (hworkspace : w'.store.workspace = Function.update w.store.workspace id
        (some ⟨id, name, typeId, capacity, price, .available, .available⟩))
      (hcount : w'.store.workspaceCount = some id) :
      Edits w w' (.registerWorkspace caller name typeId capacity price)
  | updates (caller : Address) (id : ℕ) (availability : WorkspaceAvailability)
      (workspace : Workspace) (hstored : w.store.workspace id = some workspace)
      (hset : setWorkspace w id { workspace with availability := availability } = w') :
      Edits w w' (.updateWorkspaceAvailability caller id availability)
  | transitions (admin : Address) (id : ℕ) (newState : WorkspaceState) (workspace : Workspace)
      (hstored : w.store.workspace id = some workspace)
      (hallowed : allowedTransition w.now workspace.state newState = .ok true)
      (hset : setWorkspace w id { workspace with state := newState } = w') :
      Edits w w' (.transitionWorkspaceState admin id newState)

/-- Every booking after a call was there before it, for the same workspace, or is for a workspace
that is registered. -/
def Houses (w w' : BookingWorld C) : Prop :=
  ∀ id b, w'.store.booking id = some b →
    (∃ b₀, w.store.booking id = some b₀ ∧ b.workspaceId = b₀.workspaceId) ∨
      (w.store.workspace b.workspaceId).isSome = true

theorem Houses.of_eq (h : w'.store.booking = w.store.booking) : Houses w w' := by
  intro id b hb
  rw [h] at hb
  exact Or.inl ⟨b, hb, rfl⟩

theorem Houses.setBooking {id : ℕ} {b b' : Booking Address} (hb : w.store.booking id = some b)
    (hws : b'.workspaceId = b.workspaceId) : Houses w (setBooking w id b') := by
  intro k c hc
  rcases update_cases hc with ⟨rfl, hnew⟩ | ⟨_, hold⟩
  · obtain rfl := Option.some.inj hnew
    exact Or.inl ⟨b, hb, hws⟩
  · exact Or.inl ⟨c, hold, rfl⟩

theorem Houses.confirmAll (w : BookingWorld C) (ids : List ℕ) :
    Houses w (w.setStore { w.store with booking := confirmAll w.store.booking ids }) := by
  intro k c hc
  obtain ⟨b, hb, hslot, _⟩ := confirmed_entry hc
  exact Or.inl ⟨b, hb, hslot.workspaceId⟩

theorem updateWorkspaceAvailability_eq_ok {caller : Address} {id : ℕ}
    {availability : WorkspaceAvailability} :
    updateWorkspaceAvailability env caller id availability w = .ok w' ↔
      ¬Paused w ∧ (w.store.admin = some caller ∧ caller ∈ env.signers) ∧
        ∃ workspace, w.store.workspace id = some workspace ∧
          setWorkspace w id { workspace with availability := availability } = w' := by
  simp only [updateWorkspaceAvailability, requireNotPaused, getWorkspace, bind_eq_ok, failIf_eq_ok,
    requireAdmin_eq_ok, getOr_eq_ok, pure_eq_ok, exists_const, Paused]

theorem transitionWorkspaceState_eq_ok {admin : Address} {id : ℕ} {newState : WorkspaceState} :
    transitionWorkspaceState env admin id newState w = .ok w' ↔
      (w.store.admin = some admin ∧ admin ∈ env.signers) ∧
        ∃ workspace, w.store.workspace id = some workspace ∧
          ∃ changed, allowedTransition w.now workspace.state newState = .ok changed ∧
            (if changed then setWorkspace w id { workspace with state := newState } else w) =
              w' := by
  simp only [transitionWorkspaceState, getWorkspace, bind_eq_ok, requireAdmin_eq_ok, getOr_eq_ok,
    pure_eq_ok, exists_const]

theorem book_open {member : Address} {id startTime endTime k : ℕ} {amount : ℤ} {hash : BitVec 256}
    (h : book env member id startTime endTime amount hash w = .ok (k, w')) :
    ∃ workspace, w.store.workspace id = some workspace ∧ workspace.state = .available ∧
      workspace.availability = .available := by
  simp only [book, requireNotPaused, getWorkspace, bind_eq_ok, failIf_eq_ok, getOr_eq_ok,
    exists_const, not_not] at h
  obtain ⟨_, _, _, _, workspace, hstored, hstate, havailable, _⟩ := h
  exact ⟨workspace, hstored, hstate, havailable⟩

/-- No entry point pauses the contract, and time passes between calls only. -/
theorem exec_cases (h : exec env call w = .ok w') :
    Edits w w' call ∧ w'.store.paused = w.store.paused ∧ w'.now = w.now ∧ Houses w w' := by
  cases call with
  | initializeContract admin token =>
    simp only [exec, initializeContract, bind_eq_ok, pure_eq_ok] at h
    obtain ⟨_, _, rfl⟩ := h
    exact ⟨.nothing _ rfl rfl, rfl, rfl, .of_eq rfl⟩
  | registerWorkspaceType caller typeId info =>
    simp only [exec, registerWorkspaceType, bind_eq_ok, pure_eq_ok] at h
    obtain ⟨_, _, _, _, _, _, rfl⟩ := h
    exact ⟨.nothing _ rfl rfl, rfl, rfl, .of_eq rfl⟩
  | registerWorkspace caller name typeId capacity price =>
    obtain ⟨⟨id, w₁⟩, hr, rfl⟩ := map_eq_ok.mp h
    simp only [registerWorkspace, bind_eq_ok, pure_eq_ok, Prod.mk.injEq, checked_eq_ok] at hr
    obtain ⟨_, _, _, _, _, _, id, hid, rfl, rfl⟩ := hr
    have hnext : w.store.workspaceCount.getD 0+1 = id := by
      simp only [u32Add] at hid
      split_ifs at hid
      exact Option.some.inj hid
    exact ⟨.registers caller name typeId capacity price id hnext rfl rfl, rfl, rfl, .of_eq rfl⟩
  | updateWorkspaceAvailability caller id availability =>
    obtain ⟨_, _, workspace, hstored, rfl⟩ := updateWorkspaceAvailability_eq_ok.mp h
    exact ⟨.updates caller id availability workspace hstored rfl, rfl, rfl, .of_eq rfl⟩
  | book member id startTime endTime amount hash =>
    obtain ⟨⟨k, w₁⟩, hb, rfl⟩ := map_eq_ok.mp h
    obtain ⟨_, _, _, rfl⟩ := book_eq_ok hb
    obtain ⟨workspace, hstored, _⟩ := book_open hb
    refine ⟨.nothing _ rfl rfl, rfl, rfl, fun c b hc => ?_⟩
    rcases update_cases hc with ⟨_, hnew⟩ | ⟨_, hold⟩
    · obtain rfl := Option.some.inj hnew
      exact Or.inr (Option.isSome_iff_exists.mpr ⟨workspace, hstored⟩)
    · exact Or.inl ⟨b, hold, rfl⟩
  | confirmBooking id =>
    obtain ⟨_, rfl⟩ := confirmBooking_eq_ok.mp h
    exact ⟨.nothing _ rfl rfl, rfl, rfl, .confirmAll w [id]⟩
  | batchConfirm admin ids =>
    obtain ⟨_, rfl⟩ := batchConfirm_eq_ok.mp h
    exact ⟨.nothing _ rfl rfl, rfl, rfl, .confirmAll w ids⟩
  | cancel caller id =>
    simp only [exec, cancel, getBooking, bind_eq_ok, getOr_eq_ok, pure_eq_ok] at h
    obtain ⟨_, _, _, _, b, hb, _, _, _, _, _, _, rfl⟩ := h
    exact ⟨.nothing _ rfl rfl, rfl, rfl, .setBooking hb rfl⟩
  | setBookingEscrow caller id escrowId =>
    simp only [exec, setBookingEscrow, getBooking, bind_eq_ok, getOr_eq_ok, pure_eq_ok] at h
    obtain ⟨_, _, b, hb, _, _, _, _, rfl⟩ := h
    exact ⟨.nothing _ rfl rfl, rfl, rfl, .setBooking hb rfl⟩
  | transitionWorkspaceState admin id newState =>
    obtain ⟨_, workspace, hstored, changed, hallowed, hset⟩ := transitionWorkspaceState_eq_ok.mp h
    cases changed with
    | false =>
      obtain rfl : w = w' := hset
      exact ⟨.nothing _ rfl rfl, rfl, rfl, .of_eq rfl⟩
    | true =>
      subst hset
      exact ⟨.transitions admin id newState workspace hstored hallowed rfl, rfl, rfl, .of_eq rfl⟩
  | leaveWaitlist member id =>
    simp only [exec, leaveWaitlist, bind_eq_ok, pure_eq_ok] at h
    obtain ⟨_, _, _, _, rfl⟩ := h
    exact ⟨.nothing _ rfl rfl, rfl, rfl, .of_eq rfl⟩
  | updateTierDiscounts caller discounts =>
    simp only [exec, updateTierDiscounts, bind_eq_ok, pure_eq_ok] at h
    obtain ⟨_, _, rfl⟩ := h
    exact ⟨.nothing _ rfl rfl, rfl, rfl, .of_eq rfl⟩

/-- Workspaces carry their own number and are numbered from one up to the counter. -/
def Numbered (s : Storage Address) : Prop :=
  ∀ id workspace, s.workspace id = some workspace →
    workspace.id = id ∧ 1 ≤ id ∧ id ≤ s.workspaceCount.getD 0

theorem numbered_setWorkspace {id : ℕ} {workspace workspace' : Workspace} (hw : Numbered w.store)
    (hstored : w.store.workspace id = some workspace) (hid : workspace'.id = workspace.id) :
    Numbered (setWorkspace w id workspace').store := by
  intro k v hv
  rcases update_cases hv with ⟨rfl, hnew⟩ | ⟨_, hold⟩
  · obtain rfl := Option.some.inj hnew
    rw [hid]
    exact hw k workspace hstored
  · exact hw k v hold

theorem Edits.numbered (h : Edits w w' call) (hw : Numbered w.store) : Numbered w'.store := by
  cases h with
  | nothing _ hworkspace hcount =>
    intro id workspace hstored
    rw [hworkspace] at hstored
    rw [hcount]
    exact hw id workspace hstored
  | registers _ _ _ _ _ id hid hworkspace hcount =>
    intro k v hv
    rw [hworkspace] at hv
    rw [hcount, Option.getD_some]
    rcases update_cases hv with ⟨rfl, hnew⟩ | ⟨_, hold⟩
    · obtain rfl := Option.some.inj hnew
      exact ⟨rfl, by omega, le_rfl⟩
    -- the older numbers are below the new one
    · obtain ⟨hk, hpos, hle⟩ := hw k v hold
      exact ⟨hk, hpos, by omega⟩
  | updates _ id availability workspace hstored hset =>
    subst hset
    exact numbered_setWorkspace hw hstored rfl
  | transitions _ id newState workspace hstored _ hset =>
    subst hset
    exact numbered_setWorkspace hw hstored rfl

/-- Bookings are for workspaces that are registered. -/
def Housed (s : Storage Address) : Prop :=
  ∀ id b, s.booking id = some b → (s.workspace b.workspaceId).isSome = true

theorem isSome_update {f : ℕ → Option Workspace} {id k : ℕ} {workspace : Workspace}
    (h : (f k).isSome = true) : (Function.update f id (some workspace) k).isSome = true := by
  by_cases hk : k = id
  · simp [hk]
  · rwa [Function.update_of_ne hk]

/-- No call takes a workspace away. -/
theorem Edits.isSome (h : Edits w w' call) {id : ℕ} (hid : (w.store.workspace id).isSome = true) :
    (w'.store.workspace id).isSome = true := by
  cases h with
  | nothing _ hworkspace _ => rwa [hworkspace]
  | registers _ _ _ _ _ _ _ hworkspace _ =>
    rw [hworkspace]
    exact isSome_update hid
  | updates _ _ _ _ _ hset =>
    subst hset
    exact isSome_update hid
  | transitions _ _ _ _ _ _ hset =>
    subst hset
    exact isSome_update hid

theorem Houses.housed (h : Houses w w') (hedits : Edits w w' call) (hw : Housed w.store) :
    Housed w'.store := by
  intro id b hb
  apply hedits.isSome
  rcases h id b hb with ⟨b₀, hb₀, hws⟩ | hregistered
  · rw [hws]
    exact hw id b₀ hb₀
  · exact hregistered

theorem housed_step (hw : Housed w.store) (a : Action C (Call Address)) :
    Housed (step exec w a).store := by
  refine step_keeps (fun v => Housed v.store) hw ?_ (fun _ _ => hw) fun _ _ _ _ => hw
  intro _ _ _ _ hcall
  obtain ⟨hedits, _, _, hhouses⟩ := exec_cases hcall
  exact hhouses.housed hedits hw

theorem numbered_step (hw : Numbered w.store) (a : Action C (Call Address)) :
    Numbered (step exec w a).store :=
  step_keeps (fun v => Numbered v.store) hw (fun _ _ _ _ hcall => (exec_cases hcall).1.numbered hw)
    (fun _ _ => hw) fun _ _ _ _ => hw

theorem Deployment.start_numbered (d : Deployment C) : Numbered d.start.store :=
  fun _ _ hstored => nomatch hstored

theorem unpaused_step (hw : ¬Paused w) (a : Action C (Call Address)) :
    ¬Paused (step exec w a) :=
  step_keeps (fun v => ¬Paused v) hw
    (fun _ _ _ _ hcall => by rwa [Paused, (exec_cases hcall).2.1]) (fun _ _ => hw) fun _ _ _ _ => hw

theorem Deployment.start_unpaused (d : Deployment C) : ¬Paused d.start := Bool.false_ne_true

theorem unpaused_run (d : Deployment C) (as : List (Action C (Call Address))) :
    ¬Paused (SorobanHost.run exec d.start as) :=
  run_invariant_all (I := fun w : BookingWorld C => ¬Paused w) (step exec)
    (fun _ a hw => unpaused_step hw a) d.start_unpaused as

theorem numbered_run (d : Deployment C) (as : List (Action C (Call Address))) :
    Numbered (SorobanHost.run exec d.start as).store :=
  run_invariant_all (I := fun w : BookingWorld C => Numbered w.store) (step exec)
    (fun _ a hw => numbered_step hw a) d.start_numbered as

theorem housed_run (d : Deployment C) (as : List (Action C (Call Address))) :
    Housed (SorobanHost.run exec d.start as).store :=
  run_invariant_all (I := fun w : BookingWorld C => Housed w.store) (step exec)
    (fun _ a hw => housed_step hw a)
    (fun id b hb => absurd hb (by simp [d.start_booking])) as

end HubAssist.WorkspaceBooking
