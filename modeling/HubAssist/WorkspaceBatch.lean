import HubAssist.WorkspaceRecords

/-! Confirming bookings in a batch against confirming them one after the other. -/
namespace HubAssist.WorkspaceBooking
open SorobanHost RunSystem

variable {Address : Type} [DecidableEq Address] {C : Chain Address}
variable {env : Env C} {w w' : BookingWorld C}

/-- `confirmBooking` on each of the ids, as long as it is accepted. -/
def confirmEach (env : Env C) : List ℕ → BookingWorld C → Outcome C
  | [], w => .ok w
  | id :: ids, w => confirmBooking env id w >>= confirmEach env ids

/-- A confirmation changes what is asked of another booking in nothing. -/
theorem confirmAllowed_of_ne {id k : ℕ} (hne : k ≠ id) :
    ConfirmAllowed (w.setStore { w.store with booking := confirmAll w.store.booking [id] }) env k ↔
      ConfirmAllowed w env k := by
  have hsame : confirmAll w.store.booking [id] k = w.store.booking k := by
    rw [confirmAll_apply, if_neg (by simpa using hne)]
  simp only [ConfirmAllowed, Paused, World.setStore_store, hsame]

/-- Distinct bookings are confirmed one after the other exactly when each can be confirmed at the
start, and the end is the batch's. -/
theorem confirmEach_eq_ok {ids : List ℕ} (hnodup : ids.Nodup) :
    confirmEach env ids w = .ok w' ↔ (∀ id ∈ ids, ConfirmAllowed w env id) ∧
      w.setStore { w.store with booking := confirmAll w.store.booking ids } = w' := by
  induction ids generalizing w with
  | nil =>
    simp only [confirmEach, Except.ok.injEq, List.not_mem_nil, false_imp_iff, implies_true,
      true_and]
    rfl
  | cons id ids ih =>
    obtain ⟨hid, hids⟩ := List.nodup_cons.mp hnodup
    -- the first confirmation leaves the other bookings alone, so they are asked at the start
    have hothers : (∀ k ∈ ids, ConfirmAllowed
        (w.setStore { w.store with booking := confirmAll w.store.booking [id] }) env k) ↔
          ∀ k ∈ ids, ConfirmAllowed w env k :=
      forall₂_congr fun k hk => confirmAllowed_of_ne fun heq => hid (heq ▸ hk)
    simp only [confirmEach, bind_eq_ok, confirmBooking_eq_ok, ih hids, List.forall_mem_cons]
    constructor
    · rintro ⟨_, ⟨hfirst, rfl⟩, hrest, rfl⟩
      exact ⟨⟨hfirst, hothers.mp hrest⟩, rfl⟩
    · rintro ⟨⟨hfirst, hrest⟩, rfl⟩
      exact ⟨_, ⟨hfirst, rfl⟩, hothers.mpr hrest, rfl⟩

/-- For the admin, a small batch asks of each booking what `confirmBooking` asks, where the
workspaces are available. -/
theorem batchAllowed_iff {admin : Address} {ids : List ℕ} (hpaused : ¬Paused w)
    (hhoused : Housed w.store) (hadmin : w.store.admin = some admin) (hsigned : admin ∈ env.signers)
    (hsize : ids.length ≤ maxBatchSize)
    (havailable : ∀ id ∈ ids, ∀ b workspace, w.store.booking id = some b →
      w.store.workspace b.workspaceId = some workspace → workspace.availability = .available) :
    BatchAllowed w env admin ids ↔ ∀ id ∈ ids, ConfirmAllowed w env id := by
  constructor
  · rintro ⟨_, _, _, _, hall⟩ id hid
    obtain ⟨b, hb, hstatus, _⟩ := hall id hid
    exact ⟨hpaused, ⟨admin, hadmin, hsigned⟩, b, hb, hstatus⟩
  · intro hall
    refine ⟨hpaused, hadmin, hsigned, hsize, fun id hid => ?_⟩
    obtain ⟨_, _, b, hb, hstatus⟩ := hall id hid
    -- `confirmBooking` does not look at the workspace, but every booking has one
    obtain ⟨workspace, hstored⟩ := Option.isSome_iff_exists.mp (hhoused id b hb)
    exact ⟨b, hb, hstatus, workspace, hstored, havailable id hid b workspace hb hstored⟩

theorem batchConfirm_eq_confirmEach (d : Deployment C) (as : List (Action C (Call Address)))
    (env : Env C) (admin : Address) (ids : List ℕ)
    (hadmin : (SorobanHost.run exec d.start as).store.admin = some admin)
    (hsigned : admin ∈ env.signers) (hsize : ids.length ≤ maxBatchSize) (hnodup : ids.Nodup)
    (havailable : ∀ id ∈ ids, ∀ b workspace,
      (SorobanHost.run exec d.start as).store.booking id = some b →
        (SorobanHost.run exec d.start as).store.workspace b.workspaceId = some workspace →
          workspace.availability = .available) :
    (∀ w', batchConfirm env admin ids (SorobanHost.run exec d.start as) = .ok w' ↔
        confirmEach env ids (SorobanHost.run exec d.start as) = .ok w') ∧
      ((∀ w', batchConfirm env admin ids (SorobanHost.run exec d.start as) ≠ .ok w') →
        step exec (SorobanHost.run exec d.start as) (.invoke env (.batchConfirm admin ids)) =
          SorobanHost.run exec d.start as) := by
  refine ⟨fun w' => ?_, fun hfails => ?_⟩
  · rw [batchConfirm_eq_ok, confirmEach_eq_ok hnodup, batchAllowed_iff (unpaused_run d as)
      (housed_run d as) hadmin hsigned hsize havailable]
  · cases hcall : batchConfirm env admin ids (SorobanHost.run exec d.start as) with
    | ok w' => exact absurd hcall (hfails w')
    | error fault => exact step_invoke_error hcall

/-- Two bookings of one workspace. -/
def twoBookings : List (Action numberedChain (Call ℕ)) :=
  [.invoke (signedBy 0) (.registerWorkspace 1 "desk" 2 1 6),
   .invoke (signedBy 1) (.book 2 1 0 3600 6 0),
   .invoke (signedBy 2) (.book 3 1 3600 7200 6 0)]

theorem twoBookings_available (id : ℕ) (hid : id ∈ [2, 1]) (b : Booking ℕ) (workspace : Workspace)
    (hb : (SorobanHost.run exec smallDeployment.start twoBookings).store.booking id = some b)
    (hstored : (SorobanHost.run exec smallDeployment.start twoBookings).store.workspace b.workspaceId =
      some workspace) : workspace.availability = .available := by
  have hws : b.workspaceId = 1 := by
    rcases List.mem_pair.mp hid with rfl | rfl
    · have heq : some ⟨2, 3, 1, 3600, 7200, 6, .pending, 0, 0⟩ = some b := hb
      rw [← Option.some.inj heq]
    · have heq : some ⟨1, 2, 1, 0, 3600, 6, .pending, 0, 0⟩ = some b := hb
      rw [← Option.some.inj heq]
  rw [hws] at hstored
  have heq : some ⟨1, "desk", 2, 1, 6, .available, .available⟩ = some workspace := hstored
  rw [← Option.some.inj heq]

theorem batchConfirm_twoBookings : ∃ w',
    batchConfirm (signedBy 0) 1 [2, 1] (SorobanHost.run exec smallDeployment.start twoBookings) =
        .ok w' ∧
      confirmEach (signedBy 0) [2, 1] (SorobanHost.run exec smallDeployment.start twoBookings) =
        .ok w' := by
  have hagree := (batchConfirm_eq_confirmEach smallDeployment twoBookings (signedBy 0) 1 [2, 1] rfl
    (by decide) (by decide) (by decide) twoBookings_available).1
  have hbatch : batchConfirm (signedBy 0) 1 [2, 1]
      (SorobanHost.run exec smallDeployment.start twoBookings) = .ok _ := rfl
  exact ⟨_, hbatch, (hagree _).mp hbatch⟩

end HubAssist.WorkspaceBooking
