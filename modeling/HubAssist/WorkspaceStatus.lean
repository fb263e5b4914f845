import HubAssist.WorkspaceRecords

/-! Who has the last word on a booking. Its status after a run is the one that the last accepted
call about it has set, and the waitlists, which no call fills, stay empty. -/
namespace HubAssist.WorkspaceBooking
open SorobanHost CheckedArith RunSystem

variable {Address : Type} [DecidableEq Address] {C : Chain Address}
variable {env : Env C} {w w' : BookingWorld C} {call : Call Address} {id : ℕ}

/-- The call sets the status of the booking `id`, with the signature that this takes. -/
inductive Decides (id : ℕ) (env : Env C) (w : BookingWorld C) : Call Address → BookingStatus → Prop
  | books (member : Address) (workspaceId startTime endTime : ℕ) (amount : ℤ) (hash : BitVec 256)
      (hsigned : member ∈ env.signers) (hid : w.store.bookingCount.getD 0+1 = id) :
      Decides id env w (.book member workspaceId startTime endTime amount hash) .pending
  | confirms (admin : Address) (hadmin : w.store.admin = some admin)
      (hsigned : admin ∈ env.signers) : Decides id env w (.confirmBooking id) .confirmed
  | confirmsAll (admin : Address) (ids : List ℕ) (hadmin : w.store.admin = some admin)
      (hsigned : admin ∈ env.signers) (hid : id ∈ ids) :
      Decides id env w (.batchConfirm admin ids) .confirmed
  | cancels (caller : Address) (b : Booking Address) (hb : w.store.booking id = some b)
      (hright : caller = b.member ∨ w.store.admin = some caller) (hsigned : caller ∈ env.signers) :
      Decides id env w (.cancel caller id) .cancelled

/-- The step is an accepted call that gives the booking `id` this status. -/
def DecidedBy (id : ℕ) (status : BookingStatus) (w : BookingWorld C) :
    Action C (Call Address) → Prop
  | .invoke env call => (∃ w', exec env call w = .ok w') ∧ Decides id env w call status
  | .tick _ | .external _ _ => False

/-- The status that a call sets for the booking `id` when it is accepted. -/
def statusSet (id : ℕ) (w : BookingWorld C) : Call Address → Option BookingStatus
  | .book _ _ _ _ _ _ => if w.store.bookingCount.getD 0+1 = id then some .pending else none
  | .confirmBooking k => if k = id then some .confirmed else none
  | .batchConfirm _ ids => if id ∈ ids then some .confirmed else none
  | .cancel _ k => if k = id then some .cancelled else none
  | _ => none

def statusWrite (id : ℕ) (w : BookingWorld C) :
    Action C (Call Address) → Option (Option BookingStatus)
  | .invoke env call =>
    match exec env call w with
    | .ok _ => (statusSet id w call).map some
    | .error _ => none
  | .tick _ | .external _ _ => none

def statusOf (id : ℕ) (w : BookingWorld C) : Option BookingStatus :=
  (w.store.booking id).map Booking.status

theorem statusOf_update (k : ℕ) (b : Booking Address)
    (h : w'.store.booking = Function.update w.store.booking k (some b)) :
    statusOf id w' = if k = id then some b.status else statusOf id w := by
  unfold statusOf
  rw [h]
  split_ifs with hk
  · rw [hk, Function.update_self]
    rfl
  · rw [Function.update_of_ne (Ne.symm hk)]

theorem statusOf_confirmAll {ids : List ℕ} (hids : ∀ k ∈ ids, ∃ b, w.store.booking k = some b) :
    statusOf id (w.setStore { w.store with booking := confirmAll w.store.booking ids }) =
      if id ∈ ids then some .confirmed else statusOf id w := by
  have happly : statusOf id (w.setStore
      { w.store with booking := confirmAll w.store.booking ids }) =
        (confirmAll w.store.booking ids id).map Booking.status := rfl
  rw [happly, confirmAll_apply, statusOf]
  split_ifs with hid
  · obtain ⟨b, hb⟩ := hids id hid
    rw [hb]
    rfl
  · rfl

theorem cancel_eq_ok {caller : Address} {k : ℕ} (h : cancel env caller k w = .ok w') :
    caller ∈ env.signers ∧ ∃ b, w.store.booking k = some b ∧
      (caller = b.member ∨ w.store.admin = some caller) ∧
      setBooking w k { b with status := .cancelled } = w' := by
  simp only [cancel, getBooking, bind_eq_ok, getOr_eq_ok, failIf_eq_ok, requireAuth_eq_ok,
    pure_eq_ok, exists_const] at h
  obtain ⟨_, _, hsigned, b, hb, _, admin, hadmin, hright, rfl⟩ := h
  refine ⟨hsigned, b, hb, ?_, rfl⟩
  by_cases hmember : caller = b.member
  · exact Or.inl hmember
  · have heq : caller = admin := by
      by_contra hne
      exact hright ⟨hmember, hne⟩
    exact Or.inr (heq ▸ hadmin)

/-- What an accepted call does to the status of a booking, to the tokens and to the waitlists. -/
structure Effect (id : ℕ) (env : Env C) (call : Call Address) (w w' : BookingWorld C) : Prop where
  status : statusOf id w' = (statusSet id w call).or (statusOf id w)
  transfers : w'.transfers = w.transfers
  waitlist : w'.store.waitlist = w.store.waitlist ∨
    ∃ member workspaceId, leaveWaitlist env member workspaceId w = .ok w'

theorem exec_effect (h : exec env call w = .ok w') (id : ℕ) : Effect id env call w w' := by
  cases call with
  | initializeContract admin token =>
    simp only [exec, initializeContract, bind_eq_ok, pure_eq_ok] at h
    obtain ⟨_, _, rfl⟩ := h
    exact ⟨rfl, rfl, Or.inl rfl⟩
  | registerWorkspaceType caller typeId info =>
    simp only [exec, registerWorkspaceType, bind_eq_ok, pure_eq_ok] at h
    obtain ⟨_, _, _, _, _, _, rfl⟩ := h
    exact ⟨rfl, rfl, Or.inl rfl⟩
  | registerWorkspace caller name typeId capacity price =>
    obtain ⟨⟨k, w₁⟩, hr, rfl⟩ := map_eq_ok.mp h
    simp only [registerWorkspace, bind_eq_ok, pure_eq_ok, Prod.mk.injEq] at hr
    obtain ⟨_, _, _, _, _, _, _, _, _, rfl⟩ := hr
    exact ⟨rfl, rfl, Or.inl rfl⟩
  | updateWorkspaceAvailability caller k availability =>
    obtain ⟨_, _, workspace, _, rfl⟩ := updateWorkspaceAvailability_eq_ok.mp h
    exact ⟨rfl, rfl, Or.inl rfl⟩
  | book member k startTime endTime amount hash =>
    obtain ⟨⟨n, w₁⟩, hb, rfl⟩ := map_eq_ok.mp h
    obtain ⟨_, _, hid, rfl⟩ := book_eq_ok hb
    refine ⟨?_, rfl, Or.inl rfl⟩
    rw [statusOf_update n _ rfl, statusSet, hid]
    split_ifs <;> rfl
  | confirmBooking k =>
    obtain ⟨⟨_, _, b, hb, _⟩, rfl⟩ := confirmBooking_eq_ok.mp h
    refine ⟨?_, rfl, Or.inl rfl⟩
    rw [statusOf_confirmAll (by simp [hb]), statusSet]
    simp only [List.mem_singleton, eq_comm]
    split_ifs <;> rfl
  | batchConfirm admin ids =>
    obtain ⟨⟨_, _, _, _, hfound⟩, rfl⟩ := batchConfirm_eq_ok.mp h
    have hids : ∀ k ∈ ids, ∃ b, w.store.booking k = some b := by
      intro k hk
      obtain ⟨b, hb, _⟩ := hfound k hk
      exact ⟨b, hb⟩
    refine ⟨?_, rfl, Or.inl rfl⟩
    rw [statusOf_confirmAll hids, statusSet]
    split_ifs <;> rfl
  | cancel caller k =>
    obtain ⟨_, b, _, _, rfl⟩ := cancel_eq_ok h
    refine ⟨?_, rfl, Or.inl rfl⟩
    rw [statusOf_update k _ rfl, statusSet]
    split_ifs <;> rfl
  | setBookingEscrow caller k escrowId =>
    simp only [exec, setBookingEscrow, getBooking, bind_eq_ok, getOr_eq_ok, pure_eq_ok] at h
    obtain ⟨_, _, b, hb, _, _, _, _, rfl⟩ := h
    refine ⟨?_, rfl, Or.inl rfl⟩
    have hnone : statusSet id w (.setBookingEscrow caller k escrowId) = none := rfl
    rw [statusOf_update k _ rfl, hnone, Option.none_or]
    -- the booking is stored again with the status that it had
    split_ifs with hk
    · rw [statusOf, ← hk, hb]
      rfl
    · rfl
  | transitionWorkspaceState admin k newState =>
    obtain ⟨_, workspace, _, changed, _, rfl⟩ := transitionWorkspaceState_eq_ok.mp h
    cases changed <;> exact ⟨rfl, rfl, Or.inl rfl⟩
  | leaveWaitlist member k =>
    have hleave : leaveWaitlist env member k w = .ok w' := h
    simp only [exec, leaveWaitlist, bind_eq_ok, pure_eq_ok] at h
    obtain ⟨_, _, _, _, rfl⟩ := h
    exact ⟨rfl, rfl, Or.inr ⟨member, k, hleave⟩⟩
  | updateTierDiscounts caller discounts =>
    simp only [exec, updateTierDiscounts, bind_eq_ok, pure_eq_ok] at h
    obtain ⟨_, _, rfl⟩ := h
    exact ⟨rfl, rfl, Or.inl rfl⟩

theorem statusWrite_ok (h : exec env call w = .ok w') :
    statusWrite id w (.invoke env call) = (statusSet id w call).map some := by
  simp [statusWrite, h]

theorem statusWrite_error {fault : Fault ContractError} (h : exec env call w = .error fault) :
    statusWrite id w (.invoke env call) = none := by
  simp [statusWrite, h]

theorem statusOf_step (id : ℕ) (w : BookingWorld C) (a : Action C (Call Address)) :
    statusOf id (step exec w a) = (statusWrite id w a).getD (statusOf id w) := by
  cases a with
  | tick seconds => rfl
  | external token next =>
    exact step_external_keeps (fun v => statusOf id v = statusOf id w) rfl rfl
  | invoke env call =>
    cases hcall : exec env call w with
    | error fault =>
      rw [step_invoke_error hcall, statusWrite_error hcall]
      rfl
    | ok w' =>
      rw [step_invoke_ok hcall, (exec_effect hcall id).status, statusWrite_ok hcall]
      cases statusSet id w call <;> rfl

/-- Whoever sets a status has signed for it. -/
theorem decides_iff (h : exec env call w = .ok w') {status : BookingStatus} :
    Decides id env w call status ↔ statusSet id w call = some status := by
  constructor
  · rintro (⟨_, _, _, _, _, _, _, hid⟩ | _ | ⟨_, _, _, _, hid⟩ | _)
    · exact if_pos hid
    · exact if_pos rfl
    · exact if_pos hid
    · exact if_pos rfl
  · intro hset
    cases call with
    | book member k startTime endTime amount hash =>
      obtain ⟨⟨n, w₁⟩, hb, rfl⟩ := map_eq_ok.mp h
      simp only [book, bind_eq_ok, requireAuth_eq_ok, exists_const] at hb
      obtain ⟨_, _, hsigned, _⟩ := hb
      simp only [statusSet] at hset
      split_ifs at hset with hid
      obtain rfl := Option.some.inj hset
      exact .books member k startTime endTime amount hash hsigned hid
    | confirmBooking k =>
      obtain ⟨⟨_, ⟨admin, hadmin, hsigned⟩, _⟩, _⟩ := confirmBooking_eq_ok.mp h
      simp only [statusSet] at hset
      split_ifs at hset with hid
      obtain rfl := Option.some.inj hset
      exact hid ▸ .confirms admin hadmin hsigned
    | batchConfirm admin ids =>
      obtain ⟨⟨_, hadmin, hsigned, _⟩, _⟩ := batchConfirm_eq_ok.mp h
      simp only [statusSet] at hset
      split_ifs at hset with hid
      obtain rfl := Option.some.inj hset
      exact .confirmsAll admin ids hadmin hsigned hid
    | cancel caller k =>
      obtain ⟨hsigned, b, hb, hright, _⟩ := cancel_eq_ok h
      simp only [statusSet] at hset
      split_ifs at hset with hid
      obtain rfl := Option.some.inj hset
      exact hid ▸ .cancels caller b hb hright hsigned
    | _ => exact absurd hset (by simp [statusSet])

theorem statusWrite_eq_some {a : Action C (Call Address)} {status : BookingStatus} :
    statusWrite id w a = some (some status) ↔ DecidedBy id status w a := by
  cases a with
  | tick seconds => exact iff_of_false (by simp [statusWrite]) fun h => h
  | external token next => exact iff_of_false (by simp [statusWrite]) fun h => h
  | invoke env call =>
    cases hcall : exec env call w with
    | error fault =>
      rw [statusWrite_error hcall, DecidedBy, hcall]
      simp
    | ok w' =>
      rw [statusWrite_ok hcall, DecidedBy, hcall, decides_iff hcall]
      simp

theorem statusWrite_eq_none {a : Action C (Call Address)} :
    statusWrite id w a = none ↔ ∀ status, ¬DecidedBy id status w a := by
  simp only [← statusWrite_eq_some]
  cases a with
  | tick seconds => simp [statusWrite]
  | external token next => simp [statusWrite]
  | invoke env call =>
    cases hcall : exec env call w with
    | error fault => simp [statusWrite_error hcall]
    | ok w' =>
      rw [statusWrite_ok hcall]
      cases statusSet id w call <;> simp

/-- After any run a booking has the status that the last accepted call about it has set: the
member's when it was made, the admin's confirmation, or the cancellation of either. -/
theorem status_run (d : Deployment C) (as : List (Action C (Call Address))) (id : ℕ)
    (status : BookingStatus) :
    statusOf id (SorobanHost.run exec d.start as) = some status ↔
      ∃ pre a post, as = pre ++ a :: post ∧
        DecidedBy id status (SorobanHost.run exec d.start pre) a ∧
        Guarded (step exec) (fun w a => ∀ other, ¬DecidedBy id other w a)
          (SorobanHost.run exec d.start (pre ++ [a])) post := by
  have hlast := @last_write_iff (BookingWorld C) _ _ (step exec) (statusOf id) (statusWrite id)
    (statusOf_step id) d.start rfl as status
  simpa only [statusWrite_eq_some, statusWrite_eq_none] using hlast

/-- What the contract provides for and never does: it pauses, keeps a waitlist, completes or
waitlists a booking, and takes the payment token that it was given. -/
structure Dormant (w : BookingWorld C) : Prop where
  unpaused : ¬Paused w
  unpaid : w.transfers = []
  waitlist : ∀ workspaceId, getWaitlist w workspaceId = []
  refused : ∀ env member workspaceId w', leaveWaitlist env member workspaceId w ≠ .ok w'
  status : ∀ id b, w.store.booking id = some b →
    b.status = .pending ∨ b.status = .confirmed ∨ b.status = .cancelled

theorem leaveWaitlist_refused {member : Address} {k : ℕ} (hempty : getWaitlist w k = []) :
    leaveWaitlist env member k w ≠ .ok w' := by
  intro h
  simp only [leaveWaitlist, bind_eq_ok, failIf_eq_ok, hempty] at h
  obtain ⟨_, _, _, hmember, _⟩ := h
  exact hmember fun entry hentry => absurd hentry List.not_mem_nil

theorem statusSet_cases {status : BookingStatus} (h : statusSet id w call = some status) :
    status = .pending ∨ status = .confirmed ∨ status = .cancelled := by
  cases call with
  | book =>
    simp only [statusSet] at h
    split_ifs at h
    exact Or.inl (Option.some.inj h).symm
  | confirmBooking | batchConfirm =>
    simp only [statusSet] at h
    split_ifs at h
    exact Or.inr (Or.inl (Option.some.inj h).symm)
  | cancel =>
    simp only [statusSet] at h
    split_ifs at h
    exact Or.inr (Or.inr (Option.some.inj h).symm)
  | _ => exact absurd h (by simp [statusSet])

theorem Dormant.exec (hw : Dormant w) (h : exec env call w = .ok w') : Dormant w' := by
  have hempty (k : ℕ) : getWaitlist w' k = [] := by
    rcases (exec_effect h k).waitlist with hsame | ⟨member, workspaceId, hleave⟩
    · rw [getWaitlist, hsame]
      exact hw.waitlist k
    · exact absurd hleave (hw.refused env member workspaceId w')
  refine ⟨?_, (exec_effect h 0).transfers.trans hw.unpaid, hempty, ?_, ?_⟩
  · rw [Paused, (exec_cases h).2.1]
    exact hw.unpaused
  · intro env member k w''
    exact leaveWaitlist_refused (hempty k)
  · intro id b hb
    have hset := (exec_effect h id).status
    rw [statusOf, hb, Option.map_some] at hset
    cases hcall : statusSet id w call with
    | some status =>
      rw [hcall, Option.some_or] at hset
      exact Option.some.inj hset ▸ statusSet_cases hcall
    | none =>
      rw [hcall, Option.none_or] at hset
      obtain ⟨b₀, hb₀, hstatus⟩ := Option.map_eq_some_iff.mp hset.symm
      exact hstatus ▸ hw.status id b₀ hb₀

theorem dormant_run (d : Deployment C) (as : List (Action C (Call Address))) :
    Dormant (SorobanHost.run exec d.start as) := by
  have hstart : Dormant d.start := by
    refine ⟨d.start_unpaused, rfl, fun _ => rfl, ?_, ?_⟩
    · intro env member k w'
      exact leaveWaitlist_refused rfl
    · intro id b hb
      exact absurd hb (by simp [d.start_booking])
  refine run_invariant_all (step WorkspaceBooking.exec) ?_ hstart as
  intro w a hw
  refine step_keeps Dormant hw (fun _ _ _ _ h => hw.exec h) (fun _ _ => ?_) fun _ _ _ _ => ?_
  · exact ⟨hw.unpaused, hw.unpaid, hw.waitlist,
      fun _ _ k _ => leaveWaitlist_refused (hw.waitlist k), hw.status⟩
  · exact ⟨hw.unpaused, hw.unpaid, hw.waitlist,
      fun _ _ k _ => leaveWaitlist_refused (hw.waitlist k), hw.status⟩

end HubAssist.WorkspaceBooking
