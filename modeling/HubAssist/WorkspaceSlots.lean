import HubAssist.WorkspaceModel
import Mathlib.Order.CompletePartialOrder
import Mathlib.Order.Interval.Set.Disjoint
import Mathlib.Order.Interval.Set.LinearOrder

/-! Which bookings occupy a workspace at the same time. Only a confirmation can bring a
cancelled booking back, and it does not look at the other bookings. -/
namespace HubAssist.WorkspaceBooking
open SorobanHost CheckedArith RunSystem

variable {Address : Type}

/-- The time a booking takes, its end excluded. -/
def Booking.slot (b : Booking Address) : Set ℕ := Set.Ico b.startTime b.endTime

/-- No two bookings of a workspace that are not cancelled share a moment. -/
def NoDoubleBooking (s : Storage Address) : Prop :=
  ∀ i j b b', i ≠ j → s.booking i = some b → s.booking j = some b' →
    b.workspaceId = b'.workspaceId → b.status ≠ .cancelled → b'.status ≠ .cancelled →
      Disjoint b.slot b'.slot

/-- Bookings are numbered within the counter, take some time and stand on the list of their
workspace. -/
def Listed (s : Storage Address) : Prop :=
  ∀ id b, s.booking id = some b → id ≤ s.bookingCount.getD 0 ∧ b.startTime < b.endTime ∧
    id ∈ (s.workspaceBookings b.workspaceId).getD []

/-- The same booking, up to its status and its escrow. -/
structure SameSlot (b b' : Booking Address) : Prop where
  workspaceId : b'.workspaceId = b.workspaceId
  startTime : b'.startTime = b.startTime
  endTime : b'.endTime = b.endTime

theorem SameSlot.slot {b b' : Booking Address} (h : SameSlot b b') : b'.slot = b.slot := by
  rw [Booking.slot, Booking.slot, h.startTime, h.endTime]

theorem disjoint_slot_iff {b b' : Booking Address} (h : b.startTime < b.endTime)
    (h' : b'.startTime < b'.endTime) :
    Disjoint b.slot b'.slot ↔ b.endTime ≤ b'.startTime ∨ b'.endTime ≤ b.startTime := by
  rw [Booking.slot, Booking.slot, Set.Ico_disjoint_Ico]
  omega

/-- The overlap loop finds nothing exactly when every listed booking that is not cancelled
ends before the time asked for or starts after it. -/
theorem overlapsAny_eq_false {s : Storage Address} {ids : List ℕ} {startTime endTime : ℕ} :
    overlapsAny s ids startTime endTime = false ↔ ∀ id ∈ ids, ∀ b, s.booking id = some b →
      b.status ≠ .cancelled → endTime ≤ b.startTime ∨ b.endTime ≤ startTime := by
  rw [overlapsAny, List.any_eq_false]
  refine forall₂_congr fun id _ => ?_
  cases h : s.booking id with
  | none => simp
  | some b => simp [or_iff_not_imp_left]

theorem confirmAll_apply (bookings : ℕ → Option (Booking Address)) (ids : List ℕ) (id : ℕ) :
    confirmAll bookings ids id =
      if id ∈ ids then (bookings id).map fun b => { b with status := .confirmed }
      else bookings id := by
  induction ids generalizing bookings with
  | nil => rfl
  | cons k ids ih =>
    rw [confirmAll, List.foldl_cons]
    refine (ih _).trans ?_
    by_cases hk : id = k
    · subst hk
      cases bookings id <;> simp
    · simp [hk]

/-- What the ids of a confirmation must be clear of: a cancelled booking among them must not
meet a booking that is not cancelled, nor another one among them. -/
def Clear (s : Storage Address) (ids : List ℕ) : Prop :=
  ∀ i ∈ ids, ∀ b, s.booking i = some b → b.status = .cancelled → ∀ j b', j ≠ i →
    s.booking j = some b' → b'.workspaceId = b.workspaceId →
      b'.status ≠ .cancelled ∨ j ∈ ids → Disjoint b.slot b'.slot

theorem confirmed_entry {s : Storage Address} {ids : List ℕ} {id : ℕ} {b : Booking Address}
    (h : confirmAll s.booking ids id = some b) :
    ∃ b₀, s.booking id = some b₀ ∧ SameSlot b₀ b ∧
      (b.status ≠ .cancelled → b₀.status ≠ .cancelled ∨ id ∈ ids) := by
  rw [confirmAll_apply] at h
  split_ifs at h with hid
  · obtain ⟨b₀, hb₀, rfl⟩ := Option.map_eq_some_iff.mp h
    exact ⟨b₀, hb₀, ⟨rfl, rfl, rfl⟩, fun _ => Or.inr hid⟩
  · exact ⟨b, h, ⟨rfl, rfl, rfl⟩, fun hb => Or.inl hb⟩

theorem confirmed_occupied {s : Storage Address} {ids : List ℕ} {id : ℕ} {b : Booking Address}
    (h : s.booking id = some b) (hb : b.status ≠ .cancelled ∨ id ∈ ids) :
    ∃ b', confirmAll s.booking ids id = some b' ∧ SameSlot b b' ∧ b'.status ≠ .cancelled := by
  rw [confirmAll_apply]
  by_cases hid : id ∈ ids
  · rw [if_pos hid, h]
    exact ⟨{ b with status := .confirmed }, rfl, ⟨rfl, rfl, rfl⟩, BookingStatus.noConfusion⟩
  · rw [if_neg hid]
    exact ⟨b, h, ⟨rfl, rfl, rfl⟩, hb.resolve_right hid⟩

/-- A confirmation keeps the bookings apart exactly when what it confirms is clear. -/
theorem noDoubleBooking_confirmAll {s : Storage Address} (h : NoDoubleBooking s) (ids : List ℕ) :
    NoDoubleBooking { s with booking := confirmAll s.booking ids } ↔ Clear s ids := by
  constructor
  · intro h' i hi b hb _ j b' hji hb' hsame hoccupied
    obtain ⟨c, hc, hslot, hstatus⟩ := confirmed_occupied hb (Or.inr hi)
    obtain ⟨c', hc', hslot', hstatus'⟩ := confirmed_occupied hb' hoccupied
    have hws : c.workspaceId = c'.workspaceId := by
      rw [hslot.workspaceId, hslot'.workspaceId, hsame]
    have hdisjoint := h' i j c c' hji.symm hc hc' hws hstatus hstatus'
    rwa [hslot.slot, hslot'.slot] at hdisjoint
  · intro hclear i j c c' hij hc hc' hsame hstatus hstatus'
    obtain ⟨b, hb, hslot, hoccupied⟩ := confirmed_entry hc
    obtain ⟨b', hb', hslot', hoccupied'⟩ := confirmed_entry hc'
    have hws : b.workspaceId = b'.workspaceId := by
      rw [← hslot.workspaceId, ← hslot'.workspaceId, hsame]
    rw [hslot.slot, hslot'.slot]
    -- of two bookings that meet after it, one that was cancelled has been confirmed and is
    -- clear; where neither was cancelled they were apart before
    by_cases hcancelled : b.status = .cancelled
    · have hi := (hoccupied hstatus).resolve_left fun hne => hne hcancelled
      exact hclear i hi b hb hcancelled j b' hij.symm hb' hws.symm (hoccupied' hstatus')
    · by_cases hcancelled' : b'.status = .cancelled
      · have hj := (hoccupied' hstatus').resolve_left fun hne => hne hcancelled'
        exact (hclear j hj b' hb' hcancelled' i b hij hb hws (Or.inl hcancelled)).symm
      · exact h i j b b' hij hb hb' hws hcancelled hcancelled'

theorem Listed.confirmAll {s : Storage Address} (h : Listed s) (ids : List ℕ) :
    Listed { s with booking := confirmAll s.booking ids } := by
  intro id b hb
  obtain ⟨b₀, hb₀, hslot, _⟩ := confirmed_entry hb
  have hlisted := h id b₀ hb₀
  rw [hslot.workspaceId, hslot.startTime, hslot.endTime]
  exact hlisted

variable [DecidableEq Address] {C : Chain Address}
variable {env : Env C} {w w' : BookingWorld C} {call : Call Address}

def Paused (w : BookingWorld C) : Prop := w.store.paused.getD false = true

/-- The guards of `confirmBooking`. -/
def ConfirmAllowed (w : BookingWorld C) (env : Env C) (id : ℕ) : Prop :=
  ¬Paused w ∧ (∃ admin, w.store.admin = some admin ∧ admin ∈ env.signers) ∧
    ∃ b, w.store.booking id = some b ∧ b.status ≠ .confirmed

/-- The guards of `batchConfirm`. -/
def BatchAllowed (w : BookingWorld C) (env : Env C) (admin : Address) (ids : List ℕ) : Prop :=
  ¬Paused w ∧ w.store.admin = some admin ∧ admin ∈ env.signers ∧ ids.length ≤ maxBatchSize ∧
    ∀ id ∈ ids, ∃ b, w.store.booking id = some b ∧ b.status ≠ .confirmed ∧
      ∃ workspace, w.store.workspace b.workspaceId = some workspace ∧
        workspace.availability = .available

theorem requireAdmin_eq_ok {caller : Address} {u : Unit} :
    requireAdmin env w caller = .ok u ↔ w.store.admin = some caller ∧ caller ∈ env.signers := by
  simp only [requireAdmin, bind_eq_ok, getOr_eq_ok, requireAuth_eq_ok, failIf_eq_ok, exists_const,
    not_not]
  constructor
  · rintro ⟨admin, ha, hs, rfl⟩
    exact ⟨ha, hs⟩
  · rintro ⟨ha, hs⟩
    exact ⟨caller, ha, hs, rfl⟩

theorem preValidate_eq_ok {ids : List ℕ} {u : Unit} :
    preValidate w ids = .ok u ↔ ∀ id ∈ ids, ∃ b, w.store.booking id = some b ∧
      b.status ≠ .confirmed ∧ ∃ workspace, w.store.workspace b.workspaceId = some workspace ∧
        workspace.availability = .available := by
  induction ids with
  | nil => simp [preValidate]
  | cons id ids ih =>
    simp only [preValidate, getBooking, getWorkspace, bind_eq_ok, getOr_eq_ok, failIf_eq_ok,
      exists_const, ih, List.forall_mem_cons, not_not]
    constructor
    · rintro ⟨b, hb, hstatus, workspace, hw, havailable, hids⟩
      exact ⟨⟨b, hb, hstatus, workspace, hw, havailable⟩, hids⟩
    · rintro ⟨⟨b, hb, hstatus, workspace, hw, havailable⟩, hids⟩
      exact ⟨b, hb, hstatus, workspace, hw, havailable, hids⟩

theorem confirmBooking_eq_ok {id : ℕ} :
    confirmBooking env id w = .ok w' ↔ ConfirmAllowed w env id ∧
      w.setStore { w.store with booking := confirmAll w.store.booking [id] } = w' := by
  simp only [confirmBooking, requireNotPaused, getBooking, bind_eq_ok, failIf_eq_ok, getOr_eq_ok,
    requireAuth_eq_ok, pure_eq_ok, exists_const, ConfirmAllowed, Paused, setBooking]
  constructor
  · rintro ⟨hp, admin, ha, hs, b, hb, hstatus, rfl⟩
    exact ⟨⟨hp, ⟨admin, ha, hs⟩, b, hb, hstatus⟩, by simp [confirmAll, hb]⟩
  · rintro ⟨⟨hp, ⟨admin, ha, hs⟩, b, hb, hstatus⟩, rfl⟩
    exact ⟨hp, admin, ha, hs, b, hb, hstatus, by simp [confirmAll, hb]⟩

theorem batchConfirm_eq_ok {admin : Address} {ids : List ℕ} :
    batchConfirm env admin ids w = .ok w' ↔ BatchAllowed w env admin ids ∧
      w.setStore { w.store with booking := confirmAll w.store.booking ids } = w' := by
  simp only [batchConfirm, requireNotPaused, bind_eq_ok, failIf_eq_ok, requireAdmin_eq_ok,
    preValidate_eq_ok, pure_eq_ok, exists_const, BatchAllowed, Paused, not_lt, and_assoc]

theorem book_eq_ok {member : Address} {workspaceId startTime endTime id : ℕ} {amount : ℤ}
    {hash : BitVec 256}
    (h : book env member workspaceId startTime endTime amount hash w = .ok (id, w')) :
    startTime < endTime ∧
      overlapsAny w.store ((w.store.workspaceBookings workspaceId).getD []) startTime endTime =
        false ∧
      w.store.bookingCount.getD 0+1 = id ∧
      w.setStore { w.store with
        booking := Function.update w.store.booking id (some
          ⟨id, member, workspaceId, startTime, endTime, amount, .pending, hash, 0⟩)
        bookingCount := some id
        workspaceBookings := Function.update w.store.workspaceBookings workspaceId
          (some ((w.store.workspaceBookings workspaceId).getD [] ++ [id]))
        memberBookings := Function.update w.store.memberBookings member
          (some ((w.store.memberBookings member).getD [] ++ [id])) } = w' := by
  simp only [book, requireNotPaused, getWorkspace, bind_eq_ok, failIf_eq_ok, requireAuth_eq_ok,
    getOr_eq_ok, checked_eq_ok, u64Add_eq_some, pure_eq_ok, exists_const, Prod.mk.injEq] at h
  obtain ⟨_, _, htime, _, _, _, _, _, _, _, _, _, hfree, _, ⟨_, hid⟩, rfl, rfl⟩ := h
  exact ⟨not_le.mp htime, Bool.eq_false_of_not_eq_true hfree, hid, rfl⟩

end HubAssist.WorkspaceBooking
