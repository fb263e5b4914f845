import HubAssist.WorkspaceSlots
import HubAssist.StorageMap

/-! No double booking, over runs of any length: the overlap test of `book` protects a slot as
long as confirmations revive no cancelled booking whose time has been taken. -/
namespace HubAssist.WorkspaceBooking
open SorobanHost CheckedArith RunSystem StorageMap

variable {Address : Type} [DecidableEq Address] {C : Chain Address}
variable {env : Env C} {w w' : BookingWorld C} {call : Call Address}

def Call.Confirms : Call Address → Prop
  | .confirmBooking _ | .batchConfirm _ _ => True
  | _ => False

/-- What a call other than a confirmation does to the bookings: nothing, make a booking in a
free slot, or change the status or escrow of one without bringing it back. -/
inductive Touches (w w' : BookingWorld C) : Prop where
  | nothing (hbooking : w'.store.booking = w.store.booking)
      (hcount : w'.store.bookingCount = w.store.bookingCount)
      (hlists : w'.store.workspaceBookings = w.store.workspaceBookings)
  | books (b : Booking Address) (htime : b.startTime < b.endTime)
      (hstart : w.store.bookingCount.getD 0+1 = b.id)
      (hfree : overlapsAny w.store ((w.store.workspaceBookings b.workspaceId).getD [])
        b.startTime b.endTime = false)
      (hbooking : w'.store.booking = Function.update w.store.booking b.id (some b))
      (hcount : w'.store.bookingCount = some b.id)
      (hlists : w'.store.workspaceBookings = Function.update w.store.workspaceBookings b.workspaceId
        (some ((w.store.workspaceBookings b.workspaceId).getD [] ++ [b.id])))
  | amends (id : ℕ) (b b' : Booking Address) (hb : w.store.booking id = some b)
      (hslot : SameSlot b b') (hstatus : b'.status ≠ .cancelled → b.status ≠ .cancelled)
      (hset : setBooking w id b' = w')

theorem exec_touches (h : exec env call w = .ok w') (hconfirm : ¬call.Confirms) :
    Touches w w' := by
  cases call with
  | initializeContract admin token =>
    simp only [exec, initializeContract, bind_eq_ok, pure_eq_ok] at h
    obtain ⟨_, _, rfl⟩ := h
    exact .nothing rfl rfl rfl
  | registerWorkspaceType caller typeId info =>
    simp only [exec, registerWorkspaceType, bind_eq_ok, pure_eq_ok] at h
    obtain ⟨_, _, _, _, _, _, rfl⟩ := h
    exact .nothing rfl rfl rfl
  | registerWorkspace caller name typeId capacity price =>
    obtain ⟨⟨id, w₁⟩, hr, rfl⟩ := map_eq_ok.mp h
    simp only [registerWorkspace, bind_eq_ok, pure_eq_ok, Prod.mk.injEq] at hr
    obtain ⟨_, _, _, _, _, _, _, _, _, rfl⟩ := hr
    exact .nothing rfl rfl rfl
  | updateWorkspaceAvailability caller id availability =>
    simp only [exec, updateWorkspaceAvailability, bind_eq_ok, pure_eq_ok] at h
    obtain ⟨_, _, _, _, _, _, rfl⟩ := h
    exact .nothing rfl rfl rfl
  | book member id startTime endTime amount hash =>
    obtain ⟨⟨k, w₁⟩, hb, rfl⟩ := map_eq_ok.mp h
    obtain ⟨htime, hfree, hid, rfl⟩ := book_eq_ok hb
    exact .books ⟨k, member, id, startTime, endTime, amount, .pending, hash, 0⟩ htime hid hfree
      rfl rfl rfl
  | confirmBooking => exact absurd trivial hconfirm
  | batchConfirm => exact absurd trivial hconfirm
  | cancel caller id =>
    simp only [exec, cancel, getBooking, bind_eq_ok, getOr_eq_ok, failIf_eq_ok, pure_eq_ok] at h
    obtain ⟨_, _, _, _, b, hb, _, _, _, _, _, _, rfl⟩ := h
    exact .amends id b { b with status := .cancelled } hb ⟨rfl, rfl, rfl⟩
      (fun hne => absurd rfl hne) rfl
  | setBookingEscrow caller id escrowId =>
    simp only [exec, setBookingEscrow, getBooking, bind_eq_ok, getOr_eq_ok, failIf_eq_ok,
      pure_eq_ok] at h
    obtain ⟨_, _, b, hb, _, _, _, _, rfl⟩ := h
    exact .amends id b { b with escrowId := escrowId } hb ⟨rfl, rfl, rfl⟩ (fun hne => hne) rfl
  | transitionWorkspaceState admin id state =>
    simp only [exec, transitionWorkspaceState, bind_eq_ok, pure_eq_ok] at h
    obtain ⟨_, _, _, _, changed, _, rfl⟩ := h
    cases changed
    · exact .nothing rfl rfl rfl
    · exact .nothing rfl rfl rfl
  | leaveWaitlist member id =>
    simp only [exec, leaveWaitlist, bind_eq_ok, pure_eq_ok] at h
    obtain ⟨_, _, _, _, rfl⟩ := h
    exact .nothing rfl rfl rfl
  | updateTierDiscounts caller discounts =>
    simp only [exec, updateTierDiscounts, bind_eq_ok, pure_eq_ok] at h
    obtain ⟨_, _, rfl⟩ := h
    exact .nothing rfl rfl rfl

theorem Touches.listed (h : Touches w w') (hw : Listed w.store) : Listed w'.store := by
  intro k c hc
  cases h with
  | nothing hbooking hcount hlists =>
    rw [hbooking] at hc
    rw [hcount, hlists]
    exact hw k c hc
  | books b htime hstart _ hbooking hcount hlists =>
    rw [hbooking] at hc
    rw [hcount, hlists, Option.getD_some]
    rcases update_cases hc with ⟨hk, hnew⟩ | ⟨_, hold⟩
    · obtain rfl := Option.some.inj hnew
      exact ⟨hk.le, htime, by simp [hk]⟩
    · obtain ⟨hle, hlt, hmem⟩ := hw k c hold
      refine ⟨by omega, hlt, ?_⟩
      by_cases hws : c.workspaceId = b.workspaceId
      · rw [hws, Function.update_self, Option.getD_some, ← hws]
        exact List.mem_append_left _ hmem
      · rwa [Function.update_of_ne hws]
  | amends id b b' hb hslot _ hset =>
    subst hset
    rcases update_cases hc with ⟨rfl, hnew⟩ | ⟨_, hold⟩
    · obtain rfl := Option.some.inj hnew
      rw [hslot.workspaceId, hslot.startTime, hslot.endTime]
      exact hw k b hb
    · exact hw k c hold

theorem Touches.noDoubleBooking (h : Touches w w') (hw : Listed w.store)
    (hfree : NoDoubleBooking w.store) : NoDoubleBooking w'.store := by
  cases h with
  | nothing hbooking _ _ =>
    intro i j c c'
    rw [hbooking]
    exact hfree i j c c'
  | books b htime hstart hclear hbooking _ _ =>
    -- the new booking meets no other one of its workspace, since all of them are on the list
    have hnew (k : ℕ) (c : Booking Address) (hc : w.store.booking k = some c)
        (hws : c.workspaceId = b.workspaceId) (hstatus : c.status ≠ .cancelled) :
        Disjoint b.slot c.slot := by
      obtain ⟨_, hlt, hmem⟩ := hw k c hc
      rw [disjoint_slot_iff htime hlt]
      exact overlapsAny_eq_false.mp hclear k (hws ▸ hmem) c hc hstatus
    intro i j c c' hij hc hc' hws hs hs'
    rw [hbooking] at hc hc'
    rcases update_cases hc with ⟨hi, hb⟩ | ⟨_, hc⟩
    · obtain rfl := Option.some.inj hb
      rw [Function.update_of_ne (hi ▸ hij.symm)] at hc'
      exact hnew j c' hc' hws.symm hs'
    · rcases update_cases hc' with ⟨_, hb⟩ | ⟨_, hc'⟩
      · obtain rfl := Option.some.inj hb
        exact (hnew i c hc hws hs).symm
      · exact hfree i j c c' hij hc hc' hws hs hs'
  | amends id b b' hb hslot hstatus hset =>
    subst hset
    -- each booking now is one from before in the same slot, and is live only if that was
    have hentry (k : ℕ) (c : Booking Address) (hc : (setBooking w id b').store.booking k = some c) :
        ∃ c₀, w.store.booking k = some c₀ ∧ SameSlot c₀ c ∧
          (c.status ≠ .cancelled → c₀.status ≠ .cancelled) := by
      rcases update_cases hc with ⟨rfl, hnew⟩ | ⟨_, hold⟩
      · obtain rfl := Option.some.inj hnew
        exact ⟨b, hb, hslot, hstatus⟩
      · exact ⟨c, hold, ⟨rfl, rfl, rfl⟩, fun hne => hne⟩
    intro i j c c' hij hc hc' hws hs hs'
    obtain ⟨c₀, hc₀, hsame, hlive⟩ := hentry i c hc
    obtain ⟨c₁, hc₁, hsame', hlive'⟩ := hentry j c' hc'
    rw [hsame.slot, hsame'.slot]
    exact hfree i j c₀ c₁ hij hc₀ hc₁
      (by rw [← hsame.workspaceId, ← hsame'.workspaceId, hws]) (hlive hs) (hlive' hs')

/-- Whatever this step confirms is clear of the other bookings. -/
def RevivalsClear (w : BookingWorld C) : Action C (Call Address) → Prop
  | .invoke env (.confirmBooking id) => ConfirmAllowed w env id → Clear w.store [id]
  | .invoke env (.batchConfirm admin ids) => BatchAllowed w env admin ids → Clear w.store ids
  | _ => True

theorem listed_step (hw : Listed w.store) (a : Action C (Call Address)) :
    Listed (step exec w a).store := by
  refine step_keeps (fun v => Listed v.store) hw ?_ (fun _ _ => hw) fun _ _ _ _ => hw
  intro env call w' _ hcall
  by_cases hconfirm : call.Confirms
  · cases call with
    | confirmBooking id =>
      obtain ⟨_, rfl⟩ := confirmBooking_eq_ok.mp hcall
      exact hw.confirmAll [id]
    | batchConfirm admin ids =>
      obtain ⟨_, rfl⟩ := batchConfirm_eq_ok.mp hcall
      exact hw.confirmAll ids
    | _ => exact False.elim hconfirm
  · exact (exec_touches hcall hconfirm).listed hw

/-- A call that confirms `ids` under the guards `Allowed` and does nothing else. -/
theorem noDoubleBooking_confirm (hfree : NoDoubleBooking w.store) {Allowed : Prop} {ids : List ℕ}
    (hcall : ∀ w', exec env call w = .ok w' ↔ Allowed ∧
      w.setStore { w.store with booking := confirmAll w.store.booking ids } = w') :
    NoDoubleBooking (step exec w (.invoke env call)).store ↔ (Allowed → Clear w.store ids) := by
  by_cases hallowed : Allowed
  -- under its guards the call is accepted, and then it writes what it confirms
  · rw [step_invoke_ok ((hcall _).mpr ⟨hallowed, rfl⟩), World.setStore_store,
      noDoubleBooking_confirmAll hfree]
    exact ⟨fun h _ => h, fun h => h hallowed⟩
  · cases h : exec env call w with
    | error fault =>
      rw [step_invoke_error h]
      exact iff_of_true hfree fun h => absurd h hallowed
    | ok w' => exact absurd ((hcall w').mp h).1 hallowed

/-- One step keeps the bookings apart exactly when whatever it confirms is clear. -/
theorem noDoubleBooking_step (hw : Listed w.store) (hfree : NoDoubleBooking w.store)
    (a : Action C (Call Address)) :
    NoDoubleBooking (step exec w a).store ↔ RevivalsClear w a := by
  have hother (env : Env C) (call : Call Address) (hconfirm : ¬call.Confirms) :
      NoDoubleBooking (step exec w (.invoke env call)).store := by
    cases hcall : exec env call w with
    | error fault => rwa [step_invoke_error hcall]
    | ok w' =>
      rw [step_invoke_ok hcall]
      exact (exec_touches hcall hconfirm).noDoubleBooking hw hfree
  cases a with
  | tick d => exact iff_of_true hfree trivial
  | external token next =>
    exact iff_of_true (step_external_keeps (fun v => NoDoubleBooking v.store) hfree hfree) trivial
  | invoke env call =>
    cases call with
    | confirmBooking id => exact noDoubleBooking_confirm hfree fun w' => confirmBooking_eq_ok
    | batchConfirm admin ids => exact noDoubleBooking_confirm hfree fun w' => batchConfirm_eq_ok
    | _ => exact iff_of_true (hother env _ fun h => h) trivial

/-- A contract on which `initializeContract` has been called. -/
structure Deployment (C : Chain Address) where
  admin : Address
  paymentToken : Address
  tokens : Address → C.token.State
  now : ℕ

namespace Deployment

def deployed (d : Deployment C) : BookingWorld C := ⟨Storage.empty, d.tokens, [], d.now⟩

def start (d : Deployment C) : BookingWorld C :=
  d.deployed.setStore { d.deployed.store with
    admin := some d.admin
    paymentToken := some d.paymentToken
    workspaceTypeRegistry := some canonicalTypes }

theorem start_eq (d : Deployment C) {env : Env C} (h : d.admin ∈ env.signers) :
    initializeContract env d.admin d.paymentToken d.deployed = .ok d.start := by
  simp only [initializeContract, bind_eq_ok, requireAuth_eq_ok, exists_const, pure_eq_ok]
  exact ⟨h, rfl⟩

theorem start_booking (d : Deployment C) (id : ℕ) : d.start.store.booking id = none := rfl

end Deployment

/-- The workspaces of a run are never double booked exactly when none of its confirmations
revives a cancelled booking that meets another one. -/
theorem noDoubleBooking_run (d : Deployment C) (as : List (Action C (Call Address))) :
    Always (step exec) (fun w => NoDoubleBooking w.store) d.start as ↔
      Guarded (step exec) RevivalsClear d.start as := by
  have hlisted : Listed d.start.store := fun id b hb => absurd hb (by simp [d.start_booking])
  have hfree : NoDoubleBooking d.start.store :=
    fun i j b b' _ hb => absurd hb (by simp [d.start_booking])
  exact always_iff_guarded (step exec) (fun _ a hw => listed_step hw a)
    (fun _ a hw h => noDoubleBooking_step hw h a) hlisted hfree

def smallDeployment : Deployment numberedChain := ⟨1, 9, fun _ _ => (0 : ℕ), 0⟩

/-- A booking is cancelled, its slot is booked again, and then it is confirmed. -/
def confirmCancelled : List (Action numberedChain (Call ℕ)) :=
  [.invoke (signedBy 0) (.registerWorkspace 1 "desk" 1 1 2),
   .invoke (signedBy 1) (.book 2 1 0 7200 10 0),
   .invoke (signedBy 1) (.cancel 2 1),
   .invoke (signedBy 2) (.book 3 1 3600 7200 10 0),
   .invoke (signedBy 0) (.confirmBooking 1)]

theorem doubleBooking_confirmCancelled :
    ¬Always (step exec) (fun w => NoDoubleBooking w.store) smallDeployment.start
      confirmCancelled := by
  intro h
  have hend := (always_iff_prefixes (step exec) _ _ _).mp h confirmCancelled [] (by simp)
  have hdisjoint := hend 1 2 ⟨1, 2, 1, 0, 7200, 10, .confirmed, 0, 0⟩
    ⟨2, 3, 1, 3600, 7200, 10, .pending, 0, 0⟩ (by decide) (by decide) (by decide) rfl
    (by decide) (by decide)
  rw [disjoint_slot_iff (by decide) (by decide)] at hdisjoint
  revert hdisjoint
  decide

end HubAssist.WorkspaceBooking
