import HubAssist.NumberedTable
import HubAssist.WorkspaceOccupancy

/-! Where a booking stands: its record, the list of its member and the list of its workspace. The
three agree with the `book` calls that have been accepted. -/
namespace HubAssist.WorkspaceBooking
open SorobanHost CheckedArith RunSystem NumberedTable

variable {Address : Type}

/-- What a `book` call asks for, under the number that it returns. -/
structure Asked (Address : Type) where
  id : ℕ
  member : Address
  workspaceId : ℕ
  startTime : ℕ
  endTime : ℕ
  amount : ℤ
  deriving DecidableEq

/-- The fields of a booking that come from the call that has made it. -/
def Booking.asked (b : Booking Address) : Asked Address :=
  ⟨b.id, b.member, b.workspaceId, b.startTime, b.endTime, b.amount⟩

/-- All bookings in the order in which they were made. -/
def bookings (s : Storage Address) : List (Booking Address) :=
  records (s.bookingCount.getD 0) s.booking

variable [DecidableEq Address] {C : Chain Address}
variable {env : Env C} {w w' : BookingWorld C} {call : Call Address}

/-- The booking that this step makes, as it was asked for. -/
def accepted (w : BookingWorld C) : Action C (Call Address) → List (Asked Address)
  | .invoke env (.book member workspaceId startTime endTime amount hash) =>
    match book env member workspaceId startTime endTime amount hash w with
    | .ok (id, _) => [⟨id, member, workspaceId, startTime, endTime, amount⟩]
    | .error _ => []
  | _ => []

/-- The records are what was asked for, and each list holds the bookings it should. -/
structure BookingsExact (w : BookingWorld C) (asked : List (Asked Address)) : Prop where
  numbered : ∀ id, (w.store.booking id).isSome = true ↔
    1 ≤ id ∧ id ≤ w.store.bookingCount.getD 0
  ids : (bookings w.store).map Booking.id = List.range' 1 (w.store.bookingCount.getD 0)
  own : ∀ id b, w.store.booking id = some b → b.id = id ∧ b.startTime < b.endTime
  made : (bookings w.store).map Booking.asked = asked
  ofMember : ∀ member, listMemberBookings w member =
    (bookings w.store).filter fun b => b.member = member
  ofWorkspace : ∀ workspaceId, (w.store.workspaceBookings workspaceId).getD [] =
    ((bookings w.store).filter fun b => b.workspaceId = workspaceId).map Booking.id

/-- What an accepted call does to the bookings and their lists: it makes the next one, or changes
nothing that was asked for. -/
inductive Files (w w' : BookingWorld C) : List (Asked Address) → Prop where
  | makes (b : Booking Address) (htime : b.startTime < b.endTime)
      (hid : b.id = w.store.bookingCount.getD 0+1)
      (hbooking : w'.store.booking =
        Function.update w.store.booking (w.store.bookingCount.getD 0+1) (some b))
      (hcount : w'.store.bookingCount = some (w.store.bookingCount.getD 0+1))
      (hworkspace : w'.store.workspaceBookings = Function.update w.store.workspaceBookings
        b.workspaceId (some ((w.store.workspaceBookings b.workspaceId).getD [] ++
          [w.store.bookingCount.getD 0+1])))
      (hmember : w'.store.memberBookings = Function.update w.store.memberBookings b.member
        (some ((w.store.memberBookings b.member).getD [] ++
          [w.store.bookingCount.getD 0+1]))) : Files w w' [b.asked]
  | keeps (hbooking : ∀ id, (w'.store.booking id).map Booking.asked =
        (w.store.booking id).map Booking.asked)
      (hcount : w'.store.bookingCount = w.store.bookingCount)
      (hworkspace : w'.store.workspaceBookings = w.store.workspaceBookings)
      (hmember : w'.store.memberBookings = w.store.memberBookings) : Files w w' []

theorem Files.unread (hbooking : w'.store.booking = w.store.booking)
    (hcount : w'.store.bookingCount = w.store.bookingCount)
    (hworkspace : w'.store.workspaceBookings = w.store.workspaceBookings)
    (hmember : w'.store.memberBookings = w.store.memberBookings) : Files w w' [] :=
  .keeps (fun id => by rw [hbooking]) hcount hworkspace hmember

theorem setBooking_booking (w : BookingWorld C) (id : ℕ) (b : Booking Address) :
    (setBooking w id b).store.booking = Function.update w.store.booking id (some b) := rfl

theorem Files.setBooking {id : ℕ} {b b' : Booking Address} (hb : w.store.booking id = some b)
    (hasked : b'.asked = b.asked) : Files w (setBooking w id b') [] := by
  refine .keeps (fun k => ?_) rfl rfl rfl
  by_cases hk : k = id
  · subst hk
    rw [setBooking_booking, Function.update_self, hb, Option.map_some, Option.map_some, hasked]
  · rw [setBooking_booking, Function.update_of_ne hk]

theorem Files.confirmAll (w : BookingWorld C) (ids : List ℕ) :
    Files w (w.setStore { w.store with booking := confirmAll w.store.booking ids }) [] := by
  refine .keeps (fun k => ?_) rfl rfl rfl
  change (WorkspaceBooking.confirmAll w.store.booking ids k).map Booking.asked = _
  rw [confirmAll_apply]
  split_ifs
  · cases w.store.booking k <;> rfl
  · rfl

theorem book_files {member : Address} {workspaceId startTime endTime id : ℕ} {amount : ℤ}
    {hash : BitVec 256}
    (h : book env member workspaceId startTime endTime amount hash w = .ok (id, w')) :
    Files w w' [⟨id, member, workspaceId, startTime, endTime, amount⟩] := by
  obtain ⟨htime, _, rfl, rfl⟩ := book_eq_ok h
  exact .makes ⟨_, member, workspaceId, startTime, endTime, amount, .pending, hash, 0⟩ htime rfl
    rfl rfl rfl rfl

theorem exec_files (h : exec env call w = .ok w') : Files w w' (accepted w (.invoke env call)) := by
  cases call with
  | initializeContract admin token =>
    simp only [exec, initializeContract, bind_eq_ok, pure_eq_ok] at h
    obtain ⟨_, _, rfl⟩ := h
    exact .unread rfl rfl rfl rfl
  | registerWorkspaceType caller typeId info =>
    simp only [exec, registerWorkspaceType, bind_eq_ok, pure_eq_ok] at h
    obtain ⟨_, _, _, _, _, _, rfl⟩ := h
    exact .unread rfl rfl rfl rfl
  | registerWorkspace caller name typeId capacity price =>
    obtain ⟨⟨id, w₁⟩, hr, rfl⟩ := map_eq_ok.mp h
    simp only [registerWorkspace, bind_eq_ok, pure_eq_ok, Prod.mk.injEq] at hr
    obtain ⟨_, _, _, _, _, _, _, _, _, rfl⟩ := hr
    exact .unread rfl rfl rfl rfl
  | updateWorkspaceAvailability caller id availability =>
    simp only [exec, updateWorkspaceAvailability, bind_eq_ok, pure_eq_ok] at h
    obtain ⟨_, _, _, _, _, _, rfl⟩ := h
    exact .unread rfl rfl rfl rfl
  | book member workspaceId startTime endTime amount hash =>
    obtain ⟨⟨id, w₁⟩, hb, rfl⟩ := map_eq_ok.mp h
    rw [accepted, hb]
    exact book_files hb
  | confirmBooking id =>
    obtain ⟨_, rfl⟩ := confirmBooking_eq_ok.mp h
    exact .confirmAll w [id]
  | batchConfirm admin ids =>
    obtain ⟨_, rfl⟩ := batchConfirm_eq_ok.mp h
    exact .confirmAll w ids
  | cancel caller id =>
    simp only [exec, cancel, getBooking, bind_eq_ok, getOr_eq_ok, pure_eq_ok] at h
    obtain ⟨_, _, _, _, b, hb, _, _, _, _, _, _, rfl⟩ := h
    exact .setBooking hb rfl
  | setBookingEscrow caller id escrowId =>
    simp only [exec, setBookingEscrow, getBooking, bind_eq_ok, getOr_eq_ok, pure_eq_ok] at h
    obtain ⟨_, _, b, hb, _, _, _, _, rfl⟩ := h
    exact .setBooking hb rfl
  | transitionWorkspaceState admin id state =>
    simp only [exec, transitionWorkspaceState, bind_eq_ok, pure_eq_ok] at h
    obtain ⟨_, _, _, _, changed, _, rfl⟩ := h
    cases changed
    · exact .unread rfl rfl rfl rfl
    · exact .unread rfl rfl rfl rfl
  | leaveWaitlist member id =>
    simp only [exec, leaveWaitlist, bind_eq_ok, pure_eq_ok] at h
    obtain ⟨_, _, _, _, rfl⟩ := h
    exact .unread rfl rfl rfl rfl
  | updateTierDiscounts caller discounts =>
    simp only [exec, updateTierDiscounts, bind_eq_ok, pure_eq_ok] at h
    obtain ⟨_, _, rfl⟩ := h
    exact .unread rfl rfl rfl rfl

theorem accepted_error {fault : Fault ContractError} (h : exec env call w = .error fault) :
    accepted w (.invoke env call) = [] := by
  cases call with
  | book member workspaceId startTime endTime amount hash =>
    cases hb : book env member workspaceId startTime endTime amount hash w with
    | ok result => rw [exec, hb] at h; cases h
    | error fault => rw [accepted, hb]
  | _ => rfl

/-- The records and the two indexes, as one invariant. -/
structure Indexes (w : BookingWorld C) (asked : List (Asked Address)) : Prop where
  logged : Logged Booking.asked Asked.id (w.store.bookingCount.getD 0) w.store.booking asked
  timed : ∀ r ∈ asked, r.startTime < r.endTime
  members : Indexed (fun b => b.asked.member) (w.store.bookingCount.getD 0) w.store.booking
    w.store.memberBookings
  workspaces : Indexed (fun b => b.asked.workspaceId) (w.store.bookingCount.getD 0) w.store.booking
    w.store.workspaceBookings

theorem Files.indexes {asked new : List (Asked Address)} (h : Files w w' new)
    (hw : Indexes w asked) : Indexes w' (asked ++ new) := by
  cases h with
  | makes b htime hid hbooking hcount hworkspace hmember =>
    refine ⟨?_, ?_, ?_, ?_⟩
    · rw [hcount, hbooking]
      exact hw.logged.push b hid
    · intro r hr
      rcases List.mem_append.mp hr with hold | hnew
      · exact hw.timed r hold
      · rw [List.mem_singleton.mp hnew]
        exact htime
    · rw [hcount, hbooking, hmember]
      exact hw.members.push b
    · rw [hcount, hbooking, hworkspace]
      exact hw.workspaces.push b
  | keeps hbooking hcount hworkspace hmember =>
    rw [List.append_nil]
    refine ⟨?_, hw.timed, ?_, ?_⟩
    · rw [hcount]
      exact hw.logged.congr hbooking
    · rw [hcount, hmember]
      exact hw.members.congr_summary hbooking
    · rw [hcount, hworkspace]
      exact hw.workspaces.congr_summary hbooking

theorem Indexes.step {asked : List (Asked Address)} (hw : Indexes w asked)
    (a : Action C (Call Address)) :
    Indexes (SorobanHost.step exec w a) (asked ++ accepted w a) := by
  refine step_emits Indexes accepted hw ?_ (fun _ _ _ => accepted_error) (fun d => ⟨rfl, ?_⟩)
    (fun token next => ⟨rfl, ?_⟩) a
  · intro env call w' hcall
    exact (exec_files hcall).indexes hw
  -- neither the clock nor a ledger is in the indexes
  · exact ⟨hw.logged, hw.timed, hw.members, hw.workspaces⟩
  · exact ⟨hw.logged, hw.timed, hw.members, hw.workspaces⟩

theorem Indexes.bookingsExact {asked : List (Asked Address)} (hw : Indexes w asked) :
    BookingsExact w asked := by
  refine ⟨hw.logged.dense, hw.logged.map_records, fun id b hb => ⟨?_, ?_⟩, hw.logged.entered,
    hw.members.lookup, hw.workspaces.map_number hw.logged.dense hw.logged.own⟩
  · exact hw.logged.own id b hb
  · exact hw.timed b.asked (hw.logged.mem hb)

theorem Deployment.start_indexes (d : Deployment C) : Indexes d.start [] :=
  ⟨logged_empty _ _, by simp, indexed_empty _, indexed_empty _⟩

/-- In every state the bookings are those of the accepted `book` calls, in order, and both kinds of
lists hold exactly the bookings they are about. -/
theorem bookings_exact (d : Deployment C) (as : List (Action C (Call Address))) :
    BookingsExact (run exec d.start as) (trace (SorobanHost.step exec) accepted d.start as) := by
  have hrun := trace_invariant_all (SorobanHost.step exec) accepted (J := Indexes)
    (fun _ a _ hw => hw.step a) d.start_indexes as
  exact hrun.bookingsExact

end HubAssist.WorkspaceBooking
