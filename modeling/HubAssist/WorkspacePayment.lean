import HubAssist.WorkspaceRecords
import Mathlib.Algebra.Order.Floor.Div

/-! The price test of `book`. Prices and times are taken as they come, so a price may not fit the
machine's integers, and it may be negative. -/
namespace HubAssist.WorkspaceBooking
open Checks SorobanHost CheckedArith RunSystem

/-- The price test on its own. -/
def priceTest (pricePerHour : ℤ) (startTime endTime : ℕ) (amount : ℤ) :
    Except (Fault ContractError) Unit := do
  let rounded ← checked (u64Add (endTime-startTime) 3599)
  let price ← checked (i128Mul pricePerHour (rounded/3600 : ℕ))
  failIf (amount < price) (.error .insufficientPayment)

/-- The price of a time in unbounded integers, every hour begun counted whole. -/
def price (pricePerHour : ℤ) (startTime endTime : ℕ) : ℤ :=
  pricePerHour*((endTime-startTime) ⌈/⌉ 3600 : ℕ)

/-- The hours and the price both fit. -/
def PriceFits (pricePerHour : ℤ) (startTime endTime : ℕ) : Prop :=
  endTime-startTime+3599 < u64Bound ∧ InI128 (price pricePerHour startTime endTime)

instance (pricePerHour : ℤ) (startTime endTime : ℕ) :
    Decidable (PriceFits pricePerHour startTime endTime) :=
  inferInstanceAs (Decidable (_ ∧ _))

variable {pricePerHour amount : ℤ} {startTime endTime : ℕ}

theorem priceTest_of_fits (h : PriceFits pricePerHour startTime endTime) :
    priceTest pricePerHour startTime endTime amount =
      failIf (amount < price pricePerHour startTime endTime) (.error .insufficientPayment) := by
  obtain ⟨hrounded, hprice⟩ := h
  have hadd : u64Add (endTime-startTime) 3599 = some (endTime-startTime+3599) := if_pos hrounded
  have hmul : i128Mul pricePerHour ((endTime-startTime+3599)/3600 : ℕ) =
      some (price pricePerHour startTime endTime) := i128Mul_eq_some.mpr ⟨hprice, rfl⟩
  rw [priceTest, checked_eq_ok.mpr hadd, ok_bind, checked_eq_ok.mpr hmul, ok_bind]

theorem priceTest_of_not_fits (h : ¬PriceFits pricePerHour startTime endTime) :
    priceTest pricePerHour startTime endTime amount = .error .overflow := by
  by_cases hrounded : endTime-startTime+3599 < u64Bound
  · have hadd : u64Add (endTime-startTime) 3599 = some (endTime-startTime+3599) := if_pos hrounded
    have hmul : i128Mul pricePerHour ((endTime-startTime+3599)/3600 : ℕ) = none :=
      if_neg fun hprice => h ⟨hrounded, hprice⟩
    rw [priceTest, checked_eq_ok.mpr hadd, ok_bind, hmul]
    exact error_bind _ _
  · have hadd : u64Add (endTime-startTime) 3599 = none := if_neg hrounded
    rw [priceTest, hadd]
    exact error_bind _ _

variable {Address : Type} [DecidableEq Address] {C : Chain Address}
variable {env : Env C} {w w' : BookingWorld C}

/-- What `book` does after the price test. -/
def reserve (member : Address) (workspaceId startTime endTime : ℕ) (amount : ℤ)
    (stellarTxHash : BitVec 256) (w : BookingWorld C) :
    Except (Fault ContractError) (ℕ × BookingWorld C) := do
  let booked := (w.store.workspaceBookings workspaceId).getD []
  failIf (overlapsAny w.store booked startTime endTime = true) (.error .overlappingBooking)
  let id ← checked (u64Add (w.store.bookingCount.getD 0) 1)
  let b : Booking Address :=
    ⟨id, member, workspaceId, startTime, endTime, amount, .pending, stellarTxHash, 0⟩
  return (id, w.setStore { w.store with
    booking := Function.update w.store.booking id (some b)
    bookingCount := some id
    workspaceBookings := Function.update w.store.workspaceBookings workspaceId (some (booked ++ [id]))
    memberBookings := Function.update w.store.memberBookings member
      (some ((w.store.memberBookings member).getD [] ++ [id])) })

/-- A signed call for a workspace that is open, with a time that does not end before it starts,
comes to the price test. -/
structure Tested (env : Env C) (w : BookingWorld C) (workspace : Workspace) (member : Address)
    (workspaceId startTime endTime : ℕ) : Prop where
  unpaused : ¬Paused w
  signed : member ∈ env.signers
  time : startTime < endTime
  stored : w.store.workspace workspaceId = some workspace
  state : workspace.state = .available
  availability : workspace.availability = .available

variable {workspace : Workspace} {member : Address} {id : ℕ} {hash : BitVec 256}

theorem book_eq (h : Tested env w workspace member id startTime endTime) :
    book env member id startTime endTime amount hash w =
      priceTest workspace.pricePerHour startTime endTime amount >>= fun _ =>
        reserve member id startTime endTime amount hash w := by
  -- all the checks in front of the price test pass
  have hpaused : requireNotPaused w = .ok () := failIf_eq_ok.mpr h.unpaused
  have hsigned : (requireAuth env member : Except (Fault ContractError) Unit) = .ok () :=
    requireAuth_eq_ok.mpr h.signed
  have htime : (failIf (endTime ≤ startTime) (.error .invalidTimeRange) :
      Except (Fault ContractError) Unit) = .ok () := failIf_eq_ok.mpr h.time.not_ge
  have hstored : getWorkspace w id = .ok workspace := getOr_eq_ok.mpr h.stored
  have hstate : (failIf (workspace.state ≠ .available) (.error .workspaceUnavailable) :
      Except (Fault ContractError) Unit) = .ok () := failIf_eq_ok.mpr (not_not.mpr h.state)
  have havailable : (failIf (workspace.availability ≠ .available) (.error .workspaceUnavailable) :
      Except (Fault ContractError) Unit) = .ok () := failIf_eq_ok.mpr (not_not.mpr h.availability)
  rw [book, hpaused, ok_bind, hsigned, ok_bind, htime, ok_bind, hstored, ok_bind, hstate, ok_bind,
    havailable, ok_bind]
  simp only [priceTest, reserve, bind_assoc]

/-- The call traps for want of a number for the booking at most, and never in the price test; no
booking is stored with a negative amount; and the call is rejected for its payment exactly when that
is below the price, or below zero. -/
structure PaymentLaw (env : Env C) (w : BookingWorld C) (workspace : Workspace) (member : Address)
    (id startTime endTime : ℕ) (amount : ℤ) (hash : BitVec 256) : Prop where
  no_trap : book env member id startTime endTime amount hash w = .error .overflow →
    priceTest workspace.pricePerHour startTime endTime amount = .ok () ∧
      u64Bound ≤ w.store.bookingCount.getD 0+1
  stored : ∀ k w' b, book env member id startTime endTime amount hash w = .ok (k, w') →
    w'.store.booking k = some b → 0 ≤ b.amount
  rejects :
    book env member id startTime endTime amount hash w = .error (.error .insufficientPayment) ↔
    amount < max 0 (price workspace.pricePerHour startTime endTime)

theorem insufficientPayment_iff (h : Tested env w workspace member id startTime endTime)
    (hfits : PriceFits workspace.pricePerHour startTime endTime) :
    book env member id startTime endTime amount hash w = .error (.error .insufficientPayment) ↔
      amount < price workspace.pricePerHour startTime endTime := by
  rw [book_eq h, priceTest_of_fits hfits]
  have hfails : FailsWith (fun fault => fault = .error .insufficientPayment)
      (failIf (amount < price workspace.pricePerHour startTime endTime)
        (Fault.error ContractError.insufficientPayment) >>= fun _ =>
          reserve member id startTime endTime amount hash w) ↔
      amount < price workspace.pricePerHour startTime endTime := by
    simp [reserve]
  refine Iff.trans ?_ hfails
  simp [FailsWith]

theorem stored_amount {k : ℕ} {b : Booking Address}
    (hcall : book env member id startTime endTime amount hash w = .ok (k, w'))
    (hb : w'.store.booking k = some b) : b.amount = amount := by
  obtain ⟨_, _, _, rfl⟩ := book_eq_ok hcall
  simp only [World.setStore_store, Function.update_self, Option.some.injEq] at hb
  rw [← hb]

theorem traps_of_not_fits (h : Tested env w workspace member id startTime endTime)
    (hnot : ¬PriceFits workspace.pricePerHour startTime endTime) :
    book env member id startTime endTime amount hash w = .error .overflow := by
  rw [book_eq h, priceTest_of_not_fits hnot]
  exact error_bind _ _

/-- Where the price fits, a trap is left to the counter of the bookings. -/
theorem counter_full_of_traps (h : Tested env w workspace member id startTime endTime)
    (hfits : PriceFits workspace.pricePerHour startTime endTime)
    (htrap : book env member id startTime endTime amount hash w = .error .overflow) :
    priceTest workspace.pricePerHour startTime endTime amount = .ok () ∧
      u64Bound ≤ w.store.bookingCount.getD 0+1 := by
  have hfails : FailsWith (fun fault => fault = .overflow)
      (book env member id startTime endTime amount hash w) := by
    simp [FailsWith, htrap]
  rw [book_eq h, priceTest_of_fits hfits] at hfails
  rw [priceTest_of_fits hfits]
  simp only [reserve, failsWith_bind, failsWith_failIf, failsWith_checked, failsWith_pure,
    reduceCtorEq, and_false, and_true, false_or, or_false, exists_false] at hfails
  obtain ⟨_, hpaid, _, _, hcount⟩ := hfails
  refine ⟨hpaid, ?_⟩
  by_contra hroom
  rw [u64Add, if_pos (not_le.mp hroom)] at hcount
  cases hcount

/-- The law is met exactly by the calls whose price fits, unless they pay a negative price with a
negative amount. -/
theorem paymentLaw_iff (h : Tested env w workspace member id startTime endTime) :
    PaymentLaw env w workspace member id startTime endTime amount hash ↔
      PriceFits workspace.pricePerHour startTime endTime ∧
        ¬(price workspace.pricePerHour startTime endTime ≤ amount ∧ amount < 0) := by
  constructor
  · intro hlaw
    have hfits : PriceFits workspace.pricePerHour startTime endTime := by
      by_contra hnot
      obtain ⟨hpassed, _⟩ := hlaw.no_trap (traps_of_not_fits h hnot)
      rw [priceTest_of_not_fits hnot] at hpassed
      cases hpassed
    refine ⟨hfits, fun hnegative => ?_⟩
    have hrejects := hlaw.rejects
    rw [insufficientPayment_iff h hfits] at hrejects
    have hless := hrejects.mpr (lt_of_lt_of_le hnegative.2 (le_max_left _ _))
    exact absurd hnegative.1 (not_le.mpr hless)
  · rintro ⟨hfits, hnot⟩
    refine ⟨counter_full_of_traps h hfits, ?_, ?_⟩
    · intro k w' b hcall hb
      rw [stored_amount hcall hb]
      by_contra hnegative
      -- it was accepted, so it paid the price, which is then negative as well
      have hpaid : price workspace.pricePerHour startTime endTime ≤ amount := by
        by_contra hless
        rw [(insufficientPayment_iff h hfits).mpr (not_le.mp hless)] at hcall
        exact absurd hcall (by simp)
      exact hnot ⟨hpaid, not_le.mp hnegative⟩
    · rw [insufficientPayment_iff h hfits]
      constructor
      · exact fun hless => lt_of_lt_of_le hless (le_max_right _ _)
      · intro hless
        by_contra hpaid
        rcases lt_max_iff.mp hless with hnegative | hless
        · exact hnot ⟨not_lt.mp hpaid, hnegative⟩
        · exact hpaid hless

/-- The contract with one workspace of the given price. -/
def priced (pricePerHour : ℤ) : BookingWorld numberedChain :=
  step exec smallDeployment.start
    (.invoke (signedBy 0) (.registerWorkspace 1 "room" 4 8 pricePerHour))

theorem priced_tested (pricePerHour : ℤ) {startTime endTime : ℕ} (htime : startTime < endTime) :
    Tested (signedBy 1) (priced pricePerHour)
      ⟨1, "room", 4, 8, pricePerHour, .available, .available⟩ 2 1 startTime endTime :=
  ⟨Bool.false_ne_true, by decide, htime, rfl, rfl, rfl⟩

theorem paymentLaw_hour : PaymentLaw (signedBy 1) (priced 15)
    ⟨1, "room", 4, 8, 15, .available, .available⟩ 2 1 100 3701 30 0 :=
  (paymentLaw_iff (priced_tested 15 (by decide))).mpr ⟨by decide, by decide⟩

/-- The contract takes a negative price, and then a negative payment. -/
theorem paymentLaw_negative :
    Tested (signedBy 1) (priced (-15)) ⟨1, "room", 4, 8, -15, .available, .available⟩ 2 1 100 3701 ∧
      ¬PaymentLaw (signedBy 1) (priced (-15))
        ⟨1, "room", 4, 8, -15, .available, .available⟩ 2 1 100 3701 (-30) 0 := by
  refine ⟨priced_tested (-15) (by decide), fun h => ?_⟩
  have hamount := h.stored 1 _ ⟨1, 2, 1, 100, 3701, -30, .pending, 0, 0⟩ rfl rfl
  exact absurd hamount (by decide)

end HubAssist.WorkspaceBooking
