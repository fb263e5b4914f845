import HubAssist.RootOfTrust
import HubAssist.AccessCoalition
import HubAssist.EscrowCustody
import HubAssist.WorkspaceOccupancy
import HubAssist.MembershipSteps
import HubAssist.HubRegistry

/-! The setup of the five contracts: what each stores as its root of trust, and that without
the admin nothing but another setup changes it. -/
namespace HubAssist
open SorobanHost RootOfTrust

variable {Address : Type} [DecidableEq Address] {C : Chain Address}

namespace Access

/-- The admin, and the configuration of the multisig and the pause. -/
abbrev Root (Address : Type) := Option Address × Option AccessControlConfig

def root (s : Storage Address) : Root Address := (s.admin, s.config)

def Call.setsUp : Call Address → Option Address
  | .initializeContract admin _ => some admin
  | _ => none

/-- The calls that act for a quorum, or on a proposal that the admin has made before. -/
def Call.Mandated : Call Address → Prop
  | .executeProposal _ _ | .acceptAdminTransfer _ => True
  | _ => False

theorem setup_eq (env : Env C) (call : Call Address) (w : AccessWorld C) (admin : Address)
    (h : call.setsUp = some admin) : ∃ s, (root s).1 = some admin ∧
      exec env call w = do requireAuth env admin; return w.setStore s := by
  cases call with
  | initializeContract b config =>
    obtain rfl := Option.some.inj h
    exact ⟨_, rfl, rfl⟩
  | _ => exact absurd h.symm (Option.some_ne_none admin)

theorem root_kept (env : Env C) (call : Call Address) (w w' : AccessWorld C) (p : Address)
    (h : exec env call w = .ok w') (hsetup : call.setsUp = none) (hmandate : ¬call.Mandated)
    (hp : (root w.store).1 = some p) (hsigned : p ∉ env.signers) : root w'.store = root w.store := by
  cases exec_effect h with
  | setUp admin config => exact absurd hsetup (Option.some_ne_none admin)
  | administer _ config role version hadmin =>
    obtain ⟨q, hq, hmem⟩ := hadmin
    exact absurd (holder_signed hp hq hmem) hsigned
  | propose => rfl
  | approve => rfl
  | execute => exact absurd trivial hmandate
  | accept => exact absurd trivial hmandate

def trust (C : Chain Address) :
    Trust (AccessWorld C) (Action C (Call Address)) (Root Address) Address :=
  contractTrust exec root Prod.fst Call.setsUp Call.Mandated setup_eq root_kept

end Access

namespace Escrow

/-- The admin, the payment token, the pause and the arbitrators. -/
abbrev Root (Address : Type) :=
  Option Address × Option Address × Option Bool × Option (List Address)

def root (s : Storage Address) : Root Address := (s.admin, s.paymentToken, s.paused, s.arbitrators)

def Call.setsUp : Call Address → Option Address
  | .initializeContract admin _ _ => some admin
  | _ => none

theorem setup_eq (env : Env C) (call : Call Address) (w : EscrowWorld C) (admin : Address)
    (h : call.setsUp = some admin) : ∃ s, (root s).1 = some admin ∧
      exec env call w = do requireAuth env admin; return w.setStore s := by
  cases call with
  | initializeContract b token window =>
    obtain rfl := Option.some.inj h
    exact ⟨_, rfl, rfl⟩
  | _ => exact absurd h.symm (Option.some_ne_none admin)

theorem root_kept (env : Env C) (call : Call Address) (w w' : EscrowWorld C) (p : Address)
    (h : exec env call w = .ok w') (hsetup : call.setsUp = none) (_ : ¬False)
    (hp : (root w.store).1 = some p) (hsigned : p ∉ env.signers) : root w'.store = root w.store := by
  -- the calls of the admin are signed by the stored one
  have hadmin {caller : Address} {u : Unit} (hcaller : requireAdmin env w caller = .ok u) :
      root w'.store = root w.store := by
    obtain ⟨hs, hstored⟩ := requireAdmin_eq_ok.mp hcaller
    exact absurd (holder_signed hp hstored hs) hsigned
  cases call with
  | initializeContract admin token window => exact absurd hsetup (Option.some_ne_none admin)
  | setArbitrators admin arbitrators =>
    simp only [exec, setArbitrators, bind_eq_ok] at h
    obtain ⟨_, hcaller, _⟩ := h
    exact hadmin hcaller
  | setDisputeWindow admin type window =>
    simp only [exec, setDisputeWindow, bind_eq_ok] at h
    obtain ⟨_, hcaller, _⟩ := h
    exact hadmin hcaller
  | pause admin =>
    simp only [exec, pause, bind_eq_ok] at h
    obtain ⟨_, hcaller, _⟩ := h
    exact hadmin hcaller
  | unpause admin =>
    simp only [exec, unpause, bind_eq_ok] at h
    obtain ⟨_, hcaller, _⟩ := h
    exact hadmin hcaller
  | createEscrow depositor beneficiary amount time type =>
    obtain ⟨⟨id, w₁⟩, hc, rfl⟩ := map_eq_ok.mp h
    obtain ⟨_, _, _, token, _, t, _, _, _, rfl⟩ := createEscrow_eq_ok.mp hc
    rfl
  | _ =>
    -- the other calls are about an escrow
    obtain ⟨records, hstore⟩ := (exec_effect h).records_only (by simp [Call.subject])
    rw [hstore]
    rfl

def trust (C : Chain Address) :
    Trust (EscrowWorld C) (Action C (Call Address)) (Root Address) Address :=
  contractTrust exec root Prod.fst Call.setsUp (fun _ => False) setup_eq root_kept

end Escrow

namespace WorkspaceBooking

/-- The admin, the payment token and the pause. -/
abbrev Root (Address : Type) := Option Address × Option Address × Option Bool

def root (s : Storage Address) : Root Address := (s.admin, s.paymentToken, s.paused)

def Call.setsUp : Call Address → Option Address
  | .initializeContract admin _ => some admin
  | _ => none

theorem setup_eq (env : Env C) (call : Call Address) (w : BookingWorld C) (admin : Address)
    (h : call.setsUp = some admin) : ∃ s, (root s).1 = some admin ∧
      exec env call w = do requireAuth env admin; return w.setStore s := by
  cases call with
  | initializeContract b token =>
    obtain rfl := Option.some.inj h
    exact ⟨_, rfl, rfl⟩
  | _ => exact absurd h.symm (Option.some_ne_none admin)

/-- No other call of this contract writes to the root, whoever signs it. -/
theorem root_kept (env : Env C) (call : Call Address) (w w' : BookingWorld C) (p : Address)
    (h : exec env call w = .ok w') (hsetup : call.setsUp = none) (_ : ¬False)
    (_ : (root w.store).1 = some p) (_ : p ∉ env.signers) : root w'.store = root w.store := by
  cases call with
  | initializeContract admin token => exact absurd hsetup (Option.some_ne_none admin)
  | registerWorkspaceType caller typeId info =>
    simp only [exec, registerWorkspaceType, bind_eq_ok, pure_eq_ok] at h
    obtain ⟨_, _, _, _, _, _, rfl⟩ := h
    rfl
  | registerWorkspace caller name typeId capacity price =>
    obtain ⟨⟨id, w₁⟩, hc, rfl⟩ := map_eq_ok.mp h
    simp only [registerWorkspace, bind_eq_ok, pure_eq_ok, Prod.mk.injEq] at hc
    obtain ⟨_, _, _, _, _, _, _, _, _, rfl⟩ := hc
    rfl
  | updateWorkspaceAvailability caller id availability =>
    simp only [exec, updateWorkspaceAvailability, bind_eq_ok, pure_eq_ok] at h
    obtain ⟨_, _, _, _, workspace, _, rfl⟩ := h
    rfl
  | book member id startTime endTime amount hash =>
    obtain ⟨⟨k, w₁⟩, hc, rfl⟩ := map_eq_ok.mp h
    obtain ⟨_, _, _, rfl⟩ := book_eq_ok hc
    rfl
  | confirmBooking id =>
    obtain ⟨_, rfl⟩ := confirmBooking_eq_ok.mp h
    rfl
  | batchConfirm admin ids =>
    obtain ⟨_, rfl⟩ := batchConfirm_eq_ok.mp h
    rfl
  | cancel caller id =>
    simp only [exec, cancel, bind_eq_ok, pure_eq_ok] at h
    obtain ⟨_, _, _, _, _, _, _, _, _, _, _, _, rfl⟩ := h
    rfl
  | setBookingEscrow caller id escrowId =>
    simp only [exec, setBookingEscrow, bind_eq_ok, pure_eq_ok] at h
    obtain ⟨_, _, _, _, _, _, _, _, rfl⟩ := h
    rfl
  | transitionWorkspaceState admin id state =>
    simp only [exec, transitionWorkspaceState, bind_eq_ok, pure_eq_ok] at h
    obtain ⟨_, _, workspace, _, changed, _, rfl⟩ := h
    split_ifs <;> rfl
  | leaveWaitlist member id =>
    simp only [exec, leaveWaitlist, bind_eq_ok, pure_eq_ok] at h
    obtain ⟨_, _, _, _, rfl⟩ := h
    rfl
  | updateTierDiscounts caller discounts =>
    simp only [exec, updateTierDiscounts, bind_eq_ok, pure_eq_ok] at h
    obtain ⟨_, _, rfl⟩ := h
    rfl

def trust (C : Chain Address) :
    Trust (BookingWorld C) (Action C (Call Address)) (Root Address) Address :=
  contractTrust exec root Prod.fst Call.setsUp (fun _ => False) setup_eq root_kept

end WorkspaceBooking

namespace Membership

/-- The admin and the pause. -/
abbrev Root (Address : Type) := Option Address × Option Bool

def root (s : Storage Address) : Root Address := (s.admin, s.paused)

def Call.setsUp : Call Address → Option Address
  | .initializeContract admin => some admin
  | _ => none

theorem setup_eq (env : Env C) (call : Call Address) (w : MembershipWorld C) (admin : Address)
    (h : call.setsUp = some admin) : ∃ s, (root s).1 = some admin ∧
      exec env call w = do requireAuth env admin; return w.setStore s := by
  cases call with
  | initializeContract b =>
    obtain rfl := Option.some.inj h
    exact ⟨_, rfl, rfl⟩
  | _ => exact absurd h.symm (Option.some_ne_none admin)

omit [DecidableEq Address] in
theorem TokensOnly.root_eq {s s' : Storage Address} (h : TokensOnly s s') : root s' = root s := by
  obtain ⟨tokens, rfl⟩ := h
  rfl

theorem root_kept (env : Env C) (call : Call Address) (w w' : MembershipWorld C) (p : Address)
    (h : exec env call w = .ok w') (hsetup : call.setsUp = none) (_ : ¬False)
    (hp : (root w.store).1 = some p) (hsigned : p ∉ env.signers) : root w'.store = root w.store := by
  -- the calls of the admin are signed by the stored one
  have hadmin {caller : Address} {u : Unit} (hcaller : requireAdmin env w caller = .ok u) :
      root w'.store = root w.store := by
    obtain ⟨hs, hstored⟩ := requireAdmin_eq_ok.mp hcaller
    exact absurd (holder_signed hp hstored hs) hsigned
  cases call with
  | initializeContract admin => exact absurd hsetup (Option.some_ne_none admin)
  | pause admin =>
    simp only [exec, pause, bind_eq_ok] at h
    obtain ⟨_, hcaller, _⟩ := h
    exact hadmin hcaller
  | unpause admin =>
    simp only [exec, unpause, bind_eq_ok] at h
    obtain ⟨_, hcaller, _⟩ := h
    exact hadmin hcaller
  | issueToken admin owner tier expiryDate =>
    obtain ⟨⟨id, w₁⟩, hc, rfl⟩ := map_eq_ok.mp h
    simp only [issueToken, bind_eq_ok] at hc
    obtain ⟨_, _, _, hcaller, _⟩ := hc
    exact hadmin hcaller
  | transferToken id newOwner =>
    simp only [exec, transferToken, bind_eq_ok, pure_eq_ok] at h
    obtain ⟨_, _, s, hmove, rfl⟩ := h
    exact (moveToken_tokensOnly hmove).root_eq
  | renewToken admin id newExpiryDate =>
    simp only [exec, renewToken, bind_eq_ok] at h
    obtain ⟨_, _, _, hcaller, _⟩ := h
    exact hadmin hcaller
  | revokeToken admin id =>
    simp only [exec, revokeToken, bind_eq_ok] at h
    obtain ⟨_, _, _, hcaller, _⟩ := h
    exact hadmin hcaller
  | batchIssueTokens admin params =>
    obtain ⟨⟨ids, w₁⟩, hc, rfl⟩ := map_eq_ok.mp h
    simp only [batchIssueTokens, bind_eq_ok] at hc
    obtain ⟨_, _, _, hcaller, _⟩ := hc
    exact hadmin hcaller
  | batchTransferTokens params =>
    simp only [exec, batchTransferTokens, bind_eq_ok, pure_eq_ok] at h
    obtain ⟨_, _, s, hmove, rfl⟩ := h
    exact (moveAll_tokensOnly hmove).root_eq
  | upgrade admin hash =>
    simp only [exec, upgrade, bind_eq_ok] at h
    obtain ⟨_, hcaller, _⟩ := h
    exact hadmin hcaller

def trust (C : Chain Address) :
    Trust (MembershipWorld C) (Action C (Call Address)) (Root Address) Address :=
  contractTrust exec root Prod.fst Call.setsUp (fun _ => False) setup_eq root_kept

end Membership

namespace Hub

def root (s : Storage Address) : Option Address := s.admin

def Call.setsUp : Call Address → Option Address
  | .initializeContract admin => some admin
  | _ => none

theorem setup_eq (env : Env C) (call : Call Address) (w : HubWorld C) (admin : Address)
    (h : call.setsUp = some admin) : ∃ s, root s = some admin ∧
      exec env call w = do requireAuth env admin; return w.setStore s := by
  cases call with
  | initializeContract b =>
    obtain rfl := Option.some.inj h
    exact ⟨_, rfl, rfl⟩
  | _ => exact absurd h.symm (Option.some_ne_none admin)

theorem root_kept (env : Env C) (call : Call Address) (w w' : HubWorld C) (p : Address)
    (h : exec env call w = .ok w') (hsetup : call.setsUp = none) (_ : ¬False)
    (_ : root w.store = some p) (_ : p ∉ env.signers) : root w'.store = root w.store := by
  cases call with
  | initializeContract admin => exact absurd hsetup (Option.some_ne_none admin)
  | registerHub caller name =>
    obtain ⟨⟨count, w₁⟩, hc, rfl⟩ := map_eq_ok.mp h
    simp only [registerHub, bind_eq_ok, pure_eq_ok, Prod.mk.injEq] at hc
    obtain ⟨_, _, _, _, _, rfl⟩ := hc
    rfl
  | registerMember caller hubId role =>
    simp only [exec, registerMember, bind_eq_ok, pure_eq_ok] at h
    obtain ⟨_, _, _, _, rfl⟩ := h
    rfl
  | upgrade admin hash =>
    simp only [exec, upgrade, bind_eq_ok, pure_eq_ok] at h
    obtain ⟨_, _, _, _, _, _, rfl⟩ := h
    rfl

def trust (C : Chain Address) :
    Trust (HubWorld C) (Action C (Call Address)) (Option Address) Address :=
  contractTrust exec root id Call.setsUp (fun _ => False) setup_eq root_kept

end Hub

/-- Once a contract has an admin, right after its setup or at any later time, a run without
the authority of that admin leaves the root of trust alone exactly when nobody sets the
contract up again. -/
theorem setup_once_iff (C : Chain Address) (p : Address) :
    (∀ w as, (Access.trust C).HeldBy w p → (Access.trust C).Without p as →
      ((Access.trust C).Unmoved w as ↔ (Access.trust C).Untaken w as)) ∧
    (∀ w as, (Escrow.trust C).HeldBy w p → (Escrow.trust C).Without p as →
      ((Escrow.trust C).Unmoved w as ↔ (Escrow.trust C).Untaken w as)) ∧
    (∀ w as, (WorkspaceBooking.trust C).HeldBy w p → (WorkspaceBooking.trust C).Without p as →
      ((WorkspaceBooking.trust C).Unmoved w as ↔ (WorkspaceBooking.trust C).Untaken w as)) ∧
    (∀ w as, (Membership.trust C).HeldBy w p → (Membership.trust C).Without p as →
      ((Membership.trust C).Unmoved w as ↔ (Membership.trust C).Untaken w as)) ∧
    (∀ w as, (Hub.trust C).HeldBy w p → (Hub.trust C).Without p as →
      ((Hub.trust C).Unmoved w as ↔ (Hub.trust C).Untaken w as)) :=
  ⟨fun _ _ hp has => (Access.trust C).unmoved_iff hp has,
    fun _ _ hp has => (Escrow.trust C).unmoved_iff hp has,
    fun _ _ hp has => (WorkspaceBooking.trust C).unmoved_iff hp has,
    fun _ _ hp has => (Membership.trust C).unmoved_iff hp has,
    fun _ _ hp has => (Hub.trust C).unmoved_iff hp has⟩

def Membership.smallStart : MembershipWorld numberedChain :=
  ⟨{ Membership.Storage.empty 0 with admin := some 1, paused := some false }, fun _ _ => (0 : ℕ), [], 0⟩

def Hub.smallStart : HubWorld numberedChain :=
  ⟨{ Hub.Storage.empty 0 with admin := some 1, members := some [] }, fun _ _ => (0 : ℕ), [], 0⟩

/-- A depositor without the admin. -/
theorem setup_once_iff_deposit :
    (Escrow.trust numberedChain).Unmoved Escrow.smallDeployment.start
      [.invoke (signedBy 1) (.createEscrow 2 3 40 5 0)] := by
  have hwithout : (Escrow.trust numberedChain).Without 1
      [.invoke (signedBy 1) (.createEscrow 2 3 40 5 0)] := by
    intro a ha
    rw [List.mem_singleton.mp ha]
    rintro (hsigned | hexempt)
    · exact absurd hsigned (by decide)
    · exact hexempt
  have hheld : (Escrow.trust numberedChain).HeldBy Escrow.smallDeployment.start 1 := rfl
  refine ((setup_once_iff numberedChain 1).2.1 _ _ hheld hwithout).mpr ⟨?_, trivial⟩
  rintro ⟨b, hb, _⟩
  exact Option.some_ne_none b hb.symm

/-- In each of the five contracts account 2 makes itself the admin by a second setup. -/
theorem second_setup_moves :
    ¬(Access.trust numberedChain).Unmoved Access.smallDeployment.start
      [.invoke (signedBy 1) (.initializeContract 2 ⟨1, 1, 0⟩)] ∧
    ¬(Escrow.trust numberedChain).Unmoved Escrow.smallDeployment.start
      [.invoke (signedBy 1) (.initializeContract 2 9 0)] ∧
    ¬(WorkspaceBooking.trust numberedChain).Unmoved WorkspaceBooking.smallDeployment.start
      [.invoke (signedBy 1) (.initializeContract 2 9)] ∧
    ¬(Membership.trust numberedChain).Unmoved Membership.smallStart
      [.invoke (signedBy 1) (.initializeContract 2)] ∧
    ¬(Hub.trust numberedChain).Unmoved Hub.smallStart
      [.invoke (signedBy 1) (.initializeContract 2)] := by
  -- account 2 signs each setup, and account 1, the admin, none of them
  have hsigner : 2 ∈ (signedBy 1).signers := by decide
  have hother : 1 ∉ (signedBy 1).signers := by decide
  exact ⟨(Access.trust _).moved_of_takeover rfl (not_or.mpr ⟨hother, fun h => h⟩) ⟨2, rfl, hsigner⟩,
    (Escrow.trust _).moved_of_takeover rfl (not_or.mpr ⟨hother, fun h => h⟩) ⟨2, rfl, hsigner⟩,
    (WorkspaceBooking.trust _).moved_of_takeover rfl (not_or.mpr ⟨hother, fun h => h⟩)
      ⟨2, rfl, hsigner⟩,
    (Membership.trust _).moved_of_takeover rfl (not_or.mpr ⟨hother, fun h => h⟩) ⟨2, rfl, hsigner⟩,
    (Hub.trust _).moved_of_takeover rfl (not_or.mpr ⟨hother, fun h => h⟩) ⟨2, rfl, hsigner⟩⟩

end HubAssist
