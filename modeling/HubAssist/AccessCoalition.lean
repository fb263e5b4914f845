import HubAssist.AccessSteps
import HubAssist.StorageMap
import Mathlib.Data.Finset.Card
import Mathlib.Data.Finset.Dedup

/-! What fewer signers than the threshold can do to a freshly set up contract: they can open
and approve proposals, and nothing comes of it. -/
namespace HubAssist.Access
open SorobanHost StorageMap

variable {Address : Type} [DecidableEq Address] {C : Chain Address}
variable {env : Env C} {w w' : AccessWorld C} {call : Call Address}
variable {admin : Address} {multisig : MultiSigConfig} {S : Finset Address}

/-- A contract on which `initializeContract` has been called once. -/
structure Deployment (C : Chain Address) where
  admin : Address
  multisig : MultiSigConfig
  wasm : Hash
  tokens : Address → C.token.State
  now : ℕ

namespace Deployment

def deployed (d : Deployment C) : AccessWorld C := ⟨Storage.empty d.wasm, d.tokens, [], d.now⟩

def start (d : Deployment C) : AccessWorld C :=
  d.deployed.setStore { d.deployed.store with
    admin := some d.admin
    config := some ⟨d.multisig, false⟩
    role := grantRole d.deployed.store.role d.admin .admin d.now }

theorem start_eq (d : Deployment C) {env : Env C} (h : d.admin ∈ env.signers) :
    initializeContract env d.admin d.multisig d.deployed = .ok d.start :=
  initializeContract_eq_ok.mpr ⟨h, rfl⟩

end Deployment

/-- The contract is set up, with any roles, and nothing is pending. -/
structure Founded (w : AccessWorld C) (admin : Address) (multisig : MultiSigConfig) : Prop where
  admin : w.store.admin = some admin
  multisig : (loadConfig w).multisig = multisig
  no_proposal : ∀ id, w.store.proposal id = none
  no_transfer : w.store.pendingAdmin = none

theorem Deployment.start_founded (d : Deployment C) : Founded d.start d.admin d.multisig :=
  ⟨rfl, rfl, fun _ => rfl, rfl⟩

/-- The roles given out right after the setup keep the contract founded. -/
theorem Founded.setRole (hw : Founded w admin multisig) {user : Address} {role : UserRole}
    (h : setRole env admin user role w = .ok w') : Founded w' admin multisig := by
  simp only [Access.setRole, bind_eq_ok, pure_eq_ok] at h
  obtain ⟨_, _, _, _, rfl⟩ := h
  exact ⟨hw.admin, hw.multisig, hw.no_proposal, hw.no_transfer⟩

/-- What is governed: who is admin, the configuration, the roles and the code. -/
structure Governance (Address : Type) where
  admin : Option Address
  config : Option AccessControlConfig
  role : Address → Option (MembershipInfo Address)
  storageVersion : Option ℕ
  wasm : Hash

def governance (w : AccessWorld C) : Governance Address :=
  ⟨w.store.admin, w.store.config, w.store.role, w.store.storageVersion, w.store.wasm⟩

/-- Members of `S` alone sign the step, and it does not set the contract up. -/
def ByCoalition (S : Finset Address) : Action C (Call Address) → Prop
  | .invoke env call => (∀ a ∈ env.signers, a ∈ S) ∧ ¬call.SetsUp
  | .tick _ | .external _ _ => True

/-- Approved by different members of `S` only. -/
def PendingProposal.BackedBy (p : PendingProposal Address) (S : Finset Address) : Prop :=
  p.approvals.Nodup ∧ ∀ a ∈ p.approvals, a ∈ S

/-- All that is pending is of `S` alone: each proposal is backed by members of `S`, and no
transfer of the admin is open. -/
structure Cornered (S : Finset Address) (admin : Address) (multisig : MultiSigConfig)
    (w : AccessWorld C) : Prop where
  admin : w.store.admin = some admin
  multisig : (loadConfig w).multisig = multisig
  backed : ∀ id p, w.store.proposal id = some p → p.BackedBy S
  no_transfer : w.store.pendingAdmin = none

theorem Founded.cornered (hw : Founded w admin multisig) : Cornered S admin multisig w := by
  refine ⟨hw.admin, hw.multisig, fun id p hp => ?_, hw.no_transfer⟩
  exact absurd (hp.symm.trans (hw.no_proposal id)) (Option.some_ne_none p)

omit [DecidableEq Address] in
theorem threshold_le_required (h : multisig.threshold ≤ multisig.criticalThreshold)
    (action : ProposalAction Address) : multisig.threshold ≤ required multisig action := by
  unfold required
  split_ifs
  · exact h
  · exact le_rfl

/-- The backers of a proposal are no more than the set has members. -/
theorem PendingProposal.BackedBy.length_le {p : PendingProposal Address} (h : p.BackedBy S) :
    p.approvals.length ≤ S.card := by
  rw [← List.toFinset_card_of_nodup h.1]
  apply Finset.card_le_card
  intro a ha
  exact h.2 a (List.mem_toFinset.mp ha)

/-- A coalition below the threshold stays cornered, and changes nothing that is governed. -/
theorem Cornered.effect (hw : Cornered S admin multisig w)
    (hle : multisig.threshold ≤ multisig.criticalThreshold) (hadmin : admin ∉ S)
    (hS : S.card < multisig.threshold) (hby : ByCoalition S (.invoke env call))
    (h : Effect env w call w') :
    Cornered S admin multisig w' ∧ governance w' = governance w := by
  obtain ⟨hsigners, hsetup⟩ := hby
  cases h with
  | setUp b config => exact absurd ⟨b, config, rfl⟩ hsetup
  | administer _ config role version hsigned =>
    -- the stored admin would have to sign, and is not in `S`
    obtain ⟨b, hb, hmem⟩ := hsigned
    obtain rfl := Option.some.inj (hb.symm.trans hw.admin)
    exact absurd (hsigners b hmem) hadmin
  | propose proposer action hsigned =>
    refine ⟨⟨hw.admin, hw.multisig, fun id p hp => ?_, hw.no_transfer⟩, rfl⟩
    rcases update_cases hp with ⟨_, hnew⟩ | ⟨_, hold⟩
    · obtain rfl := Option.some.inj hnew
      refine ⟨List.nodup_singleton proposer, fun a ha => ?_⟩
      rw [List.mem_singleton.mp ha]
      exact hsigners proposer hsigned
    · exact hw.backed id p hold
  | approve approver k q hsigned _ hstored hfresh =>
    refine ⟨⟨hw.admin, hw.multisig, fun id p hp => ?_, hw.no_transfer⟩, rfl⟩
    rcases update_cases hp with ⟨_, hnew⟩ | ⟨_, hold⟩
    · obtain rfl := Option.some.inj hnew
      obtain ⟨hdistinct, hmembers⟩ := hw.backed k q hstored
      have hdistinct' : (q.approvals ++ [approver]).Nodup := by
        rw [← List.concat_eq_append]
        exact hdistinct.concat hfresh
      refine ⟨hdistinct', fun a ha => ?_⟩
      rcases List.mem_append.mp ha with ha | ha
      · exact hmembers a ha
      · rw [List.mem_singleton.mp ha]
        exact hsigners approver hsigned
    · exact hw.backed id p hold
  | execute executor id p hexec =>
    -- the backers of a stored proposal are too few for either threshold
    have hlength := (hw.backed id p hexec.stored).length_le
    have hrequired := hexec.approved
    rw [hw.multisig] at hrequired
    have hthreshold := threshold_le_required hle p.action
    omega
  | accept newAdmin since _ hpending =>
    exact absurd (hpending.symm.trans hw.no_transfer) (Option.some_ne_none _)

theorem Cornered.step (hw : Cornered S admin multisig w)
    (hle : multisig.threshold ≤ multisig.criticalThreshold) (hadmin : admin ∉ S)
    (hS : S.card < multisig.threshold) {a : Action C (Call Address)} (hby : ByCoalition S a) :
    Cornered S admin multisig (step exec w a) ∧ governance (step exec w a) = governance w := by
  have hsame (v : AccessWorld C) (hv : v.store = w.store) :
      Cornered S admin multisig v ∧ governance v = governance w := by
    have hconfig : loadConfig v = loadConfig w := by rw [loadConfig, hv, loadConfig]
    refine ⟨⟨?_, ?_, ?_, ?_⟩, by simp only [governance, hv]⟩
    · rw [hv, hw.admin]
    · rw [hconfig, hw.multisig]
    · rw [hv]
      exact hw.backed
    · rw [hv, hw.no_transfer]
  refine step_keeps (fun v => Cornered S admin multisig v ∧ governance v = governance w)
    (hsame w rfl) ?_ (fun d _ => hsame (w.elapse d) rfl)
    fun token next _ _ => hsame (w.reledger token next) rfl
  rintro env call w' rfl hcall
  exact hw.effect hle hadmin hS hby (exec_effect hcall)

/-- A coalition smaller than the threshold, without the admin, changes nothing that is
governed, whatever it calls and whenever. -/
theorem governance_kept_run (hw : Founded w admin multisig)
    (hle : multisig.threshold ≤ multisig.criticalThreshold) (S : Finset Address)
    (hadmin : admin ∉ S) (hS : S.card < multisig.threshold) (as : List (Action C (Call Address)))
    (hby : ∀ a ∈ as, ByCoalition S a) : governance (run exec w as) = governance w := by
  have hstep (v : AccessWorld C) (a : Action C (Call Address))
      (hv : Cornered S admin multisig v ∧ governance v = governance w) (ha : ByCoalition S a) :
      Cornered S admin multisig (step exec v a) ∧ governance (step exec v a) = governance w := by
    obtain ⟨hcornered, hsame⟩ := hv.1.step hle hadmin hS ha
    exact ⟨hcornered, hsame.trans hv.2⟩
  have hguarded : RunSystem.Guarded (step exec) (fun _ a => ByCoalition S a) w as :=
    RunSystem.guarded_of_forall_mem (step exec) hby
  exact (RunSystem.run_invariant (step exec) hstep ⟨hw.cornered, rfl⟩ hguarded).2

/-- A contract of admin 1 that needs two approvals, or three for what is critical. -/
def smallDeployment : Deployment numberedChain where
  admin := 1
  multisig := ⟨2, 3, 60⟩
  wasm := 0
  tokens _ := fun _ => (0 : ℕ)
  now := 0

/-- With account 2 on the staff. -/
def staffed : AccessWorld numberedChain :=
  run exec smallDeployment.start [.invoke (signedBy 0) (.setRole 1 2 .staff)]

def lonelyCoup : List (Action numberedChain (Call ℕ)) :=
  [.invoke (signedBy 1) (.createProposal 2 (.setRole 2 .admin)),
   .invoke (signedBy 1) (.approveProposal 2 1),
   .tick 100,
   .invoke (signedBy 1) (.executeProposal 2 1)]

theorem governance_kept_lonelyCoup :
    ((run exec staffed lonelyCoup).store.proposal 1).map (·.approvals) = some [2] ∧
      governance (run exec staffed lonelyCoup) = governance staffed := by
  have hset : setRole (signedBy 0) 1 2 .staff smallDeployment.start = .ok staffed := rfl
  have hfounded : Founded staffed 1 ⟨2, 3, 60⟩ := smallDeployment.start_founded.setRole hset
  refine ⟨by decide, governance_kept_run hfounded (by decide) {2} (by decide) (by decide)
    lonelyCoup fun a ha => ?_⟩
  simp only [lonelyCoup, List.mem_cons, List.not_mem_nil, or_false] at ha
  rcases ha with rfl | rfl | rfl | rfl <;> simp [ByCoalition, signedBy, Call.SetsUp]

end HubAssist.Access
