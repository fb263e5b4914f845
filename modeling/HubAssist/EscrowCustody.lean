import HubAssist.EscrowPayouts

/-! The custody of deposits by a deployed escrow contract: what its balance covers, what
each escrow was paid, and that settled escrows and other escrows stay as they are. -/
namespace HubAssist.Escrow
open SorobanHost RunSystem StorageMap TokenLedger

variable {Address : Type} [DecidableEq Address] {C : Chain Address}
variable {w w' : EscrowWorld C} {call : Call Address}

/-- A contract on which `initializeContract` has been called once. -/
structure Deployment (C : Chain Address) where
  admin : Address
  paymentToken : Address
  defaultDisputeWindow : ℕ
  tokens : Address → C.token.State
  now : ℕ

namespace Deployment

def deployed (d : Deployment C) : EscrowWorld C := ⟨Storage.empty, d.tokens, [], d.now⟩

def start (d : Deployment C) : EscrowWorld C :=
  d.deployed.setStore { d.deployed.store with
    admin := some d.admin
    paymentToken := some d.paymentToken
    disputeWindow := some d.defaultDisputeWindow
    paused := some false
    arbitrators := some [] }

theorem start_eq (d : Deployment C) {env : Env C} (h : d.admin ∈ env.signers) :
    initializeContract env d.admin d.paymentToken d.defaultDisputeWindow d.deployed =
      .ok d.start := by
  simp only [initializeContract, bind_eq_ok, requireAuth_eq_ok, exists_const, pure_eq_ok]
  exact ⟨h, rfl⟩

theorem start_numbered (d : Deployment C) : Numbered d.start := by
  intro id hid
  exact absurd rfl hid

theorem start_payoutLog (d : Deployment C) : PayoutLog d.start [] :=
  ⟨d.start_numbered, fun _ => rfl, by simp, rfl⟩

theorem start_surplus (d : Deployment C) (token : Address) :
    surplus d.start token = d.start.balance token C.self := by
  have hz : locked d.start token = 0 := tally_empty (heldAmount token)
  rw [surplus, hz, sub_zero]

theorem start_solvent (d : Deployment C) : Solvent d.start := by
  refine ⟨d.start_numbered, fun _ _ he => absurd he (by simp [start, deployed, Storage.empty]), ?_⟩
  intro token
  rw [start_surplus]
  exact C.token.balance_nonneg _ _

end Deployment

/-- The contract is set up only once and is itself no party to an escrow. -/
def Routine (C : Chain Address) : Action C (Call Address) → Prop
  | .invoke _ (.initializeContract _ _ _) => False
  | .invoke _ (.createEscrow depositor beneficiary _ _ _) =>
    depositor ≠ C.self ∧ beneficiary ≠ C.self
  | _ => True

/-- The amounts of the escrows that are active or disputed. -/
noncomputable def lockedTotal (w : EscrowWorld C) : ℤ :=
  tally (fun e => if e.Live then e.amount else 0) w.store.escrow

/-- Every escrow is in the payment token and between outsiders. -/
structure Outside (d : Deployment C) (w : EscrowWorld C) : Prop where
  token : w.store.paymentToken = some d.paymentToken
  records : ∀ id e, w.store.escrow id = some e →
    e.paymentToken = d.paymentToken ∧ e.depositor ≠ C.self ∧ e.beneficiary ≠ C.self

theorem Outside.effect {d : Deployment C} (h : Outside d w) (heff : Effect w call w') {env : Env C}
    (hr : Routine C (.invoke env call)) : Outside d w' := by
  refine ⟨?_, fun id e' he' => ?_⟩
  · cases heff with
    | configure s _ _ _ htoken =>
      rcases htoken with ⟨admin, token, window, rfl⟩ | htoken
      -- a second `initializeContract` could change the token, and is excluded
      · exact False.elim hr
      · rw [World.setStore_store, htoken, h.token]
    | deposit e type s t _ _ _ _ _ _ _ _ hkeep => rw [World.setStore_store, hkeep, h.token]
    | amend => exact h.token
    | settle id e r votes _ _ _ _ hpay =>
      obtain ⟨t, _, rfl⟩ := hpay
      exact h.token
  · rcases heff.terms he' with ⟨e, he, hterms⟩ | ⟨_, _, htoken, type, rfl⟩
    · have htoken : e'.paymentToken = e.paymentToken := congrArg Terms.paymentToken hterms
      have hdepositor : e'.depositor = e.depositor := congrArg Terms.depositor hterms
      have hbeneficiary : e'.beneficiary = e.beneficiary := congrArg Terms.beneficiary hterms
      rw [htoken, hdepositor, hbeneficiary]
      exact h.records id e he
    · exact ⟨Option.some.inj (htoken.symm.trans h.token), hr⟩

theorem Outside.step {d : Deployment C} (h : Outside d w) {a : Action C (Call Address)}
    (hr : Routine C a) : Outside d (step exec w a) := by
  refine step_keeps (Outside d) h ?_ (fun _ _ => ⟨h.token, h.records⟩)
    fun _ _ _ _ => ⟨h.token, h.records⟩
  rintro env call w' rfl hcall
  exact h.effect (exec_effect hcall) hr

theorem Outside.lockedTotal_eq {d : Deployment C} (h : Outside d w) :
    lockedTotal w = locked w d.paymentToken := by
  apply tally_congr
  intro id
  cases he : w.store.escrow id with
  | none => simp [weigh, he]
  | some e => simp [weigh, he, heldAmount, (h.records id e he).1]

theorem surplus_step_eq {d : Deployment C} (hn : Numbered w) (h : Outside d w)
    {a : Action C (Call Address)} (hu : Ungifted w a) (token : Address) :
    surplus (step exec w a) token = surplus w token := by
  refine step_keeps (fun v => surplus v token = surplus w token) rfl ?_ (fun _ _ => rfl) ?_
  · intro env call w' _ hcall
    rcases (exec_effect hcall).surplus_cases hn token with hs | ⟨_, id, e, r, he, hself⟩
    · exact hs
    -- the surplus grows only by a payout to the contract, which is no party here
    · obtain ⟨_, hd, hb⟩ := h.records id e he
      cases r with
      | release => exact absurd hself hb
      | refund => exact absurd hself hd
  · rintro tok next rfl hle
    have heq : C.token.balance next C.self = w.balance tok C.self := le_antisymm hu hle
    by_cases htok : token = tok
    · subst htok
      simp [surplus, locked, World.balance, World.reledger, heq]
    · simp [surplus, locked, World.balance, World.reledger, htok]

theorem surplus_run_eq {d : Deployment C} (hn : Numbered w) (h : Outside d w)
    {as : List (Action C (Call Address))} (hr : ∀ a ∈ as, Routine C a)
    (hu : Guarded (step exec) Ungifted w as) (token : Address) :
    surplus (run exec w as) token = surplus w token := by
  have hstep (v : EscrowWorld C) (a : Action C (Call Address))
      (hv : Numbered v ∧ Outside d v ∧ surplus v token = surplus w token)
      (hp : Routine C a ∧ Ungifted v a) : Numbered (step exec v a) ∧ Outside d (step exec v a) ∧
        surplus (step exec v a) token = surplus w token := by
    obtain ⟨hn, ho, hs⟩ := hv
    exact ⟨(surplus_run hn [a] token).1, ho.step hp.1, (surplus_step_eq hn ho hp.2 token).trans hs⟩
  have hroutine : Guarded (step exec) (fun _ a => Routine C a) w as :=
    guarded_of_forall_mem (step exec) hr
  have hg := guarded_and (step exec) hroutine hu
  exact (run_invariant (step exec) hstep ⟨hn, h, rfl⟩ hg).2.2

theorem outside_run {d : Deployment C} (h : Outside d w) {as : List (Action C (Call Address))}
    (hr : ∀ a ∈ as, Routine C a) : Outside d (run exec w as) := by
  have hroutine : Guarded (step exec) (fun _ a => Routine C a) w as :=
    guarded_of_forall_mem (step exec) hr
  exact run_invariant (step exec) (fun _ _ hv hp => hv.step hp) h hroutine

theorem Deployment.start_outside (d : Deployment C) : Outside d d.start :=
  ⟨rfl, fun _ _ he => absurd he (by simp [start, deployed, Storage.empty])⟩

/-- The deposits are safe with a contract that the actions `as` have brought to `w`. -/
structure Custody (d : Deployment C) (as : List (Action C (Call Address))) (w : EscrowWorld C) :
    Prop where
  covered : lockedTotal w ≤ w.balance d.paymentToken C.self
  balanced : d.start.balance d.paymentToken C.self = 0 →
    Guarded (step exec) Ungifted d.start as → w.balance d.paymentToken C.self = lockedTotal w
  paid_once : ∀ id, caused d.start as id = owed C (w.store.escrow id)
  paid_by_subject : ∀ p ∈ trace (step exec) payouts d.start as, p.1 ≠ none
  paid_complete :
    outgoing C w.transfers = (trace (step exec) payouts d.start as).map Prod.snd
  final : ∀ id e, w.store.escrow id = some e → ¬e.Live →
    ∀ bs, (run exec w bs).store.escrow id = some e
  frame : ∀ env call w' id e, exec env call w = .ok w' → w.store.escrow id = some e →
    call.subject ≠ some id → w'.store.escrow id = some e

/-- Solvency and exactly-once payout, for every run of routine actions. -/
theorem custody_of_routine (d : Deployment C) (as : List (Action C (Call Address)))
    (hr : ∀ a ∈ as, Routine C a) : Custody d as (run exec d.start as) := by
  have hlog := payoutLog_run d.start_payoutLog as
  have hout := outside_run d.start_outside hr
  have hsurplus := (surplus_run d.start_numbered as d.paymentToken).2
  have hstart : 0 ≤ d.start.balance d.paymentToken C.self := C.token.balance_nonneg _ _
  refine ⟨?_, fun hzero hu => ?_, hlog.owed_eq, hlog.tagged, hlog.complete, ?_, ?_⟩
  -- the surplus starts at the balance, which is not negative, and never falls
  · have hnonneg : 0 ≤ surplus (run exec d.start as) d.paymentToken :=
      (hstart.trans_eq (d.start_surplus d.paymentToken).symm).trans hsurplus
    rw [hout.lockedTotal_eq]
    simpa only [surplus, sub_nonneg] using hnonneg
  · have heq := surplus_run_eq d.start_numbered d.start_outside hr hu d.paymentToken
    rw [d.start_surplus, hzero, surplus, sub_eq_zero] at heq
    rw [hout.lockedTotal_eq, heq]
  · intro id e he hsettled bs
    exact settled_final_run hlog.numbered he hsettled bs
  · intro env call w' id e hcall he hid
    exact (exec_effect hcall).frame hlog.numbered he hid

/-- A contract of admin 1 over the token 9, where account 2 owns a hundred units. -/
def smallDeployment : Deployment numberedChain where
  admin := 1
  paymentToken := 9
  defaultDisputeWindow := 10
  tokens _ := fun account => if account = 2 then (100 : ℕ) else 0
  now := 0

def depositAndRelease : List (Action numberedChain (Call ℕ)) :=
  [.invoke (signedBy 1) (.createEscrow 2 3 40 5 0),
   .invoke (signedBy 1) (.createEscrow 2 4 7 90 0),
   .tick 20,
   .invoke (signedBy 2) (.release 3 1)]

theorem custody_depositAndRelease :
    ((run exec smallDeployment.start depositAndRelease).store.escrow 1).map (·.status) =
        some .released ∧
      Custody smallDeployment depositAndRelease
        (run exec smallDeployment.start depositAndRelease) := by
  refine ⟨by decide, custody_of_routine smallDeployment depositAndRelease fun a ha => ?_⟩
  simp only [depositAndRelease, List.mem_cons, List.not_mem_nil, or_false] at ha
  rcases ha with rfl | rfl | rfl | rfl <;> simp [Routine, numberedChain]

end HubAssist.Escrow
