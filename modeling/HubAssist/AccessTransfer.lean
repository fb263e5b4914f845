import HubAssist.AccessCoalition

/-! The two-step transfer of the admin: whether an accepted transfer was proposed by the one
who is still admin, with nothing in between. -/
namespace HubAssist.Access
open SorobanHost RunSystem

variable {Address : Type} [DecidableEq Address] {C : Chain Address}
variable {env : Env C} {w w' : AccessWorld C} {call : Call Address}

/-- The contract is set up only once. -/
def Routine : Action C (Call Address) → Prop
  | .invoke _ call => ¬call.SetsUp
  | .tick _ | .external _ _ => True

/-- The call proposes or cancels a transfer of the admin. -/
def Call.Retargets : Call Address → Prop
  | .proposeAdminTransfer _ _ | .cancelAdminTransfer _ => True
  | _ => False

/-- The step leaves the stored admin alone and accepts neither a proposal nor a cancellation
of a transfer. -/
def Quiet (w : AccessWorld C) (a : Action C (Call Address)) : Prop :=
  (step exec w a).store.admin = w.store.admin ∧
    ∀ env call w', a = .invoke env call → exec env call w = .ok w' → ¬call.Retargets

/-- In the run `as` an admin has proposed the transfer to `newAdmin`, at the time `since` and
with quiet steps from then on. -/
def ProposedSince (d : Deployment C) (as : List (Action C (Call Address))) (proposer : Address)
    (newAdmin : Address) (since : ℕ) : Prop :=
  ∃ pre env mid w', as = pre ++ .invoke env (.proposeAdminTransfer proposer newAdmin) :: mid ∧
    exec env (.proposeAdminTransfer proposer newAdmin) (run exec d.start pre) = .ok w' ∧
    (run exec d.start pre).now = since ∧ Guarded (step exec) Quiet w' mid

/-- Whoever accepts a transfer has been proposed, at least the lock time before, by the
address that is still admin. -/
def TransfersHonoured (d : Deployment C) (as : List (Action C (Call Address))) : Prop :=
  ∀ pre env newAdmin post w', as = pre ++ .invoke env (.acceptAdminTransfer newAdmin) :: post →
    exec env (.acceptAdminTransfer newAdmin) (run exec d.start pre) = .ok w' →
    ∃ proposer since, (run exec d.start pre).store.admin = some proposer ∧
      since+adminTransferLock ≤ (run exec d.start pre).now ∧
      ProposedSince d pre proposer newAdmin since

/-- The step executes no proposal that replaces the admin while a transfer is pending. -/
def TransferKept (w : AccessWorld C) : Action C (Call Address) → Prop
  | .invoke env (.executeProposal executor id) => w.store.pendingAdmin ≠ none → ∀ p newAdmin,
    Executable env w executor id p → p.action = .setAdmin newAdmin →
      w.store.admin = some newAdmin
  | _ => True

/-- A pending transfer goes back to a proposal by whoever is admin now. -/
def PendingProposed (d : Deployment C) (w : AccessWorld C) (as : List (Action C (Call Address))) :
    Prop :=
  ∀ newAdmin since, w.store.pendingAdmin = some ⟨newAdmin, since⟩ →
    ∃ proposer, w.store.admin = some proposer ∧ ProposedSince d as proposer newAdmin since

theorem ProposedSince.concat {d : Deployment C} {as : List (Action C (Call Address))}
    {proposer newAdmin : Address} {since : ℕ} (h : ProposedSince d as proposer newAdmin since)
    {a : Action C (Call Address)} (hquiet : Quiet (run exec d.start as) a) :
    ProposedSince d (as ++ [a]) proposer newAdmin since := by
  obtain ⟨pre, env, mid, w', rfl, hok, hsince, hmid⟩ := h
  refine ⟨pre, env, mid ++ [a], w', by simp, hok, hsince, ?_⟩
  have hrun : run exec d.start
      (pre ++ .invoke env (.proposeAdminTransfer proposer newAdmin) :: mid) = run exec w' mid := by
    rw [SorobanHost.run, run_append, run_cons, step_invoke_ok hok]
  rw [hrun] at hquiet
  exact (guarded_append (step exec) Quiet w' mid [a]).mpr ⟨hmid, hquiet, trivial⟩

/-- An accepted call that neither retargets nor accepts a transfer, and replaces no admin,
leaves the transfer and the admin as they are. -/
theorem Effect.transfer_kept (h : Effect env w call w') (hsetup : ¬call.SetsUp)
    (hkept : TransferKept w (.invoke env call)) (hretarget : ¬call.Retargets)
    (hpending : w'.store.pendingAdmin ≠ none) :
    w'.store.pendingAdmin = w.store.pendingAdmin ∧ w'.store.admin = w.store.admin := by
  cases h with
  | setUp admin config => exact absurd ⟨admin, config, rfl⟩ hsetup
  | administer _ config role version _ =>
    cases call with
    | proposeAdminTransfer admin newAdmin => exact absurd trivial hretarget
    | cancelAdminTransfer admin => exact absurd trivial hretarget
    | acceptAdminTransfer newAdmin => exact absurd rfl hpending
    | _ => exact ⟨rfl, rfl⟩
  | propose => exact ⟨rfl, rfl⟩
  | approve => exact ⟨rfl, rfl⟩
  | execute executor id p hexec =>
    refine ⟨applyAction_pendingAdmin w.store w.now p.action, ?_⟩
    rcases applyAction_admin w.store w.now p.action with ⟨newAdmin, haction, hnew⟩ | hsame
    · -- the admin is replaced by itself, since the transfer was pending before
      have hbefore : w.store.pendingAdmin ≠ none := by
        rwa [World.setStore_store, applyAction_pendingAdmin] at hpending
      exact hnew.trans (hkept hbefore p newAdmin hexec haction).symm
    · exact hsame
  | accept newAdmin since _ _ _ => exact absurd rfl hpending

theorem PendingProposed.kept {d : Deployment C} {as : List (Action C (Call Address))}
    (h : PendingProposed d (run exec d.start as) as) (hsetup : ¬call.SetsUp)
    (hkept : TransferKept (run exec d.start as) (.invoke env call))
    (hcall : exec env call (run exec d.start as) = .ok w') :
    PendingProposed d w' (as ++ [.invoke env call]) := by
  intro newAdmin since hpending
  by_cases hretarget : call.Retargets
  · cases call with
    | proposeAdminTransfer proposer target =>
      obtain ⟨_, _, hadmin, rfl⟩ := proposeAdminTransfer_eq_ok.mp hcall
      obtain ⟨rfl, rfl⟩ := PendingAdminTransfer.mk.inj (Option.some.inj hpending)
      exact ⟨proposer, hadmin, as, env, [], _, rfl, hcall, rfl, trivial⟩
    | cancelAdminTransfer admin =>
      simp only [exec, cancelAdminTransfer, bind_eq_ok, pure_eq_ok] at hcall
      obtain ⟨_, _, _, _, rfl⟩ := hcall
      exact absurd hpending.symm (Option.some_ne_none _)
    | _ => exact False.elim hretarget
  · have hsome : w'.store.pendingAdmin ≠ none := by
      rw [hpending]
      exact Option.some_ne_none _
    obtain ⟨hsame, hadmin⟩ := (exec_effect hcall).transfer_kept hsetup hkept hretarget hsome
    obtain ⟨proposer, hproposer, hsince⟩ := h newAdmin since (hsame.symm.trans hpending)
    refine ⟨proposer, hadmin.trans hproposer, hsince.concat ⟨?_, ?_⟩⟩
    · rw [step_invoke_ok hcall, hadmin]
    · rintro env' call' v heq _
      cases heq
      exact hretarget

theorem PendingProposed.step {d : Deployment C} {as : List (Action C (Call Address))}
    (h : PendingProposed d (run exec d.start as) as) {a : Action C (Call Address)}
    (hr : Routine a) (hkept : TransferKept (run exec d.start as) a) :
    PendingProposed d (step exec (run exec d.start as) a) (as ++ [a]) := by
  -- a step that changes no storage is quiet, and what was proposed stays so
  have hsame (hstore : (SorobanHost.step exec (run exec d.start as) a).store =
      (run exec d.start as).store)
      (hcalls : ∀ env call w', a = .invoke env call →
        exec env call (run exec d.start as) = .ok w' → ¬call.Retargets) :
      ∀ v : AccessWorld C, v.store = (run exec d.start as).store →
        PendingProposed d v (as ++ [a]) := by
    intro v hv newAdmin since hpending
    rw [hv] at hpending
    obtain ⟨proposer, hproposer, hsince⟩ := h newAdmin since hpending
    refine ⟨proposer, by rw [hv, hproposer], hsince.concat ⟨by rw [hstore], hcalls⟩⟩
  cases a with
  | invoke env call =>
    cases hcall : exec env call (run exec d.start as) with
    | ok w' =>
      rw [step_invoke_ok hcall]
      exact h.kept hr hkept hcall
    | error fault =>
      have hstep := step_invoke_error hcall
      rw [hstep]
      refine hsame (by rw [hstep]) ?_ _ rfl
      rintro env' call' v heq hok
      cases heq
      exact absurd (hok.symm.trans hcall) (by simp)
  | tick seconds =>
    exact hsame rfl (fun _ _ _ heq => by cases heq) _ rfl
  | external token next =>
    have hstore : (SorobanHost.step exec (run exec d.start as) (.external token next)).store =
        (run exec d.start as).store := step_external_store
    exact hsame hstore (fun _ _ _ heq => by cases heq) _ hstore

theorem pendingProposed_run (d : Deployment C) {as : List (Action C (Call Address))}
    (hr : ∀ a ∈ as, Routine a) (hkept : Guarded (step exec) TransferKept d.start as) :
    PendingProposed d (run exec d.start as) as := by
  have hroutine : Guarded (step exec) (fun _ a => Routine a) d.start as :=
    guarded_of_forall_mem (step exec) hr
  have hstart : PendingProposed d d.start [] :=
    fun newAdmin since h => absurd h.symm (Option.some_ne_none _)
  exact guarded_history_invariant (step exec) hstart (fun as a h hp => h.step hp.1 hp.2)
    (guarded_and (step exec) hroutine hkept)

/-- Transfers are honoured in every run in which no executed proposal replaces the admin
while a transfer is pending. -/
theorem transfers_honoured_run (d : Deployment C) (as : List (Action C (Call Address)))
    (hr : ∀ a ∈ as, Routine a) (hkept : Guarded (step exec) TransferKept d.start as) :
    TransfersHonoured d as := by
  rintro pre env newAdmin post w' rfl hok
  have hpre := ((guarded_append (step exec) TransferKept d.start pre _).mp hkept).1
  have hproposed := pendingProposed_run d (fun a ha => hr a (List.mem_append_left _ ha)) hpre
  obtain ⟨_, _, since, hpending, _, hnow, _⟩ := acceptAdminTransfer_eq_ok.mp hok
  obtain ⟨proposer, hadmin, hsince⟩ := hproposed newAdmin since hpending
  exact ⟨proposer, since, hadmin, hnow, hsince⟩

/-- Admin 1 hands over to 5 in two days. -/
def handover : List (Action numberedChain (Call ℕ)) :=
  [.invoke (signedBy 0) (.proposeAdminTransfer 1 5), .tick 172800,
   .invoke (signedBy 4) (.acceptAdminTransfer 5)]

theorem routine_handover : ∀ a ∈ handover, Routine a := by
  intro a ha
  simp only [handover, List.mem_cons, List.not_mem_nil, or_false] at ha
  rcases ha with rfl | rfl | rfl <;> simp [Routine, Call.SetsUp]

theorem transfers_honoured_handover :
    (run exec smallDeployment.start handover).store.admin = some 5 ∧
      TransfersHonoured smallDeployment handover :=
  ⟨by decide, transfers_honoured_run smallDeployment handover routine_handover
    ⟨trivial, trivial, trivial, trivial⟩⟩

/-- Three approvals replace admin 1 by 6 while its transfer to 5 is pending, and 5 accepts. -/
def staleHandover : List (Action numberedChain (Call ℕ)) :=
  [.invoke (signedBy 0) (.setRole 1 2 .staff), .invoke (signedBy 0) (.setRole 1 3 .staff),
   .invoke (signedBy 0) (.proposeAdminTransfer 1 5),
   .invoke (signedBy 0) (.createProposal 1 (.setAdmin 6)),
   .invoke (signedBy 1) (.approveProposal 2 1), .invoke (signedBy 2) (.approveProposal 3 1),
   .tick 60, .invoke (signedBy 1) (.executeProposal 2 1), .tick 172740]

/-- The transfer is accepted though 6 is admin by then, who never proposed it. -/
theorem transfers_not_honoured :
    (∀ a ∈ staleHandover ++ [.invoke (signedBy 4) (.acceptAdminTransfer 5)], Routine a) ∧
      (run exec smallDeployment.start staleHandover).store.admin = some 6 ∧
      ¬TransfersHonoured smallDeployment
        (staleHandover ++ [.invoke (signedBy 4) (.acceptAdminTransfer 5)]) := by
  refine ⟨fun a ha => ?_, by decide, fun h => ?_⟩
  · simp only [staleHandover, List.mem_append, List.mem_cons, List.not_mem_nil, or_false] at ha
    rcases ha with (rfl | rfl | rfl | rfl | rfl | rfl | rfl | rfl | rfl) | rfl <;>
      simp [Routine, Call.SetsUp]
  · obtain ⟨w', hok⟩ : ∃ w', exec (signedBy 4) (.acceptAdminTransfer 5)
        (run exec smallDeployment.start staleHandover) = .ok w' :=
      ⟨_, acceptAdminTransfer_eq_ok.mpr
        ⟨by decide, by decide, 0, by decide, by decide, by decide, rfl⟩⟩
    obtain ⟨proposer, since, hadmin, _, pre, env, mid, _, heq, _⟩ :=
      h staleHandover (signedBy 4) 5 [] w' rfl hok
    have hstored : (run exec smallDeployment.start staleHandover).store.admin = some 6 := by decide
    have hsix : 6 = proposer := Option.some.inj (hstored.symm.trans hadmin)
    have hmem : .invoke env (.proposeAdminTransfer proposer 5) ∈ staleHandover := by
      rw [heq]
      exact List.mem_append_right _ List.mem_cons_self
    subst hsix
    simp [staleHandover] at hmem

end HubAssist.Access
