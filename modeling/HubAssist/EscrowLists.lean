import HubAssist.EscrowCustody
import HubAssist.NumberedTable

/-! Where an escrow stands: its record, the list of its depositor and the list of its beneficiary,
which may be one list's worth of the same address. The three agree in every state of a run. -/
namespace HubAssist.Escrow
open SorobanHost CheckedArith RunSystem NumberedTable

variable {Address : Type}

/-- Between whom an escrow has been opened, and under which number. -/
structure Parties (Address : Type) where
  id : ℕ
  depositor : Address
  beneficiary : Address
  deriving DecidableEq

def EscrowRecord.parties (e : EscrowRecord Address) : Parties Address :=
  ⟨e.id, e.depositor, e.beneficiary⟩

/-- The records as they are now, in the order in which the escrows were opened. -/
def escrows (s : Storage Address) : List (EscrowRecord Address) :=
  records (s.escrowCount.getD 0) s.escrow

variable [DecidableEq Address] {C : Chain Address}
variable {env : Env C} {w w' : EscrowWorld C} {call : Call Address}

/-- The escrow that this step opens. -/
def opened (w : EscrowWorld C) : Action C (Call Address) → List (Parties Address)
  | .invoke env (.createEscrow depositor beneficiary amount releaseTime bookingType) =>
    match createEscrow env depositor beneficiary amount releaseTime bookingType w with
    | .ok (id, _) => [⟨id, depositor, beneficiary⟩]
    | .error _ => []
  | _ => []

/-- The escrows are those that were opened, and each party finds exactly its own. -/
structure ListsExact (w : EscrowWorld C) (parties : List (Parties Address)) : Prop where
  numbered : ∀ id, (w.store.escrow id).isSome = true ↔ 1 ≤ id ∧ id ≤ w.store.escrowCount.getD 0
  ids : (escrows w.store).map EscrowRecord.id = List.range' 1 (w.store.escrowCount.getD 0)
  own : ∀ id e, w.store.escrow id = some e → e.id = id
  made : (escrows w.store).map EscrowRecord.parties = parties
  ofDepositor : ∀ a, listDepositorEscrows w a = (escrows w.store).filter fun e => e.depositor = a
  ofBeneficiary : ∀ a, listBeneficiaryEscrows w a =
    (escrows w.store).filter fun e => e.beneficiary = a

/-- What an accepted call does to the records and their lists: it opens the next escrow, or changes
neither an escrow's number nor its parties. -/
inductive Files (w w' : EscrowWorld C) : List (Parties Address) → Prop where
  | opens (e : EscrowRecord Address) (hid : e.id = w.store.escrowCount.getD 0+1)
      (hescrow : w'.store.escrow =
        Function.update w.store.escrow (w.store.escrowCount.getD 0+1) (some e))
      (hcount : w'.store.escrowCount = some (w.store.escrowCount.getD 0+1))
      (hdepositor : w'.store.depositorEscrows =
        pushToList w.store.depositorEscrows e.depositor (w.store.escrowCount.getD 0+1))
      (hbeneficiary : w'.store.beneficiaryEscrows =
        pushToList w.store.beneficiaryEscrows e.beneficiary (w.store.escrowCount.getD 0+1)) :
      Files w w' [e.parties]
  | keeps (hescrow : ∀ id, (w'.store.escrow id).map EscrowRecord.parties =
        (w.store.escrow id).map EscrowRecord.parties)
      (hcount : w'.store.escrowCount = w.store.escrowCount)
      (hdepositor : w'.store.depositorEscrows = w.store.depositorEscrows)
      (hbeneficiary : w'.store.beneficiaryEscrows = w.store.beneficiaryEscrows) : Files w w' []

theorem Files.setEscrow {v : EscrowWorld C} {id : ℕ} {e e' : EscrowRecord Address}
    (hv : v.store = w.store) (he : w.store.escrow id = some e) (hparties : e'.parties = e.parties) :
    Files w (setEscrow v id e') [] := by
  refine .keeps (fun k => ?_) (by rw [← hv]; rfl) (by rw [← hv]; rfl) (by rw [← hv]; rfl)
  rw [setEscrow_escrow, hv]
  by_cases hk : k = id
  · subst hk
    rw [Function.update_self, he, Option.map_some, Option.map_some, hparties]
  · rw [Function.update_of_ne hk]

theorem Files.settles {id : ℕ} {e : EscrowRecord Address} {r : Resolution}
    {votes : List (ArbitrationVote Address)} (he : w.store.escrow id = some e)
    (h : Settles w id e r votes w') : Files w w' [] := by
  obtain ⟨t, _, rfl⟩ := h
  exact .setEscrow rfl he rfl

theorem exec_files (h : exec env call w = .ok w') : Files w w' (opened w (.invoke env call)) := by
  cases call with
  | initializeContract admin token window =>
    simp only [exec, initializeContract, bind_eq_ok, pure_eq_ok] at h
    obtain ⟨_, _, rfl⟩ := h
    exact .keeps (fun _ => rfl) rfl rfl rfl
  | setArbitrators admin arbitrators =>
    simp only [exec, setArbitrators, bind_eq_ok, pure_eq_ok] at h
    obtain ⟨_, _, rfl⟩ := h
    exact .keeps (fun _ => rfl) rfl rfl rfl
  | setDisputeWindow admin type window =>
    simp only [exec, setDisputeWindow, bind_eq_ok, pure_eq_ok] at h
    obtain ⟨_, _, rfl⟩ := h
    exact .keeps (fun _ => rfl) rfl rfl rfl
  | pause admin =>
    simp only [exec, pause, bind_eq_ok, pure_eq_ok] at h
    obtain ⟨_, _, rfl⟩ := h
    exact .keeps (fun _ => rfl) rfl rfl rfl
  | unpause admin =>
    simp only [exec, unpause, bind_eq_ok, pure_eq_ok] at h
    obtain ⟨_, _, rfl⟩ := h
    exact .keeps (fun _ => rfl) rfl rfl rfl
  | createEscrow depositor beneficiary amount time type =>
    obtain ⟨⟨id, w₁⟩, hc, rfl⟩ := map_eq_ok.mp h
    rw [opened, hc]
    obtain ⟨_, _, _, token, _, t, _, _, rfl, rfl⟩ := createEscrow_eq_ok.mp hc
    exact .opens (newEscrow w _ depositor beneficiary token amount time type) rfl rfl rfl rfl rfl
  | release caller id =>
    obtain ⟨_, _, e, he, _, _, _, _, hpay⟩ := release_eq_ok.mp h
    exact .settles he hpay
  | refund caller id =>
    obtain ⟨_, e, he, _, _, hpay⟩ := refund_eq_ok.mp h
    exact .settles he hpay
  | dispute depositor id hash =>
    obtain ⟨_, _, e, he, _, _, _, _, rfl⟩ := dispute_eq_ok.mp h
    exact .setEscrow rfl he rfl
  | submitEvidence caller id hash =>
    obtain ⟨_, _, e, he, _, _, rfl⟩ := submitEvidence_eq_ok.mp h
    apply Files.setEscrow rfl he
    split_ifs <;> rfl
  | voteResolution arbitrator id decision =>
    obtain ⟨_, _, e, he, _, _, _, hvote⟩ := voteResolution_eq_ok.mp h
    -- the vote settles the escrow or is only recorded on it
    split at hvote
    · next r _ => exact .settles he hvote
    · next =>
      subst hvote
      exact .setEscrow rfl he rfl
  | expireDispute id =>
    obtain ⟨_, e, he, _, _, _, hpay⟩ := expireDispute_eq_ok.mp h
    exact .settles he hpay
  | tryAutoRelease caller id =>
    obtain ⟨_, e, he, _, _, hpay⟩ := tryAutoRelease_eq_ok.mp h
    exact .settles he hpay

theorem opened_error {fault : Fault ContractError} (h : exec env call w = .error fault) :
    opened w (.invoke env call) = [] := by
  cases call with
  | createEscrow depositor beneficiary amount releaseTime bookingType =>
    cases hc : createEscrow env depositor beneficiary amount releaseTime bookingType w with
    | ok result => rw [exec, hc] at h; cases h
    | error fault => rw [opened, hc]
  | _ => rfl

/-- The records and the two indexes, as one invariant. -/
structure Indexes (w : EscrowWorld C) (parties : List (Parties Address)) : Prop where
  logged : Logged EscrowRecord.parties Parties.id (w.store.escrowCount.getD 0) w.store.escrow
    parties
  depositors : Indexed (fun e => e.parties.depositor) (w.store.escrowCount.getD 0) w.store.escrow
    w.store.depositorEscrows
  beneficiaries : Indexed (fun e => e.parties.beneficiary) (w.store.escrowCount.getD 0)
    w.store.escrow w.store.beneficiaryEscrows

theorem Files.indexes {parties new : List (Parties Address)} (h : Files w w' new)
    (hw : Indexes w parties) : Indexes w' (parties ++ new) := by
  cases h with
  | opens e hid hescrow hcount hdepositor hbeneficiary =>
    refine ⟨?_, ?_, ?_⟩
    · rw [hcount, hescrow]
      exact hw.logged.push e hid
    · rw [hcount, hescrow, hdepositor]
      exact hw.depositors.push e
    · rw [hcount, hescrow, hbeneficiary]
      exact hw.beneficiaries.push e
  | keeps hescrow hcount hdepositor hbeneficiary =>
    rw [List.append_nil]
    refine ⟨?_, ?_, ?_⟩
    · rw [hcount]
      exact hw.logged.congr hescrow
    · rw [hcount, hdepositor]
      exact hw.depositors.congr_summary hescrow
    · rw [hcount, hbeneficiary]
      exact hw.beneficiaries.congr_summary hescrow

theorem Indexes.step {parties : List (Parties Address)} (hw : Indexes w parties)
    (a : Action C (Call Address)) :
    Indexes (SorobanHost.step exec w a) (parties ++ opened w a) := by
  refine step_emits Indexes opened hw ?_ (fun _ _ _ => opened_error) (fun d => ⟨rfl, ?_⟩)
    (fun token next => ⟨rfl, ?_⟩) a
  · intro env call w' hcall
    exact (exec_files hcall).indexes hw
  -- neither the clock nor a ledger is in the indexes
  · exact ⟨hw.logged, hw.depositors, hw.beneficiaries⟩
  · exact ⟨hw.logged, hw.depositors, hw.beneficiaries⟩

theorem Indexes.listsExact {parties : List (Parties Address)} (hw : Indexes w parties) :
    ListsExact w parties :=
  ⟨hw.logged.dense, hw.logged.map_records, hw.logged.own, hw.logged.entered, hw.depositors.lookup,
    hw.beneficiaries.lookup⟩

theorem Deployment.start_indexes (d : Deployment C) : Indexes d.start [] :=
  ⟨logged_empty _ _, indexed_empty _, indexed_empty _⟩

/-- In every state the escrows are those that the accepted calls have opened, in order, and the two
lists of an address hold exactly the escrows it has opened and those opened for it. -/
theorem escrow_lists_exact (d : Deployment C) (as : List (Action C (Call Address))) :
    ListsExact (run exec d.start as) (trace (SorobanHost.step exec) opened d.start as) := by
  have hrun := trace_invariant_all (SorobanHost.step exec) opened (J := Indexes)
    (fun _ a _ hw => hw.step a) d.start_indexes as
  exact hrun.listsExact

end HubAssist.Escrow
