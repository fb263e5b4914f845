import HubAssist.EscrowSolvency

/-! Every transfer out of the escrow contract settles one escrow: the history of outgoing
transfers, tagged with the escrow of the call that made them, is read off the records. -/
namespace HubAssist.Escrow
open SorobanHost RunSystem StorageMap TokenLedger

variable {Address : Type} [DecidableEq Address] {C : Chain Address}
variable {env : Env C} {w w' : EscrowWorld C} {call : Call Address}

/-- The transfers out of the contract that a record accounts for. -/
def owed (C : Chain Address) : Option (EscrowRecord Address) → List (TransferEvent Address)
  | none => []
  | some e =>
    match e.status with
    | .released => [payout C e .release]
    | .refunded => [payout C e .refund]
    | .active | .disputed => []

def outgoing (C : Chain Address) (events : List (TransferEvent Address)) :
    List (TransferEvent Address) :=
  events.filter fun event => event.sender = C.self

/-- The outgoing transfers of one step, tagged with the escrow that the call is about. -/
def payouts (w : EscrowWorld C) :
    Action C (Call Address) → List (Option ℕ × TransferEvent Address)
  | .invoke env call =>
    (outgoing C ((step exec w (.invoke env call)).transfers.drop w.transfers.length)).map
      (Prod.mk call.subject)
  | .tick _ | .external _ _ => []

/-- The outgoing transfers that calls on escrow `id` have made in a run. -/
def caused (w : EscrowWorld C) (as : List (Action C (Call Address))) (id : ℕ) :
    List (TransferEvent Address) :=
  ((trace (step exec) payouts w as).filter fun p => p.1 = some id).map Prod.snd

theorem owed_live {e : EscrowRecord Address} (h : e.Live) : owed C (some e) = [] := by
  rcases h with h | h <;> simp [owed, h]

theorem owed_settled (e : EscrowRecord Address) (r : Resolution)
    (votes : List (ArbitrationVote Address)) :
    owed C (some { e with arbitrationVotes := votes, status := settledStatus r }) =
      [payout C e r] := by
  cases r <;> rfl

/-- What a call adds to the outgoing transfers is what it adds to the account of the escrow
it is about, and it leaves the account of every other escrow alone. -/
theorem Effect.owed_append (h : Effect w call w') (hn : Numbered w) :
    ∃ new, w'.transfers = w.transfers ++ new ∧
      (call.subject = none → outgoing C new = []) ∧
      ∀ id, owed C (w'.store.escrow id) =
        owed C (w.store.escrow id) ++ if call.subject = some id then outgoing C new else [] := by
  cases h with
  | configure s hsubject hescrow _ _ =>
    refine ⟨[], by simp, fun _ => rfl, fun id => ?_⟩
    simp [hescrow, outgoing]
  | deposit e type s t hcall hid hactive hself _ ht hescrow _ _ =>
    -- a deposit comes in from an outsider, so nothing of it counts as outgoing
    have hsubject : call.subject = none := by rw [hcall]; rfl
    refine ⟨[⟨e.paymentToken, e.depositor, C.self, e.amount⟩], by simp, ?_, fun id => ?_⟩
    · simp [outgoing, hself]
    · rw [World.setStore_store, hescrow, hsubject]
      by_cases h : id = e.id
      · rw [h, hid, hn.fresh, ← hid, Function.update_self, owed_live (Or.inl hactive)]
        simp [owed]
      · simp [Function.update_of_ne h]
  | amend id e since votes h₁ h₂ hsubject he hlive =>
    refine ⟨[], by simp, fun _ => rfl, fun k => ?_⟩
    by_cases h : k = id
    · subst h
      -- live before and after: the record owes no transfer either way
      rw [setEscrow_escrow, Function.update_self, he, owed_live hlive, owed_live (Or.inr rfl)]
      simp [outgoing]
    · simp [Function.update_of_ne h, outgoing]
  | settle id e r votes _ hsubject he hlive hpay =>
    obtain ⟨t, _, rfl⟩ := hpay
    have hout : outgoing C [payout C e r] = [payout C e r] := by simp [outgoing, payout]
    refine ⟨[payout C e r], by simp, by simp [hsubject], fun k => ?_⟩
    rw [hsubject, hout]
    by_cases h : k = id
    · subst h
      -- live before, settled after: the one payout is what the record now owes
      rw [setEscrow_escrow, Function.update_self, owed_settled, he, owed_live hlive]
      simp
    · simp [Function.update_of_ne h, Ne.symm h]

/-- The state and the tagged history of outgoing transfers agree. -/
structure PayoutLog (w : EscrowWorld C) (log : List (Option ℕ × TransferEvent Address)) :
    Prop where
  numbered : Numbered w
  owed_eq : ∀ id, (log.filter fun p => p.1 = some id).map Prod.snd = owed C (w.store.escrow id)
  tagged : ∀ p ∈ log, p.1 ≠ none
  complete : outgoing C w.transfers = log.map Prod.snd

omit [DecidableEq Address] in
theorem filter_tagged (o : Option ℕ) (id : ℕ) (events : List (TransferEvent Address)) :
    ((events.map (Prod.mk o)).filter fun p => p.1 = some id).map Prod.snd =
      if o = some id then events else [] := by
  by_cases h : o = some id
  · simp [List.filter_map, h, Function.comp_def]
  · simp [List.filter_map, h, Function.comp_def]

/-- An accepted call extends the log by its outgoing transfers, all with the tag of its subject. -/
theorem PayoutLog.accepted {log : List (Option ℕ × TransferEvent Address)} (h : PayoutLog w log)
    (hcall : exec env call w = .ok w') :
    PayoutLog w' (log ++ payouts w (.invoke env call)) := by
  have heff := exec_effect hcall
  obtain ⟨new, hnew, hnone, howed⟩ := heff.owed_append h.numbered
  have hpay : payouts w (.invoke env call) = (outgoing C new).map (Prod.mk call.subject) := by
    simp only [payouts, step_invoke_ok hcall, hnew, List.drop_left]
  rw [hpay]
  refine ⟨heff.numbered h.numbered, fun id => ?_, fun p hp => ?_, ?_⟩
  · rw [List.filter_append, List.map_append, h.owed_eq, filter_tagged, howed]
  · rcases List.mem_append.mp hp with hp | hp
    · exact h.tagged p hp
    · obtain ⟨event, hevent, rfl⟩ := List.mem_map.mp hp
      intro hsubject
      rw [hnone hsubject] at hevent
      exact List.not_mem_nil hevent
  · have hsplit : outgoing C (w.transfers ++ new) =
        outgoing C w.transfers ++ outgoing C new := List.filter_append ..
    rw [hnew, hsplit, h.complete, List.map_append, List.map_map]
    simp [Function.comp_def]

theorem payouts_error {fault : Fault ContractError} (h : exec env call w = .error fault) :
    payouts w (.invoke env call) = [] := by
  simp only [payouts, step_invoke_error h, List.drop_length]
  rfl

theorem PayoutLog.step {log : List (Option ℕ × TransferEvent Address)} (h : PayoutLog w log)
    (a : Action C (Call Address)) :
    PayoutLog (SorobanHost.step exec w a) (log ++ payouts w a) := by
  refine step_emits PayoutLog payouts h ?_ (fun _ _ _ => payouts_error) (fun d => ⟨rfl, ?_⟩)
    (fun token next => ⟨rfl, ?_⟩) a
  · intro env call w' hcall
    exact h.accepted hcall
  · exact ⟨h.numbered, h.owed_eq, h.tagged, h.complete⟩
  · exact ⟨h.numbered, h.owed_eq, h.tagged, h.complete⟩

theorem payoutLog_run (h : PayoutLog w []) (as : List (Action C (Call Address))) :
    PayoutLog (run exec w as) (trace (step exec) payouts w as) := by
  have hstep (v : EscrowWorld C) (a : Action C (Call Address))
      (log : List (Option ℕ × TransferEvent Address)) (hv : PayoutLog v log) :
      PayoutLog (step exec v a) (log ++ payouts v a) := hv.step a
  exact trace_invariant_all (step exec) payouts hstep h as

/-- A call changes the record of no existing escrow but the one it is about. -/
theorem Effect.frame (h : Effect w call w') (hn : Numbered w) {id : ℕ}
    {e : EscrowRecord Address} (he : w.store.escrow id = some e) (hid : call.subject ≠ some id) :
    w'.store.escrow id = some e := by
  cases h with
  | configure s _ hescrow _ _ => rw [World.setStore_store, hescrow, he]
  | deposit e₁ type s t _ heid _ _ _ _ hescrow _ _ =>
    have hne : id ≠ e₁.id := by
      rintro rfl
      rw [heid, hn.fresh] at he
      contradiction
    rw [World.setStore_store, hescrow, Function.update_of_ne hne, he]
  | amend k e₁ since votes h₁ h₂ hsubject _ _ =>
    rw [hsubject] at hid
    rw [setEscrow_escrow, Function.update_of_ne fun h => hid (by rw [h]), he]
  | settle k e₁ r votes _ hsubject _ _ hpay =>
    obtain ⟨t, _, rfl⟩ := hpay
    rw [hsubject] at hid
    rw [setEscrow_escrow, Function.update_of_ne fun h => hid (by rw [h])]
    exact he

/-- A settled record is final. -/
theorem Effect.settled_final (h : Effect w call w') (hn : Numbered w) {id : ℕ}
    {e : EscrowRecord Address} (he : w.store.escrow id = some e) (hsettled : ¬e.Live) :
    w'.store.escrow id = some e := by
  by_cases hid : call.subject = some id
  · cases h with
    | configure s _ hescrow _ _ => rw [World.setStore_store, hescrow, he]
    | deposit e₁ type s t hcall _ _ _ _ _ _ _ _ =>
      rw [hcall] at hid
      contradiction
    | amend k e₁ since votes h₁ h₂ hsubject he₁ hlive =>
      -- only a live record is written, and this one is settled
      obtain rfl : k = id := by simpa [hsubject] using hid
      exact absurd (Option.some.inj (he.symm.trans he₁) ▸ hlive) hsettled
    | settle k e₁ r votes _ hsubject he₁ hlive _ =>
      obtain rfl : k = id := by simpa [hsubject] using hid
      exact absurd (Option.some.inj (he.symm.trans he₁) ▸ hlive) hsettled
  · exact h.frame hn he hid

theorem settled_final_run (hn : Numbered w) {id : ℕ} {e : EscrowRecord Address}
    (he : w.store.escrow id = some e) (hsettled : ¬e.Live) (as : List (Action C (Call Address))) :
    (run exec w as).store.escrow id = some e := by
  have hstep (v : EscrowWorld C) (a : Action C (Call Address))
      (hv : Numbered v ∧ v.store.escrow id = some e) :
      Numbered (step exec v a) ∧ (step exec v a).store.escrow id = some e := by
    refine step_keeps (fun v => Numbered v ∧ v.store.escrow id = some e) hv ?_ (fun _ _ => hv)
      fun _ _ _ _ => hv
    intro env call v' _ hcall
    have heff := exec_effect hcall
    exact ⟨heff.numbered hv.1, heff.settled_final hv.1 hv.2 hsettled⟩
  exact (run_invariant_all (step exec) hstep ⟨hn, he⟩ as).2

end HubAssist.Escrow
