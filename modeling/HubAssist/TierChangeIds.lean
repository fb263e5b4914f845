import HubAssist.TierChangeSteps

/-! The ids of requests for another tier. They are made of the ledger's sequence number alone, so
two requests of one ledger share an id. -/
namespace HubAssist.ManageHub.Tiers
open SorobanHost CheckedArith RunSystem

variable {Address : Type} [DecidableEq Address] {C : Chain Address} {K : Crypto Address}
variable {w : ManageWorld C K} {as : List (Action C (Call Address K.Digest))}
variable {a : Action C (Call Address K.Digest)}

/-- An accepted request: the ledger that it was made in, the id that was returned and the record
that was stored. -/
structure Ticket (Address Digest : Type) where
  sequence : ℕ
  id : Digest
  request : TierChangeRequest Address Digest

def tickets (w : ManageWorld C K) :
    Action C (Call Address K.Digest) → List (Ticket Address K.Digest)
  | .invoke env (.requestTierChange user newTierId sequence) =>
    match requestTierChange env user newTierId sequence w with
    | .ok (id, w') => ((w'.store.tierChangeRequest id).map (Ticket.mk sequence id)).toList
    | .error _ => []
  | .invoke _ _ | .tick _ | .external _ _ => []

/-- The accepted requests of a run, in order. -/
abbrev allTickets (w : ManageWorld C K) (as : List (Action C (Call Address K.Digest))) :
    List (Ticket Address K.Digest) := trace (step exec) tickets w as

/-- The request is as it was, or has been answered in between. -/
def Settles {Digest : Type} (request request' : TierChangeRequest Address Digest) : Prop :=
  request' = request ∨ request.status = .pending ∧
    (request' = { request with status := .approved } ∨
      request' = { request with status := .rejected })

/-- The ids that are returned differ, each is on the list once, and what is stored under it is the
request that was made, which is answered at most once. -/
structure NoneLost (w : ManageWorld C K) (as : List (Action C (Call Address K.Digest))) : Prop where
  distinct : ((allTickets w as).map Ticket.id).Nodup
  listed : ∀ pre post, as = pre ++ post → ∀ t ∈ allTickets w pre,
    (requestList (run exec w pre).store).count t.id = 1
  kept : ∀ pre mid post, as = pre ++ mid ++ post → ∀ t ∈ allTickets w pre, ∃ request request',
    (run exec w pre).store.tierChangeRequest t.id = some request ∧ Settles t.request request ∧
      (run exec w (pre ++ mid)).store.tierChangeRequest t.id = some request' ∧
        Settles request request'

/-- No two of the accepted requests are made in one ledger, and none has an id that was on the list
before. -/
structure OnePerLedger (w : ManageWorld C K) (as : List (Action C (Call Address K.Digest))) :
    Prop where
  sequences : ((allTickets w as).map Ticket.sequence).Nodup
  unlisted : ∀ t ∈ allTickets w as, requestIdOf K t.sequence ∉ requestList w.store

section
variable {Digest : Type} {request request' request'' : TierChangeRequest Address Digest}
omit [DecidableEq Address]

theorem Settles.refl (request : TierChangeRequest Address Digest) : Settles request request :=
  Or.inl rfl

/-- What has been answered stays as it is. -/
theorem Settles.trans (h : Settles request request') (h' : Settles request' request'') :
    Settles request request'' := by
  rcases h with rfl | ⟨hpending, hanswer⟩
  · exact h'
  · have hanswered : request'.status ≠ .pending := by
      rcases hanswer with rfl | rfl <;> simp
    rcases h' with rfl | ⟨hpending', _⟩
    · exact Or.inr ⟨hpending, hanswer⟩
    · exact absurd hpending' hanswered

end

/-- All requests that are stored stay, and are answered at most. -/
def Progress (w w' : ManageWorld C K) : Prop := ∀ id request,
  w.store.tierChangeRequest id = some request →
    ∃ request', w'.store.tierChangeRequest id = some request' ∧ Settles request request'

theorem progress_of_eq {w' : ManageWorld C K}
    (h : w'.store.tierChangeRequest = w.store.tierChangeRequest) : Progress w w' := by
  intro id request hstored
  rw [h]
  exact ⟨request, hstored, .refl request⟩

theorem progress_answer {env : Env C} {admin : Address} {requestId : K.Digest}
    {request : TierChangeRequest Address K.Digest}
    (h : Answerable env w admin requestId request) {status : TierChangeStatus}
    (hstatus : status = .approved ∨ status = .rejected) :
    Progress w (answer w requestId request status) := by
  intro id old hold
  by_cases hid : id = requestId
  · subst hid
    obtain rfl := Option.some.inj (hold.symm.trans h.stored)
    refine ⟨{ old with status := status }, Function.update_self .., Or.inr ⟨h.pending, ?_⟩⟩
    rcases hstatus with rfl | rfl
    · exact Or.inl rfl
    · exact Or.inr rfl
  · exact ⟨old, (Function.update_of_ne hid ..).trans hold, .refl old⟩

theorem tickets_of_ne {env : Env C} {call : Call Address K.Digest}
    (h : ∀ user newTierId sequence, call ≠ .requestTierChange user newTierId sequence) :
    tickets w (.invoke env call) = [] := by
  cases call with
  | requestTierChange user newTierId sequence => exact absurd rfl (h user newTierId sequence)
  | _ => rfl

theorem tickets_of_error {env : Env C} {call : Call Address K.Digest} {fault : Fault ModuleError}
    (h : exec env call w = .error fault) : tickets w (.invoke env call) = [] := by
  cases call with
  | requestTierChange user newTierId sequence =>
    rw [tickets]
    cases hrequest : requestTierChange env user newTierId sequence w with
    | ok r => simp [exec, hrequest, Except.map] at h
    | error fault => rfl
  | _ => rfl

/-- A step makes no request, or one that it stores and puts on the list. -/
theorem tickets_cases (w : ManageWorld C K) (a : Action C (Call Address K.Digest)) :
    (tickets w a = [] ∧ requestList (step exec w a).store = requestList w.store ∧
        Progress w (step exec w a)) ∨
      ∃ sequence request, request.id = requestIdOf K sequence ∧
        tickets w a = [⟨sequence, request.id, request⟩] ∧ step exec w a = file w request := by
  cases a with
  | tick d => exact Or.inl ⟨rfl, rfl, progress_of_eq rfl⟩
  | external token next =>
    have hstore : (step exec w (.external token next)).store = w.store := step_external_store
    exact Or.inl ⟨rfl, by rw [hstore], progress_of_eq (by rw [hstore])⟩
  | invoke env call =>
    cases hok : exec env call w with
    | error fault =>
      rw [step_invoke_error hok]
      exact Or.inl ⟨tickets_of_error hok, rfl, progress_of_eq rfl⟩
    | ok w' =>
      rw [step_invoke_ok hok]
      cases exec_effect hok with
      | requests user newTierId sequence current newTier currentTier hrequest =>
        have hmade : requestTierChange env user newTierId sequence w = .ok (requestIdOf K sequence,
            file w (newRequest w user newTierId sequence current newTier currentTier)) :=
          requestTierChange_eq_ok.mpr ⟨current, newTier, currentTier, hrequest, rfl, rfl⟩
        refine Or.inr ⟨sequence, _, rfl, ?_, rfl⟩
        simp [tickets, hmade, file, newRequest]
      | approves admin requestId request hanswer =>
        exact Or.inl ⟨rfl, rfl, progress_answer hanswer (Or.inl rfl)⟩
      | rejects admin requestId request hanswer =>
        exact Or.inl ⟨rfl, rfl, progress_answer hanswer (Or.inr rfl)⟩
      | adds admin tier hnew => exact Or.inl ⟨rfl, rfl, progress_of_eq rfl⟩
      | edits _ tierId updates tier hedit htier =>
        refine Or.inl ⟨tickets_of_ne fun user newTierId sequence hcall => ?_, rfl,
          progress_of_eq rfl⟩
        rw [hcall] at hedit
        exact nomatch hedit
      | others _ _ hsame _ hrequest _ =>
        exact Or.inl ⟨tickets_of_ne hrequest, by rw [requestList, requestList, hsame.list],
          progress_of_eq hsame.requests⟩

/-- What is stored under an id stays there, unless the step makes a request with that id. -/
theorem stored_kept {id : K.Digest} {request : TierChangeRequest Address K.Digest}
    (hstored : w.store.tierChangeRequest id = some request)
    (hid : id ∉ (tickets w a).map Ticket.id) : ∃ request',
      (step exec w a).store.tierChangeRequest id = some request' ∧ Settles request request' := by
  rcases tickets_cases w a with ⟨_, _, hprogress⟩ | ⟨sequence, made, _, htickets, hstep⟩
  · exact hprogress id request hstored
  · rw [htickets] at hid
    have hne : id ≠ made.id := by simpa using hid
    rw [hstep]
    exact ⟨request, (Function.update_of_ne hne ..).trans hstored, .refl request⟩

theorem stored_kept_run {id : K.Digest} {request : TierChangeRequest Address K.Digest}
    (hstored : w.store.tierChangeRequest id = some request)
    (hid : id ∉ (allTickets w as).map Ticket.id) : ∃ request',
      (run exec w as).store.tierChangeRequest id = some request' ∧ Settles request request' := by
  induction as using List.reverseRecOn with
  | nil => exact ⟨request, hstored, .refl request⟩
  | append_singleton as a ih =>
    rw [allTickets, trace_concat, List.map_append, List.mem_append, not_or] at hid
    obtain ⟨between, hbetween, hsettles⟩ := ih hid.1
    obtain ⟨request', hafter, hsettles'⟩ := stored_kept hbetween hid.2
    rw [SorobanHost.run, run_concat]
    exact ⟨request', hafter, hsettles.trans hsettles'⟩

/-- Where the ids differ, the record of every request is still stored. -/
theorem stored_of_ticket (hids : ((allTickets w as).map Ticket.id).Nodup)
    {t : Ticket Address K.Digest} (ht : t ∈ allTickets w as) : ∃ request,
      (run exec w as).store.tierChangeRequest t.id = some request ∧
        Settles t.request request := by
  induction as using List.reverseRecOn with
  | nil => exact absurd ht List.not_mem_nil
  | append_singleton as a ih =>
    rw [allTickets, trace_concat] at hids ht
    rw [List.map_append] at hids
    obtain ⟨hold, _, hnew⟩ := List.nodup_append.mp hids
    rw [SorobanHost.run, run_concat]
    rcases List.mem_append.mp ht with hbefore | hlast
    · obtain ⟨request, hstored, hsettles⟩ := ih hold hbefore
      have hid : t.id ∉ (tickets (run exec w as) a).map Ticket.id :=
        fun hmem => hnew t.id (List.mem_map_of_mem hbefore) t.id hmem rfl
      obtain ⟨request', hafter, hsettles'⟩ := stored_kept hstored hid
      exact ⟨request', hafter, hsettles.trans hsettles'⟩
    · -- the request is made in this very step
      rcases tickets_cases (RunSystem.run (step exec) w as) a with
        ⟨hnone, _⟩ | ⟨sequence, request, _, htickets, hstep⟩
      · rw [hnone] at hlast
        exact absurd hlast List.not_mem_nil
      · rw [htickets] at hlast
        obtain rfl := List.mem_singleton.mp hlast
        rw [hstep]
        exact ⟨request, Function.update_self .., .refl request⟩

theorem ticket_id {t : Ticket Address K.Digest} (ht : t ∈ allTickets w as) :
    t.id = requestIdOf K t.sequence := by
  induction as using List.reverseRecOn with
  | nil => exact absurd ht List.not_mem_nil
  | append_singleton as a ih =>
    rw [allTickets, trace_concat] at ht
    rcases List.mem_append.mp ht with hbefore | hlast
    · exact ih hbefore
    · rcases tickets_cases (RunSystem.run (step exec) w as) a with
        ⟨hnone, _⟩ | ⟨sequence, request, hid, htickets, _⟩
      · rw [hnone] at hlast
        exact absurd hlast List.not_mem_nil
      · rw [htickets] at hlast
        obtain rfl := List.mem_singleton.mp hlast
        exact hid

/-- The list has the ids it had before, and those of the requests in order. -/
theorem requestList_run (w : ManageWorld C K) (as : List (Action C (Call Address K.Digest))) :
    requestList (run exec w as).store = requestList w.store ++ (allTickets w as).map Ticket.id := by
  induction as using List.reverseRecOn with
  | nil => simp [allTickets, trace]
  | append_singleton as a ih =>
    rw [allTickets, trace_concat, SorobanHost.run, run_concat, List.map_append,
      ← List.append_assoc, ← ih]
    rcases tickets_cases (RunSystem.run (step exec) w as) a with
      ⟨hnone, hlist, _⟩ | ⟨sequence, request, _, htickets, hstep⟩
    · rw [hnone, hlist, List.map_nil, List.append_nil]
    · rw [htickets, hstep]
      rfl

theorem ticketIds_eq (w : ManageWorld C K) (as : List (Action C (Call Address K.Digest))) :
    (allTickets w as).map Ticket.id =
      ((allTickets w as).map Ticket.sequence).map (requestIdOf K) := by
  rw [List.map_map]
  exact List.map_congr_left fun t ht => ticket_id ht

theorem ticketIds_append (w : ManageWorld C K)
    (pre post : List (Action C (Call Address K.Digest))) :
    (allTickets w (pre ++ post)).map Ticket.id = (allTickets w pre).map Ticket.id ++
      (allTickets (run exec w pre) post).map Ticket.id := by
  rw [allTickets, trace_append, List.map_append]

/-- Where the ids differ, one that was not on the list before is there once. -/
theorem count_requestList (hids : ((allTickets w as).map Ticket.id).Nodup)
    {t : Ticket Address K.Digest} (ht : t ∈ allTickets w as) (hnew : t.id ∉ requestList w.store) :
    (requestList (run exec w as).store).count t.id = 1 := by
  calc (requestList (run exec w as).store).count t.id
      = (requestList w.store).count t.id + ((allTickets w as).map Ticket.id).count t.id := by
        rw [requestList_run, List.count_append]
    _ = 0+1 := by
        rw [List.count_eq_zero.mpr hnew, List.count_eq_one_of_mem hids (List.mem_map_of_mem ht)]

/-- Where the ids differ, what is stored of a request now is what is stored later, answered at
most. -/
theorem kept_of_ticket {pre mid : List (Action C (Call Address K.Digest))}
    (hids : ((allTickets w (pre ++ mid)).map Ticket.id).Nodup) {t : Ticket Address K.Digest}
    (ht : t ∈ allTickets w pre) : ∃ request request',
      (run exec w pre).store.tierChangeRequest t.id = some request ∧ Settles t.request request ∧
        (run exec w (pre ++ mid)).store.tierChangeRequest t.id = some request' ∧
          Settles request request' := by
  rw [ticketIds_append] at hids
  obtain ⟨hbefore, _, hapart⟩ := List.nodup_append.mp hids
  obtain ⟨request, hstored, hsettles⟩ := stored_of_ticket hbefore ht
  -- no request in between has the id
  have hid : t.id ∉ (allTickets (run exec w pre) mid).map Ticket.id :=
    fun hmem => hapart t.id (List.mem_map_of_mem ht) t.id hmem rfl
  obtain ⟨request', hafter, hsettles'⟩ := stored_kept_run hstored hid
  refine ⟨request, request', hstored, hsettles, ?_, hsettles'⟩
  rw [SorobanHost.run, run_append]
  exact hafter

/-- Two requests of one ledger would have one id, and an id that was on the list before would be
there twice. -/
theorem NoneLost.onePerLedger (h : NoneLost w as) : OnePerLedger w as := by
  constructor
  · have hdistinct := h.distinct
    rw [ticketIds_eq] at hdistinct
    exact hdistinct.of_map
  · intro t ht hlisted
    have hcount := h.listed as [] (List.append_nil as).symm t ht
    rw [requestList_run, List.count_append] at hcount
    have hbefore : 0 < (requestList w.store).count t.id := by
      rw [ticket_id ht]
      exact List.count_pos_iff.mpr hlisted
    have hmade : 0 < ((allTickets w as).map Ticket.id).count t.id :=
      List.count_pos_iff.mpr (List.mem_map_of_mem ht)
    omega

/-- From any state, no request is lost in a run exactly when no two of the requests are made in one
ledger and none has an id that was on the list before. -/
theorem noneLost_iff (hsha : Function.Injective K.sha256)
    (hxdr : ∀ m n, m < u32Bound → n < u32Bound → K.u32ToXdr m = K.u32ToXdr n → m = n)
    (w : ManageWorld C K) (as : List (Action C (Call Address K.Digest)))
    (hsequence : ∀ t ∈ allTickets w as, t.sequence < u32Bound) :
    NoneLost w as ↔ OnePerLedger w as := by
  refine ⟨fun h => h.onePerLedger, fun h => ?_⟩
  have hdistinct : ((allTickets w as).map Ticket.id).Nodup := by
    rw [ticketIds_eq]
    refine h.sequences.map_on fun m hm n hn heq => ?_
    obtain ⟨t, ht, rfl⟩ := List.mem_map.mp hm
    obtain ⟨u, hu, rfl⟩ := List.mem_map.mp hn
    exact hxdr _ _ (hsequence t ht) (hsequence u hu) (hsha heq)
  -- the ids of a part of the run differ as well
  have hpart (pre post : List (Action C (Call Address K.Digest))) (heq : as = pre ++ post) :
      ((allTickets w pre).map Ticket.id).Nodup := by
    have hall := hdistinct
    rw [heq, ticketIds_append] at hall
    exact hall.of_append_left
  refine ⟨hdistinct, fun pre post heq t ht => ?_, fun pre mid post heq t ht => ?_⟩
  · apply count_requestList (hpart pre post heq) ht
    rw [ticket_id ht]
    apply h.unlisted t
    rw [heq, allTickets, trace_append]
    exact List.mem_append_left _ ht
  · exact kept_of_ticket (hpart (pre ++ mid) post heq) ht

/-- Members 1 and 2 of the tier 41, where the tier 42 is to be had. -/
def twoMembers : ManageWorld numberedChain plainCrypto :=
  let desk : SubscriptionTier := ⟨41, "desk", .basic, 10, 30, [], true, 5⟩
  let office : SubscriptionTier := ⟨42, "office", .premium, 90, 30, [], true, 5⟩
  ⟨{ Storage.empty 0 with
      admin := some 6
      tier := fun id => if id = 41 then some (.subscription desk)
        else if id = 42 then some (.subscription office) else none
      userTier := fun user => if user = 1 ∨ user = 2 then some 41 else none },
    fun _ _ => (0 : ℕ), [], 1000⟩

/-- Both members ask for the other tier, each in a ledger. -/
def bothRequest (sequence sequence' : ℕ) :
    List (Action numberedChain (Call ℕ plainCrypto.Digest)) :=
  [.invoke (signedBy 0) (.requestTierChange 1 42 sequence),
    .invoke (signedBy 1) (.requestTierChange 2 42 sequence')]

theorem noneLost_bothRequest : NoneLost twoMembers (bothRequest 10 11) := by
  have hxdr (m n : ℕ) (hm : m < u32Bound) (hn : n < u32Bound)
      (heq : plainCrypto.u32ToXdr m = plainCrypto.u32ToXdr n) : m = n :=
    toLeBytes_inj hm hn heq
  refine (noneLost_iff Function.injective_id hxdr twoMembers (bothRequest 10 11) ?_).mpr ⟨?_, ?_⟩
  · decide
  · decide
  · decide

/-- In one ledger the second request replaces the first. -/
theorem not_noneLost_bothRequest : ¬NoneLost twoMembers (bothRequest 12 12) := by
  intro h
  exact absurd h.distinct (by decide)

end HubAssist.ManageHub.Tiers
