import HubAssist.ApiClientModel
import Mathlib.Data.List.Nodup

/-! In every run of the API client at most one request refreshes. No request is left behind by a
refresh and none is sent again twice, in exactly the runs in which no refresh that requests wait for
fails, and none that succeeds finds a request that has been sent again before. -/
namespace HubAssist.ApiClient
open RunSystem

variable {I T : Type} [DecidableEq I] {c c' : Client I T}

/-- A request goes on and has no part in the queue. -/
structure Goes (r r' : Request T) : Prop where
  notQueued : r.phase ≠ .queued
  notRejected : r.phase ≠ .rejected
  staysUnqueued : r'.phase ≠ .queued
  joined : r'.joined = r.joined
  resent : r'.resent = r.resent

/-- Nor does a refresh begin or end with it. -/
structure Quiet (r r' : Request T) : Prop extends Goes r r' where
  notFailing : r.phase ≠ .failing
  refreshes : r'.phase.Refreshes → r.phase.Refreshes

theorem Quiet.of_phase {r r' : Request T} {phase phase' : Phase T} (hr : r.phase = phase)
    (hr' : r'.phase = phase') (hjoined : r'.joined = r.joined) (hresent : r'.resent = r.resent)
    (hphase : phase ≠ .queued ∧ phase ≠ .rejected ∧ phase ≠ .failing ∧ phase' ≠ .queued ∧
      (phase'.Refreshes → phase.Refreshes)) : Quiet r r' := by
  subst hr hr'
  obtain ⟨hqueued, hrejected, hfailing, hqueued', hrefreshes⟩ := hphase
  exact ⟨⟨hqueued, hrejected, hqueued', hjoined, hresent⟩, hfailing, hrefreshes⟩

/-- What a move can do. -/
inductive Effect (c : Client I T) : Move I T → Client I T → Prop
  | token (move : Move I T) (accessToken : Option T) :
      Effect c move { c with accessToken := accessToken }
  | quiet (move : Move I T) (i : I) (f : Request T → Request T) (accessToken : Option T) :
      Quiet (c.requests i) (f (c.requests i)) →
      Effect c move { c.modify i f with accessToken := accessToken }
  | join (move : Move I T) (i : I) :
      (c.requests i).phase = .inFlight → c.isRefreshing = true → Effect c move (c.join i)
  | begin (move : Move I T) (i : I) :
      (c.requests i).phase = .inFlight → c.isRefreshing = false → Effect c move (c.begin i)
  | drop (move : Move I T) (i : I) :
      (c.requests i).phase = .gotStore none → Effect c move (c.drop i)
  | succeed (i : I) (accessToken : T) :
      (c.requests i).phase = .gotStore (some accessToken) →
      Effect c (.resume i) (c.succeed i accessToken)
  | fail (i : I) : (c.requests i).phase = .failing → Effect c (.resume i) (c.fail i)

theorem Effect.same {move : Move I T} : Effect c move c := .token move c.accessToken

theorem Effect.modify {move : Move I T} {i : I} {f : Request T → Request T}
    (h : Quiet (c.requests i) (f (c.requests i))) : Effect c move (c.modify i f) :=
  .quiet move i f c.accessToken h

theorem onError_effect {move : Move I T} {i : I} {status : Option ℕ}
    (hphase : (c.requests i).phase = .inFlight) : Effect c move (c.onError i status) := by
  rw [Client.onError]
  split
  · exact .modify (.of_phase hphase rfl rfl rfl (by simp [Phase.Refreshes]))
  · split
    case isTrue hrefreshing => exact .join move i hphase hrefreshing
    case isFalse hidle => exact .begin move i hphase (by simpa using hidle)

theorem resume_effect (i : I) : Effect c (.resume i) (c.resume i) := by
  rw [Client.resume]
  split
  case h_1 hphase =>
    exact .modify (.of_phase hphase rfl rfl rfl (by simp [Phase.Refreshes]))
  case h_2 hphase =>
    exact .modify (.of_phase hphase rfl rfl rfl (by simp [Phase.Refreshes]))
  case h_3 hphase =>
    exact .modify (.of_phase hphase rfl rfl rfl (by simp [Phase.Refreshes]))
  case h_4 accessToken hphase => exact .succeed i accessToken hphase
  case h_5 hphase => exact .drop _ i hphase
  case h_6 hphase => exact .fail i hphase
  all_goals exact Effect.same

theorem step_effect (c : Client I T) (move : Move I T) : Effect c move (step c move) := by
  cases move with
  | send i url =>
    rw [step]
    split
    case h_1 hphase =>
      exact .modify (.of_phase hphase rfl rfl rfl (by simp [Phase.Refreshes]))
    case h_2 => exact Effect.same
  | respond i response =>
    rw [step]
    split
    case h_1 hphase =>
      cases response with
      | ok =>
        rw [Client.receive, Client.goto]
        exact .modify (.of_phase hphase rfl rfl rfl (by simp [Phase.Refreshes]))
      | error status => exact onError_effect hphase
    case h_2 => exact Effect.same
  | refreshAccessToken i answer =>
    rw [step]
    split
    case h_1 hphase =>
      exact .quiet _ i (fun r => { r with phase := .refreshed }) answer
        (.of_phase hphase rfl rfl rfl (by simp [Phase.Refreshes]))
    case h_2 => exact Effect.same
  | resume i => exact resume_effect i
  | setToken accessToken => exact .token _ accessToken

theorem forall_update {requests : I → Request T} {i : I} {r : Request T} {P : I → Request T → Prop}
    (hi : P i r) (h : ∀ j, P j (requests j)) (j : I) : P j (Function.update requests i r j) :=
  (Function.forall_update_iff requests P).mpr ⟨hi, fun j _ => h j⟩ j

/-- Who refreshes has the flag set, and there is one such request at most. -/
structure Exclusive (isRefreshing : Bool) (requests : I → Request T) : Prop where
  flag : ∀ i, (requests i).phase.Refreshes → isRefreshing = true
  single : ∀ i j, (requests i).phase.Refreshes → (requests j).phase.Refreshes → i = j

/-- The callbacks of a request in the queue. -/
def entries (j : I) : List (Callback I) := [.resend j, .reject j]

/-- The queue is that of the requests `js`. They wait, and unless a refresh has failed nobody else
does. -/
structure Queues (queue : List (Callback I)) (requests : I → Request T) (js : List I) : Prop where
  nodup : js.Nodup
  queue_eq : queue = js.flatMap entries
  waiting : ∀ j ∈ js, (requests j).phase = .queued
  complete : (∀ i, (requests i).phase ≠ .failing) → ∀ j, (requests j).phase = .queued → j ∈ js

/-- What the refreshes so far have left of a request. -/
structure Fits (isRefreshing : Bool) (outcomes : List (Option T)) (r : Request T) : Prop where
  queued : r.phase = .queued → isRefreshing = true ∧ r.joined = some outcomes.length
  joined : ∀ k, r.joined = some k → r.phase = .queued ∨
    ∃ outcome, outcomes[k]? = some outcome ∧ r.EndedBy outcome
  once : r.resent.length ≤ 1

structure Sound (c : Client I T) : Prop where
  exclusive : Exclusive c.isRefreshing c.requests
  queues : ∃ js, Queues c.refreshQueue c.requests js
  fits : ∀ j, Fits c.isRefreshing c.outcomes (c.requests j)

variable {isRefreshing : Bool} {requests : I → Request T} {queue : List (Callback I)}
  {outcomes : List (Option T)} {js : List I} {r r' : Request T} {i : I}

theorem refreshes_of_update (hr : r.phase.Refreshes → (requests i).phase.Refreshes) (j : I)
    (hj : (Function.update requests i r j).phase.Refreshes) : (requests j).phase.Refreshes := by
  revert hj
  exact forall_update (P := fun j r => r.phase.Refreshes → (requests j).phase.Refreshes) hr
    (fun _ => id) j

theorem Exclusive.update (h : Exclusive isRefreshing requests)
    (hr : r.phase.Refreshes → (requests i).phase.Refreshes) :
    Exclusive isRefreshing (Function.update requests i r) := by
  have hrefreshes := refreshes_of_update hr
  exact ⟨fun j hj => h.flag j (hrefreshes j hj),
    fun j k hj hk => h.single j k (hrefreshes j hj) (hrefreshes k hk)⟩

/-- While nobody refreshes one request may begin to. -/
theorem Exclusive.begin (h : Exclusive false requests) :
    Exclusive true (Function.update requests i r) := by
  have hself : ∀ j, (Function.update requests i r j).phase.Refreshes → j = i := by
    refine forall_update (P := fun j r => r.phase.Refreshes → j = i) (fun _ => rfl) fun j hj => ?_
    exact absurd (h.flag j hj) (by simp)
  exact ⟨fun _ _ => rfl, fun j k hj hk => (hself j hj).trans (hself k hk).symm⟩

omit [DecidableEq I] in
/-- The one that refreshes ends its refresh. -/
theorem Exclusive.finish (h : Exclusive isRefreshing requests)
    (hi : (requests i).phase.Refreshes) {requests' : I → Request T}
    (hself : ¬(requests' i).phase.Refreshes)
    (hothers : ∀ j, (requests' j).phase.Refreshes → (requests j).phase.Refreshes) :
    Exclusive false requests' := by
  have hnone : ∀ j, ¬(requests' j).phase.Refreshes := by
    intro j hj
    have hji := h.single j i (hothers j hj) hi
    rw [hji] at hj
    exact hself hj
  exact ⟨fun j hj => absurd hj (hnone j), fun j _ hj => absurd hj (hnone j)⟩

theorem call_reject_again {accessToken : T} {j : I} :
    (c.resend accessToken j).call accessToken (.reject j) = c.resend accessToken j := by
  simp [Client.call, Client.resend, Client.modify, Request.again]

/-- The callbacks of a queue send its requests again and do nothing else. -/
theorem callAll_requests (accessToken : T) (hnodup : js.Nodup) (c : Client I T) (j : I) :
    (c.callAll accessToken (js.flatMap entries)).requests j =
      if j ∈ js then (c.requests j).again accessToken else c.requests j := by
  induction js generalizing c with
  | nil => simp [Client.callAll]
  | cons k js ih =>
    obtain ⟨hfirst, hrest⟩ := List.nodup_cons.mp hnodup
    -- the first callback of `k` resolves its promise, so the second comes to nothing
    have hown : c.callAll accessToken (entries k) = c.resend accessToken k := call_reject_again
    have hcalls : c.callAll accessToken ((k :: js).flatMap entries) =
        (c.resend accessToken k).callAll accessToken (js.flatMap entries) := by
      rw [List.flatMap_cons, ← hown]
      exact List.foldl_append
    rw [hcalls, ih hrest]
    by_cases hjk : j = k
    · subst hjk
      simp [hfirst, Client.resend, Client.modify]
    · simp [hjk, Client.resend, Client.modify]

/-- Who is sent again by a refresh that succeeds. -/
theorem succeed_requests {accessToken : T} (h : Queues c.refreshQueue c.requests js)
    (hi : (c.requests i).phase ≠ .queued) (j : I) :
    (c.succeed i accessToken).requests j =
      if j = i ∨ j ∈ js then (c.requests j).again accessToken else c.requests j := by
  -- the request that refreshes is not in its own queue, and is sent again last
  have hcalled := callAll_requests accessToken h.nodup c j
  rw [← h.queue_eq] at hcalled
  by_cases hji : j = i
  · subst hji
    rw [if_neg fun hmem => hi (h.waiting j hmem)] at hcalled
    simp [Client.succeed, Client.resend, Client.modify, hcalled]
  · simp only [hji, false_or]
    rw [← hcalled]
    exact Function.update_of_ne hji _ _

/-- The callbacks make no request refresh. -/
theorem callAll_refreshes (accessToken : T) (callbacks : List (Callback I)) (c : Client I T) (j : I)
    (hj : ((c.callAll accessToken callbacks).requests j).phase.Refreshes) :
    (c.requests j).phase.Refreshes := by
  induction callbacks generalizing c with
  | nil => exact hj
  | cons cb callbacks ih =>
    have hcalled := ih (c.call accessToken cb) hj
    cases cb with
    | resend i => exact refreshes_of_update (by simp [Request.again, Phase.Refreshes]) j hcalled
    | reject i =>
      rw [Client.call] at hcalled
      split at hcalled
      · exact refreshes_of_update (by simp [Phase.Refreshes]) j hcalled
      · exact hcalled

/-- In every step, whatever becomes of the queue. -/
theorem Exclusive.step (h : Exclusive c.isRefreshing c.requests) (move : Move I T) :
    Exclusive (step c move).isRefreshing (step c move).requests := by
  have heffect := step_effect c move
  revert heffect
  generalize ApiClient.step c move = c'
  intro heffect
  cases heffect with
  | token move accessToken => exact h
  | quiet move i f accessToken hquiet => exact h.update hquiet.refreshes
  | join move i hphase hrefreshing => exact h.update (by simp [Phase.Refreshes])
  | begin move i hphase hidle =>
    rw [hidle] at h
    exact h.begin
  | drop move i hphase => exact h.update fun _ => by simp [hphase, Phase.Refreshes]
  | succeed i accessToken hphase =>
    -- whoever is sent again is on its way, whether it was in the queue or not
    refine h.finish (i := i) (by simp [hphase, Phase.Refreshes]) ?_ fun j hj => ?_
    · simp [Client.succeed, Client.resend, Client.modify, Request.again, Phase.Refreshes]
    · refine callAll_refreshes accessToken c.refreshQueue c j ?_
      exact refreshes_of_update (by simp [Request.again, Phase.Refreshes]) j hj
  | fail i hphase =>
    refine h.finish (i := i) (by simp [hphase, Phase.Refreshes]) ?_ fun j hj => ?_
    · simp [Client.fail, Client.goto, Client.modify, Phase.Refreshes]
    · exact refreshes_of_update (by simp [Phase.Refreshes]) j hj

theorem Goes.endedBy (h : Goes r r') {outcome : Option T} (hr : r.EndedBy outcome) :
    r'.EndedBy outcome := by
  cases outcome with
  | none => exact absurd hr h.notRejected
  | some accessToken => exact h.resent.trans hr

theorem Fits.goes (h : Fits isRefreshing outcomes r) (hr : Goes r r') :
    Fits isRefreshing outcomes r' := by
  refine ⟨fun hqueued => absurd hqueued hr.staysUnqueued, fun k hk => ?_, ?_⟩
  · rw [hr.joined] at hk
    obtain ⟨outcome, houtcome, hended⟩ := (h.joined k hk).resolve_left hr.notQueued
    exact Or.inr ⟨outcome, houtcome, hr.endedBy hended⟩
  · rw [hr.resent]
    exact h.once

theorem fits_update (hr : Fits isRefreshing outcomes r)
    (h : ∀ j, Fits isRefreshing outcomes (requests j)) :
    ∀ j, Fits isRefreshing outcomes (Function.update requests i r j) :=
  forall_update (P := fun _ r => Fits isRefreshing outcomes r) hr h

/-- The end of another refresh does not matter to a request that does not wait for it. -/
theorem Fits.append (h : Fits isRefreshing outcomes r) (hr : r.phase ≠ .queued) {flag : Bool}
    {outcome : Option T} : Fits flag (outcomes ++ [outcome]) r := by
  refine ⟨fun hqueued => absurd hqueued hr, fun k hk => ?_, h.once⟩
  obtain ⟨earlier, hearlier, hended⟩ := (h.joined k hk).resolve_left hr
  refine Or.inr ⟨earlier, ?_, hended⟩
  have hlt : k < outcomes.length := (List.getElem?_eq_some_iff.mp hearlier).1
  rw [List.getElem?_append_left hlt]
  exact hearlier

theorem noneFailing_of_update (hi : (requests i).phase ≠ .failing)
    (hnone : ∀ k, (Function.update requests i r k).phase ≠ .failing) (k : I) :
    (requests k).phase ≠ .failing := by
  by_cases hki : k = i
  · rw [hki]
    exact hi
  · have hk := hnone k
    rwa [Function.update_of_ne hki] at hk

theorem Queues.update (h : Queues queue requests js) (hr : Goes (requests i) r)
    (hi : (requests i).phase ≠ .failing) : Queues queue (Function.update requests i r) js := by
  have hphase : ∀ j, (Function.update requests i r j).phase = .queued ↔
      (requests j).phase = .queued :=
    forall_update (P := fun j r => r.phase = .queued ↔ (requests j).phase = .queued)
      (iff_of_false hr.staysUnqueued hr.notQueued) fun _ => Iff.rfl
  refine ⟨h.nodup, h.queue_eq, fun j hj => (hphase j).mpr (h.waiting j hj), ?_⟩
  intro hnone j hj
  exact h.complete (noneFailing_of_update hi hnone) j ((hphase j).mp hj)

omit [DecidableEq I] in
theorem Queues.eq_nil (h : Queues queue requests js) (hnone : ∀ j, (requests j).phase ≠ .queued) :
    queue = [] := by
  cases js with
  | nil => exact h.queue_eq
  | cons j js => exact absurd (h.waiting j List.mem_cons_self) (hnone j)

omit [DecidableEq I] in
theorem Sound.unstranded (h : Sound c) : Unstranded c := by
  refine ⟨fun hidle => ?_, h.exclusive.single, fun j => (h.fits j).once⟩
  have hnone : ∀ j, (c.requests j).phase ≠ .queued := by
    intro j hj
    rw [((h.fits j).queued hj).1] at hidle
    exact absurd hidle (by simp)
  obtain ⟨js, hjs⟩ := h.queues
  exact ⟨hjs.eq_nil hnone, fun i k hk => ((h.fits i).joined k hk).resolve_left (hnone i)⟩

theorem Queues.join (h : Queues queue requests js) (hi : (requests i).phase ≠ .queued)
    (hfailing : (requests i).phase ≠ .failing) (hr : r.phase = .queued) :
    Queues (queue ++ entries i) (Function.update requests i r) (js ++ [i]) := by
  have hnew : i ∉ js := fun hmem => hi (h.waiting i hmem)
  refine ⟨by simpa [List.nodup_append] using ⟨h.nodup, fun j hj heq => hnew (heq ▸ hj)⟩,
    by simp [h.queue_eq], fun j hj => ?_, fun hnone j hj => ?_⟩
  · by_cases hji : j = i
    · rw [hji, Function.update_self]
      exact hr
    · rw [Function.update_of_ne hji]
      exact h.waiting j (by simpa [hji] using hj)
  · by_cases hji : j = i
    · simp [hji]
    · rw [Function.update_of_ne hji] at hj
      exact List.mem_append_left _ (h.complete (noneFailing_of_update hfailing hnone) j hj)

omit [DecidableEq I] in
/-- The queue is empty while nobody waits, or because a refresh has failed. -/
theorem queues_nil (h : (∀ j, (requests j).phase ≠ .queued) ∨ ∃ i, (requests i).phase = .failing) :
    Queues [] requests [] := by
  refine ⟨List.nodup_nil, rfl, by simp, fun hnone j hj => ?_⟩
  rcases h with h | ⟨i, hi⟩
  · exact absurd hj (h j)
  · exact absurd hi (hnone i)

/-- Nobody waits for a refresh when none is on. -/
theorem Fits.begin (h : Fits false outcomes r) : Fits true outcomes r :=
  ⟨fun hqueued => absurd (h.queued hqueued).1 (by simp), h.joined, h.once⟩

theorem Fits.again (h : Fits isRefreshing outcomes r) {accessToken : T} (hresent : r.resent = [])
    (hr : r.phase = .queued ∨ r.phase ≠ .rejected) :
    Fits false (outcomes ++ [some accessToken]) (r.again accessToken) := by
  have honce : (r.again accessToken).resent = [accessToken] := by simp [Request.again, hresent]
  refine ⟨by simp [Request.again], fun k hk => Or.inr ?_, by simp [honce]⟩
  have hk : r.joined = some k := hk
  rcases h.joined k hk with hqueued | ⟨outcome, houtcome, hended⟩
  -- it waits for the refresh that ends here
  · obtain rfl := Option.some.inj ((h.queued hqueued).2.symm.trans hk)
    exact ⟨some accessToken, by simp, honce⟩
  -- or an earlier one has ended with it sent again or rejected, which it has not been
  · cases outcome with
    | none =>
      have hrejected : r.phase = .rejected := hended
      simp [hrejected] at hr
    | some earlier =>
      have hsent : r.resent = [earlier] := hended
      simp [hsent] at hresent

theorem Fits.fail (h : Fits isRefreshing outcomes r) (hr : r.phase = .failing) :
    Fits false (outcomes ++ [none]) { r with phase := .rejected } := by
  have hgoes : Goes r { r with phase := .rejected } :=
    ⟨by simp [hr], by simp [hr], by simp, rfl, rfl⟩
  exact (h.goes hgoes).append (by simp)

omit [DecidableEq I] in
theorem Sound.mem_of_queued (h : Sound c) (hjs : Queues c.refreshQueue c.requests js)
    {answer : Option T} (hi : (c.requests i).phase = .gotStore answer) {j : I}
    (hj : (c.requests j).phase = .queued) : j ∈ js := by
  refine hjs.complete (fun k hk => ?_) j hj
  -- only the request that refreshes could be failing
  have hki := h.exclusive.single k i (by simp [hk, Phase.Refreshes]) (by simp [hi, Phase.Refreshes])
  rw [hki, hi] at hk
  exact absurd hk (by simp)

theorem Sound.succeed (h : Sound c) {accessToken : T}
    (hphase : (c.requests i).phase = .gotStore (some accessToken))
    (hharmless : Harmless c (.resume i)) (j : I) :
    ((c.succeed i accessToken).requests j).phase ≠ .queued ∧
      Fits false (c.outcomes ++ [some accessToken]) ((c.succeed i accessToken).requests j) := by
  simp only [Harmless, hphase] at hharmless
  obtain ⟨js, hjs⟩ := h.queues
  rw [succeed_requests hjs (by simp [hphase])]
  split
  case isTrue hsent =>
    refine ⟨by simp [Request.again], ?_⟩
    rcases hsent with rfl | hmem
    · exact (h.fits j).again hharmless.1 (Or.inr (by simp [hphase]))
    · have hqueued := hjs.waiting j hmem
      exact (h.fits j).again (hharmless.2 j hqueued) (Or.inl hqueued)
  case isFalse hsent =>
    have hunqueued : (c.requests j).phase ≠ .queued :=
      fun hqueued => hsent (Or.inr (h.mem_of_queued hjs hphase hqueued))
    exact ⟨hunqueued, (h.fits j).append hunqueued⟩

theorem Sound.fail (h : Sound c) (hphase : (c.requests i).phase = .failing)
    (hharmless : Harmless c (.resume i)) (j : I) :
    ((c.fail i).requests j).phase ≠ .queued ∧
      Fits false (c.outcomes ++ [none]) ((c.fail i).requests j) := by
  simp only [Harmless, hphase] at hharmless
  exact forall_update
    (P := fun _ r => r.phase ≠ .queued ∧ Fits false (c.outcomes ++ [none]) r)
    ⟨by simp, (h.fits i).fail hphase⟩
    (fun j => ⟨hharmless j, (h.fits j).append (hharmless j)⟩) j

theorem Sound.step (h : Sound c) {move : Move I T} (hharmless : Harmless c move) :
    Sound (step c move) := by
  have hexclusive := h.exclusive.step move
  have heffect := step_effect c move
  revert hexclusive heffect
  generalize ApiClient.step c move = c'
  intro hexclusive heffect
  obtain ⟨js, hjs⟩ := h.queues
  cases heffect with
  | token move accessToken => exact ⟨hexclusive, ⟨js, hjs⟩, h.fits⟩
  | quiet move i f accessToken hquiet =>
    exact ⟨hexclusive, ⟨js, hjs.update hquiet.toGoes hquiet.notFailing⟩,
      fits_update ((h.fits i).goes hquiet.toGoes) h.fits⟩
  | join move i hphase hrefreshing =>
    refine ⟨hexclusive, ⟨js ++ [i], hjs.join (by simp [hphase]) (by simp [hphase]) rfl⟩, ?_⟩
    exact fits_update ⟨fun _ => ⟨hrefreshing, rfl⟩, fun _ _ => Or.inl rfl, (h.fits i).once⟩ h.fits
  | begin move i hphase hidle =>
    have hgoes : Goes (c.requests i) { c.requests i with
        config := { (c.requests i).config with retry := true }, phase := .gettingStore } :=
      ⟨by simp [hphase], by simp [hphase], by simp, rfl, rfl⟩
    have hfits : ∀ j, Fits true c.outcomes (c.requests j) := fun j => (hidle ▸ h.fits j).begin
    exact ⟨hexclusive, ⟨js, hjs.update hgoes (by simp [hphase])⟩,
      fits_update ((hfits i).goes hgoes) hfits⟩
  | drop move i hphase =>
    have hgoes : Goes (c.requests i) { c.requests i with phase := .failing } :=
      ⟨by simp [hphase], by simp [hphase], by simp, rfl, rfl⟩
    refine ⟨hexclusive, ⟨[], queues_nil (Or.inr ⟨i, ?_⟩)⟩, ?_⟩
    · simp [Client.drop, Client.goto, Client.modify]
    · exact fits_update ((h.fits i).goes hgoes) h.fits
  | succeed i accessToken hphase =>
    have hall := h.succeed hphase hharmless
    exact ⟨hexclusive, ⟨[], queues_nil (Or.inl fun j => (hall j).1)⟩,
      fun j => (hall j).2⟩
  | fail i hphase =>
    have hall := h.fail hphase hharmless
    simp only [Harmless, hphase] at hharmless
    have hempty : (c.fail i).refreshQueue = [] := hjs.eq_nil hharmless
    refine ⟨hexclusive, ⟨[], ?_⟩, fun j => (hall j).2⟩
    rw [hempty]
    exact queues_nil (Or.inl fun j => (hall j).1)

/-- A step after which no request is stranded or has been sent again twice was harmless. -/
theorem Sound.harmless (h : Sound c) {move : Move I T}
    (hafter : Unstranded (ApiClient.step c move)) :
    Harmless c move := by
  cases move with
  | send i url => trivial
  | respond i response => trivial
  | refreshAccessToken i answer => trivial
  | setToken accessToken => trivial
  | resume i =>
    rw [Harmless]
    obtain ⟨js, hjs⟩ := h.queues
    split
    case h_1 accessToken hphase =>
      have hstep : ApiClient.step c (.resume i) = c.succeed i accessToken := by
        simp [ApiClient.step, Client.resume, hphase]
      rw [hstep] at hafter
      have hunsent : ∀ j, j = i ∨ j ∈ js → (c.requests j).resent = [] := by
        intro j hj
        have honce := hafter.once j
        rw [succeed_requests hjs (by simp [hphase]), if_pos hj] at honce
        simpa [Request.again] using honce
      exact ⟨hunsent i (Or.inl rfl),
        fun j hj => hunsent j (Or.inr (h.mem_of_queued hjs hphase hj))⟩
    case h_2 hphase =>
      have hstep : ApiClient.step c (.resume i) = c.fail i := by
        simp [ApiClient.step, Client.resume, hphase]
      rw [hstep] at hafter
      intro j hj
      have hji : j ≠ i := by
        rintro rfl
        rw [hphase] at hj
        exact absurd hj (by simp)
      have hsame : (c.fail i).requests j = c.requests j := Function.update_of_ne hji _ _
      -- it has joined the refresh that ends here, and this one rejects nobody
      have hended := (hafter.settled rfl).2 j c.outcomes.length
      rw [hsame] at hended
      obtain ⟨outcome, houtcome, hended⟩ := hended ((h.fits j).queued hj).2
      obtain rfl : none = outcome := by simpa [Client.fail] using houtcome
      have hrejected : (c.requests j).phase = .rejected := hended
      rw [hj] at hrejected
      exact absurd hrejected (by simp)
    case h_3 => trivial

omit [DecidableEq I] in
theorem start_sound (accessToken : Option T) : Sound (start accessToken : Client I T) := by
  refine ⟨⟨?_, ?_⟩, ⟨[], queues_nil (Or.inl ?_)⟩, fun j => ⟨?_, ?_, ?_⟩⟩ <;>
    simp [start, Phase.Refreshes]

/-- At most one request refreshes, in every run. -/
theorem single_run (accessToken : Option T) (moves : List (Move I T)) (i j : I)
    (hi : ((run step (start accessToken) moves).requests i).phase.Refreshes)
    (hj : ((run step (start accessToken) moves).requests j).phase.Refreshes) : i = j := by
  have hexclusive := run_invariant_all step
    (fun c move (h : Exclusive c.isRefreshing c.requests) => h.step move)
    (start_sound accessToken).exclusive moves
  exact hexclusive.single i j hi hj

/-- Along a run from the start no request is stranded or sent again twice exactly when every step is
harmless. -/
theorem unstranded_iff (accessToken : Option T) (moves : List (Move I T)) :
    Always step Unstranded (start accessToken) moves ↔
      Guarded step Harmless (start accessToken) moves :=
  always_iff_guarded_of_kept step (J := Sound) (fun _ h => h.unstranded) (fun _ _ h hp => h.step hp)
    (fun _ _ h hafter => h.harmless hafter) (start_sound accessToken)

/-- The requests `0` and `1` get a 401 each, and the refresh that `0` asks for, and `1` waits for,
is refused. -/
def refused : List (Move ℕ ℕ) :=
  [.send 0 (some "/bookings"), .send 1 (some "/attendance"), .resume 0, .resume 1,
    .respond 0 (.error (some 401)), .resume 0, .respond 1 (.error (some 401)),
    .refreshAccessToken 0 none, .resume 0, .resume 0, .resume 0]

/-- The request `1` is neither rejected nor sent again. -/
theorem stranded_refused :
    ¬∀ moves : List (Move ℕ ℕ), Always step Unstranded (start (some 7)) moves := by
  intro h
  have hlast := (always_iff_prefixes step Unstranded (start (some 7)) refused).mp (h refused)
    refused [] (by simp)
  obtain ⟨outcome, houtcome, hended⟩ := (hlast.settled (by decide)).2 1 0 (by decide)
  have houtcomes : (run step (start (some 7)) refused).outcomes = [none] := by decide
  rw [houtcomes] at houtcome
  obtain rfl : none = outcome := by simpa using houtcome
  have hphase : ((run step (start (some 7)) refused).requests 1).phase = .queued := by rfl
  have hrejected : ((run step (start (some 7)) refused).requests 1).phase = .rejected := hended
  rw [hphase] at hrejected
  exact absurd hrejected (by simp)

end HubAssist.ApiClient
