import HubAssist.SessionBroadcast

/-! What the open streams of a user are sent. -/
namespace HubAssist.SessionBroadcast
open RunSystem Function

variable {U C : Type} [DecidableEq U] [DecidableEq C] {s : Service U C} {userId : U} {subject : ℕ}
  {c : C}

/-- A move that completes the subject of a user: a stream of the user is over. -/
def Service.HangsUp (s : Service U C) (userId : U) : Move U C → Prop
  | .disconnect c => ∃ subject, s.clients c = .streaming userId subject
  | .subscribe c =>
    ∃ subject, s.clients c = .handling userId subject ∧ (s.subjects subject).isStopped = true
  | _ => False

def Board.HangsUp (b : Board U C) (userId : U) : Move U C → Prop
  | .disconnect c => b.status c = .listening userId
  | .subscribe c => b.status c = .stale userId
  | _ => False

omit [DecidableEq U] [DecidableEq C] in
theorem listening_iff :
    s.view.status c = .listening userId ↔ ∃ subject, s.clients c = .streaming userId subject := by
  simp only [Service.view]
  cases s.clients c with
  | handling u k =>
    simp only [Service.statusOf]
    split_ifs <;> simp
  | _ => simp [Service.statusOf]

omit [DecidableEq U] [DecidableEq C] in
theorem hangsUp_iff (move : Move U C) : s.HangsUp userId move ↔ s.view.HangsUp userId move := by
  cases move with
  | disconnect c => exact listening_iff.symm
  | subscribe c =>
    simp only [Service.HangsUp, Board.HangsUp, Service.view]
    cases s.clients c with
    | handling u k =>
      simp only [Service.statusOf]
      split_ifs with hstopped <;> simp [hstopped]
    | _ => simp [Service.statusOf]
  | _ => exact Iff.rfl

variable {b : Board U C} {move : Move U C}

theorem Status.hungUp_of_ne {u : U} (hne : u ≠ userId) :
    (Status.listening u).hungUp userId = .listening u := if_neg hne

/-- A stream stays open while no stream of its user ends. -/
theorem Board.listening_step (hc : b.status c = .listening userId)
    (hmove : ¬b.HangsUp userId move) : (b.step move).status c = .listening userId := by
  have hstay : ∀ {c' : C} {status : Status U}, b.status c' ≠ .listening userId →
      update b.status c' status c = .listening userId := by
    intro c' status hne
    rw [update_of_ne, hc]
    rintro rfl
    exact hne hc
  cases move with
  | request c' u =>
    cases hc' : b.status c' with
    | away =>
      simp only [Board.step, hc']
      exact hstay (by simp [hc'])
    | _ => simpa only [Board.step, hc'] using hc
  | subscribe c' =>
    cases hc' : b.status c' with
    | connecting u =>
      simp only [Board.step, hc']
      exact hstay (by simp [hc'])
    | stale u =>
      have hne : userId ≠ u := by
        rintro rfl
        exact hmove hc'
      simp only [Board.step, hc', Board.hangUp]
      rw [hstay (by simp [hc']), Status.hungUp_of_ne hne]
    | _ => simpa only [Board.step, hc'] using hc
  | disconnect c' =>
    cases hc' : b.status c' with
    | listening u =>
      have hne : userId ≠ u := by
        rintro rfl
        exact hmove hc'
      simp only [Board.step, hc', Board.hangUp]
      rw [hc, Status.hungUp_of_ne hne]
    | _ => simpa only [Board.step, hc'] using hc
  | logoutAll u now => exact hc

/-- All streams of a user end with one of them. -/
theorem Board.gone_of_hangsUp (hc : b.status c = .listening userId)
    (hmove : b.HangsUp userId move) : (b.step move).status c = .gone := by
  have hgone : (Status.listening userId).hungUp userId = .gone := if_pos rfl
  cases move with
  | subscribe c' =>
    have hne : c ≠ c' := by
      rintro rfl
      simp [Board.HangsUp, hc] at hmove
    simp only [Board.step, show b.status c' = .stale userId from hmove, Board.hangUp,
      update_of_ne hne, hc, hgone]
  | disconnect c' =>
    simp only [Board.step, show b.status c' = .listening userId from hmove, Board.hangUp, hc,
      hgone]
  | request c' u => exact hmove.elim
  | logoutAll u now => exact hmove.elim

theorem Board.gone_step (hc : b.status c = .gone) : (b.step move).status c = .gone := by
  have hstay : ∀ {c' : C} {status : Status U}, b.status c' ≠ .gone →
      update b.status c' status c = .gone := by
    intro c' status hne
    rw [update_of_ne, hc]
    rintro rfl
    exact hne hc
  have hgone : ∀ u : U, (Status.gone : Status U).hungUp u = .gone := fun _ => rfl
  cases move with
  | request c' u =>
    cases hc' : b.status c' with
    | away =>
      simp only [Board.step, hc']
      exact hstay (by simp [hc'])
    | _ => simpa only [Board.step, hc'] using hc
  | subscribe c' =>
    cases hc' : b.status c' with
    | connecting u =>
      simp only [Board.step, hc']
      exact hstay (by simp [hc'])
    | stale u =>
      simp only [Board.step, hc', Board.hangUp]
      rw [hstay (by simp [hc']), hgone]
    | _ => simpa only [Board.step, hc'] using hc
  | disconnect c' =>
    cases hc' : b.status c' with
    | listening u => simp only [Board.step, hc', Board.hangUp, hc, hgone]
    | _ => simpa only [Board.step, hc'] using hc
  | logoutAll u now => exact hc

/-- The event that a revocation sends on the streams of the user. -/
def revocation (userId : U) : Move U C → Option (SessionEvent U)
  | .logoutAll u now => if u = userId then some ⟨u, now⟩ else none
  | _ => none

/-- What is sent to a client in a run. -/
def received (c : C) (s : Service U C) (moves : List (Move U C)) : List (SessionEvent U) :=
  (trace step delivered s moves).filterMap fun d => if d.1 = c then some d.2 else none

theorem received_cons (c : C) (s : Service U C) (move : Move U C) (moves : List (Move U C)) :
    received c s (move :: moves) =
      ((delivered s move).filterMap fun d => if d.1 = c then some d.2 else none) ++
        received c (step s move) moves := by
  rw [received, RunSystem.trace, List.filterMap_append, received]

theorem received_append (c : C) (s : Service U C) (moves rest : List (Move U C)) :
    received c s (moves ++ rest) = received c s moves ++ received c (run step s moves) rest := by
  induction moves generalizing s with
  | nil => rfl
  | cons move moves ih =>
    rw [List.cons_append, received_cons, ih, received_cons, run_cons, List.append_assoc]

omit [DecidableEq U] in
/-- One revocation reaches each observer once. -/
theorem filterMap_observers {cs : List C} (hnodup : cs.Nodup) (event : SessionEvent U) :
    (cs.map fun c' => (c', event)).filterMap (fun d => if d.1 = c then some d.2 else none) =
      if c ∈ cs then [event] else [] := by
  induction cs with
  | nil => rfl
  | cons c' cs ih =>
    obtain ⟨hnotMem, hrest⟩ := List.nodup_cons.mp hnodup
    rw [List.map_cons, List.filterMap_cons, ih hrest]
    by_cases hc : c' = c
    · subst hc
      simp [hnotMem]
    · simp [hc, Ne.symm hc]

theorem Sound.delivered_listening (h : Sound s) (hc : s.view.status c = .listening userId) :
    (delivered s move).filterMap (fun d => if d.1 = c then some d.2 else none) =
      (revocation userId move).toList := by
  cases move with
  | logoutAll u now =>
    obtain ⟨k, hphase⟩ := listening_iff.mp hc
    obtain ⟨hmap, hmem⟩ := h.streaming c userId k hphase
    simp only [delivered, revocation]
    by_cases hu : u = userId
    · subst hu
      obtain ⟨_, hopen, hnodup⟩ := h.current u k hmap
      simp only [hmap, hopen, Bool.false_eq_true, if_false]
      rw [filterMap_observers hnodup, if_pos hmem]
      rfl
    · rw [if_neg hu, Option.toList_none]
      cases hother : s.sessionEvents u with
      | none => rfl
      | some k' =>
        obtain ⟨_, hopen, hnodup⟩ := h.current u k' hother
        have hnotMem : c ∉ (s.subjects k').observers := by
          intro hin
          have hsame := (h.observed u k' c hother hin).symm.trans hphase
          exact hu (Phase.streaming.inj hsame).1
        simp only [hopen, Bool.false_eq_true, if_false]
        rw [filterMap_observers hnodup, if_neg hnotMem]
  | _ => rfl

omit [DecidableEq U] in
theorem Sound.delivered_gone (h : Sound s) (hc : s.view.status c = .gone) :
    (delivered s move).filterMap (fun d => if d.1 = c then some d.2 else none) = [] := by
  cases move with
  | logoutAll u now =>
    simp only [delivered]
    cases hmap : s.sessionEvents u with
    | none => rfl
    | some k =>
      obtain ⟨_, hopen, hnodup⟩ := h.current u k hmap
      have hnotMem : c ∉ (s.subjects k).observers := by
        intro hin
        have hlistening := listening_iff.mpr ⟨k, h.observed u k c hmap hin⟩
        simp [hc] at hlistening
      simp only [hopen, Bool.false_eq_true, if_false]
      rw [filterMap_observers hnodup, if_neg hnotMem]
  | _ => rfl

/-- While no stream of the user ends, a stream gets every revocation of the user. -/
theorem received_listening (h : Sound s) (hc : s.view.status c = .listening userId)
    {moves : List (Move U C)}
    (hopen : Guarded step (fun s move => ¬s.HangsUp userId move) s moves) :
    received c s moves = moves.filterMap (revocation userId) ∧
      (run step s moves).view.status c = .listening userId := by
  induction moves generalizing s with
  | nil => exact ⟨rfl, hc⟩
  | cons move moves ih =>
    obtain ⟨hmove, hrest⟩ := hopen
    have hnext : (step s move).view.status c = .listening userId := by
      rw [view_step h]
      exact Board.listening_step hc (mt (hangsUp_iff move).mpr hmove)
    obtain ⟨hreceived, hstatus⟩ := ih (h.step move) hnext hrest
    refine ⟨?_, hstatus⟩
    rw [received_cons, h.delivered_listening hc, hreceived, List.filterMap_cons]
    cases revocation userId move <;> rfl

theorem received_gone (h : Sound s) (hc : s.view.status c = .gone)
    (moves : List (Move U C)) :
    received c s moves = [] ∧ (run step s moves).view.status c = .gone := by
  induction moves generalizing s with
  | nil => exact ⟨rfl, hc⟩
  | cons move moves ih =>
    have hnext : (step s move).view.status c = .gone := by
      rw [view_step h]
      exact Board.gone_step hc
    obtain ⟨hreceived, hstatus⟩ := ih (h.step move) hnext
    refine ⟨?_, hstatus⟩
    rw [received_cons, h.delivered_gone hc, hreceived, List.append_nil]

theorem sound_run (moves : List (Move U C)) : Sound (run step start moves) :=
  run_invariant_all step (fun _ move h => h.step move) sound_start moves

/-- Over any run, an open stream is sent exactly the revocations of its user, in order, until some
stream of the user ends, and nothing from then on. -/
theorem received_until_hung_up (before moves : List (Move U C))
    (hc : (run step start before).clients c = .streaming userId subject)
    (hopen : Guarded step (fun s move => ¬s.HangsUp userId move) (run step start before) moves) :
    received c (run step start before) moves = moves.filterMap (revocation userId) ∧
      ∀ move rest, (run step start (before ++ moves)).HangsUp userId move →
        received c (run step start before) (moves ++ move :: rest) =
          moves.filterMap (revocation userId) := by
  have h := sound_run before
  obtain ⟨hreceived, hstatus⟩ := received_listening h (listening_iff.mpr ⟨subject, hc⟩) hopen
  refine ⟨hreceived, fun move rest hmove => ?_⟩
  rw [run_append] at hmove
  have hrun : Sound (run step (run step start before) moves) := by
    rw [← run_append]
    exact sound_run (before ++ moves)
  have hgone : (step (run step (run step start before) moves) move).view.status c = .gone := by
    rw [view_step hrun]
    exact Board.gone_of_hangsUp hstatus ((hangsUp_iff move).mp hmove)
  rw [received_append, hreceived, received_cons,
    (received_gone (hrun.step move) hgone rest).1, List.append_nil]
  have hmute : delivered (run step (run step start before) moves) move = [] := by
    cases move with
    | logoutAll u now => exact hmove.elim
    | _ => rfl
  rw [hmute, List.filterMap_nil, List.append_nil]

/-- Two tabs of one user, of which one is closed. -/
theorem received_two_tabs :
    received 0 (run step start [.request 0 7, .request 1 7, .subscribe 0, .subscribe 1])
      ([.logoutAll 7 10, .logoutAll 8 20] ++ .disconnect 1 :: [.logoutAll 7 30]) =
        [⟨7, 10⟩] :=
  (@received_until_hung_up ℕ ℕ _ _ 7 0 0
    [.request 0 7, .request 1 7, .subscribe 0, .subscribe 1] [.logoutAll 7 10, .logoutAll 8 20] rfl
    ⟨id, id, trivial⟩).2 (.disconnect 1) [.logoutAll 7 30] ⟨0, rfl⟩

end HubAssist.SessionBroadcast
