import HubAssist.RunSystem
import Mathlib.Data.List.Nodup
import Mathlib.Logic.Function.Basic

/-! The event streams that tell the clients of a user that the session has been revoked. They share
one subject a user, which the stream of any of them completes when it is torn down. A step is what
runs without a turn of another request; requests are numbered, and heartbeats are left out. -/
namespace HubAssist.SessionBroadcast
open RunSystem Function

variable {U C : Type} [DecidableEq U] [DecidableEq C]

/-- A subject of rxjs, with its observers in the order in which they have subscribed. -/
structure Subject (C : Type) where
  isStopped : Bool
  observers : List C

structure SessionEvent (U : Type) where
  userId : U
  timestamp : ℕ

/-- A request of the stream: its handler has got a subject, the framework has subscribed to what the
handler has returned, or the stream is over. -/
inductive Phase (U : Type) where
  | idle
  | handling (userId : U) (subject : ℕ)
  | streaming (userId : U) (subject : ℕ)
  | ended

structure Service (U C : Type) where
  subjects : ℕ → Subject C
  created : ℕ
  sessionEvents : U → Option ℕ
  clients : C → Phase U

def getSessionEventStream (s : Service U C) (userId : U) : ℕ × Service U C :=
  match s.sessionEvents userId with
  | some subject => (subject, s)
  | none => (s.created, { s with
      subjects := update s.subjects s.created ⟨false, []⟩
      created := s.created+1
      sessionEvents := update s.sessionEvents userId (some s.created) })

/-- The stream of a client is torn down, which unsubscribes it and cleans up. -/
def teardown (cleanupSessionStream : U → Service U C → Service U C) (c : C) (s : Service U C) :
    Service U C :=
  match s.clients c with
  | .streaming userId subject => cleanupSessionStream userId { s with
      subjects := update s.subjects subject
        { s.subjects subject with observers := (s.subjects subject).observers.erase c }
      clients := update s.clients c .ended }
  | _ => s

/-- `subject.complete()`, which ends the streams of its observers. -/
def complete (cleanupSessionStream : U → Service U C → Service U C) (subject : ℕ)
    (s : Service U C) : Service U C :=
  if (s.subjects subject).isStopped then s
  else (s.subjects subject).observers.foldl (fun s c => teardown cleanupSessionStream c s)
    { s with subjects := update s.subjects subject ⟨true, []⟩ }

/-- A completed stream cleans up in its turn, so the depth of such calls is bounded. -/
def cleanupSessionStream : ℕ → U → Service U C → Service U C
  | 0, _, s => s
  | depth+1, userId, s =>
    match s.sessionEvents userId with
    | none => s
    | some subject =>
      let s := complete (cleanupSessionStream depth) subject s
      { s with sessionEvents := update s.sessionEvents userId none }

/-- Calls in calls end here: the observers of a subject that is being completed find it stopped. -/
def cleanup (userId : U) (s : Service U C) : Service U C := cleanupSessionStream 2 userId s

inductive Move (U C : Type) where
  | request (c : C) (userId : U)
  | subscribe (c : C)
  | disconnect (c : C)
  | logoutAll (userId : U) (now : ℕ)

def step (s : Service U C) : Move U C → Service U C
  | .request c userId =>
    match s.clients c with
    | .idle =>
      let (subject, s) := getSessionEventStream s userId
      { s with clients := update s.clients c (.handling userId subject) }
    | _ => s
  | .subscribe c =>
    match s.clients c with
    | .handling userId subject =>
      -- a completed subject ends the stream at once, which is torn down as any other
      if (s.subjects subject).isStopped then
        cleanup userId { s with clients := update s.clients c .ended }
      else { s with
        subjects := update s.subjects subject
          { s.subjects subject with observers := (s.subjects subject).observers ++ [c] }
        clients := update s.clients c (.streaming userId subject) }
    | _ => s
  | .disconnect c => teardown cleanup c s
  | .logoutAll _ _ => s

/-- What `broadcastSessionRevocation` sends, and to whom. -/
def delivered (s : Service U C) : Move U C → List (C × SessionEvent U)
  | .logoutAll userId now =>
    match s.sessionEvents userId with
    | some subject =>
      if (s.subjects subject).isStopped then []
      else (s.subjects subject).observers.map fun c => (c, ⟨userId, now⟩)
    | none => []
  | _ => []

def start : Service U C := ⟨fun _ => ⟨false, []⟩, 0, fun _ => none, fun _ => .idle⟩

/-- Where a request is, for a reader who knows nothing of subjects. A stale one has been handled
before the streams of its user were hung up. -/
inductive Status (U : Type) where
  | away
  | connecting (userId : U)
  | stale (userId : U)
  | listening (userId : U)
  | gone
  deriving DecidableEq

/-- Who listens, in the order of subscription. -/
structure Board (U C : Type) where
  status : C → Status U
  listeners : U → List C

def Status.hungUp (userId : U) : Status U → Status U
  | .listening u => if u = userId then .gone else .listening u
  | .connecting u => if u = userId then .stale u else .connecting u
  | other => other

def Board.hangUp (b : Board U C) (userId : U) : Board U C :=
  ⟨fun c => (b.status c).hungUp userId, update b.listeners userId []⟩

/-- One user's stream that ends hangs up all streams of the user. -/
def Board.step (b : Board U C) : Move U C → Board U C
  | .request c userId =>
    match b.status c with
    | .away => { b with status := update b.status c (.connecting userId) }
    | _ => b
  | .subscribe c =>
    match b.status c with
    | .connecting userId =>
      ⟨update b.status c (.listening userId),
        update b.listeners userId (b.listeners userId ++ [c])⟩
    | .stale userId => { b with status := update b.status c .gone }.hangUp userId
    | _ => b
  | .disconnect c =>
    match b.status c with
    | .listening userId => b.hangUp userId
    | _ => b
  | .logoutAll _ _ => b

def Board.announced (b : Board U C) : Move U C → List (C × SessionEvent U)
  | .logoutAll userId now => (b.listeners userId).map fun c => (c, ⟨userId, now⟩)
  | _ => []

def Board.empty : Board U C := ⟨fun _ => .away, fun _ => []⟩

def Service.statusOf (s : Service U C) : Phase U → Status U
  | .idle => .away
  | .handling userId subject =>
    if (s.subjects subject).isStopped then .stale userId else .connecting userId
  | .streaming userId _ => .listening userId
  | .ended => .gone

def Service.view (s : Service U C) : Board U C where
  status c := s.statusOf (s.clients c)
  listeners userId :=
    match s.sessionEvents userId with
    | some subject => (s.subjects subject).observers
    | none => []

/-- A user's subject in the map is open, is nobody else's, and is observed by the open streams of
the user. -/
structure Sound (s : Service U C) : Prop where
  current : ∀ u k, s.sessionEvents u = some k →
    k < s.created ∧ (s.subjects k).isStopped = false ∧ (s.subjects k).observers.Nodup
  own : ∀ u u' k, s.sessionEvents u = some k → s.sessionEvents u' = some k → u = u'
  handling : ∀ c u k, s.clients c = .handling u k →
    k < s.created ∧ ((s.subjects k).isStopped = false → s.sessionEvents u = some k)
  streaming : ∀ c u k, s.clients c = .streaming u k →
    s.sessionEvents u = some k ∧ c ∈ (s.subjects k).observers
  observed : ∀ u k c, s.sessionEvents u = some k → c ∈ (s.subjects k).observers →
    s.clients c = .streaming u k

variable {s : Service U C} {userId : U} {subject : ℕ} {c : C}

/-- The service after the streams of a user have been hung up. -/
def Service.closed (s : Service U C) (userId : U) (subject : ℕ) : Service U C where
  subjects := update s.subjects subject ⟨true, []⟩
  created := s.created
  sessionEvents := update s.sessionEvents userId none
  clients c := if c ∈ (s.subjects subject).observers then .ended else s.clients c

/-- The cleanup of a stream whose subject is stopped takes at most the subject out of the map. -/
theorem teardown_of_stopped (hsubject : s.subjects subject = ⟨true, []⟩)
    (hmap : ∀ k, s.sessionEvents userId = some k → k = subject)
    (hc : s.clients c = .streaming userId subject) :
    teardown (cleanupSessionStream 1) c s = { s with
      sessionEvents := update s.sessionEvents userId none
      clients := update s.clients c .ended } := by
  have hsame : update s.subjects subject
      { s.subjects subject with observers := (s.subjects subject).observers.erase c } =
        s.subjects := by
    rw [hsubject]
    exact update_eq_self_iff.mpr hsubject.symm
  rw [teardown, hc]
  simp only [hsame, cleanupSessionStream]
  cases huser : s.sessionEvents userId with
  | none =>
    have hnone : update s.sessionEvents userId none = s.sessionEvents :=
      update_eq_self_iff.mpr huser.symm
    rw [hnone]
  | some k =>
    obtain rfl := hmap k huser
    simp only [complete, hsubject, if_true]

theorem foldl_teardown (cs : List C) (hsubject : s.subjects subject = ⟨true, []⟩)
    (hmap : ∀ k, s.sessionEvents userId = some k → k = subject) (hnodup : cs.Nodup)
    (hcs : ∀ c ∈ cs, s.clients c = .streaming userId subject) :
    { cs.foldl (fun s c => teardown (cleanupSessionStream 1) c s) s with
        sessionEvents := update (cs.foldl (fun s c =>
          teardown (cleanupSessionStream 1) c s) s).sessionEvents userId none }
      = { s with
        sessionEvents := update s.sessionEvents userId none
        clients := fun c => if c ∈ cs then .ended else s.clients c } := by
  induction cs generalizing s with
  | nil => simp
  | cons c cs ih =>
    obtain ⟨hc, hrest⟩ := List.forall_mem_cons.mp hcs
    obtain ⟨hnotMem, hnodup⟩ := List.nodup_cons.mp hnodup
    have hfirst := teardown_of_stopped hsubject hmap hc
    rw [List.foldl_cons, hfirst, ih]
    · simp only [update_idem, Service.mk.injEq, true_and]
      funext c'
      by_cases h : c' = c
      · simp [h]
      · simp [h]
    · exact hsubject
    · intro k hk
      simp at hk
    · exact hnodup
    · intro c' hc'
      have hne : c' ≠ c := by
        rintro rfl
        exact hnotMem hc'
      simp only [update_of_ne hne]
      exact hrest c' hc'

/-- Cleaning up hangs up all open streams of the user. -/
theorem cleanup_eq (h : Sound s) (hmap : s.sessionEvents userId = some subject) :
    cleanup userId s = s.closed userId subject := by
  obtain ⟨_, hopen, hnodup⟩ := h.current userId subject hmap
  rw [cleanup, cleanupSessionStream, hmap]
  simp only [complete, hopen, Bool.false_eq_true, if_false]
  rw [@foldl_teardown _ _ _ _ _ userId subject]
  · rfl
  · simp
  · intro k hk
    exact Option.some.inj (hk.symm.trans hmap)
  · exact hnodup
  · intro c hc
    exact h.observed userId subject c hmap hc

theorem cleanup_of_none (hmap : s.sessionEvents userId = none) : cleanup userId s = s := by
  rw [cleanup, cleanupSessionStream, hmap]

omit [DecidableEq U] [DecidableEq C] in
/-- The subject that is hung up is in the map of one user only. -/
theorem Sound.ne_subject (h : Sound s) (hmap : s.sessionEvents userId = some subject) {u : U}
    {k : ℕ} (hk : s.sessionEvents u = some k) (hne : u ≠ userId) : k ≠ subject := by
  rintro rfl
  exact hne (h.own u userId k hk hmap)

theorem Sound.closed (h : Sound s) (hmap : s.sessionEvents userId = some subject) :
    Sound (s.closed userId subject) := by
  have hother : ∀ u k, update s.sessionEvents userId none u = some k →
      s.sessionEvents u = some k ∧ k ≠ subject := by
    intro u k hk
    have hne : u ≠ userId := by
      rintro rfl
      simp at hk
    rw [update_of_ne hne] at hk
    exact ⟨hk, h.ne_subject hmap hk hne⟩
  have hkeep : ∀ u k, s.sessionEvents u = some k → k ≠ subject →
      update s.sessionEvents userId none u = some k := by
    intro u k hk hne
    rw [update_of_ne, hk]
    rintro rfl
    exact hne (Option.some.inj (hk.symm.trans hmap))
  have hclients : ∀ {c : C} {phase : Phase U}, (s.closed userId subject).clients c = phase →
      phase ≠ .ended → s.clients c = phase ∧ c ∉ (s.subjects subject).observers := by
    intro c phase hc hphase
    rw [Service.closed] at hc
    by_cases hmem : c ∈ (s.subjects subject).observers
    · simp only [if_pos hmem] at hc
      exact absurd hc.symm hphase
    · simp only [if_neg hmem] at hc
      exact ⟨hc, hmem⟩
  refine ⟨?_, ?_, ?_, ?_, ?_⟩
  · intro u k hk
    obtain ⟨hmapped, hne⟩ := hother u k hk
    simp only [Service.closed, update_of_ne hne]
    exact h.current u k hmapped
  · intro u u' k hk hk'
    exact h.own u u' k (hother u k hk).1 (hother u' k hk').1
  · intro c u k hc
    obtain ⟨hphase, _⟩ := hclients hc (by simp)
    obtain ⟨hlt, hopen⟩ := h.handling c u k hphase
    refine ⟨hlt, fun hstopped => ?_⟩
    have hne : k ≠ subject := by
      rintro rfl
      simp [Service.closed] at hstopped
    simp only [Service.closed, update_of_ne hne] at hstopped
    exact hkeep u k (hopen hstopped) hne
  · intro c u k hc
    obtain ⟨hphase, hnotMem⟩ := hclients hc (by simp)
    obtain ⟨hmapped, hmem⟩ := h.streaming c u k hphase
    have hne : k ≠ subject := by
      rintro rfl
      exact hnotMem hmem
    simp only [Service.closed, update_of_ne hne]
    exact ⟨hkeep u k hmapped hne, hmem⟩
  · intro u k c hk hmem
    obtain ⟨hmapped, hne⟩ := hother u k hk
    simp only [Service.closed, update_of_ne hne] at hmem ⊢
    have hphase := h.observed u k c hmapped hmem
    have hnotMem : c ∉ (s.subjects subject).observers := by
      intro hin
      have hsame := (h.observed userId subject c hmap hin).symm.trans hphase
      exact hne (Phase.streaming.inj hsame).2.symm
    rw [if_neg hnotMem]
    exact hphase

/-- What is seen of a client when the streams of a user are hung up. -/
theorem statusOf_closed (h : Sound s) (hmap : s.sessionEvents userId = some subject) (c : C) :
    (s.closed userId subject).statusOf ((s.closed userId subject).clients c) =
      (s.statusOf (s.clients c)).hungUp userId := by
  simp only [Service.closed]
  by_cases hmem : c ∈ (s.subjects subject).observers
  · rw [if_pos hmem, h.observed userId subject c hmap hmem]
    simp [Service.statusOf, Status.hungUp]
  · rw [if_neg hmem]
    cases hc : s.clients c with
    | idle => rfl
    | ended => rfl
    | handling u k =>
      obtain ⟨_, hopen⟩ := h.handling c u k hc
      simp only [Service.statusOf]
      by_cases hk : k = subject
      · -- it has got the subject that is hung up, so it is of this user
        have hcurrent := (h.current userId subject hmap).2.1
        obtain rfl : u = userId := by
          rw [hk] at hopen
          exact h.own u userId subject (hopen hcurrent) hmap
        simp [hk, hcurrent, Status.hungUp]
      · simp only [update_of_ne hk]
        split_ifs with hstopped
        · rfl
        · have hne : u ≠ userId := by
            rintro rfl
            have hk' := hopen (eq_false_of_ne_true hstopped)
            exact hk (Option.some.inj (hk'.symm.trans hmap))
          simp [Status.hungUp, hne]
    | streaming u k =>
      obtain ⟨hmapped, hin⟩ := h.streaming c u k hc
      have hne : u ≠ userId := by
        rintro rfl
        obtain rfl := Option.some.inj (hmapped.symm.trans hmap)
        exact hmem hin
      simp [Service.statusOf, Status.hungUp, hne]

theorem view_closed (h : Sound s) (hmap : s.sessionEvents userId = some subject) :
    (s.closed userId subject).view = s.view.hangUp userId := by
  have hlisteners : (s.closed userId subject).view.listeners =
      update s.view.listeners userId [] := by
    funext u
    by_cases hu : u = userId
    · simp [Service.view, Service.closed, hu]
    · rw [update_of_ne hu]
      simp only [Service.view, Service.closed, update_of_ne hu]
      cases hk : s.sessionEvents u with
      | none => rfl
      | some k => simp only [update_of_ne (h.ne_subject hmap hk hu)]
  have hstatus : (s.closed userId subject).view.status =
      fun c => (s.view.status c).hungUp userId := funext (statusOf_closed h hmap)
  rw [Board.hangUp, ← hlisteners, ← hstatus]

omit [DecidableEq C] in
/-- A user with no subject in the map has no stream to hang up. -/
theorem view_hangUp_of_none (h : Sound s) (hmap : s.sessionEvents userId = none) :
    s.view.hangUp userId = s.view := by
  have hlisteners : update s.view.listeners userId [] = s.view.listeners := by
    apply update_eq_self_iff.mpr
    simp [Service.view, hmap]
  have hstatus : (fun c => (s.view.status c).hungUp userId) = s.view.status := by
    funext c
    simp only [Service.view]
    cases hc : s.clients c with
    | idle => rfl
    | ended => rfl
    | handling u k =>
      simp only [Service.statusOf]
      split_ifs with hstopped
      · rfl
      · have hne : u ≠ userId := by
          rintro rfl
          have hk := (h.handling c u k hc).2 (eq_false_of_ne_true hstopped)
          simp [hmap] at hk
        simp [Status.hungUp, hne]
    | streaming u k =>
      have hne : u ≠ userId := by
        rintro rfl
        have hk := (h.streaming c u k hc).1
        simp [hmap] at hk
      simp [Service.statusOf, Status.hungUp, hne]
  rw [Board.hangUp, hlisteners, hstatus]

theorem Sound.cleanup (h : Sound s) (userId : U) : Sound (cleanup userId s) := by
  cases hmap : s.sessionEvents userId with
  | none =>
    rw [cleanup_of_none hmap]
    exact h
  | some subject =>
    rw [cleanup_eq h hmap]
    exact h.closed hmap

theorem view_cleanup (h : Sound s) (userId : U) :
    (cleanup userId s).view = s.view.hangUp userId := by
  cases hmap : s.sessionEvents userId with
  | none => rw [cleanup_of_none hmap, view_hangUp_of_none h hmap]
  | some subject => rw [cleanup_eq h hmap, view_closed h hmap]

omit [DecidableEq U] [DecidableEq C] in
theorem sound_start : Sound (start : Service U C) := by
  refine ⟨?_, ?_, ?_, ?_, ?_⟩ <;> simp [start]

omit [DecidableEq U] in
/-- What is at a place after another value has been put at some place. -/
theorem update_eq_cases {V : Type*} {f : C → V} {v w : V} {c' : C} (h : update f c v c' = w) :
    c' = c ∧ v = w ∨ c' ≠ c ∧ f c' = w := by
  by_cases hc : c' = c
  · subst hc
    rw [update_self] at h
    exact .inl ⟨rfl, h⟩
  · rw [update_of_ne hc] at h
    exact .inr ⟨hc, h⟩

omit [DecidableEq U] in
/-- A request whose handler gets the subject of its user. -/
theorem Sound.join (h : Sound s) (hc : s.clients c = .idle)
    (hmap : s.sessionEvents userId = some subject) :
    Sound { s with clients := update s.clients c (.handling userId subject) } := by
  refine ⟨h.current, h.own, ?_, ?_, ?_⟩
  · intro c' u k hphase
    rcases update_eq_cases hphase with ⟨_, hnew⟩ | ⟨_, hphase⟩
    · obtain ⟨rfl, rfl⟩ := Phase.handling.inj hnew
      exact ⟨(h.current userId subject hmap).1, fun _ => hmap⟩
    · exact h.handling c' u k hphase
  · intro c' u k hphase
    rcases update_eq_cases hphase with ⟨_, hnew⟩ | ⟨_, hphase⟩
    · cases hnew
    · exact h.streaming c' u k hphase
  · intro u k c' hk hmem
    have hphase := h.observed u k c' hk hmem
    have hc' : c' ≠ c := by
      rintro rfl
      simp [hc] at hphase
    exact (update_of_ne hc' ..).trans hphase

/-- A subject of the user's own, where there is none. -/
def Service.opened (s : Service U C) (userId : U) : Service U C :=
  { s with
    subjects := update s.subjects s.created ⟨false, []⟩
    created := s.created+1
    sessionEvents := update s.sessionEvents userId (some s.created) }

omit [DecidableEq C] in
theorem Sound.opened (h : Sound s) (hmap : s.sessionEvents userId = none) :
    Sound (s.opened userId) := by
  -- the subject is new, and no other subject changes
  have hold : ∀ {u k}, update s.sessionEvents userId (some s.created) u = some k →
      u = userId ∧ k = s.created ∨ u ≠ userId ∧ s.sessionEvents u = some k := by
    intro u k hk
    by_cases hu : u = userId
    · subst hu
      rw [update_self] at hk
      exact .inl ⟨rfl, (Option.some.inj hk).symm⟩
    · rw [update_of_ne hu] at hk
      exact .inr ⟨hu, hk⟩
  have hkeep : ∀ {u k}, s.sessionEvents u = some k →
      k ≠ s.created ∧ update s.sessionEvents userId (some s.created) u = some k := by
    intro u k hk
    have hlt := (h.current u k hk).1
    refine ⟨by omega, ?_⟩
    rw [update_of_ne, hk]
    rintro rfl
    simp [hmap] at hk
  refine ⟨?_, ?_, ?_, ?_, ?_⟩
  · intro u k hk
    rcases hold hk with ⟨rfl, rfl⟩ | ⟨_, hkold⟩
    · simp [Service.opened]
    · obtain ⟨hlt, hopen, hnodup⟩ := h.current u k hkold
      simp only [Service.opened, update_of_ne (hkeep hkold).1]
      exact ⟨by omega, hopen, hnodup⟩
  · intro u u' k hk hk'
    rcases hold hk with ⟨rfl, rfl⟩ | ⟨_, hkold⟩
    · rcases hold hk' with ⟨rfl, _⟩ | ⟨_, hkold'⟩
      · rfl
      · exact absurd rfl (hkeep hkold').1
    · rcases hold hk' with ⟨rfl, rfl⟩ | ⟨_, hkold'⟩
      · exact absurd rfl (hkeep hkold).1
      · exact h.own u u' k hkold hkold'
  · intro c' u k hphase
    obtain ⟨hlt, hopen⟩ := h.handling c' u k hphase
    have hne : k ≠ s.created := by omega
    simp only [Service.opened, update_of_ne hne]
    exact ⟨by omega, fun hstopped => (hkeep (hopen hstopped)).2⟩
  · intro c' u k hphase
    obtain ⟨hk, hmem⟩ := h.streaming c' u k hphase
    simp only [Service.opened, update_of_ne (hkeep hk).1]
    exact ⟨(hkeep hk).2, hmem⟩
  · intro u k c' hk hmem
    rcases hold hk with ⟨rfl, rfl⟩ | ⟨_, hkold⟩
    · simp [Service.opened] at hmem
    · simp only [Service.opened, update_of_ne (hkeep hkold).1] at hmem
      exact h.observed u k c' hkold hmem

omit [DecidableEq U] in
/-- The stream of a client that has been subscribed. -/
theorem Sound.subscribed (h : Sound s) (hc : s.clients c = .handling userId subject)
    (hopen : (s.subjects subject).isStopped = false) : Sound { s with
      subjects := update s.subjects subject
        { s.subjects subject with observers := (s.subjects subject).observers ++ [c] }
      clients := update s.clients c (.streaming userId subject) } := by
  have hmap := (h.handling c userId subject hc).2 hopen
  have hnotMem : ∀ u k, s.sessionEvents u = some k → c ∉ (s.subjects k).observers := by
    intro u k hk hmem
    simp [h.observed u k c hk hmem] at hc
  have hstopped : ∀ k, (update s.subjects subject { s.subjects subject with
      observers := (s.subjects subject).observers ++ [c] } k).isStopped =
        (s.subjects k).isStopped := by
    intro k
    by_cases hk : k = subject
    · simp [hk]
    · rw [update_of_ne hk]
  have hobservers : ∀ k c', c' ∈ (update s.subjects subject { s.subjects subject with
      observers := (s.subjects subject).observers ++ [c] } k).observers ↔
        c' ∈ (s.subjects k).observers ∨ k = subject ∧ c' = c := by
    intro k c'
    by_cases hk : k = subject
    · simp [hk]
    · simp [hk]
  refine ⟨?_, h.own, ?_, ?_, ?_⟩
  · intro u k hk
    obtain ⟨hlt, hcurrent, hnodup⟩ := h.current u k hk
    refine ⟨hlt, (hstopped k).trans hcurrent, ?_⟩
    by_cases hsubject : k = subject
    · subst hsubject
      simp only [update_self]
      exact hnodup.append (List.nodup_singleton c)
        (List.disjoint_singleton.mpr (hnotMem u k hk))
    · simp only [update_of_ne hsubject]
      exact hnodup
  · intro c' u k hphase
    rcases update_eq_cases hphase with ⟨_, hnew⟩ | ⟨_, hphase⟩
    · cases hnew
    · rw [hstopped k]
      exact h.handling c' u k hphase
  · intro c' u k hphase
    rw [hobservers]
    rcases update_eq_cases hphase with ⟨rfl, hnew⟩ | ⟨_, hphase⟩
    · obtain ⟨rfl, rfl⟩ := Phase.streaming.inj hnew
      exact ⟨hmap, .inr ⟨rfl, rfl⟩⟩
    · obtain ⟨hk, hmem⟩ := h.streaming c' u k hphase
      exact ⟨hk, .inl hmem⟩
  · intro u k c' hk hmem
    rcases (hobservers k c').mp hmem with hin | ⟨rfl, rfl⟩
    · have hc' : c' ≠ c := by
        rintro rfl
        exact hnotMem u k hk hin
      exact (update_of_ne hc' ..).trans (h.observed u k c' hk hin)
    · obtain rfl := h.own u userId k hk hmap
      exact update_self ..

omit [DecidableEq U] in
/-- The stream of a client that leaves, before the others of the user are cleaned up. -/
theorem Sound.unsubscribed (h : Sound s) (hc : s.clients c = .streaming userId subject) :
    Sound { s with
      subjects := update s.subjects subject
        { s.subjects subject with observers := (s.subjects subject).observers.erase c }
      clients := update s.clients c .ended } := by
  obtain ⟨hmap, _⟩ := h.streaming c userId subject hc
  have hnodup := (h.current userId subject hmap).2.2
  have hobservers : ∀ k c', c' ≠ c → (c' ∈ (update s.subjects subject { s.subjects subject with
      observers := (s.subjects subject).observers.erase c } k).observers ↔
        c' ∈ (s.subjects k).observers) := by
    intro k c' hne
    by_cases hk : k = subject
    · subst hk
      simp [List.mem_erase_of_ne hne]
    · rw [update_of_ne hk]
  have hstopped : ∀ k, (update s.subjects subject { s.subjects subject with
      observers := (s.subjects subject).observers.erase c } k).isStopped =
        (s.subjects k).isStopped := by
    intro k
    by_cases hk : k = subject
    · simp [hk]
    · rw [update_of_ne hk]
  refine ⟨?_, h.own, ?_, ?_, ?_⟩
  · intro u k hk
    obtain ⟨hlt, hcurrent, hall⟩ := h.current u k hk
    refine ⟨hlt, (hstopped k).trans hcurrent, ?_⟩
    by_cases hsubject : k = subject
    · subst hsubject
      simp only [update_self]
      exact hall.erase c
    · simp only [update_of_ne hsubject]
      exact hall
  · intro c' u k hphase
    rcases update_eq_cases hphase with ⟨_, hnew⟩ | ⟨_, hphase⟩
    · cases hnew
    · rw [hstopped k]
      exact h.handling c' u k hphase
  · intro c' u k hphase
    rcases update_eq_cases hphase with ⟨_, hnew⟩ | ⟨hc', hphase⟩
    · cases hnew
    · obtain ⟨hk, hmem⟩ := h.streaming c' u k hphase
      exact ⟨hk, (hobservers k c' hc').mpr hmem⟩
  · intro u k c' hk hmem
    have hc' : c' ≠ c := by
      rintro rfl
      by_cases hsubject : k = subject
      · subst hsubject
        simp only [update_self] at hmem
        exact hnodup.not_mem_erase hmem
      · simp only [update_of_ne hsubject] at hmem
        have hphase := (h.observed u k c' hk hmem).symm.trans hc
        exact hsubject (Phase.streaming.inj hphase).2
    exact (update_of_ne hc' ..).trans (h.observed u k c' hk ((hobservers k c' hc').mp hmem))

omit [DecidableEq U] in
/-- A request that comes to a completed subject is over. -/
theorem Sound.ended (h : Sound s) (hc : s.clients c = .handling userId subject) :
    Sound { s with clients := update s.clients c .ended } := by
  have hne : ∀ {c' : C} {phase : Phase U}, update s.clients c .ended c' = phase →
      phase ≠ .ended → s.clients c' = phase := by
    intro c' phase hphase hended
    rcases update_eq_cases hphase with ⟨_, hnew⟩ | ⟨_, hphase⟩
    · exact absurd hnew.symm hended
    · exact hphase
  refine ⟨h.current, h.own, ?_, ?_, ?_⟩
  · intro c' u k hphase
    exact h.handling c' u k (hne hphase (by simp))
  · intro c' u k hphase
    exact h.streaming c' u k (hne hphase (by simp))
  · intro u k c' hk hmem
    have hphase := h.observed u k c' hk hmem
    have hc' : c' ≠ c := by
      rintro rfl
      simp [hc] at hphase
    exact (update_of_ne hc' ..).trans hphase

omit [DecidableEq U] in
theorem view_join (h : Sound s) (hmap : s.sessionEvents userId = some subject) :
    Service.view { s with clients := update s.clients c (.handling userId subject) } =
      { s.view with status := update s.view.status c (.connecting userId) } := by
  have hopen := (h.current userId subject hmap).2.1
  have hstatus : (fun c' => s.statusOf (update s.clients c (.handling userId subject) c')) =
      update s.view.status c (.connecting userId) := by
    funext c'
    by_cases hc : c' = c
    · simp [hc, Service.statusOf, hopen]
    · simp [update_of_ne hc, Service.view]
  exact congrArg (Board.mk · s.view.listeners) hstatus

omit [DecidableEq C] in
/-- A subject that nobody observes is not seen. -/
theorem view_opened (h : Sound s) (hmap : s.sessionEvents userId = none) :
    (s.opened userId).view = s.view := by
  have hstatus : (s.opened userId).view.status = s.view.status := by
    funext c
    simp only [Service.view, Service.opened]
    cases hc : s.clients c with
    | idle => rfl
    | ended => rfl
    | streaming u k => rfl
    | handling u k =>
      have hlt := (h.handling c u k hc).1
      simp only [Service.statusOf, update_of_ne (show k ≠ s.created by omega)]
  have hlisteners : (s.opened userId).view.listeners = s.view.listeners := by
    funext u
    simp only [Service.view, Service.opened]
    by_cases hu : u = userId
    · simp [hu, hmap]
    · rw [update_of_ne hu]
      cases hk : s.sessionEvents u with
      | none => rfl
      | some k =>
        have hlt := (h.current u k hk).1
        simp only [update_of_ne (show k ≠ s.created by omega)]
  exact congrArg₂ Board.mk hstatus hlisteners

theorem view_subscribed (h : Sound s) (hc : s.clients c = .handling userId subject)
    (hopen : (s.subjects subject).isStopped = false) : Service.view { s with
      subjects := update s.subjects subject
        { s.subjects subject with observers := (s.subjects subject).observers ++ [c] }
      clients := update s.clients c (.streaming userId subject) } =
    ⟨update s.view.status c (.listening userId),
      update s.view.listeners userId (s.view.listeners userId ++ [c])⟩ := by
  have hmap := (h.handling c userId subject hc).2 hopen
  apply congrArg₂ Board.mk
  · funext c'
    by_cases hc' : c' = c
    · simp [hc', Service.statusOf]
    · simp only [update_of_ne hc', Service.view]
      cases hphase : s.clients c' with
      | idle => rfl
      | ended => rfl
      | streaming u k => rfl
      | handling u k =>
        by_cases hk : k = subject
        · simp [Service.statusOf, hk]
        · simp [Service.statusOf, update_of_ne hk]
  · funext u
    by_cases hu : u = userId
    · simp [hu, hmap, Service.view]
    · rw [update_of_ne hu]
      simp only [Service.view]
      cases hk : s.sessionEvents u with
      | none => rfl
      | some k => simp only [update_of_ne (h.ne_subject hmap hk hu)]

/-- The one that leaves is hung up with the others. -/
theorem view_unsubscribed (h : Sound s) (hc : s.clients c = .streaming userId subject) :
    (Service.view { s with
      subjects := update s.subjects subject
        { s.subjects subject with observers := (s.subjects subject).observers.erase c }
      clients := update s.clients c .ended }).hangUp userId = s.view.hangUp userId := by
  obtain ⟨hmap, _⟩ := h.streaming c userId subject hc
  apply congrArg₂ Board.mk
  · funext c'
    by_cases hc' : c' = c
    · simp [hc', hc, Service.view, Service.statusOf, Status.hungUp]
    · simp only [update_of_ne hc', Service.view]
      cases hphase : s.clients c' with
      | idle => rfl
      | ended => rfl
      | streaming u k => rfl
      | handling u k =>
        by_cases hk : k = subject
        · simp [Service.statusOf, hk]
        · simp [Service.statusOf, update_of_ne hk]
  · funext u
    by_cases hu : u = userId
    · simp [hu]
    · rw [update_of_ne hu, update_of_ne hu]
      simp only [Service.view]
      cases hk : s.sessionEvents u with
      | none => rfl
      | some k => simp only [update_of_ne (h.ne_subject hmap hk hu)]

omit [DecidableEq U] in
theorem view_ended :
    Service.view { s with clients := update s.clients c .ended } =
      { s.view with status := update s.view.status c .gone } := by
  have hstatus : (fun c' => s.statusOf (update s.clients c .ended c')) =
      update s.view.status c .gone := by
    funext c'
    by_cases hc : c' = c
    · simp [hc, Service.statusOf]
    · simp [update_of_ne hc, Service.view]
  exact congrArg (Board.mk · s.view.listeners) hstatus

theorem step_disconnect (hc : s.clients c = .streaming userId subject) :
    step s (.disconnect c) = cleanup userId { s with
      subjects := update s.subjects subject
        { s.subjects subject with observers := (s.subjects subject).observers.erase c }
      clients := update s.clients c .ended } := by
  simp only [step, teardown, hc]

theorem step_request_some (hc : s.clients c = .idle)
    (hmap : s.sessionEvents userId = some subject) :
    step s (.request c userId) =
      { s with clients := update s.clients c (.handling userId subject) } := by
  simp only [step, hc, getSessionEventStream, hmap]

theorem step_request_none (hc : s.clients c = .idle) (hmap : s.sessionEvents userId = none) :
    step s (.request c userId) = { s.opened userId with
      clients := update (s.opened userId).clients c (.handling userId s.created) } := by
  simp only [step, hc, getSessionEventStream, hmap, Service.opened]

theorem Sound.step (h : Sound s) (move : Move U C) : Sound (step s move) := by
  cases move with
  | request c userId =>
    cases hc : s.clients c with
    | idle =>
      cases hmap : s.sessionEvents userId with
      | none =>
        rw [step_request_none hc hmap]
        exact (h.opened hmap).join hc (update_self ..)
      | some subject =>
        rw [step_request_some hc hmap]
        exact h.join hc hmap
    | _ => simpa only [SessionBroadcast.step, hc] using h
  | subscribe c =>
    cases hc : s.clients c with
    | handling userId subject =>
      simp only [SessionBroadcast.step, hc]
      split_ifs with hstopped
      · exact (h.ended hc).cleanup userId
      · exact h.subscribed hc (eq_false_of_ne_true hstopped)
    | _ => simpa only [SessionBroadcast.step, hc] using h
  | disconnect c =>
    cases hc : s.clients c with
    | streaming userId subject =>
      rw [step_disconnect hc]
      exact (h.unsubscribed hc).cleanup userId
    | _ => simpa only [SessionBroadcast.step, teardown, hc] using h
  | logoutAll userId now => exact h

theorem view_step (h : Sound s) (move : Move U C) :
    (step s move).view = s.view.step move := by
  have hstatus : ∀ {c : C} {phase : Phase U}, s.clients c = phase →
      s.view.status c = s.statusOf phase := fun hc => congrArg s.statusOf hc
  cases move with
  | request c userId =>
    cases hc : s.clients c with
    | idle =>
      have hview : s.view.step (.request c userId) =
          { s.view with status := update s.view.status c (.connecting userId) } := by
        simp only [Board.step, hstatus hc, Service.statusOf]
      rw [hview]
      cases hmap : s.sessionEvents userId with
      | none =>
        rw [step_request_none hc hmap, view_join (h.opened hmap) (update_self ..),
          view_opened h hmap]
      | some subject => rw [step_request_some hc hmap, view_join h hmap]
    | handling u k =>
      simp only [step, Board.step, hc, hstatus hc, Service.statusOf]
      split_ifs <;> rfl
    | streaming u k => simp only [step, Board.step, hc, hstatus hc, Service.statusOf]
    | ended => simp only [step, Board.step, hc, hstatus hc, Service.statusOf]
  | subscribe c =>
    cases hc : s.clients c with
    | idle => simp only [step, Board.step, hc, hstatus hc, Service.statusOf]
    | handling userId subject =>
      by_cases hstopped : (s.subjects subject).isStopped = true
      · have hstale : step s (.subscribe c) =
            cleanup userId { s with clients := update s.clients c .ended } := by
          simp only [step, hc, if_pos hstopped]
        rw [hstale, view_cleanup (h.ended hc), view_ended]
        simp only [Board.step, hstatus hc, Service.statusOf, if_pos hstopped]
      · have hopen : step s (.subscribe c) = { s with
            subjects := update s.subjects subject
              { s.subjects subject with observers := (s.subjects subject).observers ++ [c] }
            clients := update s.clients c (.streaming userId subject) } := by
          simp only [step, hc, if_neg hstopped]
        rw [hopen, view_subscribed h hc (eq_false_of_ne_true hstopped)]
        simp only [Board.step, hstatus hc, Service.statusOf, if_neg hstopped]
    | streaming u k => simp only [step, Board.step, hc, hstatus hc, Service.statusOf]
    | ended => simp only [step, Board.step, hc, hstatus hc, Service.statusOf]
  | disconnect c =>
    cases hc : s.clients c with
    | idle => simp only [step, teardown, Board.step, hc, hstatus hc, Service.statusOf]
    | handling u k =>
      simp only [step, teardown, Board.step, hc, hstatus hc, Service.statusOf]
      split_ifs <;> rfl
    | streaming userId subject =>
      rw [step_disconnect hc, view_cleanup (h.unsubscribed hc), view_unsubscribed h hc]
      simp only [Board.step, hstatus hc, Service.statusOf]
    | ended => simp only [step, teardown, Board.step, hc, hstatus hc, Service.statusOf]
  | logoutAll userId now => rfl

omit [DecidableEq U] [DecidableEq C] in
theorem delivered_eq (h : Sound s) (move : Move U C) :
    delivered s move = s.view.announced move := by
  cases move with
  | logoutAll userId now =>
    simp only [delivered, Board.announced, Service.view]
    cases hmap : s.sessionEvents userId with
    | none => rfl
    | some subject =>
      have hopen := (h.current userId subject hmap).2.1
      simp [hopen]
  | _ => rfl

theorem refines_board :
    Refines (step (U := U) (C := C)) Board.step delivered Board.announced Service.view Sound :=
  ⟨fun _ move h => h.step move, fun _ move h => view_step h move,
    fun _ move h => delivered_eq h move⟩

/-- What the service does is what the board does: over any moves of any clients, the streams that
are open and what is sent on them are those of the board, which knows no subjects. -/
theorem run_eq_board (moves : List (Move U C)) :
    (run step start moves).view = run Board.step Board.empty moves ∧
      trace step delivered start moves = trace Board.step Board.announced Board.empty moves := by
  have hstart : (start : Service U C).view = Board.empty := rfl
  rw [← hstart]
  exact ⟨refines_board.run sound_start moves, refines_board.trace sound_start moves⟩

end HubAssist.SessionBroadcast
