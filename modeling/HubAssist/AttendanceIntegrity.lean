import HubAssist.AttendanceClock

/-! The sessions that clocking in, clocking out and the hourly job leave in the attendance table,
and under which saves each has one clock-in, at most one clock-out, and no user two that are
open. -/
namespace HubAssist.Attendances
open RunSystem Interleaving

variable {I Id : Type}

def sessionIds (rows : List (Attendance Id)) : List (Option String) :=
  rows.map Attendance.sessionId

def recordsOf (action : AttendanceAction) (sessionId : Option String)
    (rows : List (Attendance Id)) : List (Attendance Id) :=
  rows.filter fun r => r.action = action ∧ r.sessionId = sessionId

/-- The sessions of a user without a clock-out. -/
def openSessions (userId : String) (rows : List (Attendance Id)) : List (Attendance Id) :=
  rows.filter fun r => r.action = .clockIn ∧ r.userId = userId ∧
    recordsOf .clockOut r.sessionId rows = []

/-- Every session has exactly one clock-in and at most one clock-out, and every user at most one
session without a clock-out. -/
@[mk_iff] structure Integrity (rows : List (Attendance Id)) : Prop where
  clockIn : ∀ sessionId : String, some sessionId ∈ sessionIds rows →
    (recordsOf .clockIn (some sessionId) rows).length = 1
  clockOut : ∀ sessionId : String, (recordsOf .clockOut (some sessionId) rows).length ≤ 1
  openOnce : ∀ userId, (openSessions userId rows).length ≤ 1

/-- The identifier that a clock-in draws has not been drawn before. -/
def Fresh (rows : List (Attendance Id)) : Phase Id → Move Id → Prop
  | .clockingIn .., .proceed drawn => some drawn.sessionId ∉ sessionIds rows
  | _, _ => True

/-- A clock-in is saved while its user has no open session, a clock-out while its session has
none. -/
def SavesFreely (rows : List (Attendance Id)) : Phase Id → Move Id → Prop
  | .clockingIn userId _, .proceed _ => openSessions userId rows = []
  | .clockingOut _ _ session, .proceed _ => recordsOf .clockOut session.sessionId rows = []
  | .completing maxSessionHours (session :: _), .proceed _ =>
    IsoDate.InRange (session.date+sessionMs maxSessionHours) →
      recordsOf .clockOut session.sessionId rows = []
  | _, _ => True

/-- Rows are not deleted and belong to a session, and those of a session to one user. -/
structure Consistent (rows : List (Attendance Id)) : Prop where
  live : ∀ r ∈ rows, r.deletedAt = none
  session : none ∉ sessionIds rows
  user : ∀ r ∈ rows, ∀ r' ∈ rows, r.sessionId = r'.sessionId → r.userId = r'.userId

/-- The sessions that a process goes on with. -/
def Phase.held : Phase Id → List (Attendance Id)
  | .checkingIn _ _ session | .checkingOut _ _ session | .clockingOut _ _ session => [session]
  | .completing _ openSessions => openSessions
  | .marking _ session openSessions => session :: openSessions
  | _ => []

/-- A request goes on with a session of its own user. -/
def Phase.OwnSession : Phase Id → Prop
  | .checkingIn userId _ session | .checkingOut userId _ session
  | .clockingOut userId _ session => session.userId = userId
  | _ => True

/-- A process goes on with sessions of the table, a request with one of its user. -/
structure Held (rows : List (Attendance Id)) (phase : Phase Id) : Prop where
  known : ∀ session ∈ phase.held, ∃ r ∈ rows,
    r.sessionId = session.sessionId ∧ r.userId = session.userId
  own : phase.OwnSession

variable {rows : List (Attendance Id)} {phase : Phase Id} {move : Move Id} {r : Attendance Id}

@[simp] theorem recordsOf_append (action : AttendanceAction) (sessionId : Option String) :
    recordsOf action sessionId (rows ++ [r]) = recordsOf action sessionId rows ++
      if r.action = action ∧ r.sessionId = sessionId then [r] else [] := by
  simp only [recordsOf, List.filter_append, List.filter_singleton, Bool.cond_decide]

theorem recordsOf_append_of_ne {action : AttendanceAction} {sessionId : Option String}
    (h : ¬(r.action = action ∧ r.sessionId = sessionId)) :
    recordsOf action sessionId (rows ++ [r]) = recordsOf action sessionId rows := by
  rw [recordsOf_append, if_neg h, List.append_nil]

@[simp] theorem sessionIds_append : sessionIds (rows ++ [r]) = sessionIds rows ++ [r.sessionId] :=
  List.map_append

theorem recordsOf_eq_nil_of_fresh {sessionId : Option String} (h : sessionId ∉ sessionIds rows)
    (action : AttendanceAction) : recordsOf action sessionId rows = [] := by
  rw [recordsOf, List.filter_eq_nil_iff]
  intro r hr hof
  simp only [decide_eq_true_eq] at hof
  exact h (hof.2 ▸ List.mem_map_of_mem hr)

/-- A clock-in of a new session adds to the open sessions of its user. -/
theorem openSessions_append_clockIn (hclockIn : r.action = .clockIn)
    (hfresh : r.sessionId ∉ sessionIds rows) (userId : String) :
    openSessions userId (rows ++ [r]) =
      openSessions userId rows ++ if r.userId = userId then [r] else [] := by
  have hno (k : Option String) :
      recordsOf .clockOut k (rows ++ [r]) = recordsOf .clockOut k rows := by
    refine recordsOf_append_of_ne fun hof => ?_
    rw [hclockIn] at hof
    cases hof.1
  simp only [openSessions, List.filter_append, List.filter_singleton, hno, hclockIn,
    recordsOf_eq_nil_of_fresh hfresh, Bool.cond_decide, true_and, and_true]

variable (rows) in
theorem openSessions_append_clockOut (hclockOut : r.action = .clockOut) (userId : String) :
    (openSessions userId (rows ++ [r])).Sublist (openSessions userId rows) := by
  have hlast : openSessions userId (rows ++ [r]) = rows.filter fun r' => r'.action = .clockIn ∧
      r'.userId = userId ∧ recordsOf .clockOut r'.sessionId (rows ++ [r]) = [] := by
    rw [openSessions, List.filter_append]
    simp [hclockOut]
  rw [hlast]
  refine List.monotone_filter_right rows fun r' h => ?_
  simp only [recordsOf_append, List.append_eq_nil_iff, decide_eq_true_eq] at h ⊢
  exact ⟨h.1, h.2.1, h.2.2.1⟩

/-- A clock-in of a new session keeps integrity exactly when its user has no open session. -/
theorem integrity_append_clockIn (h : Integrity rows) (hclockIn : r.action = .clockIn)
    (hfresh : r.sessionId ∉ sessionIds rows) :
    Integrity (rows ++ [r]) ↔ openSessions r.userId rows = [] := by
  constructor
  · intro h'
    have hone := h'.openOnce r.userId
    rw [openSessions_append_clockIn hclockIn hfresh, if_pos rfl, List.length_append,
      List.length_singleton] at hone
    exact List.eq_nil_of_length_eq_zero (by omega)
  · intro hopen
    have hnoClockOut (sessionId : String) : ¬(r.action = .clockOut ∧ r.sessionId = sessionId) := by
      rw [hclockIn]
      intro hof
      cases hof.1
    refine ⟨fun sessionId hmem => ?_, fun sessionId => ?_, fun userId => ?_⟩
    · -- the new session has this clock-in alone, the others keep theirs
      by_cases hk : r.sessionId = some sessionId
      · have hnone : recordsOf .clockIn (some sessionId) rows = [] :=
          recordsOf_eq_nil_of_fresh (hk ▸ hfresh) .clockIn
        rw [recordsOf_append, hnone, if_pos ⟨hclockIn, hk⟩]
        rfl
      · have hold : some sessionId ∈ sessionIds rows := by
          rw [sessionIds_append, List.mem_append, List.mem_singleton] at hmem
          exact hmem.resolve_right fun heq => hk heq.symm
        rw [recordsOf_append_of_ne fun hof => hk hof.2]
        exact h.clockIn sessionId hold
    · rw [recordsOf_append_of_ne (hnoClockOut sessionId)]
      exact h.clockOut sessionId
    · rw [openSessions_append_clockIn hclockIn hfresh]
      by_cases hu : r.userId = userId
      · subst hu
        rw [hopen, if_pos rfl]
        exact Nat.le_refl 1
      · rw [if_neg hu, List.append_nil]
        exact h.openOnce userId

/-- A clock-out of a known session keeps integrity exactly when the session has none. -/
theorem integrity_append_clockOut (h : Integrity rows) (hsome : r.sessionId ≠ none)
    (hclockOut : r.action = .clockOut) (hknown : r.sessionId ∈ sessionIds rows) :
    Integrity (rows ++ [r]) ↔ recordsOf .clockOut r.sessionId rows = [] := by
  obtain ⟨own, hown⟩ := Option.ne_none_iff_exists'.mp hsome
  rw [hown] at hknown ⊢
  constructor
  · intro h'
    -- with another one the session would now have two
    have hone := h'.clockOut own
    rw [recordsOf_append, if_pos ⟨hclockOut, hown⟩, List.length_append,
      List.length_singleton] at hone
    exact List.eq_nil_of_length_eq_zero (by omega)
  · intro hnone
    have hnoClockIn (sessionId : String) : ¬(r.action = .clockIn ∧ r.sessionId = sessionId) := by
      rw [hclockOut]
      intro hof
      cases hof.1
    refine ⟨fun sessionId hmem => ?_, fun sessionId => ?_, fun userId => ?_⟩
    · have hold : some sessionId ∈ sessionIds rows := by
        rw [sessionIds_append, List.mem_append, List.mem_singleton, hown] at hmem
        rcases hmem with hmem | heq
        · exact hmem
        · exact heq ▸ hknown
      rw [recordsOf_append_of_ne (hnoClockIn sessionId)]
      exact h.clockIn sessionId hold
    · by_cases hk : own = sessionId
      · subst hk
        rw [recordsOf_append, hnone, if_pos ⟨hclockOut, hown⟩]
        exact Nat.le_refl 1
      · have hother : ¬(r.action = .clockOut ∧ r.sessionId = some sessionId) := by
          rw [hown]
          intro hof
          exact hk (Option.some.inj hof.2)
        rw [recordsOf_append_of_ne hother]
        exact h.clockOut sessionId
    · have hfewer := (openSessions_append_clockOut rows hclockOut userId).length_le
      exact hfewer.trans (h.openOnce userId)

theorem holds_initial :
    Holds Consistent Held (fun _ _ => True) (initial : System I Id) where
  shared := ⟨by simp [initial], by simp [initial, sessionIds], by simp [initial]⟩
  own _ := ⟨by simp [initial, Phase.held], trivial⟩
  apart _ _ _ := trivial

theorem integrity_nil : Integrity ([] : List (Attendance Id)) := by
  simp [integrity_iff, sessionIds, recordsOf, openSessions]

variable {maxSessionHours : ℕ} {session : Attendance Id}

theorem latestClockIn_eq_some {userId : String} {choice : ℕ}
    (h : latestClockIn rows userId choice = some r) : r ∈ rows ∧ r.userId = userId := by
  have hmem := List.mem_of_getElem? h
  simp only [List.mem_filter, decide_eq_true_eq] at hmem
  exact ⟨hmem.1.1, hmem.1.2.2.1⟩

theorem completionRow_eq_some {drawn : Drawn Id} {row : Attendance Id}
    (h : completionRow maxSessionHours session drawn = some row) :
    IsoDate.InRange (session.date+sessionMs maxSessionHours) ∧ row.action = .clockOut ∧
      row.sessionId = session.sessionId ∧ row.userId = session.userId ∧ row.deletedAt = none := by
  unfold completionRow at h
  dsimp only at h
  split_ifs at h with hrange
  obtain rfl := Option.some.inj h
  exact ⟨hrange, rfl, rfl, rfl, rfl⟩

theorem completionRow_eq_none {drawn : Drawn Id}
    (h : completionRow maxSessionHours session drawn = none) :
    ¬IsoDate.InRange (session.date+sessionMs maxSessionHours) := by
  unfold completionRow at h
  dsimp only at h
  split_ifs at h with hrange
  exact hrange

variable [DecidableEq Id] (maxSessionHours session)

/-- Marking a session changes nothing that integrity looks at. -/
theorem markCompleted_keeps (r : Attendance Id) :
    (markCompleted maxSessionHours session r).action = r.action ∧
      (markCompleted maxSessionHours session r).sessionId = r.sessionId ∧
      (markCompleted maxSessionHours session r).userId = r.userId ∧
      (markCompleted maxSessionHours session r).deletedAt = r.deletedAt := by
  unfold markCompleted
  split_ifs <;> exact ⟨rfl, rfl, rfl, rfl⟩

theorem sessionIds_markCompleted :
    sessionIds (rows.map (markCompleted maxSessionHours session)) = sessionIds rows := by
  rw [sessionIds, List.map_map]
  exact List.map_congr_left fun r _ => (markCompleted_keeps maxSessionHours session r).2.1

theorem recordsOf_markCompleted (action : AttendanceAction) (sessionId : Option String) :
    recordsOf action sessionId (rows.map (markCompleted maxSessionHours session)) =
      (recordsOf action sessionId rows).map (markCompleted maxSessionHours session) := by
  rw [recordsOf, List.filter_map]
  refine congrArg _ (List.filter_congr fun r _ => ?_)
  obtain ⟨haction, hid, _, _⟩ := markCompleted_keeps maxSessionHours session r
  simp only [Function.comp_apply, haction, hid]

theorem openSessions_markCompleted (userId : String) :
    openSessions userId (rows.map (markCompleted maxSessionHours session)) =
      (openSessions userId rows).map (markCompleted maxSessionHours session) := by
  rw [openSessions, List.filter_map]
  refine congrArg _ (List.filter_congr fun r _ => ?_)
  obtain ⟨haction, hid, huser, _⟩ := markCompleted_keeps maxSessionHours session r
  simp only [Function.comp_apply, haction, hid, huser, recordsOf_markCompleted, List.map_eq_nil_iff]

theorem integrity_markCompleted :
    Integrity (rows.map (markCompleted maxSessionHours session)) ↔ Integrity rows := by
  simp only [integrity_iff, sessionIds_markCompleted, recordsOf_markCompleted,
    openSessions_markCompleted, List.length_map]

variable {maxSessionHours session}

/-- A step reads, saves a clock-in or the clock-out of a session it has found, or marks one. -/
inductive Effect (rows : List (Attendance Id)) (phase : Phase Id) (move : Move Id) :
    List (Attendance Id) × Phase Id → Prop
  | reads {next : Phase Id} (hfree : SavesFreely rows phase move)
    (hheld : ∀ session ∈ next.held, session ∈ phase.held ∨ session ∈ rows)
    (hown : next.OwnSession) : Effect rows phase move (rows, next)
  | clocksIn {userId : String} {details : Option JsonValue.Json} {drawn : Drawn Id}
    {next : Phase Id} (hfresh : Fresh rows phase move → some drawn.sessionId ∉ sessionIds rows)
    (hfree : SavesFreely rows phase move ↔ openSessions userId rows = [])
    (hheld : next.held = []) (hown : next.OwnSession) :
    Effect rows phase move (rows ++ [clockInRow userId details drawn], next)
  | clocksOut {session row : Attendance Id} {next : Phase Id} (hsession : session ∈ phase.held)
    (haction : row.action = .clockOut) (hid : row.sessionId = session.sessionId)
    (huser : row.userId = session.userId) (hlive : row.deletedAt = none)
    (hfree : SavesFreely rows phase move ↔ recordsOf .clockOut session.sessionId rows = [])
    (hheld : ∀ session ∈ next.held, session ∈ phase.held) (hown : next.OwnSession) :
    Effect rows phase move (rows ++ [row], next)
  | marks {maxSessionHours : ℕ} {session : Attendance Id} {next : Phase Id}
    (hfree : SavesFreely rows phase move) (hheld : ∀ session ∈ next.held, session ∈ phase.held)
    (hown : next.OwnSession) :
    Effect rows phase move (rows.map (markCompleted maxSessionHours session), next)

theorem Effect.answers (reply : Option (Except AttendanceError ClockReply))
    (hfree : SavesFreely rows phase move) : Effect rows phase move (rows, .free reply) :=
  .reads hfree (by simp [Phase.held]) trivial

theorem Effect.stays (hfree : SavesFreely rows phase move) (hown : phase.OwnSession) :
    Effect rows phase move (rows, phase) :=
  .reads hfree (fun _ h => .inl h) hown

/-- The job goes on with the sessions after the one it is at. -/
theorem Effect.passes {openSessions : List (Attendance Id)} (hfree : SavesFreely rows phase move)
    (hheld : phase.held = session :: openSessions) :
    Effect rows phase move (rows, .completing maxSessionHours openSessions) := by
  refine .reads hfree (fun other hother => .inl ?_) trivial
  rw [hheld]
  exact List.mem_cons_of_mem _ hother

theorem act_effect (hown : phase.OwnSession) : Effect rows phase move (act rows phase move) := by
  cases phase with
  | free reply =>
    cases move with
    | clockIn userId details choice =>
      simp only [act]
      split
      · next openSession hlatest =>
        obtain ⟨hmem, huser⟩ := latestClockIn_eq_some hlatest
        exact .reads trivial (by simpa [Phase.held] using hmem) huser
      · exact .reads trivial (by simp [Phase.held]) trivial
    | clockOut userId details choice =>
      simp only [act]
      split
      · next openSession hlatest =>
        obtain ⟨hmem, huser⟩ := latestClockIn_eq_some hlatest
        exact .reads trivial (by simpa [Phase.held] using hmem) huser
      · exact .answers _ trivial
    | autoComplete now maxSessionHours order =>
      refine .reads trivial (fun session hsession => .inr ?_) trivial
      exact List.mem_of_mem_filter ((List.mem_insertionSort _).mp hsession)
    | proceed drawn => exact .stays trivial hown
    | fail => exact .stays trivial hown
  | checkingIn userId details openSession =>
    cases move with
    | proceed drawn =>
      simp only [act]
      split_ifs
      · exact .reads trivial (by simp [Phase.held]) trivial
      · exact .answers _ trivial
    | fail => exact .answers none trivial
    | _ => exact .stays trivial hown
  | clockingIn userId details =>
    cases move with
    | proceed drawn => exact .clocksIn id Iff.rfl rfl trivial
    | fail => exact .answers none trivial
    | _ => exact .stays trivial hown
  | checkingOut userId details openSession =>
    cases move with
    | proceed drawn =>
      simp only [act]
      split_ifs
      · exact .answers _ trivial
      · exact .reads trivial (fun session h => .inl h) hown
    | fail => exact .answers none trivial
    | _ => exact .stays trivial hown
  | clockingOut userId details openSession =>
    cases move with
    | proceed drawn =>
      exact .clocksOut (List.mem_singleton_self _) rfl rfl hown.symm rfl Iff.rfl
        (by simp [Phase.held]) trivial
    | fail => exact .answers none trivial
    | _ => exact .stays trivial hown
  | completing maxSessionHours openSessions =>
    cases openSessions with
    | nil =>
      cases move with
      | proceed drawn => exact .answers none trivial
      | _ => exact .stays trivial hown
    | cons session openSessions =>
      cases move with
      | proceed drawn =>
        simp only [act]
        split
        · next row hrow =>
          obtain ⟨hrange, haction, hid, huser, hlive⟩ := completionRow_eq_some hrow
          exact .clocksOut List.mem_cons_self haction hid huser hlive
            ⟨fun h => h hrange, fun h _ => h⟩ (fun session h => h) trivial
        · next hnone =>
          -- nothing is saved, whatever clock-outs the session has
          exact .passes (fun hrange => absurd hrange (completionRow_eq_none hnone)) rfl
      | fail => exact .passes trivial rfl
      | _ => exact .stays trivial hown
  | marking maxSessionHours session openSessions =>
    cases move with
    | proceed drawn => exact .marks trivial (fun session h => List.mem_cons_of_mem _ h) trivial
    | fail => exact .passes trivial rfl
    | _ => exact .stays trivial hown

variable {after : List (Attendance Id) × Phase Id}

theorem Effect.held (h : Effect rows phase move after) :
    ∀ session ∈ after.2.held, session ∈ phase.held ∨ session ∈ rows := by
  intro session hsession
  cases h with
  | reads _ hheld => exact hheld session hsession
  | clocksIn _ _ hheld =>
    rw [hheld] at hsession
    cases hsession
  | clocksOut _ _ _ _ _ _ hheld => exact .inl (hheld session hsession)
  | marks _ hheld => exact .inl (hheld session hsession)

theorem Effect.own (h : Effect rows phase move after) : after.2.OwnSession := by
  cases h with
  | reads _ _ hown => exact hown
  | clocksIn _ _ _ hown => exact hown
  | clocksOut _ _ _ _ _ _ _ hown => exact hown
  | marks _ _ hown => exact hown

/-- No step takes a session from the table, or from its user. -/
theorem Effect.known (h : Effect rows phase move after) (hr : r ∈ rows) :
    ∃ r' ∈ after.1, r'.sessionId = r.sessionId ∧ r'.userId = r.userId := by
  cases h with
  | reads => exact ⟨r, hr, rfl, rfl⟩
  | clocksIn => exact ⟨r, List.mem_append_left _ hr, rfl, rfl⟩
  | clocksOut => exact ⟨r, List.mem_append_left _ hr, rfl, rfl⟩
  | @marks maxSessionHours session =>
    obtain ⟨_, hid, huser, _⟩ := markCompleted_keeps maxSessionHours session r
    exact ⟨_, List.mem_map_of_mem hr, hid, huser⟩

theorem Effect.keeps_known (h : Effect rows phase move after) (hknown : ∃ r ∈ rows,
    r.sessionId = session.sessionId ∧ r.userId = session.userId) :
    ∃ r ∈ after.1, r.sessionId = session.sessionId ∧ r.userId = session.userId := by
  obtain ⟨r, hr, hid, huser⟩ := hknown
  obtain ⟨r', hr', hid', huser'⟩ := h.known hr
  exact ⟨r', hr', hid'.trans hid, huser'.trans huser⟩

omit [DecidableEq Id] in
theorem Consistent.append (h : Consistent rows) (hlive : r.deletedAt = none)
    (hsome : r.sessionId ≠ none)
    (huser : ∀ r' ∈ rows, r'.sessionId = r.sessionId → r'.userId = r.userId) :
    Consistent (rows ++ [r]) where
  live := List.forall_mem_append.mpr ⟨h.live, by simpa using hlive⟩
  session := by
    rw [sessionIds_append, List.mem_append, List.mem_singleton]
    rintro (hmem | hmem)
    · exact h.session hmem
    · exact hsome hmem.symm
  user a ha b hb hab := by
    rcases List.mem_append.mp ha with ha' | ha' <;> rcases List.mem_append.mp hb with hb' | hb'
    · exact h.user a ha' b hb' hab
    · obtain rfl := List.mem_singleton.mp hb'
      exact huser a ha' hab
    · obtain rfl := List.mem_singleton.mp ha'
      exact (huser b hb' hab.symm).symm
    · rw [List.mem_singleton.mp ha', List.mem_singleton.mp hb']

theorem Consistent.markCompleted (h : Consistent rows) :
    Consistent (rows.map (markCompleted maxSessionHours session)) where
  live := by
    rw [List.forall_mem_map]
    intro r hr
    rw [(markCompleted_keeps maxSessionHours session r).2.2.2]
    exact h.live r hr
  session := by
    rw [sessionIds_markCompleted]
    exact h.session
  user := by
    simp only [List.forall_mem_map]
    intro a ha b hb hab
    obtain ⟨_, hida, husera, _⟩ := markCompleted_keeps maxSessionHours session a
    obtain ⟨_, hidb, huserb, _⟩ := markCompleted_keeps maxSessionHours session b
    rw [husera, huserb]
    exact h.user a ha b hb (hida.symm.trans (hab.trans hidb))

omit [DecidableEq Id] in
theorem Consistent.sessionId_ne_none (h : Consistent rows) (hr : r ∈ rows) : r.sessionId ≠ none :=
  fun hnone => h.session (hnone ▸ List.mem_map_of_mem hr)

theorem Effect.consistent (h : Effect rows phase move after) (hrows : Consistent rows)
    (hheld : Held rows phase) (hfresh : Fresh rows phase move) : Consistent after.1 := by
  cases h with
  | reads => exact hrows
  | clocksIn hnew =>
    refine hrows.append rfl (Option.some_ne_none _) fun r' hr' hid => ?_
    -- no row has the identifier that has just been drawn
    have hmem : r'.sessionId ∈ sessionIds rows := List.mem_map_of_mem hr'
    rw [hid] at hmem
    exact absurd hmem (hnew hfresh)
  | clocksOut hsession haction hid huser hlive =>
    obtain ⟨r, hr, hrid, hruser⟩ := hheld.known _ hsession
    rw [← hrid] at hid
    refine hrows.append hlive (hid ▸ hrows.sessionId_ne_none hr) fun r' hr' hid' => ?_
    exact (hrows.user r' hr' r hr (hid'.trans hid)).trans (hruser.trans huser.symm)
  | marks => exact hrows.markCompleted

/-- What is known of the rows and of the sessions that the processes go on with is kept by the steps
of all of them. -/
theorem undisturbed : Undisturbed (@act Id _) Consistent Held (fun _ _ => True) Fresh
    (fun _ _ _ => True) where
  symm _ _ _ := trivial
  shared _ _ _ hrows hheld hfresh := (act_effect hheld.own).consistent hrows hheld hfresh
  own rows phase move hrows hheld _ := by
    have heffect : Effect rows phase move (act rows phase move) := act_effect hheld.own
    refine ⟨fun session hsession => heffect.keeps_known ?_, heffect.own⟩
    rcases heffect.held session hsession with hbefore | hfound
    · exact hheld.known session hbefore
    · exact ⟨session, hfound, rfl, rfl⟩
  other _ _ _ _ _ hheld hother _ _ :=
    ⟨fun session hsession =>
      (act_effect hheld.own).keeps_known (hother.known session hsession), hother.own⟩
  apart _ _ _ _ _ _ _ _ _ := trivial

/-- One step keeps integrity exactly when what it saves, it saves freely. -/
theorem Effect.integrity_iff (h : Effect rows phase move after) (hrows : Consistent rows)
    (hheld : Held rows phase) (hfresh : Fresh rows phase move) (hbefore : Integrity rows) :
    Integrity after.1 ↔ SavesFreely rows phase move := by
  cases h with
  | reads hfree => exact iff_of_true hbefore hfree
  | clocksIn hnew hfree =>
    rw [hfree]
    exact integrity_append_clockIn hbefore rfl (hnew hfresh)
  | clocksOut hsession haction hid _ _ hfree =>
    obtain ⟨r, hr, hrid, _⟩ := hheld.known _ hsession
    rw [← hrid] at hid hfree
    rw [hfree, ← hid]
    exact integrity_append_clockOut hbefore (hid ▸ hrows.sessionId_ne_none hr) haction
      (hid ▸ List.mem_map_of_mem hr)
  | marks hfree => exact iff_of_true ((integrity_markCompleted _ _).mpr hbefore) hfree

omit [DecidableEq Id] in
/-- Where a clock-out of a known session is looked for, any is found. -/
theorem hasClockOut_eq_false_iff (hrows : Consistent rows) (hknown : ∃ r ∈ rows,
    r.sessionId = session.sessionId ∧ r.userId = session.userId) :
    hasClockOut rows session.userId session = false ↔
      recordsOf .clockOut session.sessionId rows = [] := by
  obtain ⟨r, hr, hid, huser⟩ := hknown
  have hsome : session.sessionId ≠ none := hid ▸ hrows.sessionId_ne_none hr
  rw [hasClockOut, List.any_eq_false, recordsOf, List.filter_eq_nil_iff]
  refine forall₂_congr fun r' hr' => not_congr ?_
  simp only [decide_eq_true_eq, hsome, false_or]
  refine ⟨fun h => h.2.2, fun h => ⟨hrows.live r' hr', ?_, h⟩⟩
  exact (hrows.user r' hr' r hr (h.2.trans hid.symm)).trans huser

/-- A clock-out that is saved right after its check is saved freely. -/
theorem clockOut_checked {userId : String} {details : Option JsonValue.Json} {drawn : Drawn Id}
    (hrows : Consistent rows) (hheld : Held rows (.checkingOut userId details session)) :
    SavesFreely rows (act rows (.checkingOut userId details session) (.proceed drawn)).2 move := by
  obtain rfl : session.userId = userId := hheld.own
  have hchecked := hasClockOut_eq_false_iff hrows (hheld.known session (List.mem_singleton_self _))
  simp only [act]
  split_ifs with hfound
  · cases move <;> trivial
  · cases move with
    | proceed drawn => exact hchecked.mp (Bool.eq_false_iff.mpr hfound)
    | _ => trivial

/-- So is a clock-in, where the clock-in that it has looked at is the one that may be open. -/
theorem clockIn_checked {userId : String} {details : Option JsonValue.Json} {drawn : Drawn Id}
    (hrows : Consistent rows) (hheld : Held rows (.checkingIn userId details session))
    (hlatest : ∀ r ∈ openSessions userId rows, r.sessionId = session.sessionId) :
    SavesFreely rows (act rows (.checkingIn userId details session) (.proceed drawn)).2 move := by
  obtain rfl : session.userId = userId := hheld.own
  have hchecked := hasClockOut_eq_false_iff hrows (hheld.known session (List.mem_singleton_self _))
  simp only [act]
  split_ifs with hfound
  · cases move with
    | proceed drawn =>
      -- an open session would be the one that has just been seen to be closed
      refine List.eq_nil_iff_forall_not_mem.mpr fun r hr => ?_
      have hnone : recordsOf .clockOut session.sessionId rows = [] := by
        rw [← hlatest r hr]
        simp only [openSessions, List.mem_filter, decide_eq_true_eq] at hr
        exact hr.2.2.2
      rw [hchecked.mpr hnone] at hfound
      cases hfound
    | _ => trivial
  · cases move <;> trivial

/-- What a request that passes its check now goes on to save, it saves freely, if nothing comes
between: a clock-out in any case, a clock-in where no other session of its user is open than the one
it has looked at. -/
def ChecksFree (rows : List (Attendance Id)) : Phase Id → Prop
  | .checkingIn userId details session =>
    (∀ r ∈ openSessions userId rows, r.sessionId = session.sessionId) → ∀ drawn move,
      SavesFreely rows (act rows (.checkingIn userId details session) (.proceed drawn)).2 move
  | .checkingOut userId details session => ∀ drawn move,
      SavesFreely rows (act rows (.checkingOut userId details session) (.proceed drawn)).2 move
  | _ => True

theorem Held.checksFree (hrows : Consistent rows) (hheld : Held rows phase) :
    ChecksFree rows phase := by
  cases phase with
  | checkingIn userId details session =>
    exact fun hlatest drawn move => clockIn_checked hrows hheld hlatest
  | checkingOut userId details session => exact fun drawn move => clockOut_checked hrows hheld
  | _ => trivial

variable [DecidableEq I]

/-- Along every interleaving of clock-ins, clock-outs and completions, each session has exactly one
clock-in and at most one clock-out and each user at most one open session, exactly when every
clock-in is saved while its user has no open session and every clock-out while its session has none.
The checks of the requests give that for a save that directly follows; later, what a request has
looked at is no longer so, and the job does not look. -/
theorem integrity_run_iff (moves : List (I × Move Id))
    (hfresh : Guarded (step act)
      (fun g move => Fresh g.shared (g.locals move.1) move.2) initial moves) :
    (Always (step act) (fun g => Integrity g.shared) initial moves ↔
      Guarded (step act) (fun g move => SavesFreely g.shared (g.locals move.1) move.2) initial
        moves) ∧
    Always (step act) (fun g => ∀ i, ChecksFree g.shared (g.locals i)) initial moves := by
  have hkept (g : System I Id) (move : I × Move Id) (hg : Holds Consistent Held (fun _ _ => True) g)
      (hnew : Fresh g.shared (g.locals move.1) move.2) :
      Holds Consistent Held (fun _ _ => True) (step act g move) :=
    undisturbed.step hg ⟨hnew, fun _ _ => trivial⟩
  have hchecks (g : System I Id) (hg : Holds Consistent Held (fun _ _ => True) g) (i : I) :
      ChecksFree g.shared (g.locals i) := (hg.own i).checksFree hg.shared
  constructor
  · refine always_iff_guarded_of_guarded (step act) hkept (fun g move hg hnew hbefore => ?_) hfresh
      holds_initial integrity_nil
    exact (act_effect (hg.own move.1).own).integrity_iff hg.shared (hg.own move.1) hnew hbefore
  · exact always_of_guarded (step act) hkept hchecks holds_initial hfresh

/-- A clock-in and, eight hours later, the clock-out. -/
def workday : List (Unit × Move ℕ) :=
  let arrival : Drawn ℕ := ⟨1, "session", 0, 0, by decide⟩
  let departure : Drawn ℕ := ⟨2, "unused", 28800000000, 28800000, by decide⟩
  [((), .clockIn "alice" none 0), ((), .proceed arrival), ((), .clockOut "alice" none 0),
    ((), .proceed departure), ((), .proceed departure)]

theorem integrity_run_iff_workday :
    (Always (step act) (fun g => Integrity g.shared) (initial : System Unit ℕ) workday ↔
      Guarded (step act) (fun g move => SavesFreely g.shared (g.locals move.1) move.2) initial
        workday) ∧
    Always (step act) (fun g => ∀ i, ChecksFree g.shared (g.locals i)) (initial : System Unit ℕ)
      workday :=
  integrity_run_iff workday
    ⟨trivial, show some "session" ∉ [] by decide, trivial, trivial, trivial, trivial⟩

/-- The job, a day after the clock-in, saves another clock-out of the session. -/
def workdayCompleted : List (Unit × Move ℕ) :=
  workday ++ [((), .autoComplete 86400000 12 fun _ => 0),
    ((), .proceed ⟨3, "unused", 86400000000, 86400000, by decide⟩)]

theorem session_completed_twice :
    Guarded (step act) (fun g move => Fresh g.shared (g.locals move.1) move.2)
      (initial : System Unit ℕ) workdayCompleted ∧
    ¬Always (step act) (fun g => Integrity g.shared) (initial : System Unit ℕ)
      workdayCompleted := by
  constructor
  · exact ⟨trivial, show some "session" ∉ [] by decide, trivial, trivial, trivial, trivial, trivial,
      trivial⟩
  · intro h
    have hend := (always_iff_prefixes (step act) _ _ _).mp h workdayCompleted []
      (List.append_nil _).symm
    exact absurd (hend.clockOut "session") (by decide)

end HubAssist.Attendances
