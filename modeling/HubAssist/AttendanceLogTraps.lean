import HubAssist.AttendanceLogPairs

/-! The summary of a user's logs over whole runs: it subtracts without a check, which is safe as
long as the list of each user stays chronological. -/
namespace HubAssist.ManageHub.Attendance
open SorobanHost RunSystem CheckedArith

variable {Address : Type} [DecidableEq Address] {C : Chain Address} {K : Crypto Address}
variable {w : ManageWorld C K} {e : Entry Address}

/-- No summary that can be asked for underflows or overflows, and in each of its pairs the clock-out
is not before the clock-in. The time is a `u64`, and the list of a user is no longer than a `u32`
counts. -/
def NeverTraps (w : ManageWorld C K) : Prop :=
  ∀ user dateRange, w.now < u64Bound → (userLogs w.store user).length < u32Bound →
    (getAttendanceSummary w.store user dateRange).isSome = true ∧
      ∀ p ∈ adjacentPairs (inDateRange dateRange (getUserAttendance w.store user)),
        p.1.timestamp ≤ p.2.timestamp

/-- The lists of all users are chronological. -/
def InOrder (w : ManageWorld C K) : Prop :=
  ∀ user, Chronological (getUserAttendance w.store user)

/-- No stored log is from a time to come. -/
def Past (w : ManageWorld C K) : Prop :=
  ∀ id log, w.store.attendanceLog id = some log → log.timestamp ≤ w.now

/-- Where `id` is listed already, what is listed after it is `id` again, or is logged no earlier
than now. -/
def LastListed (w : ManageWorld C K) (id : BytesN32) : Prop :=
  ∀ user, (userLogs w.store user).Pairwise fun earlier later => earlier = id →
    later = id ∨ ∀ log, w.store.attendanceLog later = some log → w.now ≤ log.timestamp

/-- An accepted log takes no id that has earlier logs listed after it. -/
def Undisturbed (w : ManageWorld C K) : Action C (Call Address) → Prop
  | .invoke env call => ∀ e, call.entry = some e → Loggable env call → LastListed w e.id
  | .tick _ | .external _ _ => True

theorem lastListed_of_fresh {id : BytesN32} (h : ∀ user, id ∉ userLogs w.store user) :
    LastListed w id := by
  intro user
  refine List.Pairwise.imp_of_mem ?_ (List.pairwise_of_forall (R := fun _ _ => True) (by simp))
  rintro earlier later hearlier _ _ rfl
  exact absurd hearlier (h user)

omit [DecidableEq Address] in
theorem chronological_iff {Digest : Type} {s : Storage Address Digest} {user : Address} :
    Chronological (getUserAttendance s user) ↔ (userLogs s user).Pairwise fun earlier later =>
      ∀ a, s.attendanceLog earlier = some a → ∀ b, s.attendanceLog later = some b →
        a.timestamp ≤ b.timestamp := List.pairwise_filterMap

omit [DecidableEq Address] in
/-- In chronological logs no pair ends before it begins. -/
theorem le_of_mem_adjacentPairs {Digest : Type} {logs : List (AttendanceLog Address Digest)}
    (h : Chronological logs) :
    ∀ p ∈ adjacentPairs logs, p.1.timestamp ≤ p.2.timestamp := by
  induction logs using pairs_induction with
  | nil => simp [adjacentPairs_nil]
  | single log => simp [adjacentPairs_singleton]
  | pair log next logs hlog hnext ih =>
    obtain ⟨hfirst, hrest⟩ := List.pairwise_cons.mp h
    rw [adjacentPairs_pair hlog hnext, List.forall_mem_cons]
    exact ⟨hfirst next List.mem_cons_self, ih (List.pairwise_cons.mp hrest).2⟩
  | skip log next logs hskip ih =>
    rw [adjacentPairs_skip hskip]
    exact ih (List.pairwise_cons.mp h).2

theorem neverTraps_of_inOrder (hpast : Past w) (horder : InOrder w) : NeverTraps w := by
  intro user dateRange hnow hlength
  have hsized : Sized (getUserAttendance w.store user) := by
    refine ⟨fun log hlog => ?_, (List.length_filterMap_le ..).trans_lt hlength⟩
    obtain ⟨id, _, hstored⟩ := List.mem_filterMap.mp hlog
    exact (hpast id log hstored).trans_lt hnow
  have hsub : (inDateRange dateRange (getUserAttendance w.store user)).Sublist
      (getUserAttendance w.store user) := List.filter_sublist
  have hchron : Chronological (inDateRange dateRange (getUserAttendance w.store user)) :=
    (horder user).sublist hsub
  rw [getAttendanceSummary, summarizeLogs_eq user hchron (hsized.sublist hsub)]
  exact ⟨rfl, le_of_mem_adjacentPairs hchron⟩

theorem Past.append (h : Past w) (e : Entry Address) : Past (append w (newLog w e)) := by
  intro id log hstored
  rcases StorageMap.update_cases hstored with ⟨_, hnew⟩ | ⟨_, hold⟩
  · obtain rfl := Option.some.inj hnew
    exact le_refl w.now
  · exact h id log hold

theorem Past.step (h : Past w) (a : Action C (Call Address)) : Past (step exec w a) := by
  cases step_logs w a with
  | appends env call e _ _ _ hw' =>
    rw [hw']
    exact h.append e
  | keeps hlogs _ hnow =>
    intro id log hstored
    rw [hlogs] at hstored
    exact (h id log hstored).trans hnow

section
variable (w e)

theorem attendanceLog_newLog :
    (append w (newLog w e)).store.attendanceLog e.id = some (newLog w e) :=
  Function.update_self ..

variable {w e}

theorem attendanceLog_append_of_ne {id : BytesN32} (hne : id ≠ e.id) :
    (append w (newLog w e)).store.attendanceLog id = w.store.attendanceLog id :=
  Function.update_of_ne hne ..

/-- The log of now is the latest of all. -/
theorem le_newLog (hpast : Past w) {id : BytesN32} {a b : AttendanceLog Address K.Digest}
    (ha : (append w (newLog w e)).store.attendanceLog id = some a)
    (hb : (append w (newLog w e)).store.attendanceLog e.id = some b) :
    a.timestamp ≤ b.timestamp := by
  obtain rfl := Option.some.inj ((attendanceLog_newLog w e).symm.trans hb)
  exact hpast.append e id a ha

end

/-- After a log the lists are chronological exactly when the id of the log had no earlier log listed
after it. -/
theorem inOrder_append_iff (hpast : Past w) (horder : InOrder w) :
    InOrder (append w (newLog w e)) ↔ LastListed w e.id := by
  constructor
  · intro hafter user
    -- what was listed is still listed, in the same order
    have hprefix : (userLogs w.store user).Sublist
        (userLogs (append w (newLog w e)).store user) := by
      by_cases huser : user = e.userId
      · subst huser
        rw [userLogs_newLog]
        exact List.sublist_append_left ..
      · rw [userLogs_append_of_ne w (newLog w e) huser]
    refine ((chronological_iff.mp (hafter user)).sublist hprefix).imp ?_
    rintro earlier later hle rfl
    refine or_iff_not_imp_left.mpr fun hne log hstored => ?_
    exact hle _ (attendanceLog_newLog w e) log ((attendanceLog_append_of_ne hne).trans hstored)
  · intro hlast user
    rw [chronological_iff]
    have hkept : (userLogs w.store user).Pairwise fun earlier later =>
        ∀ a, (append w (newLog w e)).store.attendanceLog earlier = some a →
        ∀ b, (append w (newLog w e)).store.attendanceLog later = some b →
          a.timestamp ≤ b.timestamp := by
      refine ((chronological_iff.mp (horder user)).and (hlast user)).imp ?_
      rintro earlier later ⟨hle, hid⟩ a ha b hb
      by_cases hlater : later = e.id
      · -- whatever is listed before the id of the log is no later than now
        subst hlater
        exact le_newLog hpast ha hb
      · rw [attendanceLog_append_of_ne hlater] at hb
        by_cases hearlier : earlier = e.id
        · -- the record under the id is from now: what follows it must not be from before
          subst hearlier
          obtain rfl := Option.some.inj ((attendanceLog_newLog w e).symm.trans ha)
          exact (hid rfl).resolve_left hlater b hb
        · rw [attendanceLog_append_of_ne hearlier] at ha
          exact hle a ha b hb
    by_cases huser : user = e.userId
    · subst huser
      rw [userLogs_newLog, List.pairwise_append]
      refine ⟨hkept, List.pairwise_singleton .., fun earlier _ later hlater a ha b hb => ?_⟩
      obtain rfl := List.mem_singleton.mp hlater
      exact le_newLog hpast ha hb
    · rw [userLogs_append_of_ne w (newLog w e) huser]
      exact hkept

theorem inOrder_step_iff (hpast : Past w) (horder : InOrder w) (a : Action C (Call Address)) :
    InOrder (step exec w a) ↔ Undisturbed w a := by
  cases step_logs w a with
  | appends env call e ha he hlog hw' =>
    subst ha
    rw [hw', inOrder_append_iff hpast horder]
    constructor
    · intro hlast e' he' _
      obtain rfl := Option.some.inj (he.symm.trans he')
      exact hlast
    · intro h
      exact h e he hlog
  | keeps hlogs hlists _ hrefused =>
    refine iff_of_true (fun user => ?_) ?_
    · rw [getUserAttendance, hlogs, hlists]
      exact horder user
    · cases a with
      | invoke env call => exact fun e he hlog => absurd hlog (hrefused env call e rfl he)
      | tick d => trivial
      | external token next => trivial

/-- In a run of the deployed contract the lists of all users stay chronological exactly when no
accepted log takes an id that has earlier logs listed after it, and then no summary ever traps. -/
theorem neverTraps_of_undisturbed (wasm : BytesN32) (tokens : Address → C.token.State) (now : ℕ)
    (as : List (Action C (Call Address))) :
    let start : ManageWorld C K := deployed wasm tokens now
    (Guarded (step exec) Undisturbed start as ↔ Always (step exec) InOrder start as) ∧
      (Guarded (step exec) Undisturbed start as → Always (step exec) NeverTraps start as) := by
  intro start
  have hpast : Past start := fun id log hstored => by cases hstored
  have horder : InOrder start := fun user => List.Pairwise.nil
  constructor
  · exact (always_iff_guarded (J := Past) (I := InOrder) (P := Undisturbed) (step exec)
      (fun v a h => h.step a) (fun v a hp ho => inOrder_step_iff hp ho a) hpast horder).symm
  · exact always_of_guarded (J := fun v => Past v ∧ InOrder v) (step exec)
      (fun v a hv ha => ⟨hv.1.step a, (inOrder_step_iff hv.1 hv.2 a).mpr ha⟩)
      (fun v hv => neverTraps_of_inOrder hv.1 hv.2) ⟨hpast, horder⟩

/-- Account 1 comes and goes, each time under an id that no list has. -/
theorem neverTraps_of_undisturbed_session : Always (step exec) NeverTraps
    (deployed 0 (fun _ _ => (50 : ℕ)) 1000 : ManageWorld numberedChain plainCrypto)
    [.invoke (signedBy 0) (.logAttendance 53 1 .clockIn []), .tick 60,
      .invoke (signedBy 0) (.logAttendance 54 1 .clockOut [])] := by
  let start : ManageWorld numberedChain plainCrypto := deployed 0 (fun _ _ => (50 : ℕ)) 1000
  refine (neverTraps_of_undisturbed (C := numberedChain) (0 : BytesN32) (fun _ _ => (50 : ℕ))
    1000 _).2 ⟨?_, trivial, ?_, trivial⟩
  · intro e he _
    obtain rfl := Option.some.inj he
    exact lastListed_of_fresh fun user => List.not_mem_nil
  · intro e he _
    obtain rfl := Option.some.inj he
    refine lastListed_of_fresh fun user hmem => ?_
    by_cases huser : user = 1
    · subst huser
      exact absurd hmem (by decide)
    · have hlist := userLogs_append_of_ne start (newLog start ⟨53, 1, .clockIn, []⟩) huser
      have hempty : (54 : BytesN32) ∈ userLogs start.store user := hlist ▸ hmem
      exact absurd hempty List.not_mem_nil

/-- Account 1 comes, goes, and comes again under the id of the first time. -/
theorem reusedId_traps : ¬Always (step exec) NeverTraps
    (deployed 0 (fun _ _ => (50 : ℕ)) 1000 : ManageWorld numberedChain plainCrypto)
    [.invoke (signedBy 0) (.logAttendance 51 1 .clockIn []), .tick 60,
      .invoke (signedBy 0) (.logAttendance 52 1 .clockOut []), .tick 60,
      .invoke (signedBy 0) (.logAttendance 51 1 .clockIn [])] := by
  intro h
  have hlast := (always_iff_prefixes (step exec) NeverTraps _ _).mp h _ [] (by simp; rfl)
  have hsome := (hlast 1 ⟨0, 2000⟩ (by decide) (by decide)).1
  exact absurd hsome (by decide)

end HubAssist.ManageHub.Attendance
