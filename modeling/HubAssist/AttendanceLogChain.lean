import HubAssist.AttendanceLogSteps
import HubAssist.HashChain
import HubAssist.ManageHubPrivilege

/-! The hash chain over the logs of a user: where its check starts from, and what of the logs it
protects. -/
namespace HubAssist.ManageHub.Attendance
open SorobanHost CheckedArith RunSystem HashChain

variable {Address : Type} [DecidableEq Address] {C : Chain Address} {K : Crypto Address}
variable {env : Env C} {w : ManageWorld C K} {user : Address}

/-- The digest that a log makes of the one before it, in the chain of `user`. -/
def link (K : Crypto Address) (user : Address) (prevHash : K.Digest)
    (log : AttendanceLog Address K.Digest) : K.Digest :=
  chainHash K log.timestamp user prevHash

/-- The chain of `user`, from its beginning. -/
abbrev Chained (K : Crypto Address) (user : Address)
    (logs : List (AttendanceLog Address K.Digest)) : Prop :=
  Linked AttendanceLog.prevHash (link K user) K.zeroBytes logs

abbrev chainDigest (K : Crypto Address) (user : Address)
    (logs : List (AttendanceLog Address K.Digest)) : K.Digest :=
  digest (link K user) K.zeroBytes logs

section
omit [DecidableEq Address]

theorem verifyLogs_eq_true {prevHash : K.Digest} {logs : List (AttendanceLog Address K.Digest)} :
    verifyLogs K user prevHash logs = true ↔
      Linked AttendanceLog.prevHash (link K user) prevHash logs := by
  induction logs generalizing prevHash with
  | nil => simp [verifyLogs, Linked]
  | cons log logs ih =>
    rw [verifyLogs, Linked, ← ih]
    split_ifs with hne
    · exact iff_of_false (by decide) fun h => hne h.1
    · exact (and_iff_right (not_not.mp hne)).symm

theorem verifyFrom_zero {logs : List (AttendanceLog Address K.Digest)} :
    verifyFrom K user logs 0 = true ↔ Chained K user logs := by
  cases logs with
  | nil => simp [verifyFrom, Linked]
  | cons log logs =>
    rw [Chained, ← verifyLogs_eq_true]
    simp [verifyFrom]

/-- A log that makes the very hash that it carries. -/
def MakesOwnPrev (K : Crypto Address) (user : Address) (log : AttendanceLog Address K.Digest) :
    Prop := chainHash K log.timestamp user log.prevHash = log.prevHash

/-- A chain is verified from its beginning. From a later index it is verified only where the log
before that index makes the hash that it carries. -/
theorem verifyFrom_iff {logs : List (AttendanceLog Address K.Digest)} (h : Chained K user logs)
    {i : ℕ} (hi : i < logs.length) : verifyFrom K user logs i = true ↔
      i = 0 ∨ ∃ log, logs[i-1]? = some log ∧ MakesOwnPrev K user log := by
  cases i with
  | zero => exact iff_of_true (verifyFrom_zero.mpr h) (Or.inl rfl)
  | succ j =>
    have hj : j < logs.length := by omega
    have hsplit : logs = logs.take j ++ logs[j] :: logs[j+1] :: logs.drop (j+2) := by
      rw [← List.drop_eq_getElem_cons, ← List.drop_eq_getElem_cons, List.take_append_drop]
    have hrun : verifyFrom K user logs (j+1) =
        verifyLogs K user logs[j].prevHash (logs[j+1] :: logs.drop (j+2)) := by
      have hne : logs.isEmpty = false := by
        rw [List.isEmpty_eq_false_iff]
        exact List.ne_nil_of_length_pos (by omega)
      rw [← List.drop_eq_getElem_cons]
      simp [verifyFrom, hne, hi]
    rw [hsplit] at h
    rw [hrun, verifyLogs_eq_true, h.restart_early]
    simp [link, MakesOwnPrev, List.getElem?_eq_getElem hj]

end

/-- The id under which an action asks to log. -/
def logged : Action C (Call Address) → Option BytesN32
  | .invoke _ call => call.entry.map Entry.id
  | .tick _ | .external _ _ => none

abbrev loggedIds (as : List (Action C (Call Address))) : List BytesN32 := as.filterMap logged

/-- The records that a step writes of `user`. -/
def written (user : Address) (w : ManageWorld C K) :
    Action C (Call Address) → List (AttendanceLog Address K.Digest)
  | .invoke env call =>
    match exec env call w with
    | .ok _ => ((call.entry.filter fun e => e.userId = user).map (newLog w)).toList
    | .error _ => []
  | .tick _ | .external _ _ => []

/-- The storage holds the `past` of every user in a chain, under ids among `ids`. -/
structure Recorded (s : Storage Address K.Digest) (ids : List BytesN32)
    (past : Address → List (AttendanceLog Address K.Digest)) : Prop where
  listed : ∀ user, ∀ id ∈ userLogs s user, id ∈ ids
  logs : ∀ user, getUserAttendance s user = past user
  chained : ∀ user, Chained K user (past user)
  latest : ∀ user, (s.latestHash user).getD K.zeroBytes = chainDigest K user (past user)

variable {ids : List BytesN32} {past : Address → List (AttendanceLog Address K.Digest)}

/-- A log under an id that is new lengthens the chain of its user, and no other. -/
theorem Recorded.append (h : Recorded w.store ids past) (e : Entry Address) (he : e.id ∉ ids) :
    Recorded (append w (newLog w e)).store (ids ++ [e.id]) fun user =>
      past user ++ if user = e.userId then [newLog w e] else [] := by
  have hprev : (newLog w e).prevHash = chainDigest K e.userId (past e.userId) :=
    h.latest e.userId
  refine ⟨fun user id hid => ?_, fun user => ?_, fun user => ?_, fun user => ?_⟩
  · by_cases huser : user = e.userId
    · subst huser
      rw [userLogs_newLog] at hid
      rcases List.mem_append.mp hid with hold | hnew
      · exact List.mem_append_left _ (h.listed e.userId id hold)
      · exact List.mem_append_right _ hnew
    · rw [userLogs_append_of_ne w (newLog w e) huser] at hid
      exact List.mem_append_left _ (h.listed user id hid)
  · have hfresh : (newLog w e).id ∉ userLogs w.store user := fun hid => he (h.listed user _ hid)
    rw [getUserAttendance_append w (newLog w e) fun hid => absurd hid hfresh, h.logs user]
    rfl
  · split_ifs with huser
    · subst huser
      exact (linked_concat ..).mpr ⟨h.chained e.userId, hprev⟩
    · rw [List.append_nil]
      exact h.chained user
  · split_ifs with huser
    · subst huser
      have hlatest : (Attendance.append w (newLog w e)).store.latestHash e.userId =
          some (link K e.userId (newLog w e).prevHash (newLog w e)) := Function.update_self ..
      calc ((Attendance.append w (newLog w e)).store.latestHash e.userId).getD K.zeroBytes
          = link K e.userId (newLog w e).prevHash (newLog w e) := by rw [hlatest, Option.getD_some]
        _ = link K e.userId (chainDigest K e.userId (past e.userId)) (newLog w e) := by
          rw [hprev]
        _ = chainDigest K e.userId (past e.userId ++ [newLog w e]) := (digest_concat ..).symm
    · have hlatest : (Attendance.append w (newLog w e)).store.latestHash user =
          w.store.latestHash user := Function.update_of_ne huser ..
      rw [hlatest, List.append_nil]
      exact h.latest user

theorem Recorded.mono (h : Recorded w.store ids past) {more : List BytesN32} :
    Recorded w.store (ids ++ more) past :=
  ⟨fun user id hid => List.mem_append_left _ (h.listed user id hid), h.logs, h.chained, h.latest⟩

theorem Recorded.cache (h : Recorded w.store ids past) (key : Address × ℕ × ℤ)
    (result : AggregatePeakHourData) : Recorded (cache w key result).store ids past :=
  ⟨h.listed, h.logs, h.chained, h.latest⟩

/-- What `user` has logged along a run. -/
abbrev history (w : ManageWorld C K) (as : List (Action C (Call Address))) (user : Address) :
    List (AttendanceLog Address K.Digest) := trace (step exec) (written user) w as

theorem written_of_error {call : Call Address} {fault : Fault ModuleError}
    (h : exec env call w = .error fault) : written user w (.invoke env call) = [] := by
  simp [written, h]

theorem written_of_entry {call : Call Address} {w' : ManageWorld C K} {e : Entry Address}
    (h : exec env call w = .ok w') (he : call.entry = some e) :
    written user w (.invoke env call) = if user = e.userId then [newLog w e] else [] := by
  rw [written, h, he]
  by_cases huser : e.userId = user
  · simp [huser]
  · simp [huser, Ne.symm huser]

theorem written_of_read {call : Call Address} (he : call.entry = none) :
    written user w (.invoke env call) = [] := by
  cases h : exec env call w <;> simp [written, h, he]

theorem Recorded.step (h : Recorded w.store ids past) (a : Action C (Call Address))
    (ha : ∀ id, logged a = some id → id ∉ ids) :
    Recorded (SorobanHost.step exec w a).store (ids ++ (logged a).toList) fun user =>
      past user ++ written user w a := by
  -- a step that writes no log
  have hkeep (hstore : (SorobanHost.step exec w a).store = w.store)
      (hnone : ∀ user, written user w a = []) :
      Recorded (SorobanHost.step exec w a).store (ids ++ (logged a).toList) fun user =>
        past user ++ written user w a := by
    rw [hstore]
    simp only [hnone, List.append_nil]
    exact h.mono
  cases a with
  | tick d => exact hkeep rfl fun _ => rfl
  | external token next => exact hkeep step_external_store fun _ => rfl
  | invoke env call =>
    cases hok : exec env call w with
    | error fault =>
      refine hkeep ?_ fun user => written_of_error hok
      rw [step_invoke_error hok]
    | ok w' =>
      cases exec_effect hok with
      | logs _ e he hlog =>
        have hlogged : logged (.invoke env call : Action C (Call Address)) = some e.id :=
          congrArg (Option.map Entry.id) he
        rw [step_invoke_ok hok, hlogged]
        simp only [written_of_entry hok he]
        exact h.append e (ha e.id hlogged)
      | hits user daysWindow offsetHours cached _ _ =>
        refine hkeep ?_ fun user => written_of_read rfl
        rw [step_invoke_ok hok]
      | computes user daysWindow offsetHours result _ _ _ =>
        -- only the cache is written
        have hnone (other : Address) : written other w
            (.invoke env (.aggregatePeakHours user daysWindow offsetHours)) = [] :=
          written_of_read rfl
        rw [step_invoke_ok hok]
        simp only [hnone, List.append_nil]
        exact (h.cache (user, daysWindow, offsetHours) result).mono

/-- As long as no id is used twice, the storage holds what has been logged. -/
theorem recorded_run {w : ManageWorld C K} (hw : Recorded w.store [] fun _ => [])
    (as : List (Action C (Call Address))) (hids : (loggedIds as).Nodup) :
    Recorded (run exec w as).store (loggedIds as) (history w as) := by
  induction as using List.reverseRecOn with
  | nil => exact hw
  | append_singleton as a ih =>
    have hsplit : loggedIds (as ++ [a]) = loggedIds as ++ (logged a).toList := by
      rw [loggedIds, List.filterMap_append]
      cases h : logged a <;> simp [h]
    have hhistory : history w (as ++ [a]) = fun user =>
        history w as user ++ written user (run exec w as) a :=
      funext fun user => trace_concat (step exec) (written user) w as a
    rw [hsplit] at hids
    obtain ⟨hold, _, hnew⟩ := List.nodup_append.mp hids
    -- the id of the last step is none of those before it
    have hfresh : ∀ id, logged a = some id → id ∉ loggedIds as :=
      fun id hid hmem => hnew id hmem id (by simp [hid]) rfl
    rw [hsplit, hhistory, SorobanHost.run, run_concat]
    exact (ih hold).step a hfresh

/-- On a history without a repeated id, the logs of a user are what the user has logged, and their
chain is verified from its beginning. It is verified from a later index exactly where the log before
that index makes the hash that it carries. -/
theorem verifyChain_honest_iff (wasm : BytesN32) (tokens : Address → C.token.State) (now : ℕ)
    (user : Address) (as : List (Action C (Call Address))) (hids : (loggedIds as).Nodup) :
    let start : ManageWorld C K := deployed wasm tokens now
    let logs := history start as user
    getUserAttendance (run exec start as).store user = logs ∧ ∀ i < logs.length,
      (verifyChain K (run exec start as).store user i = true ↔
        i = 0 ∨ ∃ log, logs[i-1]? = some log ∧ MakesOwnPrev K user log) := by
  intro start logs
  have hstart : Recorded start.store [] fun _ => [] :=
    ⟨fun _ _ hid => absurd hid List.not_mem_nil, fun _ => rfl, fun _ => trivial, fun _ => rfl⟩
  have hrun := recorded_run hstart as hids
  refine ⟨hrun.logs user, fun i hi => ?_⟩
  rw [verifyChain, hrun.logs user]
  exact verifyFrom_iff (hrun.chained user) hi

/-- Account 1 comes and goes, under two ids. -/
def oneSession : List (Action numberedChain (Call ℕ)) :=
  [.invoke (signedBy 0) (.logAttendance 11 1 .clockIn []), .tick 60,
    .invoke (signedBy 0) (.logAttendance 12 1 .clockOut [])]

theorem verifyChain_oneSession : (loggedIds oneSession).Nodup ∧
    verifyChain plainCrypto (run exec (deployed 0 (fun _ _ => (50 : ℕ)) 1000 :
      ManageWorld numberedChain plainCrypto) oneSession).store 1 0 = true := by
  have hids : (loggedIds oneSession).Nodup := by decide
  have hverified := (verifyChain_honest_iff (K := plainCrypto) (0 : BytesN32)
    (fun _ _ => (50 : ℕ)) 1000 1 oneSession hids).2
  exact ⟨hids, (hverified 0 (by decide)).mpr (Or.inl rfl)⟩

/-- The second of the two logs is not verified on its own. -/
theorem verifyChain_oneSession_late : (loggedIds oneSession).Nodup ∧
    ¬∀ i < (history (deployed 0 (fun _ _ => (50 : ℕ)) 1000 :
      ManageWorld numberedChain plainCrypto) oneSession 1).length,
      verifyChain plainCrypto (run exec (deployed 0 (fun _ _ => (50 : ℕ)) 1000 :
        ManageWorld numberedChain plainCrypto) oneSession).store 1 i = true := by
  refine ⟨by decide, fun h => ?_⟩
  exact absurd (h 1 (by decide)) (by decide)

section
omit [DecidableEq Address]

/-- The hash tells times and hashes before apart. The address is the same in the whole chain. -/
theorem chainHash_inj (hsha : Function.Injective K.sha256) (hbytes : Function.Injective K.toBytes)
    {timestamp timestamp' : ℕ} {prevHash prevHash' : K.Digest} (ht : timestamp < u64Bound)
    (ht' : timestamp' < u64Bound)
    (h : chainHash K timestamp user prevHash = chainHash K timestamp' user prevHash') :
    prevHash = prevHash' ∧ timestamp = timestamp' := by
  have hinput := hsha h
  have hlength : (toLeBytes 8 timestamp ++ K.addressToXdr user).length =
      (toLeBytes 8 timestamp' ++ K.addressToXdr user).length := by simp [toLeBytes]
  obtain ⟨hhead, hlast⟩ := List.append_inj hinput hlength
  have htime := List.append_cancel_right hhead
  exact ⟨hbytes hlast, toLeBytes_inj ht ht' htime⟩

/-- What of a log has no part in the hash of its chain. -/
def unhashed {Digest : Type} (log : AttendanceLog Address Digest) :
    BytesN32 × Address × AttendanceAction × List String :=
  (log.id, log.userId, log.action, log.details)

theorem log_eq_of_parts {Digest : Type} {log log' : AttendanceLog Address Digest}
    (hseen : (log.prevHash, log.timestamp) = (log'.prevHash, log'.timestamp))
    (hrest : unhashed log = unhashed log') : log = log' := by
  cases log
  cases log'
  simp_all [unhashed]

/-- Two verified lists of logs with one latest hash are the same exactly when they agree in all that
is not hashed. -/
theorem verified_eq_iff (hsha : Function.Injective K.sha256)
    (hbytes : Function.Injective K.toBytes) (user : Address)
    {logs logs' : List (AttendanceLog Address K.Digest)}
    (htime : ∀ log ∈ logs, log.timestamp < u64Bound)
    (htime' : ∀ log ∈ logs', log.timestamp < u64Bound)
    (hverified : verifyFrom K user logs 0 = true) (hverified' : verifyFrom K user logs' 0 = true)
    (hlatest : chainDigest K user logs = chainDigest K user logs') :
    logs = logs' ↔ logs.map unhashed = logs'.map unhashed := by
  constructor
  · rintro rfl
    rfl
  · intro hrest
    have hlength : logs.length = logs'.length := by simpa using congrArg List.length hrest
    have hlink (d d' : K.Digest) (log log' : AttendanceLog Address K.Digest)
        (ht : log.timestamp < u64Bound) (ht' : log'.timestamp < u64Bound)
        (h : link K user d log = link K user d' log') :
        d = d' ∧ log.timestamp = log'.timestamp := chainHash_inj hsha hbytes ht ht' h
    have hseen := seen_eq_of_digest_eq hlink (verifyFrom_zero.mp hverified)
      (verifyFrom_zero.mp hverified') htime htime' hlength hlatest
    apply List.ext_getElem hlength
    intro i hi hi'
    have hseen_i := congrArg (fun parts => parts[i]?) hseen
    have hrest_i := congrArg (fun parts => parts[i]?) hrest
    simp only [List.getElem?_map, List.getElem?_eq_getElem hi, List.getElem?_eq_getElem hi',
      Option.map_some, Option.some.injEq] at hseen_i hrest_i
    exact log_eq_of_parts hseen_i hrest_i

end

/-- The one log of an account that has come at 1000. -/
def soleLog (id : BytesN32) (action : AttendanceAction) : AttendanceLog ℕ (List UInt8) :=
  ⟨id, 1, action, 1000, [], plainCrypto.zeroBytes⟩

theorem verified_eq_soleLog : [soleLog 11 .clockIn] = [soleLog 11 .clockOut] ↔
    [soleLog 11 .clockIn].map unhashed = [soleLog 11 .clockOut].map unhashed := by
  have htime (action : AttendanceAction) :
      ∀ log ∈ [soleLog 11 action], log.timestamp < u64Bound := by
    intro log hlog
    rw [List.mem_singleton.mp hlog]
    exact (by decide : 1000 < u64Bound)
  exact verified_eq_iff (K := plainCrypto) Function.injective_id Function.injective_id 1
    (htime .clockIn) (htime .clockOut) (by decide) (by decide) rfl

/-- A clock-in that is altered to a clock-out is verified as well, with the same latest hash. -/
theorem verified_action_altered : ¬∀ logs logs' : List (AttendanceLog ℕ plainCrypto.Digest),
    verifyFrom plainCrypto 1 logs 0 = true → verifyFrom plainCrypto 1 logs' 0 = true →
      chainDigest plainCrypto 1 logs = chainDigest plainCrypto 1 logs' → logs = logs' := by
  intro h
  have hsame := h [soleLog 11 .clockIn] [soleLog 11 .clockOut] (by decide) (by decide) rfl
  exact absurd hsame (by decide)

end HubAssist.ManageHub.Attendance
