import HubAssist.ManageHubAttendance

/-! What an accepted call of the attendance_log module requires and does. -/
namespace HubAssist.ManageHub.Attendance
open SorobanHost CheckedArith

variable {Address : Type} [DecidableEq Address] {C : Chain Address} {K : Crypto Address}
variable {env : Env C} {w w' : ManageWorld C K}

/-- What a call asks to log. -/
structure Entry (Address : Type) where
  id : BytesN32
  userId : Address
  action : AttendanceAction
  details : List String
  deriving DecidableEq

def Call.entry : Call Address → Option (Entry Address)
  | .logAttendance id userId action details
  | .logAttendanceInternal id userId action details => some ⟨id, userId, action, details⟩
  | .aggregatePeakHours _ _ _ => none

/-- What a call that logs is accepted on. Only one of the two asks for the user's signature. -/
def Loggable (env : Env C) : Call Address → Prop
  | .logAttendance _ userId _ details =>
    userId ∈ env.signers ∧ details.length ≤ maxDetailsEntries
  | .logAttendanceInternal _ _ _ details => details.length ≤ maxDetailsEntries
  | .aggregatePeakHours _ _ _ => False

/-- The record of an entry that is logged now. -/
def newLog (w : ManageWorld C K) (e : Entry Address) : AttendanceLog Address K.Digest :=
  ⟨e.id, e.userId, e.action, w.now, e.details, (w.store.latestHash e.userId).getD K.zeroBytes⟩

def userLogs {Digest : Type} (s : Storage Address Digest) (user : Address) : List BytesN32 :=
  (s.attendanceLogsByUser user).getD []

/-- The world after `log` has been written. -/
def append (w : ManageWorld C K) (log : AttendanceLog Address K.Digest) : ManageWorld C K :=
  w.setStore { w.store with
    attendanceLog := Function.update w.store.attendanceLog log.id (some log)
    attendanceLogsByUser := Function.update w.store.attendanceLogsByUser log.userId
      (some (userLogs w.store log.userId ++ [log.id]))
    latestHash := Function.update w.store.latestHash log.userId
      (some (chainHash K log.timestamp log.userId log.prevHash))
    peakHoursCache := invalidate w.store.peakHoursCache log.userId }

/-- The world after a result has been put into the cache. -/
def cache (w : ManageWorld C K) (key : Address × ℕ × ℤ) (result : AggregatePeakHourData) :
    ManageWorld C K :=
  w.setStore { w.store with
    peakHoursCache := Function.update w.store.peakHoursCache key (some result) }

theorem log_eq_ok {call : Call Address} {e : Entry Address} (he : call.entry = some e) :
    exec env call w = .ok w' ↔ Loggable env call ∧ append w (newLog w e) = w' := by
  cases call with
  | logAttendance id userId action details =>
    obtain rfl := Option.some.inj he
    simp only [exec, logAttendance, logAttendanceInternal, map_eq_ok, bind_eq_ok,
      requireAuth_eq_ok, failIf_eq_ok, pure_eq_ok, exists_const, not_lt, Loggable]
    constructor
    · rintro ⟨_, ⟨hs, hfits, rfl⟩, rfl⟩
      exact ⟨⟨hs, hfits⟩, rfl⟩
    · rintro ⟨⟨hs, hfits⟩, rfl⟩
      exact ⟨_, ⟨hs, hfits, rfl⟩, rfl⟩
  | logAttendanceInternal id userId action details =>
    obtain rfl := Option.some.inj he
    simp only [exec, logAttendanceInternal, map_eq_ok, bind_eq_ok, failIf_eq_ok, pure_eq_ok,
      exists_const, not_lt, Loggable]
    constructor
    · rintro ⟨_, ⟨hfits, rfl⟩, rfl⟩
      exact ⟨hfits, rfl⟩
    · rintro ⟨hfits, rfl⟩
      exact ⟨_, ⟨hfits, rfl⟩, rfl⟩
  | aggregatePeakHours user daysWindow offsetHours => exact absurd he (by simp [Call.entry])

/-- The windows and offsets that are aggregated over. -/
def InRange (daysWindow : ℕ) (offsetHours : ℤ) : Prop :=
  (0 < daysWindow ∧ daysWindow ≤ maxWindowDays) ∧ -23 ≤ offsetHours ∧ offsetHours ≤ 23

theorem aggregatePeakHours_eq_ok {user : Address} {daysWindow : ℕ} {offsetHours : ℤ}
    {result : AggregatePeakHourData} :
    aggregatePeakHours user daysWindow offsetHours w = .ok (result, w') ↔
      InRange daysWindow offsetHours ∧
        (w.store.peakHoursCache (user, daysWindow, offsetHours) = some result ∧ w = w' ∨
          w.store.peakHoursCache (user, daysWindow, offsetHours) = none ∧
            computePeakHours w.store w.now user daysWindow offsetHours = some result ∧
              cache w (user, daysWindow, offsetHours) result = w') := by
  simp only [aggregatePeakHours, bind_eq_ok, failIf_eq_ok, not_not, exists_const, InRange,
    and_assoc]
  refine and_congr_right fun _ => and_congr_right fun _ => and_congr_right fun _ =>
    and_congr_right fun _ => ?_
  cases hcache : w.store.peakHoursCache (user, daysWindow, offsetHours) with
  | some cached => simp [pure_eq_ok]
  | none =>
    simp only [bind_eq_ok, checked_eq_ok, pure_eq_ok, Prod.mk.injEq, reduceCtorEq, false_and,
      false_or, true_and]
    constructor
    · rintro ⟨_, hresult, rfl, rfl⟩
      exact ⟨hresult, rfl⟩
    · rintro ⟨hresult, rfl⟩
      exact ⟨_, hresult, rfl, rfl⟩

/-- What an accepted call does. -/
inductive Effect (env : Env C) (w : ManageWorld C K) : Call Address → ManageWorld C K → Prop where
  | logs (call : Call Address) (e : Entry Address) (he : call.entry = some e)
      (hlog : Loggable env call) : Effect env w call (append w (newLog w e))
  | hits (user : Address) (daysWindow : ℕ) (offsetHours : ℤ) (cached : AggregatePeakHourData)
      (hrange : InRange daysWindow offsetHours)
      (hit : w.store.peakHoursCache (user, daysWindow, offsetHours) = some cached) :
      Effect env w (.aggregatePeakHours user daysWindow offsetHours) w
  | computes (user : Address) (daysWindow : ℕ) (offsetHours : ℤ) (result : AggregatePeakHourData)
      (hrange : InRange daysWindow offsetHours)
      (hmiss : w.store.peakHoursCache (user, daysWindow, offsetHours) = none)
      (hresult : computePeakHours w.store w.now user daysWindow offsetHours = some result) :
      Effect env w (.aggregatePeakHours user daysWindow offsetHours)
        (cache w (user, daysWindow, offsetHours) result)

theorem exec_effect {call : Call Address} (h : exec env call w = .ok w') :
    Effect env w call w' := by
  cases hcall : call.entry with
  | some e =>
    obtain ⟨hlog, rfl⟩ := (log_eq_ok hcall).mp h
    exact .logs call e hcall hlog
  | none =>
    cases call with
    | logAttendance => exact nomatch hcall
    | logAttendanceInternal => exact nomatch hcall
    | aggregatePeakHours user daysWindow offsetHours =>
      obtain ⟨⟨result, _⟩, hok, rfl⟩ := map_eq_ok.mp h
      obtain ⟨hrange, ⟨hit, rfl⟩ | ⟨hmiss, hresult, rfl⟩⟩ := aggregatePeakHours_eq_ok.mp hok
      · exact .hits user daysWindow offsetHours result hrange hit
      · exact .computes user daysWindow offsetHours result hrange hmiss hresult

/-- What a step does to the logs: it writes the one of an accepted call, or leaves them all as they
are. -/
inductive Logs (w : ManageWorld C K) (a : Action C (Call Address)) (w' : ManageWorld C K) :
    Prop where
  | appends (env : Env C) (call : Call Address) (e : Entry Address) (ha : a = .invoke env call)
      (he : call.entry = some e) (hlog : Loggable env call) (hw' : w' = append w (newLog w e))
  | keeps (hlogs : w'.store.attendanceLog = w.store.attendanceLog)
      (hlists : w'.store.attendanceLogsByUser = w.store.attendanceLogsByUser)
      (hnow : w.now ≤ w'.now)
      (hrefused : ∀ env call e, a = .invoke env call → call.entry = some e → ¬Loggable env call)

theorem step_logs (w : ManageWorld C K) (a : Action C (Call Address)) :
    Logs w a (step exec w a) := by
  cases a with
  | tick d => exact .keeps rfl rfl (Nat.le_add_right _ _) (by simp)
  | external token next =>
    have hnow : w.now ≤ (step exec w (.external token next)).now :=
      step_keeps (fun v => w.now ≤ v.now) (Nat.le_refl _) (by simp) (by simp)
        fun _ _ _ _ => Nat.le_refl _
    exact .keeps (by rw [step_external_store]) (by rw [step_external_store]) hnow (by simp)
  | invoke env call =>
    cases hok : exec env call w with
    | error fault =>
      -- what is refused is not loggable
      rw [step_invoke_error hok]
      refine .keeps rfl rfl (Nat.le_refl _) fun env' call' e ha he hlog => ?_
      cases ha
      rw [(log_eq_ok he).mpr ⟨hlog, rfl⟩] at hok
      cases hok
    | ok w' =>
      rw [step_invoke_ok hok]
      cases exec_effect hok with
      | logs _ e he hlog => exact .appends env call e rfl he hlog rfl
      | hits =>
        refine .keeps rfl rfl (Nat.le_refl _) fun env' call' e ha he => ?_
        cases ha
        cases he
      | computes =>
        refine .keeps rfl rfl (Nat.le_refl _) fun env' call' e ha he => ?_
        cases ha
        cases he

section
variable (w) (log : AttendanceLog Address K.Digest)

theorem append_attendanceLog : (append w log).store.attendanceLog =
    Function.update w.store.attendanceLog log.id (some log) := rfl

theorem userLogs_append_self :
    userLogs (append w log).store log.userId = userLogs w.store log.userId ++ [log.id] := by
  simp [userLogs, append]

theorem userLogs_append_of_ne {user : Address} (h : user ≠ log.userId) :
    userLogs (append w log).store user = userLogs w.store user := by
  simp [userLogs, append, h]

theorem userLogs_newLog (e : Entry Address) :
    userLogs (append w (newLog w e)).store e.userId = userLogs w.store e.userId ++ [e.id] :=
  userLogs_append_self w (newLog w e)

/-- Where the id is new to the list, or stores this very log, the logs of a user are what they were,
and the one that is written comes last. -/
theorem getUserAttendance_append {user : Address}
    (hsame : log.id ∈ userLogs w.store user → w.store.attendanceLog log.id = some log) :
    getUserAttendance (append w log).store user =
      getUserAttendance w.store user ++ if user = log.userId then [log] else [] := by
  have hold : (userLogs w.store user).filterMap (append w log).store.attendanceLog =
      getUserAttendance w.store user := by
    apply List.filterMap_congr
    intro id hid
    rw [append_attendanceLog]
    by_cases heq : id = log.id
    · subst heq
      rw [Function.update_self, hsame hid]
    · rw [Function.update_of_ne heq]
  have hall : getUserAttendance (append w log).store user =
      (userLogs (append w log).store user).filterMap (append w log).store.attendanceLog := rfl
  rw [hall]
  split_ifs with huser
  · rw [huser] at hold ⊢
    rw [userLogs_append_self, List.filterMap_append, hold, append_attendanceLog]
    simp
  · rw [userLogs_append_of_ne w log huser, hold, List.append_nil]

end

end HubAssist.ManageHub.Attendance
