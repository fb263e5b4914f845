import HubAssist.ManageHubStorage

/-! The attendance_log module of the manage_hub contract: the logs of a user, chained by hashes,
and the peak hours that are computed from them and cached. The events it publishes are left out,
and a cached entry is taken to stay until it is removed. -/
namespace HubAssist.ManageHub.Attendance
open SorobanHost CheckedArith

variable {Address : Type} [DecidableEq Address] {C : Chain Address} {K : Crypto Address}

def maxDetailsEntries : ℕ := 50

def maxWindowDays : ℕ := 90

def secondsPerDay : ℕ := 86400

/-- The hash over the time, the user and the hash before; the action, the details and the id of the
log have no part in it. -/
def chainHash (K : Crypto Address) (timestamp : ℕ) (userId : Address) (prevHash : K.Digest) :
    K.Digest :=
  K.sha256 (toLeBytes 8 timestamp ++ K.addressToXdr userId ++ K.toBytes prevHash)

/-- The windows and the offsets whose cache entries a new log of the user removes. -/
def invalidatedWindows : List ℕ := [30, 90]

def invalidatedOffsets : List ℤ := [0, 9, -9, 5, -5]

def invalidate (cache : Address × ℕ × ℤ → Option AggregatePeakHourData) (userId : Address) :
    Address × ℕ × ℤ → Option AggregatePeakHourData :=
  fun key =>
    if key.1 = userId ∧ key.2.1 ∈ invalidatedWindows ∧ key.2.2 ∈ invalidatedOffsets then none
    else cache key

def logAttendanceInternal (id : BytesN32) (userId : Address) (action : AttendanceAction)
    (details : List String) (w : ManageWorld C K) :
    Except (Fault ModuleError) (AttendanceLog Address K.Digest × ManageWorld C K) := do
  failIf (maxDetailsEntries < details.length) (.panic "details exceed max entries")
  let prevHash := (w.store.latestHash userId).getD K.zeroBytes
  let log : AttendanceLog Address K.Digest := ⟨id, userId, action, w.now, details, prevHash⟩
  let userLogs := (w.store.attendanceLogsByUser userId).getD []
  -- a log that is stored under the same id is overwritten
  return (log, w.setStore { w.store with
    attendanceLog := Function.update w.store.attendanceLog id (some log)
    attendanceLogsByUser :=
      Function.update w.store.attendanceLogsByUser userId (some (userLogs ++ [id]))
    latestHash :=
      Function.update w.store.latestHash userId (some (chainHash K w.now userId prevHash))
    peakHoursCache := invalidate w.store.peakHoursCache userId })

def logAttendance (env : Env C) (id : BytesN32) (userId : Address) (action : AttendanceAction)
    (details : List String) (w : ManageWorld C K) :
    Except (Fault ModuleError) (AttendanceLog Address K.Digest × ManageWorld C K) := do
  requireAuth env userId
  logAttendanceInternal id userId action details w

def getUserAttendance {Digest : Type} (s : Storage Address Digest) (userId : Address) :
    List (AttendanceLog Address Digest) :=
  ((s.attendanceLogsByUser userId).getD []).filterMap s.attendanceLog

/-- The loop of `verifyChain`. The hash is over the user that is asked about. -/
def verifyLogs (K : Crypto Address) (userId : Address) :
    K.Digest → List (AttendanceLog Address K.Digest) → Bool
  | _, [] => true
  | prevHash, log :: logs =>
    if log.prevHash ≠ prevHash then false
    else verifyLogs K userId (chainHash K log.timestamp userId prevHash) logs

/-- `verifyChain` on the logs that it has read. -/
def verifyFrom (K : Crypto Address) (userId : Address)
    (logs : List (AttendanceLog Address K.Digest)) (fromIndex : ℕ) : Bool :=
  if logs.isEmpty then true
  else if hstart : fromIndex < logs.length then
    -- what the log before the first one carries, and not the hash that it makes
    let prevHash := if fromIndex = 0 then K.zeroBytes else logs[fromIndex-1].prevHash
    verifyLogs K userId prevHash (logs.drop fromIndex)
  else false

def verifyChain (K : Crypto Address) (s : Storage Address K.Digest) (userId : Address)
    (fromIndex : ℕ) : Bool :=
  verifyFrom K userId (getUserAttendance s userId) fromIndex

/-- The histograms and sums of `aggregatePeakHours`. -/
structure PeakTally where
  arrivals : Fin 24 → ℕ
  departures : Fin 24 → ℕ
  sessionDurationsSum : ℕ
  sessionCount : ℕ

def PeakTally.zero : PeakTally := ⟨fun _ => 0, fun _ => 0, 0, 0⟩

def increment (hist : Fin 24 → ℕ) (hour : Fin 24) : Option (Fin 24 → ℕ) := do
  let count ← u32Add (hist hour) 1
  return Function.update hist hour count

def PeakTally.arrive (t : PeakTally) (hour : Fin 24) : Option PeakTally := do
  let arrivals ← increment t.arrivals hour
  return { t with arrivals := arrivals }

def PeakTally.depart (t : PeakTally) (hour : Fin 24) : Option PeakTally := do
  let departures ← increment t.departures hour
  return { t with departures := departures }

def PeakTally.addSession (t : PeakTally) (duration : ℕ) : Option PeakTally := do
  let sum ← u64Add t.sessionDurationsSum duration
  let count ← u32Add t.sessionCount 1
  return { t with sessionDurationsSum := sum, sessionCount := count }

/-- The local hour of a time; the shift saturates at both ends of `u64`. -/
def localHour (offsetHours : ℤ) (timestamp : ℕ) : Fin 24 :=
  let localTs := if 0 ≤ offsetHours then min (timestamp+offsetHours.toNat*3600) (u64Bound-1)
    else timestamp-(-offsetHours).toNat*3600
  ⟨(localTs/3600)%24, Nat.mod_lt _ (by decide)⟩

/-- The loop over the logs of the window. A clock-in is paired with the log right after it when
that is a clock-out, and both are passed. -/
def tallyLogs {Digest : Type} (offsetHours : ℤ) :
    List (AttendanceLog Address Digest) → PeakTally → Option PeakTally
  | [], t => some t
  | [log], t =>
    match log.action with
    | .clockIn => t.arrive (localHour offsetHours log.timestamp)
    | .clockOut => t.depart (localHour offsetHours log.timestamp)
  | log :: next :: logs, t =>
    match log.action, next.action with
    | .clockIn, .clockOut => do
      let t ← t.arrive (localHour offsetHours log.timestamp)
      let t ← t.depart (localHour offsetHours next.timestamp)
      let t ← t.addSession (next.timestamp-log.timestamp)
      tallyLogs offsetHours logs t
    | .clockIn, .clockIn => do
      let t ← t.arrive (localHour offsetHours log.timestamp)
      tallyLogs offsetHours (next :: logs) t
    | .clockOut, _ => do
      let t ← t.depart (localHour offsetHours log.timestamp)
      tallyLogs offsetHours (next :: logs) t

/-- The first hour with the highest count; zero when there is nothing to count. -/
def argmax24 (hist : Fin 24 → ℕ) : ℕ :=
  ((List.finRange 24).foldl (fun peak hour =>
    if peak.2 < hist hour then (hour.val, hist hour) else peak) (0, 0)).1

/-- What a call computes when there is nothing in the cache. -/
def computePeakHours {Digest : Type} (s : Storage Address Digest) (now : ℕ) (user : Address)
    (daysWindow : ℕ) (offsetHours : ℤ) : Option AggregatePeakHourData := do
  let windowStart := now-daysWindow*secondsPerDay
  let inWindow := (getUserAttendance s user).filter fun log => windowStart ≤ log.timestamp
  let t ← tallyLogs offsetHours inWindow PeakTally.zero
  let avg := if 0 < t.sessionCount then t.sessionDurationsSum/t.sessionCount/60 % u32Bound else 0
  return ⟨argmax24 t.arrivals, argmax24 t.departures, avg, daysWindow⟩

def aggregatePeakHours (user : Address) (daysWindow : ℕ) (offsetHours : ℤ)
    (w : ManageWorld C K) :
    Except (Fault ModuleError) (AggregatePeakHourData × ManageWorld C K) := do
  failIf (¬(0 < daysWindow ∧ daysWindow ≤ maxWindowDays)) (.panic "days_window must be 1–90")
  failIf (¬(-23 ≤ offsetHours ∧ offsetHours ≤ 23))
    (.panic "timezone_offset_hours must be in [-23, 23]")
  match w.store.peakHoursCache (user, daysWindow, offsetHours) with
  | some cached => return (cached, w)
  | none => do
    let result ← checked (computePeakHours w.store w.now user daysWindow offsetHours)
    return (result, w.setStore { w.store with
      peakHoursCache :=
        Function.update w.store.peakHoursCache (user, daysWindow, offsetHours) (some result) })

/-- The entry points that write. Both ways to log are exported. -/
inductive Call (Address : Type) where
  | logAttendance (id : BytesN32) (userId : Address) (action : AttendanceAction)
      (details : List String)
  | logAttendanceInternal (id : BytesN32) (userId : Address) (action : AttendanceAction)
      (details : List String)
  | aggregatePeakHours (user : Address) (daysWindow : ℕ) (offsetHours : ℤ)
  deriving DecidableEq

def exec (env : Env C) : Call Address → ManageWorld C K → Outcome C K
  | .logAttendance id userId action details, w =>
    (logAttendance env id userId action details w).map Prod.snd
  | .logAttendanceInternal id userId action details, w =>
    (logAttendanceInternal id userId action details w).map Prod.snd
  | .aggregatePeakHours user daysWindow offsetHours, w =>
    (aggregatePeakHours user daysWindow offsetHours w).map Prod.snd

end HubAssist.ManageHub.Attendance
