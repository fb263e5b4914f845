import HubAssist.AttendanceLogSteps
import HubAssist.ManageHubPrivilege
import Mathlib.Algebra.BigOperators.Fin

/-! The sessions of a user's logs: the summary and the peak hours both pair each clock-in with the
log right after it when that is a clock-out. -/
namespace HubAssist.ManageHub.Attendance
open SorobanHost CheckedArith

variable {Address Digest : Type}

structure DateRange where
  start : ℕ
  stop : ℕ
  deriving DecidableEq, Repr

structure AttendanceSummary (Address : Type) where
  userId : Address
  totalSessions : ℕ
  totalDuration : ℕ
  avgSessionLength : ℕ
  dateRange : DateRange
  deriving DecidableEq

/-- The loop of `getAttendanceSummary`. -/
def sumSessions : List (AttendanceLog Address Digest) → ℕ → ℕ → Option (ℕ × ℕ)
  | [], totalSessions, totalDuration => some (totalSessions, totalDuration)
  | [_], totalSessions, totalDuration => some (totalSessions, totalDuration)
  | current :: next :: logs, totalSessions, totalDuration =>
    if current.action = .clockIn ∧ next.action = .clockOut then do
      let totalSessions ← u32Add totalSessions 1
      -- a plain difference: it traps where the clock-out is the earlier of the two
      let duration ← u64Sub next.timestamp current.timestamp
      let totalDuration ← u64Add totalDuration duration
      sumSessions logs totalSessions totalDuration
    else sumSessions (next :: logs) totalSessions totalDuration

def inDateRange (dateRange : DateRange) (logs : List (AttendanceLog Address Digest)) :
    List (AttendanceLog Address Digest) :=
  logs.filter fun log => dateRange.start ≤ log.timestamp ∧ log.timestamp ≤ dateRange.stop

/-- `getAttendanceSummary` on the logs that it has read. -/
def summarizeLogs (userId : Address) (dateRange : DateRange)
    (logs : List (AttendanceLog Address Digest)) : Option (AttendanceSummary Address) := do
  let (totalSessions, totalDuration) ← sumSessions (inDateRange dateRange logs) 0 0
  return ⟨userId, totalSessions, totalDuration,
    if 0 < totalSessions then totalDuration/totalSessions else 0, dateRange⟩

def getAttendanceSummary [DecidableEq Address] (s : Storage Address Digest) (userId : Address)
    (dateRange : DateRange) : Option (AttendanceSummary Address) :=
  summarizeLogs userId dateRange (getUserAttendance s userId)

/-- The positions where a clock-out comes right after a clock-in. -/
def adjacentPairs (logs : List (AttendanceLog Address Digest)) :
    List (AttendanceLog Address Digest × AttendanceLog Address Digest) :=
  (logs.zip logs.tail).filter fun p => p.1.action = .clockIn ∧ p.2.action = .clockOut

/-- The time between the clock-ins and the clock-outs of all pairs. -/
def pairedDuration (logs : List (AttendanceLog Address Digest)) : ℕ :=
  ((adjacentPairs logs).map fun p => p.2.timestamp-p.1.timestamp).sum

/-- Logs in the order of their times. -/
def Chronological (logs : List (AttendanceLog Address Digest)) : Prop :=
  logs.Pairwise fun a b => a.timestamp ≤ b.timestamp

/-- The log arrives in the hour. -/
def Arrives (offsetHours : ℤ) (hour : Fin 24) (log : AttendanceLog Address Digest) : Prop :=
  log.action = .clockIn ∧ localHour offsetHours log.timestamp = hour

/-- The log departs in the hour. -/
def Departs (offsetHours : ℤ) (hour : Fin 24) (log : AttendanceLog Address Digest) : Prop :=
  log.action = .clockOut ∧ localHour offsetHours log.timestamp = hour

instance (offsetHours : ℤ) (hour : Fin 24) (log : AttendanceLog Address Digest) :
    Decidable (Arrives offsetHours hour log) := inferInstanceAs (Decidable (_ ∧ _))

instance (offsetHours : ℤ) (hour : Fin 24) (log : AttendanceLog Address Digest) :
    Decidable (Departs offsetHours hour log) := inferInstanceAs (Decidable (_ ∧ _))

variable {log next : AttendanceLog Address Digest} {logs : List (AttendanceLog Address Digest)}
variable {offsetHours : ℤ} {t : PeakTally} {sessions duration : ℕ}

theorem adjacentPairs_nil : adjacentPairs ([] : List (AttendanceLog Address Digest)) = [] := rfl

theorem adjacentPairs_singleton : adjacentPairs [log] = [] := rfl

/-- Both logs of a pair are passed, since a clock-out begins none. -/
theorem adjacentPairs_pair (hlog : log.action = .clockIn) (hnext : next.action = .clockOut) :
    adjacentPairs (log :: next :: logs) = (log, next) :: adjacentPairs logs := by
  cases logs with
  | nil => simp [adjacentPairs, hlog, hnext]
  | cons third logs => simp [adjacentPairs, hlog, hnext]

theorem adjacentPairs_skip (h : ¬(log.action = .clockIn ∧ next.action = .clockOut)) :
    adjacentPairs (log :: next :: logs) = adjacentPairs (next :: logs) := by
  simp only [adjacentPairs, List.tail_cons, List.zip_cons_cons]
  rw [List.filter_cons_of_neg (by simpa using h)]

theorem pairedDuration_pair (hlog : log.action = .clockIn) (hnext : next.action = .clockOut) :
    pairedDuration (log :: next :: logs) =
      next.timestamp-log.timestamp+pairedDuration logs := by
  rw [pairedDuration, adjacentPairs_pair hlog hnext, List.map_cons, List.sum_cons, pairedDuration]

theorem pairedDuration_skip (h : ¬(log.action = .clockIn ∧ next.action = .clockOut)) :
    pairedDuration (log :: next :: logs) = pairedDuration (next :: logs) := by
  rw [pairedDuration, adjacentPairs_skip h, pairedDuration]

/-- The recursion of both loops: a pair is passed as a whole, any other log by itself. -/
@[elab_as_elim]
theorem pairs_induction {motive : List (AttendanceLog Address Digest) → Prop} (nil : motive [])
    (single : ∀ log, motive [log])
    (pair : ∀ log next logs, log.action = .clockIn → next.action = .clockOut → motive logs →
      motive (log :: next :: logs))
    (skip : ∀ log next logs, ¬(log.action = .clockIn ∧ next.action = .clockOut) →
      motive (next :: logs) → motive (log :: next :: logs)) :
    ∀ logs, motive logs
  | [] => nil
  | [log] => single log
  | log :: next :: logs => by
    -- both loops look at the next log before they step over this one
    by_cases h : log.action = .clockIn ∧ next.action = .clockOut
    · exact pair log next logs h.1 h.2 (pairs_induction nil single pair skip logs)
    · exact skip log next logs h (pairs_induction nil single pair skip (next :: logs))

/-- A pair takes two logs. -/
theorem two_mul_length_adjacentPairs (logs : List (AttendanceLog Address Digest)) :
    2*(adjacentPairs logs).length ≤ logs.length := by
  induction logs using pairs_induction with
  | nil => exact le_rfl
  | single log => simp [adjacentPairs_singleton]
  | pair log next logs hlog hnext ih =>
    rw [adjacentPairs_pair hlog hnext]
    simp only [List.length_cons]
    omega
  | skip log next logs h ih =>
    rw [adjacentPairs_skip h, List.length_cons]
    omega

/-- In chronological logs the pairs last no longer in all than from `lower` to `upper`. -/
theorem pairedDuration_le {lower upper : ℕ} (h : Chronological logs)
    (hbounds : ∀ log ∈ logs, lower ≤ log.timestamp ∧ log.timestamp ≤ upper)
    (hle : lower ≤ upper) : lower+pairedDuration logs ≤ upper := by
  induction logs using pairs_induction generalizing lower with
  | nil => simpa [pairedDuration, adjacentPairs_nil] using hle
  | single log => simpa [pairedDuration, adjacentPairs_singleton] using hle
  | pair log next logs hlog hnext ih =>
    obtain ⟨hfirst, hrest⟩ := List.pairwise_cons.mp h
    obtain ⟨hsecond, hlogs⟩ := List.pairwise_cons.mp hrest
    obtain ⟨hlower, _⟩ := hbounds log List.mem_cons_self
    have hnextBounds := hbounds next (List.mem_cons_of_mem _ List.mem_cons_self)
    have horder := hfirst next List.mem_cons_self
    -- what is left begins no earlier than this clock-out
    have hleft := ih hlogs (fun log hmem => ⟨hsecond log hmem,
      (hbounds log (List.mem_cons_of_mem _ (List.mem_cons_of_mem _ hmem))).2⟩) hnextBounds.2
    rw [pairedDuration_pair hlog hnext]
    omega
  | skip log next logs hskip ih =>
    rw [pairedDuration_skip hskip]
    exact ih (List.pairwise_cons.mp h).2
      (fun log hmem => hbounds log (List.mem_cons_of_mem _ hmem)) hle

/-- Where no pair ends before it begins and nothing overflows, the summary sums up the pairs. -/
theorem sumSessions_eq (h : Chronological logs)
    (hsessions : sessions+(adjacentPairs logs).length < u32Bound)
    (hduration : duration+pairedDuration logs < u64Bound) :
    sumSessions logs sessions duration =
      some (sessions+(adjacentPairs logs).length, duration+pairedDuration logs) := by
  induction logs using pairs_induction generalizing sessions duration with
  | nil => rfl
  | single log => rfl
  | pair log next logs hlog hnext ih =>
    obtain ⟨hfirst, hrest⟩ := List.pairwise_cons.mp h
    have horder := hfirst next List.mem_cons_self
    rw [adjacentPairs_pair hlog hnext, List.length_cons] at hsessions ⊢
    rw [pairedDuration_pair hlog hnext] at hduration ⊢
    -- none of the three checked operations fails
    rw [sumSessions, if_pos ⟨hlog, hnext⟩, u32Add, if_pos (by omega), u64Sub, if_pos horder]
    simp only [Option.bind_eq_bind, Option.bind_some]
    rw [u64Add, if_pos (by omega), Option.bind_some,
      ih (List.pairwise_cons.mp hrest).2 (by omega) (by omega)]
    congr 2
    · omega
    · omega
  | skip log next logs hskip ih =>
    rw [adjacentPairs_skip hskip] at hsessions ⊢
    rw [pairedDuration_skip hskip] at hduration ⊢
    rw [sumSessions, if_neg hskip]
    exact ih (List.pairwise_cons.mp h).2 hsessions hduration

/-- The tally with one more log counted, in its hour as an arrival or as a departure. -/
def PeakTally.countLog (t : PeakTally) (offsetHours : ℤ) (log : AttendanceLog Address Digest) :
    PeakTally :=
  { t with
    arrivals := fun hour => t.arrivals hour+if Arrives offsetHours hour log then 1 else 0
    departures := fun hour => t.departures hour+if Departs offsetHours hour log then 1 else 0 }

/-- The tally with all the logs counted and all their pairs. -/
def PeakTally.countLogs (t : PeakTally) (offsetHours : ℤ)
    (logs : List (AttendanceLog Address Digest)) : PeakTally where
  arrivals hour := t.arrivals hour+logs.countP fun log => Arrives offsetHours hour log
  departures hour := t.departures hour+logs.countP fun log => Departs offsetHours hour log
  sessionDurationsSum := t.sessionDurationsSum+pairedDuration logs
  sessionCount := t.sessionCount+(adjacentPairs logs).length

/-- There is room for so many more logs and sessions. -/
structure PeakTally.Room (t : PeakTally) (logs sessions duration : ℕ) : Prop where
  arrivals (hour : Fin 24) : t.arrivals hour+logs < u32Bound
  departures (hour : Fin 24) : t.departures hour+logs < u32Bound
  sessionCount : t.sessionCount+sessions < u32Bound
  sessionDurationsSum : t.sessionDurationsSum+duration < u64Bound

theorem increment_eq {hist : Fin 24 → ℕ} {hour : Fin 24} (h : hist hour+1 < u32Bound) :
    increment hist hour = some fun k => hist k+if hour = k then 1 else 0 := by
  rw [increment, u32Add, if_pos h]
  simp only [Option.bind_eq_bind, Option.bind_some, Option.pure_def, Option.some.injEq]
  funext k
  by_cases hk : k = hour
  · subst hk
    simp
  · simp [hk, Ne.symm hk]

theorem arrive_eq (hlog : log.action = .clockIn)
    (h : t.arrivals (localHour offsetHours log.timestamp)+1 < u32Bound) :
    t.arrive (localHour offsetHours log.timestamp) = some (t.countLog offsetHours log) := by
  rw [PeakTally.arrive, increment_eq h]
  simp [PeakTally.countLog, Arrives, Departs, hlog]

theorem depart_eq (hlog : log.action = .clockOut)
    (h : t.departures (localHour offsetHours log.timestamp)+1 < u32Bound) :
    t.depart (localHour offsetHours log.timestamp) = some (t.countLog offsetHours log) := by
  rw [PeakTally.depart, increment_eq h]
  simp [PeakTally.countLog, Arrives, Departs, hlog]

/-- Counting a log takes the room of one. -/
theorem PeakTally.Room.countLog {logs sessions duration : ℕ} (h : t.Room (logs+1) sessions duration)
    (offsetHours : ℤ) (log : AttendanceLog Address Digest) :
    (t.countLog offsetHours log).Room logs sessions duration := by
  refine ⟨fun hour => ?_, fun hour => ?_, h.sessionCount, h.sessionDurationsSum⟩
  · have hroom := h.arrivals hour
    simp only [PeakTally.countLog]
    split_ifs <;> omega
  · have hroom := h.departures hour
    simp only [PeakTally.countLog]
    split_ifs <;> omega

/-- The tally with one more session. -/
def PeakTally.countPair (t : PeakTally) (log next : AttendanceLog Address Digest) : PeakTally :=
  { t with
    sessionDurationsSum := t.sessionDurationsSum+(next.timestamp-log.timestamp)
    sessionCount := t.sessionCount+1 }

theorem addSession_eq (hcount : t.sessionCount+1 < u32Bound)
    (hsum : t.sessionDurationsSum+(next.timestamp-log.timestamp) < u64Bound) :
    t.addSession (next.timestamp-log.timestamp) = some (t.countPair log next) := by
  rw [PeakTally.addSession, u64Add, if_pos hsum, u32Add, if_pos hcount]
  rfl

theorem countLogs_singleton : t.countLogs offsetHours [log] = t.countLog offsetHours log := by
  simp [PeakTally.countLog, PeakTally.countLogs, pairedDuration, adjacentPairs_singleton,
    List.countP_cons]

theorem countLogs_skip (h : ¬(log.action = .clockIn ∧ next.action = .clockOut)) :
    (t.countLog offsetHours log).countLogs offsetHours (next :: logs) =
      t.countLogs offsetHours (log :: next :: logs) := by
  simp only [PeakTally.countLogs, adjacentPairs_skip h, pairedDuration_skip h,
    PeakTally.countLog, PeakTally.mk.injEq, and_true]
  constructor
  · funext hour
    rw [List.countP_cons (l := next :: logs)]
    simp only [decide_eq_true_eq]
    omega
  · funext hour
    rw [List.countP_cons (l := next :: logs)]
    simp only [decide_eq_true_eq]
    omega

theorem countLogs_pair (hlog : log.action = .clockIn) (hnext : next.action = .clockOut) :
    (((t.countLog offsetHours log).countLog offsetHours next).countPair log next).countLogs
        offsetHours logs = t.countLogs offsetHours (log :: next :: logs) := by
  simp only [PeakTally.countLogs, adjacentPairs_pair hlog hnext, pairedDuration_pair hlog hnext,
    PeakTally.countLog, PeakTally.countPair, List.length_cons, List.countP_cons,
    decide_eq_true_eq, PeakTally.mk.injEq]
  refine ⟨funext fun hour => ?_, funext fun hour => ?_, ?_, ?_⟩ <;> omega

/-- Where there is room, the loop counts every log once and every pair. -/
theorem tallyLogs_eq
    (h : t.Room logs.length (adjacentPairs logs).length (pairedDuration logs)) :
    tallyLogs offsetHours logs t = some (t.countLogs offsetHours logs) := by
  induction logs using pairs_induction generalizing t with
  | nil => simp [tallyLogs, PeakTally.countLogs, pairedDuration, adjacentPairs_nil]
  | single log =>
    have harrivals := h.arrivals (localHour offsetHours log.timestamp)
    have hdepartures := h.departures (localHour offsetHours log.timestamp)
    rw [tallyLogs, countLogs_singleton]
    cases haction : log.action with
    | clockIn => exact arrive_eq haction harrivals
    | clockOut => exact depart_eq haction hdepartures
  | pair log next logs hlog hnext ih =>
    rw [adjacentPairs_pair hlog hnext, pairedDuration_pair hlog hnext] at h
    simp only [List.length_cons] at h
    have hfirst := h.countLog offsetHours log
    have hsecond := hfirst.countLog offsetHours next
    have harrivals := h.arrivals (localHour offsetHours log.timestamp)
    have hdepartures := hfirst.departures (localHour offsetHours next.timestamp)
    have hcount := hsecond.sessionCount
    have hsum := hsecond.sessionDurationsSum
    -- a pair takes the room of two logs and of one session
    have hroom : (((t.countLog offsetHours log).countLog offsetHours next).countPair log
        next).Room logs.length (adjacentPairs logs).length (pairedDuration logs) :=
      ⟨hsecond.arrivals, hsecond.departures, by simp only [PeakTally.countPair]; omega,
        by simp only [PeakTally.countPair]; omega⟩
    rw [tallyLogs, hlog, hnext]
    simp only [Option.bind_eq_bind]
    rw [arrive_eq hlog (by omega), Option.bind_some, depart_eq hnext (by omega), Option.bind_some,
      addSession_eq (by omega) (by omega), Option.bind_some, ih hroom, countLogs_pair hlog hnext]
  | skip log next logs hskip ih =>
    rw [List.length_cons, adjacentPairs_skip hskip, pairedDuration_skip hskip] at h
    have harrivals := h.arrivals (localHour offsetHours log.timestamp)
    have hdepartures := h.departures (localHour offsetHours log.timestamp)
    rw [← countLogs_skip hskip, ← ih (h.countLog offsetHours log), tallyLogs]
    -- the log is counted by itself, and the next one again by the rest of the loop
    cases haction : log.action with
    | clockIn =>
      cases hnext : next.action with
      | clockIn =>
        dsimp only
        rw [arrive_eq haction (by omega)]
        rfl
      | clockOut => exact absurd ⟨haction, hnext⟩ hskip
    | clockOut =>
      dsimp only
      rw [depart_eq haction (by omega)]
      rfl

/-- The shifted time stays within `u64`. -/
def Unsaturated (offsetHours : ℤ) (timestamp : ℕ) : Prop :=
  0 ≤ timestamp+offsetHours*3600 ∧ timestamp+offsetHours*3600 < u64Bound

theorem localHour_eq {timestamp : ℕ} (h : Unsaturated offsetHours timestamp) :
    ((localHour offsetHours timestamp).val : ℤ) = ((timestamp/3600 : ℕ)+offsetHours)%24 := by
  obtain ⟨hstart, hstop⟩ := h
  simp only [localHour]
  split_ifs with hsign
  · -- the sum is what the minimum takes
    rw [Nat.min_eq_left (by omega)]
    omega
  · omega

/-- Over all hours a log counts once. -/
theorem sum_countLog (offsetHours : ℤ) (log : AttendanceLog Address Digest) :
    ∑ hour, ((if Arrives offsetHours hour log then 1 else 0)+
      (if Departs offsetHours hour log then 1 else 0)) = 1 := by
  cases haction : log.action with
  | clockIn => simp [Arrives, Departs, haction]
  | clockOut => simp [Arrives, Departs, haction]

/-- Over all hours every log counts once, as an arrival or as a departure. -/
theorem sum_countP (offsetHours : ℤ) (logs : List (AttendanceLog Address Digest)) :
    ∑ hour, ((logs.countP fun log => Arrives offsetHours hour log)+
      logs.countP fun log => Departs offsetHours hour log) = logs.length := by
  induction logs with
  | nil => simp
  | cons log logs ih =>
    rw [List.length_cons, ← ih, ← sum_countLog offsetHours log, ← Finset.sum_add_distrib]
    refine Finset.sum_congr rfl fun hour _ => ?_
    simp only [List.countP_cons, decide_eq_true_eq]
    omega

/-- The tally of the logs has each of their pairs and each of them once. -/
structure PeakTally.Tallies (t : PeakTally) (offsetHours : ℤ)
    (logs : List (AttendanceLog Address Digest)) : Prop where
  sessionCount : t.sessionCount = (adjacentPairs logs).length
  sessionDurationsSum : t.sessionDurationsSum = pairedDuration logs
  arrivals (hour : Fin 24) :
    t.arrivals hour = logs.countP fun log => Arrives offsetHours hour log
  departures (hour : Fin 24) :
    t.departures hour = logs.countP fun log => Departs offsetHours hour log
  once : ∑ hour, (t.arrivals hour+t.departures hour) = logs.length

theorem countLogs_tallies (offsetHours : ℤ) (logs : List (AttendanceLog Address Digest)) :
    (PeakTally.zero.countLogs offsetHours logs).Tallies offsetHours logs := by
  refine ⟨Nat.zero_add _, Nat.zero_add _, fun _ => Nat.zero_add _, fun _ => Nat.zero_add _, ?_⟩
  rw [← sum_countP offsetHours logs]
  refine Finset.sum_congr rfl fun hour _ => ?_
  simp only [PeakTally.countLogs, PeakTally.zero, Nat.zero_add]

/-- Logs as the contract can hold them: the times are `u64` and the length is `u32`. -/
structure Sized (logs : List (AttendanceLog Address Digest)) : Prop where
  timestamp (log : AttendanceLog Address Digest) (hlog : log ∈ logs) : log.timestamp < u64Bound
  length : logs.length < u32Bound

/-- What is left of the logs is as chronological and no larger. -/
theorem Sized.sublist {filtered : List (AttendanceLog Address Digest)} (h : Sized logs)
    (hsub : filtered.Sublist logs) : Sized filtered :=
  ⟨fun log hlog => h.timestamp log (hsub.subset hlog), hsub.length_le.trans_lt h.length⟩

theorem pairedDuration_lt (h : Chronological logs) (hsized : Sized logs) :
    pairedDuration logs < u64Bound := by
  have hle : 0+pairedDuration logs ≤ u64Bound-1 := pairedDuration_le h (fun log hlog =>
    ⟨Nat.zero_le _, Nat.le_sub_one_of_lt (hsized.timestamp log hlog)⟩) (Nat.zero_le _)
  have hpos : 0 < u64Bound := by decide
  omega

theorem sumSessions_zero (h : Chronological logs) (hsized : Sized logs) :
    sumSessions logs 0 0 = some ((adjacentPairs logs).length, pairedDuration logs) := by
  have htwo := two_mul_length_adjacentPairs logs
  have hlength := hsized.length
  have hduration := pairedDuration_lt h hsized
  rw [sumSessions_eq h (by omega) (by omega), Nat.zero_add, Nat.zero_add]

theorem tallyLogs_zero (offsetHours : ℤ) (h : Chronological logs) (hsized : Sized logs) :
    tallyLogs offsetHours logs PeakTally.zero =
      some (PeakTally.zero.countLogs offsetHours logs) := by
  have htwo := two_mul_length_adjacentPairs logs
  have hlength := hsized.length
  have hduration := pairedDuration_lt h hsized
  refine tallyLogs_eq ⟨fun hour => ?_, fun hour => ?_, ?_, ?_⟩ <;>
  simp only [PeakTally.zero, Nat.zero_add] <;> omega

/-- The logs from `windowStart` on. -/
def inWindow (windowStart : ℕ) (logs : List (AttendanceLog Address Digest)) :
    List (AttendanceLog Address Digest) :=
  logs.filter fun log => windowStart ≤ log.timestamp

/-- The answer that the tally gives. -/
def PeakTally.peakHours (t : PeakTally) (daysWindow : ℕ) : AggregatePeakHourData :=
  ⟨argmax24 t.arrivals, argmax24 t.departures,
    if 0 < t.sessionCount then t.sessionDurationsSum/t.sessionCount/60 % u32Bound else 0,
    daysWindow⟩

theorem computePeakHours_eq [DecidableEq Address] {s : Storage Address Digest} {user : Address}
    {now daysWindow : ℕ}
    (h : tallyLogs offsetHours (inWindow (now-daysWindow*secondsPerDay) (getUserAttendance s user))
      PeakTally.zero = some t) :
    computePeakHours s now user daysWindow offsetHours = some (t.peakHours daysWindow) := by
  have hlogs : (getUserAttendance s user).filter (fun log =>
      now-daysWindow*secondsPerDay ≤ log.timestamp) =
        inWindow (now-daysWindow*secondsPerDay) (getUserAttendance s user) := rfl
  rw [computePeakHours, hlogs, h]
  rfl

/-- Where there is no session the average is zero, as a quotient by zero is. -/
theorem summarizeLogs_eq (userId : Address) {dateRange : DateRange}
    (h : Chronological (inDateRange dateRange logs)) (hsized : Sized (inDateRange dateRange logs)) :
    summarizeLogs userId dateRange logs = some ⟨userId,
      (adjacentPairs (inDateRange dateRange logs)).length,
      pairedDuration (inDateRange dateRange logs),
      pairedDuration (inDateRange dateRange logs)/
        (adjacentPairs (inDateRange dateRange logs)).length, dateRange⟩ := by
  rw [summarizeLogs, sumSessions_zero h hsized, Option.bind_eq_bind, Option.bind_some]
  simp only [Option.pure_def, Option.some.injEq, AttendanceSummary.mk.injEq, true_and, and_true]
  split_ifs with hpos
  · rfl
  · rw [Nat.eq_zero_of_not_pos hpos, Nat.div_zero]

/-- Of chronological logs the summary has the pairs of those in its range, and the peak hours have
the pairs of those in their window and each of these once; of the same logs both have the same. -/
theorem pairing_agrees [DecidableEq Address] {C : Chain Address} {K : Crypto Address}
    {logs : List (AttendanceLog Address K.Digest)} (h : Chronological logs)
    (hsized : Sized logs) :
    (∀ userId dateRange,
      let filtered := inDateRange dateRange logs
      summarizeLogs userId dateRange logs = some ⟨userId, (adjacentPairs filtered).length,
        pairedDuration filtered, pairedDuration filtered/(adjacentPairs filtered).length,
        dateRange⟩) ∧
    (∀ offsetHours windowStart, ∃ t,
      tallyLogs offsetHours (inWindow windowStart logs) PeakTally.zero = some t ∧
        t.Tallies offsetHours (inWindow windowStart logs)) ∧
    (∀ offsetHours filtered, filtered.Sublist logs → ∃ t,
      tallyLogs offsetHours filtered PeakTally.zero = some t ∧
        sumSessions filtered 0 0 = some (t.sessionCount, t.sessionDurationsSum)) ∧
    (∀ offsetHours, ∀ log ∈ logs, Unsaturated offsetHours log.timestamp →
      ((localHour offsetHours log.timestamp).val : ℤ) =
        ((log.timestamp/3600 : ℕ)+offsetHours)%24) ∧
    ∀ (w : ManageWorld C K) (user : Address), getUserAttendance w.store user = logs →
      (∀ dateRange, getAttendanceSummary w.store user dateRange =
        summarizeLogs user dateRange logs) ∧
      ∀ daysWindow offsetHours, InRange daysWindow offsetHours →
        w.store.peakHoursCache (user, daysWindow, offsetHours) = none → ∃ t w',
          tallyLogs offsetHours (inWindow (w.now-daysWindow*secondsPerDay) logs) PeakTally.zero =
            some t ∧
          aggregatePeakHours user daysWindow offsetHours w =
            .ok (t.peakHours daysWindow, w') := by
  have hfilter {filtered : List (AttendanceLog Address K.Digest)} (hsub : filtered.Sublist logs) :
      Chronological filtered ∧ Sized filtered := ⟨h.sublist hsub, hsized.sublist hsub⟩
  refine ⟨fun userId dateRange => ?_, fun offsetHours windowStart => ?_,
    fun offsetHours filtered hsub => ?_, fun offsetHours log _ => localHour_eq,
    fun w user hlogs => ⟨fun dateRange => ?_, fun daysWindow offsetHours hrange hmiss => ?_⟩⟩
  · obtain ⟨hchron, hfits⟩ := hfilter (List.filter_sublist (l := logs))
    exact summarizeLogs_eq userId hchron hfits
  · obtain ⟨hchron, hfits⟩ := hfilter (List.filter_sublist (l := logs))
    exact ⟨_, tallyLogs_zero offsetHours hchron hfits, countLogs_tallies offsetHours _⟩
  · obtain ⟨hchron, hfits⟩ := hfilter hsub
    have htallies := countLogs_tallies offsetHours filtered
    refine ⟨_, tallyLogs_zero offsetHours hchron hfits, ?_⟩
    rw [sumSessions_zero hchron hfits, htallies.sessionCount, htallies.sessionDurationsSum]
  · rw [getAttendanceSummary, hlogs]
  · obtain ⟨hchron, hfits⟩ := hfilter (List.filter_sublist (l := logs))
    have htally := tallyLogs_zero offsetHours hchron hfits
    refine ⟨_, _, htally, aggregatePeakHours_eq_ok.mpr ⟨hrange, Or.inr ⟨hmiss, ?_, rfl⟩⟩⟩
    apply computePeakHours_eq
    rw [hlogs]
    exact htally

/-- Account 1 comes twice, goes twice and comes once more. -/
def crossing : ManageWorld numberedChain plainCrypto :=
  run exec (deployed 0 (fun _ _ => (50 : ℕ)) 3600)
    [.invoke (signedBy 0) (.logAttendance 41 1 .clockIn []), .tick 3600,
      .invoke (signedBy 0) (.logAttendance 42 1 .clockIn []), .tick 7200,
      .invoke (signedBy 0) (.logAttendance 43 1 .clockOut []), .tick 60,
      .invoke (signedBy 0) (.logAttendance 44 1 .clockOut []), .tick 86400,
      .invoke (signedBy 0) (.logAttendance 45 1 .clockIn [])]

theorem pairing_agrees_crossing :
    getAttendanceSummary crossing.store 1 ⟨0, 100000⟩ = some ⟨1, 1, 7200, 7200, ⟨0, 100000⟩⟩ ∧
      ∃ t w', aggregatePeakHours 1 7 (-1) crossing = .ok (PeakTally.peakHours t 7, w') := by
  have hchron : Chronological (getUserAttendance crossing.store 1) := by
    unfold Chronological
    decide
  have hsized : Sized (getUserAttendance crossing.store 1) := ⟨by decide, by decide⟩
  obtain ⟨hsummary, _, _, _, hcalls⟩ := pairing_agrees (C := numberedChain) hchron hsized
  obtain ⟨hreads, hpeaks⟩ := hcalls crossing 1 rfl
  obtain ⟨t, w', _, hpeak⟩ := hpeaks 7 (-1) (by unfold InRange; decide) (by decide)
  refine ⟨?_, t, w', hpeak⟩
  rw [hreads, hsummary]
  decide

end HubAssist.ManageHub.Attendance
