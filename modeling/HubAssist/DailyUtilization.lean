import HubAssist.BookingsModel
import HubAssist.ClosedRanges
import HubAssist.IsoDate

/-! The nightly job that aggregates the bookings of the day before into snapshots, on a server whose
zone has a fixed offset. -/
namespace HubAssist.Analytics
open Bookings KeyedTable UtcClock IsoDate ClosedRanges

inductive WorkspaceType where
  | hotDesk
  | dedicatedDesk
  | privateOffice
  | meetingRoom
  | virtual
  | hybrid
  deriving DecidableEq

structure WorkspaceRow where
  id : String
  type : WorkspaceType

/-- A `date` column keeps the day of a `Date` in local time. Days are numbered from 1970. -/
structure DailyUtilizationSnapshot where
  date : ℤ
  workspaceId : String
  workspaceType : Option WorkspaceType
  bookedHours : ℕ
  availableHours : ℕ
  occupancyRate : ℚ

/-- The columns of the unique index. -/
def DailyUtilizationSnapshot.key (snapshot : DailyUtilizationSnapshot) : ℤ × String :=
  (snapshot.date, snapshot.workspaceId)

/-- The local day of an instant, where local time is `offset` ahead of UTC. -/
def localDay (offset t : ℤ) : ℤ := (t+offset)/millisPerDay

/-- `setDate(getDate()-1)` and `setHours(0, 0, 0, 0)`. -/
def startOfYesterday (offset now : ℤ) : ℤ :=
  let yesterday := setUTCDate (now+offset) (getUTCDate (now+offset)-1)
  setUTCTime yesterday 0 0 0 0-offset

def findBookings (bookings : List Booking) (yesterday : ℤ) (workspaceId : String) : List Booking :=
  bookings.filter fun b => b.workspaceId = workspaceId ∧ b.status = .confirmed ∧
    Between yesterday (yesterday+24*60*60*1000) b.startTime

/-- The snapshot of one workspace, where every booking counts for one hour. -/
def snapshotOf (offset yesterday : ℤ) (bookings : List Booking) (workspace : WorkspaceRow) :
    DailyUtilizationSnapshot :=
  let bookedHours := (findBookings bookings yesterday workspace.id).length
  let availableHours : ℕ := 10
  let occupancyRate : ℚ := if 0 < availableHours then bookedHours/availableHours*100 else 0
  { date := localDay offset yesterday
    workspaceId := workspace.id
    workspaceType := some workspace.type
    bookedHours := bookedHours
    availableHours := availableHours
    occupancyRate := min 100 occupancyRate }

/-- One run of the job. -/
def aggregateDailyUtilization (offset now : ℤ) (workspaces : List WorkspaceRow)
    (bookings : List Booking) (snapshots : List DailyUtilizationSnapshot) :
    List DailyUtilizationSnapshot :=
  let yesterday := startOfYesterday offset now
  workspaces.foldl (fun snapshots workspace =>
    save DailyUtilizationSnapshot.key snapshots (snapshotOf offset yesterday bookings workspace))
    snapshots

/-- A server that runs the job once on every local day, and the bookings that come to be fixed as
Confirmed. The table holds others as well, at any time, none of which is Confirmed. -/
structure Server where
  offset : ℤ
  workspaces : List WorkspaceRow
  runAt : ℤ → ℤ
  table : ℤ → List Booking
  fixed : List Booking
  fixedAt : Booking → ℤ
  distinct : Keyed WorkspaceRow.id workspaces
  daily : ∀ day, localDay offset (runAt day) = day
  confirmed : ∀ now, ((table now).filter fun b => b.status = .confirmed).Perm
    (fixed.filter fun b => fixedAt b ≤ now)
  /-- A booking is fixed before its day is aggregated, which is on the next. -/
  in_time : ∀ b ∈ fixed, fixedAt b ≤ runAt (localDay offset b.startTime+1)
  hosted : ∀ b ∈ fixed, b.workspaceId ∈ workspaces.map WorkspaceRow.id

variable (s : Server)

def Server.day (t : ℤ) : ℤ := localDay s.offset t

/-- The job at a time of its own choice. -/
def Server.aggregate (now : ℤ) (snapshots : List DailyUtilizationSnapshot) :
    List DailyUtilizationSnapshot :=
  aggregateDailyUtilization s.offset now s.workspaces (s.table now) snapshots

/-- The snapshots after runs on so many days, from the first one on. -/
def Server.snapshotsAfter (initial : List DailyUtilizationSnapshot) (first : ℤ) :
    ℕ → List DailyUtilizationSnapshot
  | 0 => initial
  | n+1 => s.aggregate (s.runAt (first+n)) (Server.snapshotsAfter initial first n)

/-- The bookings that the run of a time counts for a workspace. -/
def Server.found (now : ℤ) (workspaceId : String) : List Booking :=
  findBookings (s.table now) (startOfYesterday s.offset now) workspaceId

/-- A booking that starts when a local day begins. -/
def Server.AtMidnight (b : Booking) : Prop := (b.startTime+s.offset)%millisPerDay = 0

instance (b : Booking) : Decidable (s.AtMidnight b) := inferInstanceAs (Decidable (_ = _))

/-- Every booking is counted in one snapshot of its workspace, that of the day on which it starts,
and a run later on the same day changes nothing. -/
structure Server.CountsOnce : Prop where
  once : ∀ b ∈ s.fixed, ∀ day workspaceId,
    b ∈ s.found (s.runAt (day+1)) workspaceId ↔
      day = s.day b.startTime ∧ workspaceId = b.workspaceId
  hours : ∀ initial, ∀ first : ℤ, ∀ n : ℕ, ∀ workspace ∈ s.workspaces, ∀ day, first ≤ day+1 →
    day+1 < first+n → ∃ snapshot,
      findRow DailyUtilizationSnapshot.key (s.snapshotsAfter initial first n) (day, workspace.id) =
        some snapshot ∧
      snapshot.bookedHours =
        s.fixed.countP fun b => s.day b.startTime = day ∧ b.workspaceId = workspace.id
  rerun : ∀ initial, Keyed DailyUtilizationSnapshot.key initial → ∀ first : ℤ, ∀ n : ℕ, ∀ now,
    s.runAt (first+n) ≤ now → s.day now = first+n →
      s.aggregate now (s.snapshotsAfter initial first (n+1)) = s.snapshotsAfter initial first (n+1)

/-- No booking that starts at a local midnight is fixed before the day that it begins is over. -/
def Server.MidnightsLate : Prop :=
  ∀ b ∈ s.fixed, s.AtMidnight b → s.day b.startTime < s.day (s.fixedAt b)

theorem startOfYesterday_eq (offset now : ℤ) :
    startOfYesterday offset now = (localDay offset now-1)*millisPerDay-offset := by
  have hmoved := setUTCDate_getUTCDate (now+offset) (-1)
  rw [← sub_eq_add_neg] at hmoved
  rw [startOfYesterday, localDay, hmoved]
  unfold setUTCTime setUTCHours millisPerHour millisPerDay
  omega

theorem localDay_startOfYesterday (offset now : ℤ) :
    localDay offset (startOfYesterday offset now) = localDay offset now-1 := by
  rw [startOfYesterday_eq, localDay, sub_add_cancel]
  exact Int.mul_ediv_cancel _ (by decide)

/-- What the range of the query holds: the day before, and the midnight after it. -/
theorem between_yesterday (offset now t : ℤ) :
    Between (startOfYesterday offset now) (startOfYesterday offset now+24*60*60*1000) t ↔
      localDay offset t = localDay offset now-1 ∨
        localDay offset t = localDay offset now ∧ (t+offset)%millisPerDay = 0 := by
  have hshift : Between (startOfYesterday offset now)
      (startOfYesterday offset now+24*60*60*1000) t ↔ Between ((localDay offset now-1)*millisPerDay)
        ((localDay offset now-1)*millisPerDay+millisPerDay) (t+offset) := by
    rw [startOfYesterday_eq]
    unfold Between millisPerDay
    omega
  have hpos : 0 < millisPerDay := by decide
  rw [hshift, between_period hpos, sub_add_cancel]
  generalize localDay offset now = today
  unfold localDay millisPerDay
  omega

/-- What a run finds for a workspace. -/
def Server.Finds (now : ℤ) (workspaceId : String) (b : Booking) : Prop :=
  s.fixedAt b ≤ now ∧ b.workspaceId = workspaceId ∧
    (s.day b.startTime = s.day now-1 ∨ s.day b.startTime = s.day now ∧ s.AtMidnight b)

instance (now : ℤ) (workspaceId : String) (b : Booking) : Decidable (s.Finds now workspaceId b) :=
  inferInstanceAs (Decidable (_ ∧ _))

theorem found_perm (now : ℤ) (workspaceId : String) :
    (s.found now workspaceId).Perm (s.fixed.filter fun b => s.Finds now workspaceId b) := by
  have hfound : s.found now workspaceId =
      ((s.table now).filter fun b => b.status = .confirmed).filter fun b =>
        b.workspaceId = workspaceId ∧
        (s.day b.startTime = s.day now-1 ∨ s.day b.startTime = s.day now ∧ s.AtMidnight b) := by
    rw [Server.found, findBookings, List.filter_filter]
    apply List.filter_congr
    intro b _
    rw [← Bool.decide_and, decide_eq_decide, between_yesterday]
    exact ⟨fun h => ⟨⟨h.1, h.2.2⟩, h.2.1⟩, fun h => ⟨h.1.1, h.2, h.1.2⟩⟩
  have hfixed : (s.fixed.filter fun b => s.Finds now workspaceId b) =
      (s.fixed.filter fun b => s.fixedAt b ≤ now).filter fun b => b.workspaceId = workspaceId ∧
        (s.day b.startTime = s.day now-1 ∨ s.day b.startTime = s.day now ∧ s.AtMidnight b) := by
    rw [List.filter_filter]
    apply List.filter_congr
    intro b _
    rw [← Bool.decide_and, decide_eq_decide]
    exact and_comm
  rw [hfound, hfixed]
  exact (s.confirmed now).filter _

variable {s}

theorem mem_found {now : ℤ} {workspaceId : String} {b : Booking} :
    b ∈ s.found now workspaceId ↔ b ∈ s.fixed ∧ s.Finds now workspaceId b := by
  rw [(found_perm s now workspaceId).mem_iff, List.mem_filter, decide_eq_true_eq]

theorem length_found (now : ℤ) (workspaceId : String) : (s.found now workspaceId).length =
    s.fixed.countP fun b => s.Finds now workspaceId b := by
  rw [(found_perm s now workspaceId).length_eq, List.countP_eq_length_filter]

theorem day_mono {t t' : ℤ} (h : t ≤ t') : s.day t ≤ s.day t' := by
  unfold Server.day localDay millisPerDay
  omega

/-- With no midnight fixed too early, every run of a day finds the bookings of the day before. -/
theorem finds_iff (h : s.MidnightsLate) {b : Booking} (hb : b ∈ s.fixed) {now : ℤ}
    (hnow : s.runAt (s.day now) ≤ now) (workspaceId : String) :
    s.Finds now workspaceId b ↔ b.workspaceId = workspaceId ∧ s.day b.startTime = s.day now-1 := by
  constructor
  · rintro ⟨hfixed, hworkspace, hbefore | ⟨htoday, hmidnight⟩⟩
    · exact ⟨hworkspace, hbefore⟩
    · -- it would have been fixed on the day that it begins
      have hlate := h b hb hmidnight
      have hday := day_mono (s := s) hfixed
      omega
  · rintro ⟨hworkspace, hbefore⟩
    have hin := s.in_time b hb
    have htoday : localDay s.offset b.startTime+1 = s.day now := by
      rw [← Server.day]
      omega
    rw [htoday] at hin
    exact ⟨hin.trans hnow, hworkspace, .inl hbefore⟩

/-- The snapshot that a run writes for a workspace. -/
def Server.snapshot (s : Server) (now : ℤ) (workspace : WorkspaceRow) : DailyUtilizationSnapshot :=
  snapshotOf s.offset (startOfYesterday s.offset now) (s.table now) workspace

theorem key_snapshot (now : ℤ) (workspace : WorkspaceRow) :
    (s.snapshot now workspace).key = (s.day now-1, workspace.id) :=
  congrArg (·, workspace.id) (localDay_startOfYesterday s.offset now)

theorem aggregate_eq (now : ℤ) (snapshots : List DailyUtilizationSnapshot) :
    s.aggregate now snapshots =
      saveAll DailyUtilizationSnapshot.key snapshots (s.workspaces.map (s.snapshot now)) := by
  rw [saveAll, List.foldl_map]
  rfl

theorem keyed_snapshots (now : ℤ) :
    Keyed DailyUtilizationSnapshot.key (s.workspaces.map (s.snapshot now)) := by
  rw [Keyed, List.map_map]
  have hkeys : DailyUtilizationSnapshot.key ∘ s.snapshot now =
      (fun id => (s.day now-1, id)) ∘ WorkspaceRow.id := funext (key_snapshot now)
  rw [hkeys, ← List.map_map]
  exact s.distinct.map fun a b hab => (Prod.mk.inj hab).2

/-- A run stores the snapshots of the day before, -/
theorem findRow_aggregate {now : ℤ} {snapshots : List DailyUtilizationSnapshot}
    {workspace : WorkspaceRow} (h : workspace ∈ s.workspaces) :
    findRow DailyUtilizationSnapshot.key (s.aggregate now snapshots) (s.day now-1, workspace.id) =
      some (s.snapshot now workspace) := by
  have hmem : s.snapshot now workspace ∈ s.workspaces.map (s.snapshot now) :=
    List.mem_map_of_mem h
  have hkey : (s.day now-1, workspace.id) ∈
      (s.workspaces.map (s.snapshot now)).map DailyUtilizationSnapshot.key := by
    rw [← key_snapshot]
    exact List.mem_map_of_mem hmem
  obtain ⟨row, hrow, hsame, hfound⟩ : ∃ row ∈ s.workspaces.map (s.snapshot now), _ ∧
      findRow DailyUtilizationSnapshot.key (saveAll DailyUtilizationSnapshot.key snapshots
        (s.workspaces.map (s.snapshot now))) _ = some row := findRow_saveAll_of_mem hkey
  rw [← key_snapshot] at hsame
  obtain rfl := (keyed_snapshots now).eq_of_key hrow hmem hsame
  rw [aggregate_eq]
  exact hfound

/-- and leaves those of the other days. -/
theorem findRow_aggregate_of_ne {now day : ℤ} {snapshots : List DailyUtilizationSnapshot}
    {workspaceId : String} (h : day ≠ s.day now-1) :
    findRow DailyUtilizationSnapshot.key (s.aggregate now snapshots) (day, workspaceId) =
      findRow DailyUtilizationSnapshot.key snapshots (day, workspaceId) := by
  rw [aggregate_eq]
  apply findRow_saveAll_of_not_mem
  rw [List.map_map, List.mem_map]
  rintro ⟨workspace, _, hkey⟩
  exact h (Prod.mk.inj ((key_snapshot now workspace).symm.trans hkey)).1.symm

theorem findRow_snapshotsAfter (initial : List DailyUtilizationSnapshot) (first : ℤ) (n : ℕ)
    {workspace : WorkspaceRow} (h : workspace ∈ s.workspaces) {day : ℤ} (hfirst : first ≤ day+1)
    (hlast : day+1 < first+n) :
    findRow DailyUtilizationSnapshot.key (s.snapshotsAfter initial first n) (day, workspace.id) =
      some (s.snapshot (s.runAt (day+1)) workspace) := by
  induction n with
  | zero => omega
  | succ n ih =>
    have hday : s.day (s.runAt (first+n)) = first+n := s.daily _
    rw [Server.snapshotsAfter]
    by_cases hnow : day+1 = first+n
    · have hbefore : day = s.day (s.runAt (first+n))-1 := by omega
      have hstored : findRow DailyUtilizationSnapshot.key
          (s.aggregate (s.runAt (first+n)) (s.snapshotsAfter initial first n))
          (s.day (s.runAt (first+n))-1, workspace.id) =
            some (s.snapshot (s.runAt (first+n)) workspace) := findRow_aggregate h
      rw [← hbefore] at hstored
      rw [hnow]
      exact hstored
    · rw [findRow_aggregate_of_ne (by omega)]
      exact ih (by omega)

theorem keyed_snapshotsAfter {initial : List DailyUtilizationSnapshot}
    (h : Keyed DailyUtilizationSnapshot.key initial) (first : ℤ) (n : ℕ) :
    Keyed DailyUtilizationSnapshot.key (s.snapshotsAfter initial first n) := by
  induction n with
  | zero => exact h
  | succ n ih =>
    rw [Server.snapshotsAfter, aggregate_eq]
    exact ih.saveAll _

/-- Two runs on one day write the same when they count the same. -/
theorem snapshot_congr {now now' : ℤ} (hday : s.day now = s.day now') {workspace : WorkspaceRow}
    (hcount : (s.found now workspace.id).length = (s.found now' workspace.id).length) :
    s.snapshot now workspace = s.snapshot now' workspace := by
  have hstart : startOfYesterday s.offset now = startOfYesterday s.offset now' := by
    rw [startOfYesterday_eq, startOfYesterday_eq, ← Server.day, ← Server.day, hday]
  simp only [Server.found] at hcount
  simp only [Server.snapshot, snapshotOf, hcount]
  rw [hstart]

/-- The run of a day counts for each workspace the bookings of the day before. -/
theorem length_found_eq (h : s.MidnightsLate) {now : ℤ} (hnow : s.runAt (s.day now) ≤ now)
    (workspaceId : String) : (s.found now workspaceId).length =
      s.fixed.countP fun b => s.day b.startTime = s.day now-1 ∧ b.workspaceId = workspaceId := by
  rw [length_found]
  apply List.countP_congr
  intro b hb
  rw [decide_eq_true_eq, decide_eq_true_eq, finds_iff h hb hnow, and_comm]

theorem countsOnce_of_midnightsLate (h : s.MidnightsLate) : s.CountsOnce := by
  have hrun : ∀ day, s.day (s.runAt day) = day := s.daily
  have hself : ∀ day, s.runAt (s.day (s.runAt day)) ≤ s.runAt day := by
    intro day
    rw [hrun]
  refine ⟨?_, ?_, ?_⟩
  · intro b hb day workspaceId
    rw [mem_found, finds_iff h hb (hself _), hrun, add_sub_cancel_right]
    constructor
    · rintro ⟨_, rfl, hday⟩
      exact ⟨hday.symm, rfl⟩
    · rintro ⟨rfl, rfl⟩
      exact ⟨hb, rfl, rfl⟩
  · intro initial first n workspace hworkspace day hfirst hlast
    refine ⟨_, findRow_snapshotsAfter initial first n hworkspace hfirst hlast, ?_⟩
    have hcount := length_found_eq h (hself (day+1)) workspace.id
    rw [hrun, add_sub_cancel_right] at hcount
    exact hcount
  · intro initial hkeyed first n now hnow htoday
    have hday : s.day (s.runAt (first+n)) = s.day now := by
      rw [hrun, htoday]
    have hafter : s.runAt (s.day now) ≤ now := by
      rw [htoday]
      exact hnow
    rw [aggregate_eq]
    apply (keyed_snapshotsAfter hkeyed first (n+1)).saveAll_of_mem
    intro row hrow
    obtain ⟨workspace, hworkspace, rfl⟩ := List.mem_map.mp hrow
    -- the run before has written this very snapshot
    have hsame : s.snapshot now workspace = s.snapshot (s.runAt (first+n)) workspace := by
      apply snapshot_congr hday.symm
      rw [length_found_eq h hafter, length_found_eq h (hself _), hday]
    rw [hsame, Server.snapshotsAfter, aggregate_eq]
    exact mem_saveAll_of_keyed (keyed_snapshots _) (List.mem_map_of_mem hworkspace)

theorem countP_lt_countP {α : Type*} {p q : α → Bool} {l : List α} (h : ∀ a ∈ l, p a → q a) {b : α}
    (hb : b ∈ l) (hp : ¬p b) (hq : q b) : l.countP p < l.countP q := by
  obtain ⟨pre, post, rfl⟩ := List.append_of_mem hb
  have hpre : pre.countP p ≤ pre.countP q :=
    List.countP_mono_left fun a ha => h a (List.mem_append_left _ ha)
  have hpost : post.countP p ≤ post.countP q :=
    List.countP_mono_left fun a ha => h a (List.mem_append_right _ (List.mem_cons_of_mem _ ha))
  rw [List.countP_append, List.countP_append, List.countP_cons, List.countP_cons, if_neg hp,
    if_pos hq]
  omega

/-- A booking that is fixed at the midnight it starts at, or later on that day, is counted by a run
from then on. -/
theorem length_found_lt {b : Booking} (hb : b ∈ s.fixed) (hmidnight : s.AtMidnight b)
    (hday : s.day (s.fixedAt b) = s.day b.startTime)
    (hlate : s.runAt (s.day b.startTime) < s.fixedAt b) :
    (s.found (s.runAt (s.day b.startTime)) b.workspaceId).length <
      (s.found (s.fixedAt b) b.workspaceId).length := by
  have hrun : s.day (s.runAt (s.day b.startTime)) = s.day b.startTime := s.daily _
  rw [length_found, length_found]
  apply countP_lt_countP _ hb
  · intro hfinds
    exact hlate.not_ge (of_decide_eq_true hfinds).1
  · exact decide_eq_true ⟨le_rfl, rfl, .inr ⟨hday.symm, hmidnight⟩⟩
  · intro a _ ha
    obtain ⟨hbefore, hworkspaceId, hdays⟩ := of_decide_eq_true ha
    rw [hrun, ← hday] at hdays
    exact decide_eq_true ⟨hbefore.trans hlate.le, hworkspaceId, hdays⟩

/-- A run that changes nothing counts what the run before has counted. -/
theorem length_found_of_rerun (h : s.CountsOnce) {now : ℤ} (hnow : s.runAt (s.day now) ≤ now)
    {workspace : WorkspaceRow} (hworkspace : workspace ∈ s.workspaces) :
    (s.found (s.runAt (s.day now)) workspace.id).length = (s.found now workspace.id).length := by
  have hzero : s.day now+((0 : ℕ) : ℤ) = s.day now := by
    rw [Nat.cast_zero, add_zero]
  have hrerun := h.rerun [] List.nodup_nil (s.day now) 0 now
  rw [hzero] at hrerun
  have hlater : findRow DailyUtilizationSnapshot.key
      (s.aggregate now (s.snapshotsAfter [] (s.day now) (0+1))) (s.day now-1, workspace.id) =
        some (s.snapshot now workspace) := findRow_aggregate hworkspace
  have hbefore := findRow_snapshotsAfter [] (s.day now) (0+1) hworkspace
    (le_of_eq (sub_add_cancel (s.day now) 1).symm) (by omega)
  rw [hrerun hnow rfl, hbefore, sub_add_cancel] at hlater
  exact congrArg DailyUtilizationSnapshot.bookedHours (Option.some.inj hlater)

theorem midnightsLate_of_countsOnce (h : s.CountsOnce) : s.MidnightsLate := by
  intro b hb hmidnight
  by_contra hearly
  have hrun : s.day (s.runAt (s.day b.startTime)) = s.day b.startTime := s.daily _
  by_cases hfixed : s.fixedAt b ≤ s.runAt (s.day b.startTime)
  · -- the run on its own day counts it for the day before
    have hfinds : s.Finds (s.runAt (s.day b.startTime)) b.workspaceId b :=
      ⟨hfixed, rfl, .inr ⟨hrun.symm, hmidnight⟩⟩
    have honce := h.once b hb (s.day b.startTime-1) b.workspaceId
    rw [sub_add_cancel, mem_found] at honce
    have hday := (honce.mp ⟨hb, hfinds⟩).1
    omega
  · -- it is fixed later on its own day, and a run at this time counts it in addition
    have hlate := not_le.mp hfixed
    have hday : s.day (s.fixedAt b) = s.day b.startTime := by
      have hle := day_mono (s := s) hlate.le
      omega
    obtain ⟨workspace, hworkspace, hid⟩ := List.mem_map.mp (s.hosted b hb)
    have hsame : (s.found (s.runAt (s.day (s.fixedAt b))) workspace.id).length =
        (s.found (s.fixedAt b) workspace.id).length := by
      apply length_found_of_rerun h _ hworkspace
      rw [hday]
      exact hlate.le
    have hmore := length_found_lt hb hmidnight hday hlate
    rw [hday, hid] at hsame
    omega

/-- A booking of the second day of 1970 that starts with the day. -/
def firstHour : Booking :=
  ⟨1, "room-1", "user-1", 86400000, 90000000, .confirmed, 10, none, none, none, none, none, none⟩

/-- The job runs at two in the morning. -/
def nightly : Server where
  offset := 0
  workspaces := [⟨"room-1", .meetingRoom⟩]
  runAt day := day*millisPerDay+2*millisPerHour
  table now := if 0 ≤ now then [firstHour] else []
  fixed := [firstHour]
  fixedAt _ := 0
  distinct := List.nodup_singleton _
  daily day := by
    unfold localDay millisPerDay millisPerHour
    omega
  confirmed now := by
    by_cases h : 0 ≤ now
    · simp [h, firstHour]
    · simp [h]
  in_time b hb := by
    rw [List.mem_singleton.mp hb]
    decide
  hosted b hb := by
    rw [List.mem_singleton.mp hb]
    exact List.mem_singleton.mpr rfl

/-- A booking at midnight is counted for the day that ends as well. -/
theorem midnight_counted_twice : ¬∀ s : Server, s.CountsOnce := by
  intro hall
  have honce := (hall nightly).once firstHour List.mem_cons_self 0 "room-1"
  have hfinds : nightly.Finds (nightly.runAt (0+1)) "room-1" firstHour := by decide
  rw [mem_found] at honce
  exact absurd (honce.mp ⟨List.mem_cons_self, hfinds⟩).1 (by decide)

/-- Every booking is counted once, and every further run on a day changes nothing, exactly when no
booking that starts at a local midnight is fixed before its day is over. -/
theorem countsOnce_iff (s : Server) : s.CountsOnce ↔ s.MidnightsLate :=
  ⟨midnightsLate_of_countsOnce, countsOnce_of_midnightsLate⟩

end HubAssist.Analytics
