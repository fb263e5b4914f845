import HubAssist.AttendanceSummaryModel

/-! Which sessions a summary counts, and that its buckets and anomalies add up to its totals. -/
namespace HubAssist.Attendances
open Checks KeyedTable GroupTable

variable {Id : Type} {records rest : List (Attendance Id)} {record : Attendance Id}
variable {sessionMap : List (SessionPair Id)} {pair : SessionPair Id} {id : String}
variable {start stop : Option ℤ}

/-- The record clocks in to the session. -/
def IsClockIn (id : String) (record : Attendance Id) : Prop :=
  record.action = .clockIn ∧ record.sessionId = some id

/-- The record clocks out of the session. -/
def IsClockOut (id : String) (record : Attendance Id) : Prop :=
  record.action = .clockOut ∧ record.sessionId = some id

instance (id : String) (record : Attendance Id) : Decidable (IsClockIn id record) :=
  inferInstanceAs (Decidable (_ ∧ _))

instance (id : String) (record : Attendance Id) : Decidable (IsClockOut id record) :=
  inferInstanceAs (Decidable (_ ∧ _))

/-- The session has a clock-in that no other precedes and that lies in the window, and a clock-out
after it. Identifiers are not empty. -/
def Counted (records : List (Attendance Id)) (start stop : Option ℤ) (id : String) : Prop :=
  id ≠ "" ∧ ∃ clockIn clockOut, [clockIn, clockOut].Sublist records ∧ IsClockIn id clockIn ∧
    IsClockOut id clockOut ∧ (∀ r ∈ records, IsClockIn id r → clockIn.timestamp ≤ r.timestamp) ∧
    InWindow start stop clockIn.date

/-- What a record does to the entry of one session. -/
def pairStep (id : String) (pair : Option (SessionPair Id)) (record : Attendance Id) :
    Option (SessionPair Id) :=
  match pair with
  | none => if IsClockIn id record then some ⟨id, record, none⟩ else none
  | some p => if IsClockOut id record then some { p with clockOut := some record } else some p

theorem sessionOf_eq_some (hid : id ≠ "") : sessionOf record = some id ↔
    record.sessionId = some id := by
  simp [sessionOf, Option.filter_eq_some_iff, hid]

/-- A record changes nothing, or the entry of its session. -/
theorem pairRecord_cases (sessionMap : List (SessionPair Id)) (record : Attendance Id) :
    pairRecord sessionMap record = sessionMap ∨
    ∃ row, pairRecord sessionMap record = save SessionPair.sessionId sessionMap row ∧
      sessionOf record = some row.sessionId := by
  rw [pairRecord]
  cases hid : sessionOf record with
  | none => exact Or.inl rfl
  | some id =>
    dsimp only
    cases record.action with
    | clockIn =>
      cases findRow SessionPair.sessionId sessionMap id with
      | none => exact Or.inr ⟨_, rfl, rfl⟩
      | some session => exact Or.inl rfl
    | clockOut =>
      cases hfind : findRow SessionPair.sessionId sessionMap id with
      | none => exact Or.inl rfl
      | some session => exact Or.inr ⟨_, rfl, congrArg some (findRow_eq_some hfind).2.symm⟩

/-- A record of another session, or of none, leaves the entry of a session alone. -/
theorem findRow_pairRecord_of_ne (hid : id ≠ "") (h : record.sessionId ≠ some id) :
    findRow SessionPair.sessionId (pairRecord sessionMap record) id =
      findRow SessionPair.sessionId sessionMap id := by
  rcases pairRecord_cases sessionMap record with hsame | ⟨row, hsaved, hrow⟩
  · rw [hsame]
  · rw [hsaved, findRow_save_of_ne]
    rintro rfl
    exact h ((sessionOf_eq_some hid).mp hrow)

/-- The map has under each identifier what the records of that session have made of it. -/
theorem findRow_pairRecord (hid : id ≠ "") (sessionMap : List (SessionPair Id))
    (record : Attendance Id) :
    findRow SessionPair.sessionId (pairRecord sessionMap record) id =
      pairStep id (findRow SessionPair.sessionId sessionMap id) record := by
  by_cases hsession : record.sessionId = some id
  · have hof : sessionOf record = some id := (sessionOf_eq_some hid).mpr hsession
    rw [pairRecord, hof]
    dsimp only
    cases haction : record.action with
    | clockIn =>
      cases hfind : findRow SessionPair.sessionId sessionMap id with
      | none =>
        have hself : findRow SessionPair.sessionId
            (save SessionPair.sessionId sessionMap ⟨id, record, none⟩) id =
              some ⟨id, record, none⟩ := findRow_save_self
        simp [hself, pairStep, IsClockIn, haction, hsession]
      | some session => simp [hfind, pairStep, IsClockOut, haction]
    | clockOut =>
      cases hfind : findRow SessionPair.sessionId sessionMap id with
      | none => simp [hfind, pairStep, IsClockIn, haction]
      | some session =>
        obtain ⟨_, rfl⟩ := findRow_eq_some hfind
        have hself : findRow SessionPair.sessionId (save SessionPair.sessionId sessionMap
            { session with clockOut := some record }) session.sessionId =
              some { session with clockOut := some record } := findRow_save_self
        simp [hself, pairStep, IsClockOut, haction, hsession]
  · rw [findRow_pairRecord_of_ne hid hsession]
    cases findRow SessionPair.sessionId sessionMap id with
    | none => simp [pairStep, IsClockIn, hsession]
    | some session => simp [pairStep, IsClockOut, hsession]

theorem findRow_pairRecords (hid : id ≠ "") (records : List (Attendance Id)) :
    findRow SessionPair.sessionId (pairRecords records) id =
      records.foldl (pairStep id) none := by
  induction records using List.reverseRecOn with
  | nil => rfl
  | append_singleton records record ih =>
    rw [pairRecords, List.foldl_concat, List.foldl_concat, findRow_pairRecord hid, ← pairRecords,
      ih]

/-- The map has an entry once for each session, under an identifier that is not empty. -/
theorem pairRecords_keyed (records : List (Attendance Id)) :
    Keyed SessionPair.sessionId (pairRecords records) ∧
      ∀ p ∈ pairRecords records, p.sessionId ≠ "" := by
  induction records using List.reverseRecOn with
  | nil => exact ⟨List.nodup_nil, by simp [pairRecords]⟩
  | append_singleton records record ih =>
    rw [pairRecords, List.foldl_concat, ← pairRecords]
    rcases pairRecord_cases (pairRecords records) record with hsame | ⟨row, hsaved, hrow⟩
    · rwa [hsame]
    · rw [hsaved]
      refine ⟨Keyed.save ih.1 row, fun p hp => ?_⟩
      rcases mem_of_mem_save hp with rfl | hp
      · exact of_decide_eq_true (Option.filter_eq_some_iff.mp hrow).2
      · exact ih.2 p hp

/-- From an entry on only clock-outs count. -/
theorem foldl_pairStep_some (id : String) (records : List (Attendance Id)) (pair : SessionPair Id) :
    ∃ out, records.foldl (pairStep id) (some pair) = some { pair with clockOut := out } ∧
      (out.isSome = true ↔ pair.clockOut.isSome = true ∨ ∃ r ∈ records, IsClockOut id r) := by
  induction records generalizing pair with
  | nil => exact ⟨pair.clockOut, rfl, by simp⟩
  | cons record records ih =>
    rw [List.foldl_cons, pairStep]
    by_cases hout : IsClockOut id record
    · rw [if_pos hout]
      obtain ⟨out, hfold, hsome⟩ := ih { pair with clockOut := some record }
      exact ⟨out, hfold, by simp [hsome, hout]⟩
    · rw [if_neg hout]
      obtain ⟨out, hfold, hsome⟩ := ih pair
      exact ⟨out, hfold, by simp [hsome, hout]⟩

/-- The entry of a session: its first clock-in, and whether a clock-out follows. -/
theorem foldl_pairStep_none (id : String) (records : List (Attendance Id)) :
    (records.foldl (pairStep id) none = none ∧ ∀ r ∈ records, ¬IsClockIn id r) ∨
    ∃ pair pre rest, records.foldl (pairStep id) none = some pair ∧ pair.sessionId = id ∧
      records = pre ++ pair.clockIn :: rest ∧ IsClockIn id pair.clockIn ∧
      (∀ r ∈ pre, ¬IsClockIn id r) ∧
      (pair.clockOut.isSome = true ↔ ∃ r ∈ rest, IsClockOut id r) := by
  induction records with
  | nil => exact Or.inl ⟨rfl, by simp⟩
  | cons record records ih =>
    rw [List.foldl_cons, pairStep]
    by_cases hin : IsClockIn id record
    · rw [if_pos hin]
      obtain ⟨out, hfold, hsome⟩ := foldl_pairStep_some id records ⟨id, record, none⟩
      refine Or.inr ⟨_, [], records, hfold, rfl, rfl, hin, by simp, ?_⟩
      simpa using hsome
    · rw [if_neg hin]
      rcases ih with ⟨hnone, hall⟩ | ⟨pair, pre, rest, hfold, hid, rfl, hclockIn, hpre, hsome⟩
      · exact Or.inl ⟨hnone, List.forall_mem_cons.mpr ⟨hin, hall⟩⟩
      · exact Or.inr ⟨pair, record :: pre, rest, hfold, hid, rfl, hclockIn,
          List.forall_mem_cons.mpr ⟨hin, hpre⟩, hsome⟩

/-- With `a` not before `c`, what comes after `a` comes after `c`. -/
theorem mem_of_sublist_split {α : Type} {a b c : α} {pre rest : List α}
    (h : [a, b].Sublist (pre ++ c :: rest)) (ha : a ∉ pre) : b ∈ rest := by
  obtain ⟨before, after, hsplit, hbefore, hafter⟩ := List.sublist_append_iff.mp h
  cases before with
  | nil =>
    rw [List.nil_append] at hsplit
    subst hsplit
    cases hafter with
    | cons _ htail => exact htail.subset (by simp)
    | cons_cons _ htail => exact htail.subset (by simp)
  | cons x before =>
    obtain ⟨rfl, _⟩ := List.cons.inj hsplit
    exact absurd (hbefore.subset List.mem_cons_self) ha

/-- In records in the order of their times the first clock-in is an earliest one. -/
theorem first_earliest {pre : List (Attendance Id)}
    (hsorted : records.Pairwise fun a b => a.timestamp ≤ b.timestamp)
    (hsplit : records = pre ++ record :: rest) (hpre : ∀ r ∈ pre, ¬IsClockIn id r) :
    ∀ r ∈ records, IsClockIn id r → record.timestamp ≤ r.timestamp := by
  subst hsplit
  intro r hr hin
  rcases List.mem_append.mp hr with hr | hr
  · exact absurd hin (hpre r hr)
  · rcases List.mem_cons.mp hr with rfl | hr
    · exact le_rfl
    · exact List.rel_of_pairwise_cons (List.pairwise_append.mp hsorted).2.1 hr

/-- A session is counted exactly when its entry is complete and its clock-in lies in the window. -/
theorem counted_iff (hsorted : records.Pairwise fun a b => a.timestamp ≤ b.timestamp)
    (hid : id ≠ "") : Counted records start stop id ↔
      ∃ pair, records.foldl (pairStep id) none = some pair ∧ pair.clockOut.isSome = true ∧
        InWindow start stop pair.clockIn.date := by
  rcases foldl_pairStep_none id records with ⟨hnone, hall⟩ |
    ⟨pair, pre, rest, hfold, _, hsplit, hclockIn, hpre, hsome⟩
  · rw [hnone]
    refine iff_of_false ?_ (by simp)
    rintro ⟨_, clockIn, clockOut, hsub, hin, _⟩
    exact hall clockIn (hsub.subset List.mem_cons_self) hin
  · have hearliest := first_earliest hsorted hsplit hpre
    constructor
    · rintro ⟨_, clockIn, clockOut, hsub, hin, hout, hfirst, hwindow⟩
      have hmem : clockIn ∈ records := hsub.subset List.mem_cons_self
      have hsame : pair.clockIn.timestamp = clockIn.timestamp :=
        le_antisymm (hearliest clockIn hmem hin)
          (hfirst pair.clockIn (hsplit ▸ List.mem_append_right _ List.mem_cons_self) hclockIn)
      have hafter : clockOut ∈ rest :=
        mem_of_sublist_split (hsplit ▸ hsub) fun hbefore => hpre clockIn hbefore hin
      refine ⟨pair, hfold, hsome.mpr ⟨clockOut, hafter, hout⟩, ?_⟩
      rwa [Attendance.date, hsame]
    · rintro ⟨pair', hfold', hcomplete, hwindow⟩
      obtain rfl := Option.some.inj (hfold.symm.trans hfold')
      obtain ⟨clockOut, hafter, hout⟩ := hsome.mp hcomplete
      refine ⟨hid, pair.clockIn, clockOut, ?_, hclockIn, hout, hearliest, hwindow⟩
      rw [hsplit]
      exact (List.singleton_sublist.mpr hafter).cons_cons pair.clockIn |>.trans
        (List.sublist_append_right pre _)

theorem summarize_eq_some {session : SessionSummary} :
    summarize start stop pair = some session ↔ ∃ clockOut, pair.clockOut = some clockOut ∧
      InWindow start stop pair.clockIn.date ∧ session =
        ⟨pair.sessionId, pair.clockIn.userId, pair.clockIn.date, clockOut.date,
          (clockOut.date-pair.clockIn.date)/1000,
          anomalyOf ((clockOut.date-pair.clockIn.date)/1000)⟩ := by
  rw [summarize]
  cases pair.clockOut with
  | none => simp
  | some clockOut =>
    dsimp only
    split_ifs with hwindow
    · simp [hwindow, eq_comm]
    · simp [hwindow]

theorem sessionIds_sublist (start stop : Option ℤ) (pairs : List (SessionPair Id)) :
    ((pairs.filterMap (summarize start stop)).map SessionSummary.sessionId).Sublist
      (pairs.map SessionPair.sessionId) := by
  induction pairs with
  | nil => exact List.Sublist.refl _
  | cons pair pairs ih =>
    cases hsession : summarize start stop pair with
    | none =>
      rw [List.filterMap_cons_none hsession]
      exact ih.cons _
    | some session =>
      obtain ⟨_, _, _, rfl⟩ := summarize_eq_some.mp hsession
      rw [List.filterMap_cons_some hsession]
      exact ih.cons_cons _

/-- The sessions of the summary are those counted, each once. -/
theorem sessionsOf_ids (hsorted : records.Pairwise fun a b => a.timestamp ≤ b.timestamp)
    (start stop : Option ℤ) :
    ((sessionsOf start stop records).map SessionSummary.sessionId).Nodup ∧
      ∀ id, id ∈ (sessionsOf start stop records).map SessionSummary.sessionId ↔
        Counted records start stop id := by
  obtain ⟨hkeyed, hnonempty⟩ := pairRecords_keyed records
  refine ⟨hkeyed.sublist (sessionIds_sublist start stop _), fun id => ?_⟩
  simp only [sessionsOf, List.mem_map, List.mem_filterMap]
  constructor
  · rintro ⟨session, ⟨pair, hpair, hsession⟩, rfl⟩
    obtain ⟨clockOut, hclockOut, hwindow, rfl⟩ := summarize_eq_some.mp hsession
    have hid := hnonempty pair hpair
    rw [counted_iff hsorted hid, ← findRow_pairRecords hid, Keyed.findRow_of_mem hkeyed hpair]
    exact ⟨pair, rfl, Option.isSome_of_eq_some hclockOut, hwindow⟩
  · intro hcounted
    have hid := hcounted.1
    obtain ⟨pair, hfold, hcomplete, hwindow⟩ := (counted_iff hsorted hid).mp hcounted
    obtain ⟨clockOut, hclockOut⟩ := Option.isSome_iff_exists.mp hcomplete
    rw [← findRow_pairRecords hid] at hfold
    obtain ⟨hpair, hkey⟩ := findRow_eq_some hfold
    exact ⟨_, ⟨pair, hpair, summarize_eq_some.mpr ⟨clockOut, hclockOut, hwindow, rfl⟩⟩, hkey⟩

section Buckets
variable {luxon : Luxon} {timezone : String} {period : Period} {sessions : List SessionSummary}

theorem bucket_lawful : Lawful BucketEntry.bucket newBucket BucketEntry.add where
  key_fresh _ := rfl
  key_add _ _ := rfl

/-- The buckets are those of the map, in another order and with their averages. -/
theorem bucketsOf_perm (luxon : Luxon) (timezone : String) (period : Period)
    (sessions : List SessionSummary) :
    (bucketsOf luxon timezone period sessions).Perm
      ((group BucketEntry.bucket newBucket BucketEntry.add
        (fun session => toBucketKey luxon timezone period session.clockInUtc) sessions).map
          BucketEntry.withAverage) :=
  List.perm_insertionSort _ _

/-- A total over the buckets is the total over the sessions, when it does not look at averages. -/
theorem sum_buckets {f : BucketEntry → ℤ} {g : SessionSummary → ℤ}
    (haverage : ∀ b, f b.withAverage = f b) (hnew : ∀ key, f (newBucket key) = 0)
    (hadd : ∀ b session, f (b.add session) = f b+g session) :
    ((bucketsOf luxon timezone period sessions).map f).sum = (sessions.map g).sum := by
  rw [((bucketsOf_perm luxon timezone period sessions).map f).sum_eq, List.map_map]
  have hsame : f ∘ BucketEntry.withAverage = f := funext haverage
  rw [hsame, sum_group hnew hadd bucket_lawful]

theorem buckets_nodup :
    ((bucketsOf luxon timezone period sessions).map BucketEntry.bucket).Nodup := by
  have hkeys := (bucketsOf_perm luxon timezone period sessions).map BucketEntry.bucket
  rw [hkeys.nodup_iff, List.map_map]
  exact keyed_group sessions

theorem foldl_add_sessions (sessions : List SessionSummary) (b : BucketEntry) :
    (sessions.foldl BucketEntry.add b).sessions = b.sessions+sessions.length := by
  induction sessions generalizing b with
  | nil => rfl
  | cons session sessions ih =>
    rw [List.foldl_cons, ih, List.length_cons]
    simp only [BucketEntry.add]
    omega

/-- A bucket counts the sessions whose key it has. -/
theorem bucket_counts {b : BucketEntry} (hb : b ∈ bucketsOf luxon timezone period sessions) :
    b.sessions = (members (fun session => toBucketKey luxon timezone period session.clockInUtc)
      sessions b.bucket).length := by
  obtain ⟨entry, hentry, rfl⟩ :=
    List.mem_map.mp ((bucketsOf_perm luxon timezone period sessions).subset hb)
  have hfold := congrArg BucketEntry.sessions ((mem_group_iff bucket_lawful).mp hentry).2
  rw [foldl_add_sessions] at hfold
  simpa only [BucketEntry.withAverage, newBucket, zero_add] using hfold

/-- Every session has a bucket of its key. -/
theorem exists_bucket {session : SessionSummary} (h : session ∈ sessions) :
    ∃ b ∈ bucketsOf luxon timezone period sessions,
      b.bucket = toBucketKey luxon timezone period session.clockInUtc := by
  obtain ⟨entry, hentry, hkey⟩ : ∃ entry ∈ group BucketEntry.bucket newBucket BucketEntry.add
      (fun session => toBucketKey luxon timezone period session.clockInUtc) sessions,
        entry.bucket = toBucketKey luxon timezone period session.clockInUtc :=
    (exists_row_iff bucket_lawful).mpr ⟨session, h, rfl⟩
  refine ⟨entry.withAverage, ?_, hkey⟩
  exact (bucketsOf_perm luxon timezone period sessions).symm.subset
    (List.mem_map_of_mem hentry)

/-- The sessions with a flag, counted one by one. -/
theorem sum_flags (flag : AnomalyFlag) (sessions : List SessionSummary) :
    (sessions.map fun session => if session.anomaly = some flag then (1 : ℤ) else 0).sum =
      ((sessions.filter fun session => session.anomaly ≠ none).filter fun session =>
        session.anomaly = some flag).length := by
  induction sessions with
  | nil => rfl
  | cons session sessions ih =>
    rw [List.map_cons, List.sum_cons, ih]
    by_cases hflag : session.anomaly = some flag
    · simp [hflag, add_comm]
    · by_cases hnone : session.anomaly = none <;> simp [hflag, hnone]

theorem add_short (b : BucketEntry) (session : SessionSummary) :
    ((b.add session).anomalies.short : ℤ) =
      b.anomalies.short+if session.anomaly = some .short then 1 else 0 := by
  simp only [BucketEntry.add]
  split_ifs <;> simp

theorem add_long (b : BucketEntry) (session : SessionSummary) :
    ((b.add session).anomalies.long : ℤ) =
      b.anomalies.long+if session.anomaly = some .long then 1 else 0 := by
  simp only [BucketEntry.add]
  split_ifs <;> simp

end Buckets

/-- What a summary says of the sessions behind it. -/
structure Conserves (luxon : Luxon) (query : AttendanceSummaryQuery)
    (records : List (Attendance Id)) (result : AttendanceSummaryResult)
    (sessions : List SessionSummary) : Prop where
  once : (sessions.map SessionSummary.sessionId).Nodup
  counted (id : String) : id ∈ sessions.map SessionSummary.sessionId ↔ Counted records
    (windowStart luxon result.timezone query) (windowEnd luxon result.timezone query) id
  totalSessions : result.totalSessions = sessions.length
  totalDuration :
    result.totalDurationSeconds = (sessions.map SessionSummary.durationSeconds).sum
  distinct : (result.buckets.map BucketEntry.bucket).Nodup
  placed : ∀ session ∈ sessions, ∃ b ∈ result.buckets,
    b.bucket = toBucketKey luxon result.timezone result.period session.clockInUtc
  filled : ∀ b ∈ result.buckets, b.sessions = (members (fun session =>
    toBucketKey luxon result.timezone result.period session.clockInUtc) sessions b.bucket).length
  sessions_sum :
    (result.buckets.map fun b => (b.sessions : ℤ)).sum = result.totalSessions
  duration_sum :
    (result.buckets.map BucketEntry.totalDurationSeconds).sum = result.totalDurationSeconds
  short_sum : (result.buckets.map fun b => (b.anomalies.short : ℤ)).sum =
    (result.anomalies.filter fun session => session.anomaly = some .short).length
  long_sum : (result.buckets.map fun b => (b.anomalies.long : ℤ)).sum =
    (result.anomalies.filter fun session => session.anomaly = some .long).length

/-- A summary counts exactly the sessions with a clock-in in the window and a clock-out after it,
each of them once and in the one bucket of its key; its totals and its anomalies are those of the
buckets in all; and they do not depend on the period. -/
theorem summary_conserves (luxon : Luxon) (query : AttendanceSummaryQuery)
    (hzone : luxon.isValidIANAZone (query.timezone.getD "UTC") = true)
    (hsorted : records.Pairwise fun a b => a.timestamp ≤ b.timestamp) :
    ∃ result sessions, getAttendanceSummary luxon query records = .ok result ∧
      Conserves luxon query records result sessions ∧
      ∀ period, ∃ result', getAttendanceSummary luxon { query with period := period } records =
          .ok result' ∧ result'.totalSessions = result.totalSessions ∧
        result'.totalDurationSeconds = result.totalDurationSeconds ∧
        result'.anomalies = result.anomalies := by
  have hvalid : failIf (luxon.isValidIANAZone (query.timezone.getD "UTC") = false)
      (AttendanceError.badRequest ("Invalid timezone \"" ++ query.timezone.getD "UTC" ++
        "\". Must be a valid IANA timezone name (e.g. " ++ "\"America/New_York\").")) = .ok () :=
    failIf_eq_ok.mpr (by simp [hzone])
  obtain ⟨honce, hcounted⟩ := sessionsOf_ids hsorted
    (windowStart luxon (query.timezone.getD "UTC") query)
    (windowEnd luxon (query.timezone.getD "UTC") query)
  simp only [getAttendanceSummary, hvalid, ok_bind]
  refine ⟨_, sessionsOf (windowStart luxon (query.timezone.getD "UTC") query)
    (windowEnd luxon (query.timezone.getD "UTC") query) records, rfl, ?_, ?_⟩
  · exact {
      once := honce
      counted := hcounted
      totalSessions := rfl
      totalDuration := rfl
      distinct := buckets_nodup
      placed := fun _ hsession => exists_bucket hsession
      filled := fun _ hb => bucket_counts hb
      sessions_sum := by
        rw [sum_buckets (g := fun _ => 1) (fun _ => rfl) (fun _ => rfl) fun _ _ => rfl]
        simp
      duration_sum := sum_buckets (fun _ => rfl) (fun _ => rfl) fun _ _ => rfl
      short_sum := by
        rw [sum_buckets (fun _ => rfl) (fun _ => rfl) (add_short), sum_flags]
      long_sum := by
        rw [sum_buckets (fun _ => rfl) (fun _ => rfl) (add_long), sum_flags] }
  · intro period
    exact ⟨_, rfl, rfl, rfl, rfl⟩

/-- A clock without zones, whose texts are numbers. -/
def plainClock : Luxon where
  isValidIANAZone zone := zone = "UTC"
  fromISO _ _ := none
  now := 86400000
  minusDays _ t days := t-days*86400000
  toISO _ t := toString t
  toISODate _ t := toString (t/86400000)
  weekYear _ _ := 1970
  weekNumber _ t := t/604800000+1
  year _ _ := 1970
  month _ _ := 1
  hour _ t := t%86400000/3600000
  localeCompare a b := if a < b then -1 else if b < a then 1 else 0

/-- A user is there from nine to noon and looks in again at one; another comes at ten and stays. -/
def morning : List (Attendance ℕ) :=
  [⟨1, "user-1", .clockIn, 32400000000, some "session-1", none, none, false, none, none,
      by decide⟩,
    ⟨2, "user-2", .clockIn, 36000000000, some "session-2", none, none, false, none, none,
      by decide⟩,
    ⟨3, "user-1", .clockOut, 43200000000, some "session-1", none, none, false, none, none,
      by decide⟩,
    ⟨4, "user-1", .clockIn, 46800000000, some "session-3", none, none, false, none, none,
      by decide⟩,
    ⟨5, "user-1", .clockOut, 46860000000, some "session-3", none, none, false, none, none,
      by decide⟩]

/-- The session that is still open is not counted. -/
theorem summary_conserves_morning : ∃ result sessions,
    getAttendanceSummary plainClock ⟨none, some .weekly, none, none⟩ morning = .ok result ∧
      Conserves plainClock ⟨none, some .weekly, none, none⟩ morning result sessions ∧
      result.totalSessions = 2 ∧ result.totalDurationSeconds = 10860 := by
  have hsorted : morning.Pairwise fun a b => a.timestamp ≤ b.timestamp := by
    simp [morning]
  obtain ⟨result, sessions, hresult, hconserves, _⟩ :=
    summary_conserves plainClock ⟨none, some .weekly, none, none⟩ (by decide) hsorted
  have htotals : (getAttendanceSummary plainClock ⟨none, some .weekly, none, none⟩ morning).map
      (fun result => (result.totalSessions, result.totalDurationSeconds)) = .ok (2, 10860) := by
    rfl
  rw [hresult] at htotals
  obtain ⟨hsessions, hduration⟩ := Prod.mk.inj (Except.ok.inj htotals)
  exact ⟨result, sessions, hresult, hconserves, hsessions, hduration⟩

end HubAssist.Attendances
