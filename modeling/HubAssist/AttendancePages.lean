import HubAssist.AttendanceModel
import HubAssist.KeyedTable
import HubAssist.PagedFeed

/-! A client that reads its attendance records page by page, and when the pages make up all of
them. -/
namespace HubAssist.Attendances
open QueryBuilder NodeRuntime CursorUtil JsText PagedFeed KeyedTable IsoDate

variable {Id : Type} [LinearOrder Id] (uuid : UuidType Id) (runtime : Runtime)

/-- The records of a user. -/
def ownRecords (userId : String) (rows : List (Attendance Id)) : List (Attendance Id) :=
  rows.filter fun record => record.deletedAt = none ∧ record.userId = userId

/-- The request of one page; the client goes on while `hasMore` says so. -/
def attendanceRequest (userId : String) (limit : ℤ) (rows : List (Attendance Id))
    (cursor : Option String) : Except AttendanceError (Page (Attendance Id) String) :=
  (getMyAttendance uuid runtime userId ⟨cursor, some limit⟩ rows).map fun page =>
    ⟨page.data, if page.hasMore then page.nextCursor else none⟩

/-- Following the cursors from the first page comes to an end and has shown every record of the
user once, in descending order. -/
def AttendanceComplete (userId : String) (limit : ℤ) (rows : List (Attendance Id)) : Prop :=
  Follows (attendanceRequest uuid runtime userId limit rows) none
    (descending sortKey (ownRecords userId rows))

/-- A record lies before the first microsecond of the millisecond of another, or on it with a
smaller id. -/
def CursorReaches (a b : Attendance Id) : Prop :=
  b.timestamp < 1000*a.date ∨ b.timestamp = 1000*a.date ∧ b.id < a.id

instance (a b : Attendance Id) : Decidable (CursorReaches a b) :=
  inferInstanceAs (Decidable (_ ∨ _))

/-- What the condition of the next request is true of, for a cursor. -/
def pastCursor (cursor : String) (record : Attendance Id) : Bool :=
  match decodeCursor runtime cursor with
  | .ok payload =>
    (beforeCursor uuid).holds (fun name => (cursorParameters runtime payload).lookup name) record
  | .error _ => false

variable {uuid runtime}

def payloadOf (uuid : UuidType Id) (record : Attendance Id) : CursorPayload :=
  ⟨utf16 (toISOString record.date), utf16 (uuid.write record.id).toList⟩

omit [LinearOrder Id] in
/-- The parameters that the next request makes of the cursor of a record: its `Date` and its id. -/
theorem cursorParameters_payloadOf (record : Attendance Id) :
    cursorParameters runtime (payloadOf uuid record) =
      [("ts", .date (some record.date)), ("id", .text (uuid.write record.id))] := by
  simp only [cursorParameters, payloadOf, wellFormed_utf16, String.ofList_toList,
    newDate_toISOString runtime (show InRange record.date from record.inRange)]

theorem pastCursor_cursorOf (a b : Attendance Id) :
    pastCursor uuid runtime (cursorOf uuid a) b = decide (CursorReaches a b) := by
  rw [pastCursor, cursorOf, ← payloadOf, decodeCursor_encodeCursor, Bool.eq_iff_iff,
    decide_eq_true_eq]
  simp [cursorParameters_payloadOf, beforeCursor, List.lookup_cons, uuid.read_write, CursorReaches]

omit [LinearOrder Id] in
theorem ownQuery_accepts (userId : String) :
    (ownQuery userId : SelectQuery ParamValue (Attendance Id)).accepts = true := by
  simp [ownQuery, SelectQuery.accepts, SelectQuery.andWhere, SelectQuery.empty, notDeleted,
    userEquals, SelectQuery.parameter]

omit [LinearOrder Id] in
theorem ownQuery_holds (userId : String) :
    (ownQuery userId : SelectQuery ParamValue (Attendance Id)).holds = fun record =>
      decide (record.deletedAt = none ∧ record.userId = userId) := by
  funext record
  rw [Bool.eq_iff_iff]
  simp [ownQuery, SelectQuery.holds, SelectQuery.andWhere, SelectQuery.empty, notDeleted,
    userEquals, SelectQuery.parameter]

/-- The query of the next page is taken by the database, and asks for the records that the cursor
reaches. -/
theorem cursorQuery_payloadOf (userId : String) (a : Attendance Id) :
    (cursorQuery uuid runtime userId (payloadOf uuid a)).accepts = true ∧
      (cursorQuery uuid runtime userId (payloadOf uuid a)).holds = fun record =>
        decide (record.deletedAt = none ∧ record.userId = userId) &&
          decide (CursorReaches a record) := by
  constructor
  · simp [cursorQuery, ownQuery, SelectQuery.accepts, SelectQuery.andWhere, SelectQuery.empty,
      notDeleted, userEquals, beforeCursor, SelectQuery.parameter, List.lookup_cons,
      cursorParameters_payloadOf, uuid.read_write]
  · funext record
    rw [Bool.eq_iff_iff, Bool.and_eq_true, decide_eq_true_eq, decide_eq_true_eq]
    simp [cursorQuery, ownQuery, SelectQuery.holds, SelectQuery.andWhere, SelectQuery.empty,
      notDeleted, userEquals, beforeCursor, SelectQuery.parameter, List.lookup_cons,
      cursorParameters_payloadOf, uuid.read_write, CursorReaches, and_assoc]

omit [LinearOrder Id] in
/-- What is fetched for a page, cut at the limit, is the page of all that could be fetched. -/
theorem attendancePage_take {limit : ℤ} (h1 : 1 ≤ limit) (records : List (Attendance Id)) :
    (⟨(attendancePage uuid limit (records.take (limit+1).toNat)).data,
      if (attendancePage uuid limit (records.take (limit+1).toNat)).hasMore then
        (attendancePage uuid limit (records.take (limit+1).toNat)).nextCursor else none⟩ :
          Page (Attendance Id) String) = pageOf limit.toNat (cursorOf uuid) records := by
  have hcut : (records.take (limit+1).toNat).take limit.toNat = records.take limit.toNat := by
    rw [List.take_take, min_eq_left (by omega)]
  by_cases hmore : limit < records.length
  · have hlong : limit < ((records.take (limit+1).toNat).length : ℤ) := by
      rw [List.length_take]
      omega
    have hslice : sliceTo limit (records.take (limit+1).toNat) = records.take limit.toNat := by
      rw [sliceTo, if_pos (by omega), hcut]
    have hfull : limit.toNat < records.length := by omega
    simp only [attendancePage, decide_eq_true hlong, if_true, hslice, pageOf, if_pos hfull]
  · have hall : records.take (limit+1).toNat = records := List.take_of_length_le (by omega)
    rw [hall, pageOf_last (by omega)]
    simp [attendancePage, hmore]

variable {userId : String} {limit : ℤ} {rows : List (Attendance Id)}

omit [LinearOrder Id] in
theorem eq_of_sortKey (hkeyed : Keyed Attendance.id rows) :
    ∀ a ∈ rows, ∀ b ∈ rows, sortKey a = sortKey b → a = b := by
  intro a ha b hb hab
  have hid : a.id = b.id := congrArg Prod.snd (toLex.injective hab)
  exact hkeyed.eq_of_key ha hb hid

theorem attendanceRequest_first (h1 : 1 ≤ limit) :
    attendanceRequest uuid runtime userId limit rows none =
      .ok (pageOf limit.toNat (cursorOf uuid) (descending sortKey (ownRecords userId rows))) := by
  have hrows : getMany sortKey (ownQuery userId) (limit+1) rows =
      .ok ((descending sortKey (ownRecords userId rows)).take (limit+1).toNat) := by
    rw [getMany, if_pos (ownQuery_accepts userId), takeRows_of_pos (by omega), ownQuery_holds]
    rfl
  rw [← attendancePage_take h1]
  simp [attendanceRequest, getMyAttendance, truthy, hrows, Except.mapError, bind, Except.bind,
    pure, Except.pure, Except.map]

theorem attendanceRequest_next (hkeyed : Keyed Attendance.id rows) (h1 : 1 ≤ limit)
    (a : Attendance Id) :
    attendanceRequest uuid runtime userId limit rows (some (cursorOf uuid a)) =
      .ok (pageOf limit.toNat (cursorOf uuid) ((descending sortKey (ownRecords userId rows)).filter
        (pastCursor uuid runtime (cursorOf uuid a)))) := by
  have hholds : rows.filter (cursorQuery uuid runtime userId (payloadOf uuid a)).holds =
      (ownRecords userId rows).filter (pastCursor uuid runtime (cursorOf uuid a)) := by
    rw [(cursorQuery_payloadOf userId a).2, ownRecords, List.filter_filter]
    refine List.filter_congr fun record _ => ?_
    rw [pastCursor_cursorOf, Bool.and_comm]
  -- the rows of the request are the ones in order that lie past the cursor
  have hfilter : (descending sortKey (ownRecords userId rows)).filter
      (pastCursor uuid runtime (cursorOf uuid a)) =
        descending sortKey (rows.filter
          (cursorQuery uuid runtime userId (payloadOf uuid a)).holds) := by
    rw [hholds]
    refine (descending_filter sortKey _ _ ?_).symm
    intro a ha b hb
    exact eq_of_sortKey hkeyed a (List.mem_of_mem_filter ha) b (List.mem_of_mem_filter hb)
  have hrows : getMany sortKey (cursorQuery uuid runtime userId (payloadOf uuid a)) (limit+1) rows =
      .ok ((descending sortKey (rows.filter
        (cursorQuery uuid runtime userId (payloadOf uuid a)).holds)).take (limit+1).toNat) := by
    rw [getMany, if_pos (cursorQuery_payloadOf userId a).1, takeRows_of_pos (by omega)]
  have hcursor : truthy (some (cursorOf uuid a)) = some (encodeCursor (payloadOf uuid a)) :=
    truthy_of_ne (encodeCursor_ne_empty _)
  rw [hfilter, ← attendancePage_take h1]
  simp [attendanceRequest, getMyAttendance, hcursor, decodeCursor_encodeCursor, hrows,
    Except.mapError, bind, Except.bind, pure, Except.pure, Except.map]

/-- In descending order, what a cursor reaches comes after its record. -/
theorem keyset_cursorOf (records : List (Attendance Id)) :
    Keyset (cursorOf uuid) (pastCursor uuid runtime) (descending sortKey records) := by
  -- the order is by microseconds, the cursor holds milliseconds
  have horder (a b : Attendance Id) (h : sortKey b ≤ sortKey a) :
      b.timestamp < a.timestamp ∨ b.timestamp = a.timestamp ∧ b.id ≤ a.id := Prod.Lex.le_iff.mp h
  have hdate (a : Attendance Id) : 1000*a.date ≤ a.timestamp := by
    unfold Attendance.date
    omega
  refine ⟨fun a _ => ?_, ?_, fun m _ => ?_, fun a _ b _ c _ => ?_⟩
  · rw [pastCursor_cursorOf, decide_eq_false_iff_not]
    have := hdate a
    rintro (h | ⟨_, h⟩)
    · omega
    · exact lt_irrefl _ h
  · refine (pairwise_descending sortKey records).imp fun {a b} hab => ?_
    rw [pastCursor_cursorOf, decide_eq_false_iff_not]
    have := hdate b
    rcases horder a b hab with hlt | ⟨heq, hid⟩
    · rintro (h | ⟨h, _⟩) <;> omega
    · rintro (h | ⟨_, h⟩)
      · omega
      · exact absurd hid (not_le.mpr h)
  · refine (pairwise_descending sortKey records).imp fun {a b} hab => ?_
    rw [pastCursor_cursorOf, pastCursor_cursorOf, decide_eq_true_eq, decide_eq_true_eq]
    rintro (h | ⟨h, hid⟩)
    · rcases horder a b hab with hlt | ⟨heq, _⟩
      · exact Or.inl (by omega)
      · exact Or.inl (by omega)
    · rcases horder a b hab with hlt | ⟨heq, hle⟩
      · exact Or.inl (by omega)
      · exact Or.inr ⟨by omega, hle.trans_lt hid⟩
  · rw [pastCursor_cursorOf, pastCursor_cursorOf, pastCursor_cursorOf, decide_eq_true_eq,
      decide_eq_true_eq, decide_eq_true_eq]
    have := hdate b
    rintro (h | ⟨h, hid⟩) (h' | ⟨h', hid'⟩)
    · exact Or.inl (by omega)
    · exact Or.inl (by omega)
    · exact Or.inl (by omega)
    · by_cases hstart : c.timestamp = 1000*a.date
      · exact Or.inr ⟨hstart, hid'.trans hid⟩
      · exact Or.inl (by omega)

/-- The pages make up all records exactly when at every end of a page the cursor reaches the next
record. -/
theorem attendanceComplete_iff_reaches (hkeyed : Keyed Attendance.id rows) (h1 : 1 ≤ limit) :
    AttendanceComplete uuid runtime userId limit rows ↔
      ∀ a b, PageEnd limit.toNat (descending sortKey (ownRecords userId rows)) a b →
        CursorReaches a b := by
  have hkeyset : Keyset (cursorOf uuid) (pastCursor uuid runtime)
      (descending sortKey (ownRecords userId rows)) := keyset_cursorOf _
  rw [AttendanceComplete, hkeyset.follows_all_iff (fun a _ => attendanceRequest_next hkeyed h1 a)
    (by omega) (attendanceRequest_first h1)]
  simp only [pastCursor_cursorOf, decide_eq_true_eq]

/-- Reading the records of a user page by page shows every one of them once exactly when at every
end of a page the next record lies before the millisecond that the cursor holds, or on its start
with a smaller id: the cursor does not keep the microseconds of its record. Every payload survives
the cursor. -/
theorem attendanceComplete_iff (hkeyed : Keyed Attendance.id rows) (h1 : 1 ≤ limit) :
    (AttendanceComplete uuid runtime userId limit rows ↔
      ∀ a b, PageEnd limit.toNat (descending sortKey (ownRecords userId rows)) a b →
        b.timestamp < 1000*a.date ∨ b.timestamp = 1000*a.date ∧ b.id < a.id) ∧
    ∀ payload, decodeCursor runtime (encodeCursor payload) = .ok payload :=
  ⟨attendanceComplete_iff_reaches hkeyed h1, decodeCursor_encodeCursor runtime⟩

def clockedIn : Attendance {text : String // IsUuidText text} :=
  ⟨⟨"00000000-0000-4000-8000-000000000001", by decide⟩, "alice", .clockIn, 1000001,
    some "session", none, none, false, none, none, ⟨by decide, by decide⟩⟩

/-- A microsecond later. -/
def clockedOut : Attendance {text : String // IsUuidText text} :=
  ⟨⟨"00000000-0000-4000-8000-000000000002", by decide⟩, "alice", .clockOut, 1000002,
    some "session", none, none, false, none, none, ⟨by decide, by decide⟩⟩

theorem attendanceComplete_iff_clockedOut :
    (AttendanceComplete textUuid ⟨fun _ => [], fun _ => none⟩ "alice" 1 [clockedIn, clockedOut] ↔
      ∀ a b, PageEnd 1 (descending sortKey (ownRecords "alice" [clockedIn, clockedOut])) a b →
        b.timestamp < 1000*a.date ∨ b.timestamp = 1000*a.date ∧ b.id < a.id) ∧
    ∀ payload, decodeCursor ⟨fun _ => [], fun _ => none⟩ (encodeCursor payload) = .ok payload :=
  attendanceComplete_iff (by unfold Keyed; decide) (by decide : (1 : ℤ) ≤ 1)

/-- With pages of one record the earlier of two records in one millisecond is never shown. -/
theorem attendance_not_complete :
    ¬AttendanceComplete textUuid ⟨fun _ => [], fun _ => none⟩ "alice" 1
      [clockedIn, clockedOut] := by
  have hkeyed : Keyed Attendance.id [clockedIn, clockedOut] := by
    unfold Keyed
    decide
  rw [attendanceComplete_iff_reaches hkeyed (by decide)]
  intro h
  have hrows : descending sortKey (ownRecords "alice" [clockedIn, clockedOut]) =
      [clockedOut, clockedIn] := rfl
  rw [hrows] at h
  exact absurd (h clockedOut clockedIn ⟨0, rfl, rfl, Nat.dvd_refl 1⟩) (by decide)

end HubAssist.Attendances
