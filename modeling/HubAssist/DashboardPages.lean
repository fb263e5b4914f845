import HubAssist.Checks
import HubAssist.DashboardModel
import HubAssist.PagedFeed

/-! A client that reads the activity feed page by page: what the cursor of a page is read back
as, and when the pages make up all matching records. -/
namespace HubAssist.Dashboard
open QueryBuilder NodeRuntime PagedFeed Checks IsoDate

variable {Id : Type} [LinearOrder Id] {uuid : UuidType Id} {runtime : Runtime}
variable {userId : Option String} {role : Option UserRole}

/-- The filters of a feed, apart from the page. -/
structure ActivityFilter where
  eventCategory : Option EventCategory
  actorId : Option String
  resourceId : Option String

def ActivityFilter.query (filter : ActivityFilter) (limit : ℤ) (cursor : Option String) :
    ActivityFeedQuery where
  eventCategory := filter.eventCategory.map EventCategory.text
  actorId := filter.actorId
  resourceId := filter.resourceId
  cursor := cursor
  limit := some limit

/-- The records that the role filter and the filters of the query are true of. -/
def matching (filter : ActivityFilter) (userId : Option String) (role : Option UserRole)
    (logs : List (AuditLog Id)) : List (AuditLog Id) :=
  logs.filter (filteredQuery (filter.query 0 none) userId role).holds

/-- The request of one page. -/
def feedRequest (uuid : UuidType Id) (runtime : Runtime) (filter : ActivityFilter) (limit : ℤ)
    (userId : Option String) (role : Option UserRole) (logs : List (AuditLog Id))
    (cursor : Option String) : Except QueryError (Page ActivityItem String) :=
  (getActivity uuid runtime (filter.query limit cursor) userId role logs).map fun response =>
    ⟨response.items, response.nextCursor⟩

/-- Following the cursors from the first page comes to an end and has shown every matching record
once, in the order of the feed. -/
def FeedComplete (uuid : UuidType Id) (runtime : Runtime) (filter : ActivityFilter) (limit : ℤ)
    (userId : Option String) (role : Option UserRole) (logs : List (AuditLog Id)) : Prop :=
  Follows (feedRequest uuid runtime filter limit userId role logs) none
    ((descending sortKey (matching filter userId role logs)).map (activityItem uuid))

variable (uuid runtime) in
omit [LinearOrder Id] in
/-- The text of a cursor, read back. -/
theorem decode_nextCursorOf (log : AuditLog Id) :
    Base64.utf8Text runtime.lossy (Base64.decode (nextCursorOf uuid log).toList) =
      toISOString log.date ++ ':' :: (uuid.write log.id).toList := by
  rw [nextCursorOf, String.toList_ofList, Base64.decode_encode, Base64.utf8Text_utf8Bytes]

/-- The time of a cursor is itself written with colons, so the first part is cut off behind the
hour and the second one is the minute. -/
theorem splitCursor_nextCursorOf (t : ℤ) (id : List Char) :
    splitCursor (toISOString t ++ ':' :: id) =
      (toHour t, some (FixedDigits.writeDigits 10 2 ((t%millisPerDay).toNat/60000%60))) := by
  have htext : toISOString t ++ ':' :: id = toHour t ++ ':' ::
      (FixedDigits.writeDigits 10 2 ((t%millisPerDay).toNat/60000%60) ++ ':' ::
        (FixedDigits.writeDigits 10 2 ((t%millisPerDay).toNat/1000%60) ++
          '.' :: FixedDigits.writeDigits 10 3 ((t%millisPerDay).toNat%1000) ++ ['Z'] ++
            ':' :: id)) := by
    simp [toISOString]
  rw [splitCursor, htext, List.splitOn_append_cons_self_of_not_mem (colon_not_mem_toHour t),
    List.splitOn_append_cons_self_of_not_mem (colon_not_mem_writeDigits 2 _)]

omit [LinearOrder Id] in
/-- The parameters that the next request makes of a cursor: the hour alone, and for the id the
minute. -/
theorem cursorParameters_nextCursorOf (log : AuditLog Id) :
    cursorParameters runtime (nextCursorOf uuid log) =
      [("createdAt", .date (newDate runtime (toHour log.date))),
        ("id", .text (String.ofList
          (FixedDigits.writeDigits 10 2 ((log.date%millisPerDay).toNat/60000%60))))] := by
  rw [cursorParameters, decode_nextCursorOf, splitCursor_nextCursorOf]

omit [LinearOrder Id] in
theorem nextCursorOf_ne_empty (log : AuditLog Id) : nextCursorOf uuid log ≠ "" := by
  intro h
  have htext := decode_nextCursorOf uuid ⟨fun _ => [], fun _ => none⟩ log
  rw [h] at htext
  have hempty : Base64.utf8Text (fun _ => []) (Base64.decode "".toList) = [] :=
    Base64.utf8Text_utf8Bytes _ []
  rw [hempty] at htext
  simp at htext

theorem truthy_category (o : Option EventCategory) :
    truthy (o.map EventCategory.text) = o.map EventCategory.text := by
  cases o with
  | none => rfl
  | some c => exact truthy_of_ne (by cases c <;> decide)

omit [LinearOrder Id] in
/-- A category of the enum is taken by the database, and so are the other filters. -/
theorem filteredQuery_accepts (filter : ActivityFilter) (limit : ℤ) (cursor : Option String) :
    (filteredQuery (filter.query limit cursor) userId role : AuditQuery Id).accepts = true := by
  unfold filteredQuery ActivityFilter.query
  rw [truthy_category]
  generalize (if role = some UserRole.admin then none else truthy userId) = own
  generalize truthy filter.actorId = actorId
  generalize truthy filter.resourceId = resourceId
  have hc := EventCategory.ofText_text
  cases filter.eventCategory <;> cases own <;> cases actorId <;> cases resourceId <;>
    simp [SelectQuery.accepts, SelectQuery.andWhere, SelectQuery.empty, SelectQuery.parameter,
      textEquals, categoryEquals, List.lookup_cons, hc]

/-- With a cursor of the feed itself the database refuses the query: the minute is no uuid. -/
theorem activityQuery_refused (filter : ActivityFilter) (limit : ℤ) (log : AuditLog Id) :
    (activityQuery uuid runtime (filter.query limit (some (nextCursorOf uuid log))) userId
      role).accepts = false := by
  have hcursor : truthy (some (nextCursorOf uuid log)) = some (nextCursorOf uuid log) :=
    truthy_of_ne (nextCursorOf_ne_empty log)
  have hread : uuid.read (String.ofList
      (FixedDigits.writeDigits 10 2 ((log.date%millisPerDay).toNat/60000%60))) = none := by
    cases h : uuid.read (String.ofList
      (FixedDigits.writeDigits 10 2 ((log.date%millisPerDay).toNat/60000%60))) with
    | none => rfl
    | some id =>
      have hlength := uuid.digits _ id h
      simp at hlength
  unfold activityQuery
  rw [show (filter.query limit (some (nextCursorOf uuid log))).cursor =
    some (nextCursorOf uuid log) from rfl, hcursor, Option.map_some, SelectQuery.andWhereIf_some]
  refine List.all_eq_false.mpr ⟨beforeCursor uuid, by simp [SelectQuery.andWhere], ?_⟩
  rw [cursorParameters_nextCursorOf]
  cases hdate : newDate runtime (toHour log.date) with
  | none => simp [beforeCursor, SelectQuery.andWhere, SelectQuery.parameter, List.lookup_cons]
  | some t => simp [beforeCursor, SelectQuery.andWhere, SelectQuery.parameter, List.lookup_cons, hread]

variable (uuid runtime userId role) in
/-- The first request fetches the matching records, one more than a page at most. -/
theorem feedRequest_first (filter : ActivityFilter) {limit : ℤ} (h1 : 1 ≤ limit)
    (h50 : limit ≤ 50) (logs : List (AuditLog Id)) :
    feedRequest uuid runtime filter limit userId role logs none =
      .ok ⟨(feedPage uuid limit ((descending sortKey (matching filter userId role logs)).take
          (limit+1).toNat)).items,
        (feedPage uuid limit ((descending sortKey (matching filter userId role logs)).take
          (limit+1).toNat)).nextCursor⟩ := by
  have hlimit : pageLimit (filter.query limit none) = limit := by
    simp only [pageLimit, ActivityFilter.query, if_neg (by omega : ¬limit = 0)]
    omega
  have hquery : activityQuery uuid runtime (filter.query limit none) userId role =
      filteredQuery (filter.query limit none) userId role := rfl
  have hrows : getMany sortKey (activityQuery uuid runtime (filter.query limit none) userId role)
      (limit+1) logs =
        .ok ((descending sortKey (matching filter userId role logs)).take (limit+1).toNat) := by
    rw [hquery, getMany, if_pos (filteredQuery_accepts filter limit none),
      takeRows_of_pos (by omega)]
    rfl
  simp only [feedRequest, getActivity, hlimit, hrows, bind, Except.bind, pure, Except.pure,
    Except.map]

theorem feedRequest_refused (filter : ActivityFilter) (limit : ℤ) (logs : List (AuditLog Id))
    (log : AuditLog Id) :
    feedRequest uuid runtime filter limit userId role logs (some (nextCursorOf uuid log)) =
      .error .parameter := by
  simp only [feedRequest, getActivity, getMany, activityQuery_refused, Bool.false_eq_true,
    if_false, bind, Except.bind, Except.map]

omit [LinearOrder Id] in
/-- A page with fewer rows than were asked for is the last one and shows all of them. -/
theorem feedPage_last {limit : ℤ} {rows : List (AuditLog Id)} (hpos : 0 ≤ limit)
    (h : (rows.length : ℤ) ≤ limit) :
    feedPage uuid limit rows = ⟨rows.map (activityItem uuid), none, false⟩ := by
  have hmore : ¬limit < (rows.length : ℤ) := by omega
  have hall : sliceTo limit rows = rows := by
    rw [sliceTo, if_pos hpos, List.take_of_length_le (by omega)]
  simp [feedPage, hmore, hall]

variable (uuid) in
omit [LinearOrder Id] in
/-- A page with the row too many has a cursor, made of its last item. -/
theorem feedPage_more {limit : ℤ} {rows : List (AuditLog Id)} (hpos : 0 < limit)
    (h : limit < (rows.length : ℤ)) :
    ∃ log, (feedPage uuid limit rows).nextCursor = some (nextCursorOf uuid log) := by
  have hne : sliceTo limit rows ≠ [] := by
    rw [sliceTo, if_pos hpos.le, ← List.length_pos_iff, List.length_take]
    omega
  refine ⟨(sliceTo limit rows).getLast hne, ?_⟩
  simp [feedPage, h, List.getLast?_eq_some_getLast hne]

theorem feedComplete_of_fits {filter : ActivityFilter} {limit : ℤ} {logs : List (AuditLog Id)}
    (h1 : 1 ≤ limit) (h50 : limit ≤ 50)
    (hfits : ((matching filter userId role logs).length : ℤ) ≤ limit) :
    FeedComplete uuid runtime filter limit userId role logs := by
  have hfirst := feedRequest_first uuid runtime userId role filter h1 h50 logs
  have hlength : (descending sortKey (matching filter userId role logs)).length =
      (matching filter userId role logs).length := (descending_perm _ _).length_eq
  have hall : (descending sortKey (matching filter userId role logs)).take (limit+1).toNat =
      descending sortKey (matching filter userId role logs) := List.take_of_length_le (by omega)
  rw [hall, feedPage_last (by omega) (by omega)] at hfirst
  exact .last hfirst rfl

theorem not_feedComplete_of_more {filter : ActivityFilter} {limit : ℤ} {logs : List (AuditLog Id)}
    (h1 : 1 ≤ limit) (h50 : limit ≤ 50)
    (hmore : limit < ((matching filter userId role logs).length : ℤ)) :
    ¬FeedComplete uuid runtime filter limit userId role logs := by
  have hfirst := feedRequest_first uuid runtime userId role filter h1 h50 logs
  have hlength : (descending sortKey (matching filter userId role logs)).length =
      (matching filter userId role logs).length := (descending_perm _ _).length_eq
  have hrows : limit < (((descending sortKey (matching filter userId role logs)).take
      (limit+1).toNat).length : ℤ) := by
    rw [List.length_take]
    omega
  -- there is a cursor, and the request that follows it is refused
  obtain ⟨log, hcursor⟩ := feedPage_more uuid (by omega) hrows
  rw [hcursor] at hfirst
  intro hcomplete
  obtain ⟨rest, _, hrest⟩ := (follows_iff hfirst).mp hcomplete
  exact not_follows_of_error (feedRequest_refused filter limit logs log) rest hrest

/-- Reading the feed page by page shows every matching record once exactly when all of them fit on
the first page: the cursor of a page never leads on, since what is read back of it is not the id
of its last item. -/
theorem feedComplete_iff {filter : ActivityFilter} {limit : ℤ} (h1 : 1 ≤ limit) (h50 : limit ≤ 50)
    (logs : List (AuditLog Id)) :
    (FeedComplete uuid runtime filter limit userId role logs ↔
      ((matching filter userId role logs).length : ℤ) ≤ limit) ∧
    ∀ log : AuditLog Id, (cursorParameters runtime (nextCursorOf uuid log)).lookup "id" ≠
      some (.text (uuid.write log.id)) := by
  refine ⟨⟨fun hcomplete => ?_, feedComplete_of_fits h1 h50⟩, fun log h => ?_⟩
  · by_contra hmore
    exact not_feedComplete_of_more h1 h50 (by omega) hcomplete
  · rw [cursorParameters_nextCursorOf] at h
    have htext : String.ofList (FixedDigits.writeDigits 10 2
        ((log.date%millisPerDay).toNat/60000%60)) = uuid.write log.id := by
      simpa [List.lookup_cons] using h
    have hdigits := uuid.digits _ _ (uuid.read_write log.id)
    rw [← htext] at hdigits
    simp at hdigits

def twoLogins : List (AuditLog {text : String // IsUuidText text}) :=
  [⟨⟨"00000000-0000-4000-8000-000000000021", by decide⟩, some "alice", "LOGIN", some .auth, "user",
    "alice", 0⟩,
    ⟨⟨"00000000-0000-4000-8000-000000000022", by decide⟩, some "bob", "LOGIN", some .auth, "user",
      "bob", 60000000⟩]

theorem feedComplete_iff_twoLogins :
    (1 : ℤ) ≤ 2 ∧ (2 : ℤ) ≤ 50 ∧
      (FeedComplete textUuid ⟨fun _ => [], fun _ => none⟩ ⟨none, none, none⟩ 2 (some "carol")
          (some .admin) twoLogins ↔
        ((matching ⟨none, none, none⟩ (some "carol") (some .admin) twoLogins).length : ℤ) ≤ 2) :=
  ⟨by decide, by decide, (feedComplete_iff (by decide) (by decide) twoLogins).1⟩

/-- With pages of one item an admin does not get to the second of two logins. -/
theorem feed_not_complete :
    ¬FeedComplete textUuid ⟨fun _ => [], fun _ => none⟩ ⟨none, none, none⟩ 1 (some "carol")
      (some .admin) twoLogins :=
  not_feedComplete_of_more (by decide) (by decide) (by decide)

end HubAssist.Dashboard
