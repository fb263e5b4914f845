import HubAssist.Checks
import HubAssist.DashboardModel
import HubAssist.KeyedTable

/-! Whose records the activity feed shows to a caller who is not an admin. -/
namespace HubAssist.Dashboard
open QueryBuilder NodeRuntime Checks

variable {Id : Type} [LinearOrder Id] {uuid : UuidType Id} {runtime : Runtime}
variable {query : ActivityFeedQuery} {u : String} {role : Option UserRole}

/-- The actor whose records a caller gets: one named in the query replaces the caller. -/
def shownActor (query : ActivityFeedQuery) (u : String) : String :=
  (truthy query.actorId).getD u

theorem lookup_cursorParameters (cursor : String) :
    (cursorParameters runtime cursor).lookup "actorId" = none := by
  simp [cursorParameters, List.lookup_cons]

/-- The one parameter `actorId` of the finished query. -/
theorem parameter_actorId (hu : u ≠ "") (hrole : role ≠ some .admin) :
    (activityQuery uuid runtime query (some u) role).parameter "actorId" =
      some (.text (shownActor query u)) := by
  unfold activityQuery filteredQuery
  rw [if_neg hrole, truthy_of_ne hu]
  rw [SelectQuery.parameter_andWhereIf_of_none, SelectQuery.parameter_andWhereIf_of_none]
  · cases hactor : truthy query.actorId with
    | some actorId =>
      rw [shownActor, hactor]
      exact SelectQuery.parameter_andWhere_of_some (by simp)
    | none =>
      rw [Option.map_none, SelectQuery.andWhereIf_none,
        SelectQuery.parameter_andWhereIf_of_none, shownActor, hactor]
      · rfl
      · rintro p hp
        obtain ⟨category, _, rfl⟩ := Option.map_eq_some_iff.mp hp
        simp [List.lookup_cons]
  · rintro p hp
    obtain ⟨id, _, rfl⟩ := Option.map_eq_some_iff.mp hp
    simp [List.lookup_cons]
  · rintro p hp
    obtain ⟨cursor, _, rfl⟩ := Option.map_eq_some_iff.mp hp
    exact lookup_cursorParameters cursor

/-- The role filter stands in the query, but looks for the one actor of the parameter. -/
theorem actorId_of_holds (hu : u ≠ "") (hrole : role ≠ some .admin) {log : AuditLog Id}
    (h : (activityQuery uuid runtime query (some u) role).holds log = true) :
    log.actorId = some (shownActor query u) := by
  have hmem : textEquals "actorId" AuditLog.actorId ∈
      (activityQuery uuid runtime query (some u) role).conditions := by
    unfold activityQuery filteredQuery
    rw [if_neg hrole, truthy_of_ne hu]
    -- the role filter was added first, so it stands furthest in
    simp only [SelectQuery.mem_conditions_andWhereIf]
    exact Or.inl (Or.inl (Or.inl (Or.inl (Or.inr ⟨_, rfl, rfl⟩))))
  have hholds := SelectQuery.holds_of_mem h hmem
  unfold textEquals at hholds
  simp only [parameter_actorId hu hrole] at hholds
  simpa using hholds

/-- The rows that the query is true of, and how many of them a page shows. -/
def shownRows (uuid : UuidType Id) (runtime : Runtime) (query : ActivityFeedQuery) (u : String)
    (role : Option UserRole) (logs : List (AuditLog Id)) : List (AuditLog Id) :=
  logs.filter (activityQuery uuid runtime query (some u) role).holds

/-- The page has no record: a parameter or the limit is refused, or nothing matches. Of a limit
of -1 the last row is cut off again. -/
def Blank (uuid : UuidType Id) (runtime : Runtime) (query : ActivityFeedQuery) (u : String)
    (role : Option UserRole) (logs : List (AuditLog Id)) : Prop :=
  (activityQuery uuid runtime query (some u) role).accepts = false ∨
    pageLimit query < -1 ∨
      (pageLimit query = -1 ∧ (shownRows uuid runtime query u role logs).length ≤ 1) ∨
        shownRows uuid runtime query u role logs = []

theorem getActivity_eq_ok {logs : List (AuditLog Id)} {userId : Option String}
    {response : ActivityFeedResponse} :
    getActivity uuid runtime query userId role logs = .ok response ↔
      ∃ rows, getMany sortKey (activityQuery uuid runtime query userId role) (pageLimit query+1)
        logs = .ok rows ∧ feedPage uuid (pageLimit query) rows = response := by
  simp only [getActivity, bind_eq_ok, pure_eq_ok]

theorem mem_of_mem_sliceTo {R : Type} {n : ℤ} {rows : List R} {r : R} (h : r ∈ sliceTo n rows) :
    r ∈ rows := by
  unfold sliceTo at h
  split_ifs at h
  · exact List.mem_of_mem_take h
  · exact List.mem_of_mem_take h

/-- Every item of a page is a record of the actor shown. -/
theorem item_actor (hu : u ≠ "") (hrole : role ≠ some .admin) {logs : List (AuditLog Id)}
    {response : ActivityFeedResponse}
    (h : getActivity uuid runtime query (some u) role logs = .ok response) {item : ActivityItem}
    (hitem : item ∈ response.items) : item.actorId = some (shownActor query u) := by
  obtain ⟨rows, hrows, rfl⟩ := getActivity_eq_ok.mp h
  obtain ⟨log, hlog, rfl⟩ := List.mem_map.mp hitem
  exact actorId_of_holds hu hrole (getMany_sound sortKey hrows (mem_of_mem_sliceTo hlog)).2

theorem pageLimit_ne_zero (query : ActivityFeedQuery) : pageLimit query ≠ 0 := by
  unfold pageLimit
  split
  · split_ifs <;> omega
  · decide

/-- A page without items is a blank one. -/
theorem items_eq_nil_iff {logs : List (AuditLog Id)} {response : ActivityFeedResponse}
    (h : getActivity uuid runtime query (some u) role logs = .ok response) :
    response.items = [] ↔ Blank uuid runtime query u role logs := by
  obtain ⟨rows, hrows, rfl⟩ := getActivity_eq_ok.mp h
  unfold getMany at hrows
  split_ifs at hrows with haccepts
  have hlimit := pageLimit_ne_zero query
  have hlength : (descending sortKey
      (logs.filter (activityQuery uuid runtime query (some u) role).holds)).length =
        (shownRows uuid runtime query u role logs).length := (descending_perm _ _).length_eq
  have hnil : shownRows uuid runtime query u role logs = [] ↔
      (shownRows uuid runtime query u role logs).length = 0 := List.length_eq_zero_iff.symm
  have hitems : (feedPage uuid (pageLimit query) rows).items = [] ↔
      (sliceTo (pageLimit query) rows).length = 0 := by simp [feedPage]
  simp only [Blank, haccepts, Bool.true_eq_false, false_or, hitems, hnil]
  unfold sliceTo
  rcases takeRows_eq_ok hrows with ⟨hzero, rfl⟩ | ⟨hpos, rfl⟩
  · -- a limit of -1 asks for all rows and cuts the last one off
    rw [if_neg (by omega), List.length_take, hlength]
    omega
  · rw [if_pos (by omega), List.length_take, List.length_take, hlength]
    omega

theorem blank_of_error {logs : List (AuditLog Id)} {e : QueryError}
    (h : getActivity uuid runtime query (some u) role logs = .error e) :
    Blank uuid runtime query u role logs := by
  by_contra hblank
  simp only [Blank, not_or, Bool.not_eq_false] at hblank
  obtain ⟨haccepts, hlimit, _⟩ := hblank
  have hrows (rows : List (AuditLog Id)) :
      ∃ taken, takeRows (pageLimit query+1) rows = .ok taken := by
    unfold takeRows
    split_ifs with hzero hneg
    · exact ⟨_, rfl⟩
    · omega
    · exact ⟨_, rfl⟩
  obtain ⟨taken, htaken⟩ := hrows (descending sortKey
    (logs.filter (activityQuery uuid runtime query (some u) role).holds))
  have hok : getActivity uuid runtime query (some u) role logs =
      .ok (feedPage uuid (pageLimit query) taken) :=
    getActivity_eq_ok.mpr ⟨taken, by rw [getMany, if_pos haccepts, htaken], rfl⟩
  exact absurd (hok.symm.trans h) (by simp)

/-- A caller who is shown the own records sees nothing of the others: two logs with the same
records of the caller give the same answer. -/
theorem getActivity_congr (hu : u ≠ "") (hrole : role ≠ some .admin)
    (hown : shownActor query u = u) {logs logs' : List (AuditLog Id)}
    (hkeys : KeyedTable.Keyed AuditLog.id logs)
    (hsame : (logs.filter fun log => log.actorId = some u).Perm
      (logs'.filter fun log => log.actorId = some u)) :
    getActivity uuid runtime query (some u) role logs =
      getActivity uuid runtime query (some u) role logs' := by
  -- the query lets through records of the caller only, so it may be asked of these alone
  have hfilter (rows : List (AuditLog Id)) :
      rows.filter (activityQuery uuid runtime query (some u) role).holds =
        (rows.filter fun log => log.actorId = some u).filter
          (activityQuery uuid runtime query (some u) role).holds := by
    rw [List.filter_filter]
    refine List.filter_congr fun log _ => ?_
    cases hholds : (activityQuery uuid runtime query (some u) role).holds log with
    | false => rfl
    | true => simp [actorId_of_holds hu hrole hholds, hown]
  have hsorted : descending sortKey
      (logs.filter (activityQuery uuid runtime query (some u) role).holds) =
        descending sortKey (logs'.filter (activityQuery uuid runtime query (some u) role).holds) := by
    refine descending_eq_of_perm sortKey ?_ ?_
    · rw [hfilter logs, hfilter logs']
      exact hsame.filter _
    · intro a ha b hb hkey
      exact hkeys.eq_of_key (List.mem_of_mem_filter ha) (List.mem_of_mem_filter hb)
        (congrArg Prod.snd (toLex.injective hkey))
  unfold getActivity getMany
  rw [hsorted]

/-- The feed of a caller who is not an admin shows the caller's own records alone exactly when the
query names no other actor, or its page is blank; and with no other actor named, the answer
depends on nothing but the caller's own records. -/
theorem activity_isolated_iff (hu : u ≠ "") (hrole : role ≠ some .admin)
    (logs : List (AuditLog Id)) :
    ((∀ response, getActivity uuid runtime query (some u) role logs = .ok response →
        ∀ item ∈ response.items, item.actorId = some u) ↔
      shownActor query u = u ∨ Blank uuid runtime query u role logs) ∧
    (shownActor query u = u → KeyedTable.Keyed AuditLog.id logs → ∀ logs',
      (logs.filter fun log => log.actorId = some u).Perm
        (logs'.filter fun log => log.actorId = some u) →
      getActivity uuid runtime query (some u) role logs =
        getActivity uuid runtime query (some u) role logs') := by
  refine ⟨⟨fun h => ?_, fun h response hresponse item hitem => ?_⟩,
    fun hown hkeys logs' hsame => getActivity_congr hu hrole hown hkeys hsame⟩
  · cases hresponse : getActivity uuid runtime query (some u) role logs with
    | error e => exact Or.inr (blank_of_error hresponse)
    | ok response =>
      -- an item that is shown gives the actor away
      cases hitems : response.items with
      | nil => exact Or.inr ((items_eq_nil_iff hresponse).mp hitems)
      | cons item items =>
        have hitem : item ∈ response.items := hitems ▸ List.mem_cons_self
        have hactor := (item_actor hu hrole hresponse hitem).symm.trans
          (h response hresponse item hitem)
        exact Or.inl (Option.some.inj hactor)
  · rcases h with hown | hblank
    · rw [item_actor hu hrole hresponse hitem, hown]
    · rw [(items_eq_nil_iff hresponse).mpr hblank] at hitem
      exact absurd hitem List.not_mem_nil

/-- A platform that reads no other texts. -/
def plainRuntime : Runtime := ⟨fun _ => [], fun _ => none⟩

def oneLogin : List (AuditLog {text : String // IsUuidText text}) :=
  [⟨⟨"00000000-0000-4000-8000-000000000011", by decide⟩, some "bob", "LOGIN", some .auth, "user",
    "bob", 0⟩]

def noFilter : ActivityFeedQuery := ⟨none, none, none, none, none⟩

theorem activity_isolated_iff_oneLogin :
    "alice" ≠ "" ∧ some UserRole.member ≠ some .admin ∧
      ((∀ response, getActivity textUuid plainRuntime noFilter (some "alice") (some .member)
          oneLogin = .ok response → ∀ item ∈ response.items, item.actorId = some "alice") ↔
        shownActor noFilter "alice" = "alice" ∨
          Blank textUuid plainRuntime noFilter "alice" (some .member) oneLogin) :=
  ⟨by decide, by decide, (activity_isolated_iff (by decide) (by decide) oneLogin).1⟩

/-- Alice, a member, names bob in the query and is shown his login. -/
theorem activity_not_isolated :
    ∃ response, getActivity textUuid plainRuntime { noFilter with actorId := some "bob" }
      (some "alice") (some .member) oneLogin = .ok response ∧
        ∃ item ∈ response.items, item.actorId ≠ some "alice" := by
  refine ⟨⟨oneLogin.map (activityItem textUuid), none, false⟩, by decide, ?_⟩
  exact ⟨_, List.mem_cons_self, by decide⟩

end HubAssist.Dashboard
