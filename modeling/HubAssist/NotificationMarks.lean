import HubAssist.RunSystem
import Mathlib.Logic.Function.Basic

/-! The read marks of notifications. Every tab of a browser keeps those it has seen, and all tabs
write theirs into one item of the local storage, where a mark lasts for thirty days. The storage
accepts every write, and what a tab reads of the item and writes back is one step: browsers do not
lock the item, so it is an assumption that no other tab comes between. -/
namespace HubAssist.Notifications
open RunSystem Function

variable {I T : Type}

def readNotificationMaxAgeMs : ℕ := 30*24*60*60*1000

/-- What the storage item is read as: an older version wrote a list, and a text may be no JSON, or
JSON that is no object. -/
inductive Item (I : Type) where
  | absent
  | malformed
  | scalar
  | ids (ids : List I)
  | store (readAt : I → Option ℕ)

/-- The browser: `tabs` holds the `readIds` of the open ones. -/
structure Browser (I T : Type) where
  now : ℕ
  item : Item I
  tabs : T → Option (I → Bool)

def start (now : ℕ) : Browser I T := ⟨now, .absent, fun _ => none⟩

/-- The item is one that this version has written, at times after zero. -/
structure Kept (s : Browser I T) : Prop where
  now_pos : 0 < s.now
  item : s.item = .absent ∨ ∃ readAt, s.item = .store readAt ∧ ∀ id, readAt id ≠ some 0

inductive Move (I T : Type) where
  | elapse (ms : ℕ)
  | mount (tab : T)
  | close (tab : T)
  | markAsRead (tab : T) (id : I)
  | markAllAsRead (tab : T) (notifications : List I)

/-- The entries that are young enough. -/
def retained (now : ℕ) (readAt : I → Option ℕ) (id : I) : Option ℕ :=
  (readAt id).filter fun t => now ≤ t+readNotificationMaxAgeMs

variable [DecidableEq I]

/-- The store that is read, and the item that the reading leaves. -/
def readStoredNotificationStore (now : ℕ) : Item I → (I → Option ℕ) × Item I
  | .absent => (fun _ => none, .absent)
  | .malformed => (fun _ => none, .malformed)
  | .scalar => (fun _ => none, .store fun _ => none)
  | .ids ids =>
    let readAt := retained now fun id => if id ∈ ids then some now else none
    (readAt, .store readAt)
  | .store readAt => (retained now readAt, .store (retained now readAt))

def readStoredNotificationIds (now : ℕ) (item : Item I) (id : I) : Bool :=
  ((readStoredNotificationStore now item).1 id).isSome

/-- `persistReadNotificationIds`. A mark that is there is not renewed; `!value[id]` takes the time
zero for none. -/
def persistReadNotificationIds (ids : I → Bool) (now : ℕ) (item : Item I) : Item I :=
  let value := (readStoredNotificationStore now item).1
  .store fun id =>
    if ids id then
      match value id with
      | none | some 0 => some now
      | some t => some t
    else value id

/-- The marks that a tab stores in this step: all that it has with the new ones. -/
def persisted (s : Browser I T) : Move I T → Option (T × (I → Bool))
  | .markAsRead tab id =>
    match s.tabs tab with
    | none => none
    | some current => if current id then none else some (tab, fun k => current k || decide (k = id))
  | .markAllAsRead tab notifications =>
    (s.tabs tab).map fun current => (tab, fun k => current k || notifications.contains k)
  | .elapse _ | .mount _ | .close _ => none

/-- The time of the mark that the storage has for `id`, where it is read now. -/
def mark (s : Browser I T) (id : I) : Option ℕ := (readStoredNotificationStore s.now s.item).1 id

/-- The step stores a new mark for `id`, as a tab has it and the storage has none any more. -/
def Stamps (id : I) (s : Browser I T) (m : Move I T) : Prop :=
  (∃ tab next, persisted s m = some (tab, next) ∧ next id = true) ∧ mark s id = none

/-- The step makes `id` read in the tab: the user marks it there, or the tab is opened while the
storage has a mark. -/
def Shows (tab : T) (id : I) (s : Browser I T) : Move I T → Prop
  | .markAsRead tab' id' => tab' = tab ∧ id' = id ∧ (s.tabs tab).isSome = true
  | .markAllAsRead tab' notifications =>
    tab' = tab ∧ id ∈ notifications ∧ (s.tabs tab).isSome = true
  | .mount tab' => tab' = tab ∧ (mark s id).isSome = true
  | .elapse _ | .close _ => False

/-- The step opens the tab anew, or closes it. -/
def Resets (tab : T) : Move I T → Prop
  | .mount tab' | .close tab' => tab' = tab
  | .elapse _ | .markAsRead _ _ | .markAllAsRead _ _ => False

variable {s : Browser I T} {m : Move I T} {id : I} {tab : T} {next : I → Bool} {now : ℕ}

omit [DecidableEq I] in
theorem retained_eq_some {readAt : I → Option ℕ} {t : ℕ} :
    retained now readAt id = some t ↔ readAt id = some t ∧ now ≤ t+readNotificationMaxAgeMs := by
  rw [retained, Option.filter_eq_some_iff, decide_eq_true_eq]

theorem mark_store {readAt : I → Option ℕ} {t : ℕ} (h : s.item = .store readAt) :
    mark s id = some t ↔ readAt id = some t ∧ s.now ≤ t+readNotificationMaxAgeMs := by
  rw [mark, h]
  exact retained_eq_some

theorem Kept.mark_le (h : Kept s) {t : ℕ} (ht : mark s id = some t) :
    s.now ≤ t+readNotificationMaxAgeMs ∧ t ≠ 0 := by
  rcases h.item with habsent | ⟨readAt, hitem, hpos⟩
  · rw [mark, habsent] at ht
    exact absurd ht (by simp [readStoredNotificationStore])
  · obtain ⟨hread, hle⟩ := (mark_store hitem).mp ht
    refine ⟨hle, ?_⟩
    rintro rfl
    exact hpos id hread

/-- The item after a reading has the entries that were read. -/
theorem Kept.read (h : Kept s) :
    Kept { s with item := (readStoredNotificationStore s.now s.item).2 } ∧
    ∀ id, mark { s with item := (readStoredNotificationStore s.now s.item).2 } id = mark s id := by
  rcases h.item with habsent | ⟨readAt, hitem, hpos⟩
  · refine ⟨⟨h.now_pos, Or.inl (by rw [habsent]; rfl)⟩, fun id => ?_⟩
    simp only [mark, habsent, readStoredNotificationStore]
  · have hread : (readStoredNotificationStore s.now s.item).2 = .store (retained s.now readAt) := by
      rw [hitem]
      rfl
    rw [hread]
    refine ⟨⟨h.now_pos, Or.inr ⟨_, rfl, fun id hzero => ?_⟩⟩, fun id => ?_⟩
    · exact hpos id (retained_eq_some.mp hzero).1
    · apply Option.ext
      intro t
      rw [mark_store rfl, mark_store hitem, retained_eq_some]
      exact ⟨fun h => h.1, fun h => ⟨h, h.2⟩⟩

/-- The item after a writing: what had a mark keeps it, and the other ids that are written get one
of this time. -/
theorem Kept.persist (h : Kept s) (next : I → Bool) :
    Kept { s with item := persistReadNotificationIds next s.now s.item } ∧
      ∀ id, mark { s with item := persistReadNotificationIds next s.now s.item } id =
        if next id = true ∧ mark s id = none then some s.now else mark s id := by
  have hentry (id : I) : (if next id then
        match mark s id with
        | none | some 0 => some s.now
        | some t => some t
      else mark s id) = if next id = true ∧ mark s id = none then some s.now else mark s id := by
    cases hmark : mark s id with
    | none => by_cases hnext : next id <;> simp [hnext]
    | some t =>
      cases t with
      | zero => exact absurd rfl (h.mark_le hmark).2
      | succ t => simp
  have hitem : persistReadNotificationIds next s.now s.item =
      .store fun id => if next id = true ∧ mark s id = none then some s.now else mark s id := by
    simp only [← hentry]
    rfl
  rw [hitem]
  refine ⟨⟨h.now_pos, Or.inr ⟨_, rfl, fun id => ?_⟩⟩, fun id => ?_⟩
  · split_ifs
    · intro hzero
      exact absurd (Option.some.inj hzero) (Nat.ne_of_gt h.now_pos)
    · intro hzero
      exact (h.mark_le hzero).2 rfl
  · apply Option.ext
    intro t
    rw [mark_store rfl]
    refine and_iff_left_of_imp fun ht => ?_
    split_ifs at ht
    · have := Option.some.inj ht
      dsimp only
      omega
    · exact (h.mark_le ht).1

variable [DecidableEq T]

def step (s : Browser I T) (m : Move I T) : Browser I T :=
  match m with
  | .elapse ms => { s with now := s.now+ms }
  | .mount tab =>
    { s with
      item := (readStoredNotificationStore s.now s.item).2
      tabs := update s.tabs tab (some (readStoredNotificationIds s.now s.item)) }
  | .close tab => { s with tabs := update s.tabs tab none }
  | .markAsRead _ _ | .markAllAsRead _ _ =>
    match persisted s m with
    | none => s
    | some (tab, next) =>
      { s with
        item := persistReadNotificationIds next s.now s.item
        tabs := update s.tabs tab (some next) }

/-- A step lets time pass, reads the item, leaves it alone, or writes the marks of a tab. -/
theorem step_cases (s : Browser I T) (m : Move I T) :
    (∃ ms, m = .elapse ms ∧ step s m = { s with now := s.now+ms }) ∨
    (persisted s m = none ∧ ((step s m).now, (step s m).item) = (s.now, s.item)) ∨
    (persisted s m = none ∧ ((step s m).now, (step s m).item) =
      (s.now, (readStoredNotificationStore s.now s.item).2)) ∨
    ∃ tab next, persisted s m = some (tab, next) ∧ ((step s m).now, (step s m).item) =
      (s.now, persistReadNotificationIds next s.now s.item) := by
  have hmarked (hstep : step s m = match persisted s m with
      | none => s
      | some (tab, next) =>
        { s with
          item := persistReadNotificationIds next s.now s.item
          tabs := update s.tabs tab (some next) }) :
      (persisted s m = none ∧ ((step s m).now, (step s m).item) = (s.now, s.item)) ∨
      ∃ tab next, persisted s m = some (tab, next) ∧ ((step s m).now, (step s m).item) =
        (s.now, persistReadNotificationIds next s.now s.item) := by
    rw [hstep]
    cases persisted s m with
    | none => exact Or.inl ⟨rfl, rfl⟩
    | some marks => exact Or.inr ⟨marks.1, marks.2, rfl, rfl⟩
  cases m with
  | elapse ms => exact Or.inl ⟨ms, rfl, rfl⟩
  | mount tab => exact Or.inr (Or.inr (Or.inl ⟨rfl, rfl⟩))
  | close tab => exact Or.inr (Or.inl ⟨rfl, rfl⟩)
  | markAsRead tab id =>
    rcases hmarked rfl with hnone | hsome
    · exact Or.inr (Or.inl hnone)
    · exact Or.inr (Or.inr (Or.inr hsome))
  | markAllAsRead tab notifications =>
    rcases hmarked rfl with hnone | hsome
    · exact Or.inr (Or.inl hnone)
    · exact Or.inr (Or.inr (Or.inr hsome))

omit [DecidableEq T] in
/-- What is kept, and the marks, are a matter of the time and the item only. -/
theorem Kept.of_eq {s' : Browser I T} (h : Kept s') (heq : (s.now, s.item) = (s'.now, s'.item)) :
    Kept s ∧ ∀ id, mark s id = mark s' id := by
  obtain ⟨hnow, hitem⟩ := Prod.mk.inj heq
  refine ⟨⟨hnow ▸ h.now_pos, ?_⟩, fun id => ?_⟩
  · rw [hitem]
    exact h.item
  · rw [mark, mark, hnow, hitem]

/-- A step keeps the item in order. What was stored in it has the present time, and the other marks
stay until they are too old. -/
theorem Kept.step (h : Kept s) (m : Move I T) : Kept (step s m) ∧ s.now ≤ (step s m).now ∧
    ∀ id t, mark (Notifications.step s m) id = some t ↔ Stamps id s m ∧ s.now = t ∨
      ¬Stamps id s m ∧ mark s id = some t ∧
        (Notifications.step s m).now ≤ t+readNotificationMaxAgeMs := by
  have hunstamped (hnone : persisted s m = none) (id : I) : ¬Stamps id s m := by
    rintro ⟨⟨tab, next, hsome, _⟩, _⟩
    rw [hnone] at hsome
    exact absurd hsome (by simp)
  -- where nothing is written and no time passes, the marks are those from before
  have hsame (hnone : persisted s m = none) (hnow : (Notifications.step s m).now = s.now)
      (hmark : ∀ id, mark (Notifications.step s m) id = mark s id) (id : I) (t : ℕ) :
      mark (Notifications.step s m) id = some t ↔ Stamps id s m ∧ s.now = t ∨
        ¬Stamps id s m ∧ mark s id = some t ∧
          (Notifications.step s m).now ≤ t+readNotificationMaxAgeMs := by
    rw [hmark, hnow]
    constructor
    · intro ht
      exact Or.inr ⟨hunstamped hnone id, ht, (h.mark_le ht).1⟩
    · rintro (⟨hstamps, _⟩ | ⟨_, ht, _⟩)
      · exact absurd hstamps (hunstamped hnone id)
      · exact ht
  rcases step_cases s m with ⟨ms, rfl, hstep⟩ | ⟨hnone, hstep⟩ | ⟨hnone, hstep⟩ |
    ⟨tab, next, hsome, hstep⟩
  · rw [hstep]
    have hpos := h.now_pos
    refine ⟨⟨Nat.lt_of_lt_of_le hpos (Nat.le_add_right _ _), h.item⟩, Nat.le_add_right _ _, ?_⟩
    intro id t
    have hnot := hunstamped rfl id
    rcases h.item with habsent | ⟨readAt, hitem, _⟩
    · simp [mark, habsent, readStoredNotificationStore, hnot]
    · have hlater := @mark_store I T _ { s with now := s.now+ms } id readAt t hitem
      rw [hlater, mark_store hitem]
      constructor
      · rintro ⟨hread, hage⟩
        exact Or.inr ⟨hnot, ⟨hread, Nat.le_trans (Nat.le_add_right _ _) hage⟩, hage⟩
      · rintro (⟨hstamps, _⟩ | ⟨_, ⟨hread, _⟩, hage⟩)
        · exact absurd hstamps hnot
        · exact ⟨hread, hage⟩
  · obtain ⟨hkept, hmark⟩ := h.of_eq hstep
    have hnow : (Notifications.step s m).now = s.now := (Prod.mk.inj hstep).1
    exact ⟨hkept, Nat.le_of_eq hnow.symm, hsame hnone hnow hmark⟩
  · obtain ⟨hread, hsameMark⟩ := h.read
    obtain ⟨hkept, hmark⟩ := hread.of_eq hstep
    have hnow : (Notifications.step s m).now = s.now := (Prod.mk.inj hstep).1
    exact ⟨hkept, Nat.le_of_eq hnow.symm,
      hsame hnone hnow fun id => (hmark id).trans (hsameMark id)⟩
  · obtain ⟨hwritten, hnew⟩ := h.persist next
    obtain ⟨hkept, hmark⟩ := hwritten.of_eq hstep
    have hnow : (Notifications.step s m).now = s.now := (Prod.mk.inj hstep).1
    refine ⟨hkept, Nat.le_of_eq hnow.symm, fun id t => ?_⟩
    have hstamps : Stamps id s m ↔ next id = true ∧ mark s id = none := by
      simp [Stamps, hsome]
    rw [hmark, hnew, hnow, hstamps]
    split_ifs with hfresh
    · simp [hfresh]
    · simp only [hfresh, false_and, false_or, not_false_eq_true, true_and]
      exact ⟨fun ht => ⟨ht, (h.mark_le ht).1⟩, fun ht => ht.1⟩

/-- After any steps of the tabs, in any order, the storage has a mark exactly when it was stored at
most thirty days ago, at a moment when there was none. -/
theorem mark_run (hnow : 0 < now) (moves : List (Move I T)) (id : I) (t : ℕ) :
    mark (run step (start now) moves) id = some t ↔ ∃ pre m post, moves = pre ++ m :: post ∧
      Stamps id (run step (start now) pre) m ∧ (run step (start now) pre).now = t ∧
        (run step (start now) moves).now ≤ t+readNotificationMaxAgeMs := by
  have hkept (moves : List (Move I T)) : Kept (run step (start now) moves) :=
    run_invariant_all step (fun s m h => (h.step m).1) ⟨hnow, Or.inl rfl⟩ moves
  induction moves using List.reverseRecOn with
  | nil =>
    simp [mark, start, readStoredNotificationStore]
  | append_singleton moves m ih =>
    obtain ⟨_, hle, hmark⟩ := (hkept moves).step m
    constructor
    · intro h
      have hage := ((hkept (moves ++ [m])).mark_le h).1
      rw [run_concat, hmark] at h
      rcases h with ⟨hstamps, ht⟩ | ⟨_, hold, _⟩
      · exact ⟨moves, m, [], rfl, hstamps, ht, hage⟩
      · obtain ⟨pre, a, post, rfl, hstamps, ht, _⟩ := ih.mp hold
        exact ⟨pre, a, post ++ [m], by simp, hstamps, ht, hage⟩
    · rintro ⟨pre, a, post, heq, hstamps, ht, hage⟩
      obtain ⟨mid, rfl, hmid⟩ := split_concat heq
      rw [run_concat] at hage ⊢
      rw [hmark]
      cases mid with
      | nil =>
        obtain ⟨rfl, _⟩ := List.cons.inj hmid
        rw [List.append_nil] at *
        exact Or.inl ⟨hstamps, ht⟩
      | cons b rest =>
        obtain ⟨rfl, rfl⟩ := List.cons.inj hmid
        -- the mark is still there, so the last step stores no new one
        have hold := ih.mpr ⟨pre, a, rest, rfl, hstamps, ht, Nat.le_trans hle hage⟩
        refine Or.inr ⟨?_, hold, hage⟩
        rintro ⟨_, hnone⟩
        rw [hold] at hnone
        exact absurd hnone (by simp)

/-- Two tabs that are open at the same time mark one notification each. -/
def twoTabs : List (Move ℕ ℕ) :=
  [.mount 0, .mount 1, .markAsRead 0 5, .elapse 9, .markAsRead 1 7, .elapse 2591999991, .mount 2]

theorem mark_twoTabs : mark (run step (start 1000) twoTabs) 5 = some 1000 :=
  (mark_run (by decide) twoTabs 5 1000).mpr
    ⟨[.mount 0, .mount 1], .markAsRead 0 5,
      [.elapse 9, .markAsRead 1 7, .elapse 2591999991, .mount 2], rfl,
      ⟨⟨0, _, rfl, by decide⟩, rfl⟩, rfl, by decide⟩

/-- The tab is open and has `id` among its `readIds`. -/
def Read (tab : T) (id : I) (s : Browser I T) : Prop :=
  ∃ current, s.tabs tab = some current ∧ current id = true

omit [DecidableEq I] in
theorem read_update {item : Item I} {tab' : T} :
    Read tab id { s with item := item, tabs := update s.tabs tab' (some next) } ↔
      tab' = tab ∧ next id = true ∨ tab' ≠ tab ∧ Read tab id s := by
  by_cases htab : tab' = tab
  · subst htab
    simp [Read]
  · have hne : tab ≠ tab' := fun h => htab h.symm
    simp [Read, htab, hne]

theorem read_step (s : Browser I T) (m : Move I T) :
    Read tab id (step s m) ↔ Shows tab id s m ∨ Read tab id s ∧ ¬Resets tab m := by
  cases m with
  | elapse ms => simp [Read, Shows, Resets, step]
  | mount tab' =>
    by_cases htab : tab' = tab
    · subst htab
      simp [Read, Shows, Resets, step, readStoredNotificationIds, mark]
    · have hne : tab ≠ tab' := fun h => htab h.symm
      simp [Read, Shows, Resets, step, htab, hne]
  | close tab' =>
    by_cases htab : tab' = tab
    · simp [Read, Shows, Resets, step, htab]
    · have hne : tab ≠ tab' := fun h => htab h.symm
      simp [Read, Shows, Resets, step, htab, hne]
  | markAsRead tab' id' =>
    simp only [Shows, Resets, step, persisted, not_false_eq_true, and_true]
    cases hcurrent : s.tabs tab' with
    | none =>
      refine (or_iff_right ?_).symm
      rintro ⟨rfl, _, hopen⟩
      simp [hcurrent] at hopen
    | some current =>
      dsimp only
      by_cases hhas : current id' = true
      · rw [if_pos hhas]
        refine (or_iff_right_of_imp ?_).symm
        rintro ⟨rfl, rfl, _⟩
        exact ⟨current, hcurrent, hhas⟩
      · rw [if_neg hhas]
        dsimp only
        rw [read_update]
        by_cases htab : tab' = tab
        · subst htab
          have heq : id = id' ↔ id' = id := eq_comm
          simp [Read, hcurrent, or_comm, heq]
        · simp [htab]
  | markAllAsRead tab' notifications =>
    simp only [Shows, Resets, step, persisted, not_false_eq_true, and_true]
    cases hcurrent : s.tabs tab' with
    | none =>
      refine (or_iff_right ?_).symm
      rintro ⟨rfl, _, hopen⟩
      simp [hcurrent] at hopen
    | some current =>
      dsimp only [Option.map_some]
      rw [read_update]
      by_cases htab : tab' = tab
      · subst htab
        simp [Read, hcurrent, or_comm]
      · simp [htab]

/-- A tab has a notification among those that are read exactly when it was marked there, or was
marked in the storage as the tab was opened, and the tab has been neither closed nor opened
since. -/
theorem read_run (moves : List (Move I T)) (tab : T) (id : I) :
    Read tab id (run step (start now) moves) ↔ ∃ pre m post, moves = pre ++ m :: post ∧
      Shows tab id (run step (start now) pre) m ∧
        Guarded step (fun _ m => ¬Resets tab m) (run step (start now) (pre ++ [m])) post :=
  lasts_iff_all step read_step (fun ⟨_, hnone, _⟩ => nomatch hnone) moves

end HubAssist.Notifications
