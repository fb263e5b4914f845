import HubAssist.RetryLifecycle
import Mathlib.Data.List.TakeWhile

/-! Whole runs of a worker over a page of a table: which of the selected rows are attempted, what
that leaves of the table, and how long a due row can be kept waiting by rows ahead of it. -/
namespace HubAssist.WorkQueue
open KeyedTable RunSystem

variable {R K X M O : Type*}

structure Attempt (O : Type*) where
  startedAt : ℕ
  finishedAt : ℕ
  outcome : O
  deriving DecidableEq

/-- A run over a page: when it is selected, its limit and its keys, and the attempts. -/
structure PageRun (K O : Type*) where
  now : ℕ
  limit : ℕ
  page : List K
  attempts : List (Attempt O)
  deriving DecidableEq

def Attempt.turn (a : Attempt O) : Turn R K O := .attempt a.startedAt a.finishedAt a.outcome

def PageRun.turns (r : PageRun K O) : List (Turn R K O) :=
  .select r.now r.limit r.page :: r.attempts.map Attempt.turn

variable [DecidableEq K] [DecidableEq X] (q : Queue R K X M O)

/-- The rows after a run over a page of them. -/
def Queue.afterPage (rows : List R) (r : PageRun K O) : List R :=
  (run q.turn ((⟨rows, []⟩, .idle) : Bench R X O) r.turns).1.rows

/-- What a run over a page attempts. -/
def Queue.triedIn (rows : List R) (r : PageRun K O) : List (Tried K O) :=
  trace q.turn q.tries ((⟨rows, []⟩, .idle) : Bench R X O) r.turns

def Queue.selected (rows : List R) (r : PageRun K O) : List R :=
  r.page.filterMap (findRow q.key (q.dueRows rows r.now))

/-- The run selects its page, it lasts until there is an attempt for each selected row, and the
clock does not go back in it. -/
structure Queue.Complete (rows : List R) (r : PageRun K O) : Prop where
  page : (q.selected rows r).map q.key = r.page
  isPage : q.IsPage r.limit (q.dueRows rows r.now) (q.selected rows r)
  attempts : r.attempts.length = (q.selected rows r).length
  forward : ((r.turns : List (Turn R K O)).flatMap Turn.times).Pairwise (· ≤ ·)

instance (rows : List R) (r : PageRun K O) : Decidable (q.Complete rows r) :=
  decidable_of_iff (_ ∧ _ ∧ _ ∧ _) ⟨fun ⟨h, h', h'', h'''⟩ => ⟨h, h', h'', h'''⟩,
    fun ⟨h, h', h'', h'''⟩ => ⟨h, h', h'', h'''⟩⟩

/-- The rows of a batch that come to be attempted. -/
def Queue.prepared (batch : List R) : List R :=
  batch.takeWhile fun row => (q.message row).isSome

/-- A batch of rows is worked through up to the first one whose message cannot be prepared. -/
def Queue.drain (rows : List R) : List R → List (Attempt O) → List R
  | row :: rest, a :: as =>
    match q.message row with
    | some _ => Queue.drain (q.written rows a.finishedAt row a.outcome) rest as
    | none => rows
  | _, _ => rows

variable {q} {rows batch : List R} {as : List (Attempt O)}

omit [DecidableEq X] in
@[simp] theorem drain_nil : q.drain rows [] as = rows := by
  cases as <;> rfl

/-- A worker that is idle stays idle. -/
theorem run_idle (rows : List R) (as : List (Attempt O)) :
    run q.turn ((⟨rows, []⟩, .idle) : Bench R X O) (as.map Attempt.turn) = (⟨rows, []⟩, .idle) ∧
      trace q.turn q.tries ((⟨rows, []⟩, .idle) : Bench R X O) (as.map Attempt.turn) = [] := by
  induction as with
  | nil => exact ⟨rfl, rfl⟩
  | cons a as ih => exact ih

theorem run_batch (rows batch : List R) (as : List (Attempt O))
    (hlength : as.length = batch.length) :
    (run q.turn ((⟨rows, []⟩, .working batch) : Bench R X O) (as.map Attempt.turn)).1.rows =
        q.drain rows batch as ∧
      (trace q.turn q.tries ((⟨rows, []⟩, .working batch) : Bench R X O)
        (as.map Attempt.turn)).map Tried.key =
          (batch.takeWhile fun row => (q.message row).isSome).map q.key := by
  induction batch generalizing rows as with
  | nil =>
    obtain rfl := List.length_eq_zero_iff.mp hlength
    exact ⟨rfl, rfl⟩
  | cons row rest ih =>
    cases as with
    | nil => simp at hlength
    | cons a as =>
      cases hmessage : q.message row with
      | none =>
        have hturn : q.turn ((⟨rows, []⟩, .working (row :: rest)) : Bench R X O) a.turn =
            (⟨rows, []⟩, .idle) := by
          simp only [Attempt.turn, Queue.turn, Queue.perform, Queue.act, hmessage]
        have htries : q.tries ((⟨rows, []⟩, .working (row :: rest)) : Bench R X O) a.turn = [] := by
          simp only [Attempt.turn, Queue.tries, Queue.sent, hmessage, List.map_nil]
        rw [List.map_cons, run_cons, trace, htries, hturn, (run_idle rows as).1,
          (run_idle rows as).2]
        simp [Queue.drain, hmessage]
      | some message =>
        have hturn : q.turn ((⟨rows, []⟩, .working (row :: rest)) : Bench R X O) a.turn =
            (⟨q.written rows a.finishedAt row a.outcome, []⟩, .working rest) := by
          simp only [Attempt.turn, Queue.turn, Queue.perform, Queue.act, hmessage]
          simp
        have htries : q.tries ((⟨rows, []⟩, .working (row :: rest)) : Bench R X O) a.turn =
            [⟨q.key row, a.startedAt, a.finishedAt, a.outcome⟩] := by
          simp only [Attempt.turn, Queue.tries, Queue.sent, hmessage, List.map_cons, List.map_nil]
        obtain ⟨hrows, htried⟩ := ih (q.written rows a.finishedAt row a.outcome) as
          (by simpa using hlength)
        rw [List.map_cons, run_cons, trace, htries, hturn, hrows]
        simp [Queue.drain, hmessage, htried]

variable {r : PageRun K O}

omit [DecidableEq X] in
theorem Queue.Complete.now_le (h : q.Complete rows r) {a : Attempt O} (ha : a ∈ r.attempts) :
    r.now ≤ a.finishedAt := by
  have hforward := h.forward
  simp only [PageRun.turns, List.flatMap_cons, Turn.times, List.singleton_append,
    List.pairwise_cons] at hforward
  apply hforward.1
  rw [List.mem_flatMap]
  exact ⟨a.turn, List.mem_map_of_mem ha, by simp [Attempt.turn, Turn.times]⟩

theorem afterPage_eq (h : q.Complete rows r) :
    q.afterPage rows r = q.drain rows (q.selected rows r) r.attempts ∧
      (q.triedIn rows r).map Tried.key =
        (q.prepared (q.selected rows r)).map q.key := by
  have hselect : q.turn ((⟨rows, []⟩, .idle) : Bench R X O) (.select r.now r.limit r.page) =
      (⟨rows, []⟩, .working (q.selected rows r)) := turn_select rfl h.page h.isPage
  rw [Queue.afterPage, Queue.triedIn, PageRun.turns, run_cons, trace, hselect]
  exact run_batch rows (q.selected rows r) r.attempts h.attempts

omit [DecidableEq X] in
theorem mem_selected {row : R} (h : row ∈ q.selected rows r) :
    row ∈ rows ∧ q.due r.now row = true := by
  obtain ⟨k, _, hfind⟩ := List.mem_filterMap.mp h
  exact mem_dueRows.mp (findRow_eq_some hfind).1

omit [DecidableEq X] in
/-- A row that is not attempted stays as it is. -/
theorem mem_drain_of_notMem {row : R} (hrow : row ∈ rows)
    (hkey : q.key row ∉ (q.prepared batch).map q.key) : row ∈ q.drain rows batch as := by
  induction batch generalizing rows as with
  | nil => rwa [drain_nil]
  | cons first rest ih =>
    cases as with
    | nil => exact hrow
    | cons a as =>
      rw [Queue.drain]
      cases hmessage : q.message first with
      | none => exact hrow
      | some _ =>
        have hfirst : q.prepared (first :: rest) = first :: q.prepared rest :=
          List.takeWhile_cons_of_pos (by simp [hmessage])
        rw [hfirst, List.map_cons, List.mem_cons, not_or] at hkey
        exact ih (mem_written_of_ne hrow hkey.1) hkey.2

omit [DecidableEq X] [DecidableEq K] in
theorem mem_of_mem_prepared {row : R} (h : row ∈ q.prepared batch) : row ∈ batch :=
  List.takeWhile_subset _ h

omit [DecidableEq X] in
theorem mem_written_self {row : R} (hrow : row ∈ rows) (now : ℕ) (outcome : O) :
    q.finish now row outcome row ∈ q.written rows now row outcome :=
  List.mem_map.mpr ⟨row, hrow, if_pos rfl⟩

/-- The rows of a batch are stored, under different keys. -/
structure Held (q : Queue R K X M O) (rows batch : List R) : Prop where
  keyed : Keyed q.key rows
  stored : ∀ row ∈ batch, row ∈ rows
  nodup : (batch.map q.key).Nodup

variable (p : RetryPolicy q)

include p

omit [DecidableEq X] in
theorem RetryPolicy.keyed_written (hkeyed : Keyed q.key rows) (now : ℕ) (row : R) (outcome : O) :
    Keyed q.key (q.written rows now row outcome) := by
  rw [Keyed, keys_written_of_finish_key p.finish_key]
  exact hkeyed

omit [DecidableEq X] in
/-- The rest of a batch is stored after the outcome for its first row has been written. -/
theorem RetryPolicy.held_written {row : R} {rest : List R} (h : Held q rows (row :: rest)) (now : ℕ)
    (outcome : O) : Held q (q.written rows now row outcome) rest := by
  obtain ⟨hfirst, hrest⟩ := List.nodup_cons.mp h.nodup
  refine ⟨p.keyed_written h.keyed now row outcome, fun r hr => ?_, hrest⟩
  apply mem_written_of_ne (h.stored r (List.mem_cons_of_mem _ hr))
  intro hkey
  exact hfirst (hkey ▸ List.mem_map_of_mem hr)

omit [DecidableEq X] in
theorem RetryPolicy.keyed_drain (hkeyed : Keyed q.key rows) :
    Keyed q.key (q.drain rows batch as) := by
  induction batch generalizing rows as with
  | nil => rwa [drain_nil]
  | cons first rest ih =>
    cases as with
    | nil => exact hkeyed
    | cons a as =>
      rw [Queue.drain]
      cases q.message first with
      | none => exact hkeyed
      | some _ => exact ih (p.keyed_written hkeyed a.finishedAt first a.outcome)

omit [DecidableEq X] in
/-- When all messages of a batch can be prepared, all its rows are finished. -/
theorem RetryPolicy.mem_drain_of_prepared (h : Held q rows batch)
    (hprepared : ∀ row ∈ batch, (q.message row).isSome) (hlength : as.length = batch.length)
    {row : R} (hrow : row ∈ batch) :
    ∃ a ∈ as, q.finish a.finishedAt row a.outcome row ∈ q.drain rows batch as := by
  induction batch generalizing rows as with
  | nil => cases hrow
  | cons first rest ih =>
    cases as with
    | nil => simp at hlength
    | cons a as =>
      have hnodup := List.nodup_cons.mp h.nodup
      have hsome := hprepared first List.mem_cons_self
      rw [Queue.drain]
      cases hmessage : q.message first with
      | none => simp [hmessage] at hsome
      | some _ =>
        rcases List.mem_cons.mp hrow with rfl | hrest
        · -- the rest of the batch leaves the row alone
          refine ⟨a, List.mem_cons_self, mem_drain_of_notMem ?_ fun hmem => ?_⟩
          · exact mem_written_self (h.stored row List.mem_cons_self) _ _
          · rw [p.finish_key a.finishedAt row a.outcome row rfl] at hmem
            obtain ⟨r, hr, hkey⟩ := List.mem_map.mp hmem
            exact hnodup.1 (hkey ▸ List.mem_map_of_mem (mem_of_mem_prepared hr))
        · obtain ⟨a', ha', hmem⟩ := ih (p.held_written h a.finishedAt a.outcome)
            (fun r hr => hprepared r (List.mem_cons_of_mem _ hr)) (by simpa using hlength) hrest
          exact ⟨a', List.mem_cons_of_mem _ ha', hmem⟩

omit [DecidableEq X] in
/-- What a batch leaves is a row from before, or one that has been finished. -/
theorem RetryPolicy.mem_drain {row : R} (h : Held q rows batch)
    (hrow : row ∈ q.drain rows batch as) :
    row ∈ rows ∨ ∃ old ∈ batch, ∃ a ∈ as, row = q.finish a.finishedAt old a.outcome old := by
  induction batch generalizing rows as with
  | nil =>
    rw [drain_nil] at hrow
    exact .inl hrow
  | cons first rest ih =>
    cases as with
    | nil => exact .inl hrow
    | cons a as =>
      rw [Queue.drain] at hrow
      cases hmessage : q.message first with
      | none =>
        rw [hmessage] at hrow
        exact .inl hrow
      | some _ =>
        rw [hmessage] at hrow
        rcases ih (p.held_written h a.finishedAt a.outcome) hrow with
          hwritten | ⟨old, hold, a', ha', heq⟩
        · rcases mem_written hwritten with ⟨hbefore, _⟩ | ⟨old, hold, hkey, heq⟩
          · exact .inl hbefore
          · obtain rfl := h.keyed.eq_of_key hold (h.stored first List.mem_cons_self) hkey
            exact .inr ⟨old, List.mem_cons_self, a, List.mem_cons_self, heq⟩
        · exact .inr ⟨old, List.mem_cons_of_mem _ hold, a', List.mem_cons_of_mem _ ha', heq⟩

omit [DecidableEq X] in
theorem RetryPolicy.written_eq_save {row : R} (hkeyed : Keyed q.key rows) (hrow : row ∈ rows)
    (now : ℕ) (outcome : O) :
    q.written rows now row outcome = save q.key rows (q.finish now row outcome row) := by
  have hkey := p.finish_key now row outcome row rfl
  rw [save, if_pos (by rw [hkey]; exact List.mem_map_of_mem hrow), hkey]
  apply List.map_congr_left
  intro r hr
  split_ifs with h
  · rw [hkeyed.eq_of_key hr hrow h]
  · rfl

/-- The row waits, and is not ranked behind `d`. -/
def RetryPolicy.ahead (d row : R) : Bool :=
  decide (q.key row ≠ q.key d) && decide (p.stage row = .waiting) &&
    decide (p.retryAt row ≤ p.retryAt d)

variable {d : R}

omit [DecidableEq X] in
theorem RetryPolicy.ahead_eq_true {row : R} : p.ahead d row = true ↔
    q.key row ≠ q.key d ∧ p.stage row = .waiting ∧ p.retryAt row ≤ p.retryAt d := by
  simp [RetryPolicy.ahead, and_assoc]

omit [DecidableEq X] in
/-- A row that has been attempted is no longer ahead of one that was due before. -/
theorem RetryPolicy.not_ahead_finish (hbackoff : ∀ k, 0 < p.backoff k) {now : ℕ}
    (hdue : p.retryAt d ≤ now) (row : R) (outcome : O) :
    p.ahead d (q.finish now row outcome row) = false := by
  rw [← Bool.not_eq_true, p.ahead_eq_true]
  rintro ⟨_, hwaiting, hrank⟩
  cases hsuccess : p.succeeds outcome with
  | true => cases (p.finish_success now row outcome hsuccess).symm.trans hwaiting
  | false =>
    by_cases hlast : p.limit ≤ p.counter row+1
    · cases (p.finish_exhausted now row outcome hsuccess hlast).symm.trans hwaiting
    · obtain ⟨_, _, hnext⟩ := p.finish_waiting now row outcome hsuccess (by omega)
      have hpositive := hbackoff (p.counter row+1)
      omega

omit [DecidableEq X] in
/-- Each row of a batch that is worked through gets out of the way. -/
theorem RetryPolicy.countP_drain (hbackoff : ∀ k, 0 < p.backoff k) (h : Held q rows batch)
    (hahead : ∀ row ∈ batch, p.ahead d row = true)
    (hprepared : ∀ row ∈ batch, (q.message row).isSome) (hlength : as.length = batch.length)
    (hdue : ∀ a ∈ as, p.retryAt d ≤ a.finishedAt) :
    (q.drain rows batch as).countP (p.ahead d)+batch.length = rows.countP (p.ahead d) := by
  induction batch generalizing rows as with
  | nil => rw [drain_nil, List.length_nil, Nat.add_zero]
  | cons first rest ih =>
    cases as with
    | nil => simp at hlength
    | cons a as =>
      have hfirst := h.stored first List.mem_cons_self
      have hsome := hprepared first List.mem_cons_self
      rw [Queue.drain]
      cases hmessage : q.message first with
      | none => simp [hmessage] at hsome
      | some _ =>
        have hrest := ih (p.held_written h a.finishedAt a.outcome)
          (fun r hr => hahead r (List.mem_cons_of_mem _ hr))
          (fun r hr => hprepared r (List.mem_cons_of_mem _ hr)) (by simpa using hlength)
          (fun a' ha' => hdue a' (List.mem_cons_of_mem _ ha'))
        have hother := h.keyed.countP_others (p.ahead d) hfirst
        have hkey := p.finish_key a.finishedAt first a.outcome first rfl
        rw [hahead first List.mem_cons_self, if_pos rfl] at hother
        rw [p.written_eq_save h.keyed hfirst, h.keyed.countP_save, hkey,
          p.not_ahead_finish hbackoff (hdue a List.mem_cons_self)] at hrest
        simp only [Bool.false_eq_true, if_false, Nat.add_zero] at hrest
        simp only [List.length_cons, hother, p.written_eq_save h.keyed hfirst]
        omega

omit p

/-- Rows that are created, and then a run over a page. -/
structure Round (R K O : Type*) where
  created : List R
  run : PageRun K O
  deriving DecidableEq

def Queue.afterRound (q : Queue R K X M O) (rows : List R) (c : Round R K O) : List R :=
  q.afterPage (rows ++ c.created) c.run

/-- The round is a whole run, at a time when `d` is due, and the rows that are created in it are
ranked behind `d`. -/
structure Queue.Passes (q : Queue R K X M O) (d : R) (rows : List R) (c : Round R K O) : Prop where
  keyed : Keyed q.key (rows ++ c.created)
  complete : q.Complete (rows ++ c.created) c.run
  due : q.due c.run.now d = true
  behind : ∀ row ∈ c.created, q.rank d < q.rank row

def Queue.Attempts (q : Queue R K X M O) (d : R) (rows : List R) (c : Round R K O) : Prop :=
  q.key d ∈ (q.triedIn (rows ++ c.created) c.run).map Tried.key

omit [DecidableEq X] in
/-- A row whose message cannot be prepared stays as it is. -/
theorem mem_drain_of_unprepared {row : R} (h : Held q rows batch) (hrow : row ∈ rows)
    (hmessage : q.message row = none) : row ∈ q.drain rows batch as := by
  apply mem_drain_of_notMem hrow
  intro hmem
  obtain ⟨r, hr, hkey⟩ := List.mem_map.mp hmem
  obtain rfl := h.keyed.eq_of_key (h.stored r (mem_of_mem_prepared hr)) hrow hkey
  have hsome := List.mem_takeWhile_imp hr
  simp [hmessage] at hsome

omit [DecidableEq X] in
theorem held_selected {r : PageRun K O} (hkeyed : Keyed q.key rows) (h : q.Complete rows r) :
    Held q rows (q.selected rows r) :=
  ⟨hkeyed, fun _ hrow => (mem_selected hrow).1, h.isPage.1⟩

omit [DecidableEq X] in
/-- The selected rows are as many as there are due rows, up to the limit, and so at least one when
there is one. -/
theorem selected_pos {r : PageRun K O} (h : q.Complete rows r) {row : R} (hrow : row ∈ rows)
    (hdue : q.due r.now row = true) : 0 < (q.selected rows r).length := by
  rw [h.isPage.2.2.1, pageSize]
  have hpos : 0 < (q.dueRows rows r.now).length :=
    List.length_pos_of_mem (mem_dueRows.mpr ⟨hrow, hdue⟩)
  split_ifs with hlimit
  · exact hpos
  · omega

omit [DecidableEq X] [DecidableEq K] in
theorem mem_takeWhile_of_sorted {α : Type*} {P : α → Bool} {rank : α → ℕ} {xs : List α} {x : α}
    (hsorted : xs.Pairwise fun y z => rank y ≤ rank z) (hx : x ∈ xs)
    (h : ∀ y ∈ xs, rank y ≤ rank x → P y = true) : x ∈ xs.takeWhile P := by
  induction xs with
  | nil => cases hx
  | cons y ys ih =>
    obtain ⟨hy, hys⟩ := List.pairwise_cons.mp hsorted
    rcases List.mem_cons.mp hx with rfl | hrest
    · rw [List.takeWhile_cons_of_pos (h x List.mem_cons_self le_rfl)]
      exact List.mem_cons_self
    · rw [List.takeWhile_cons_of_pos (h y List.mem_cons_self (hy x hrest))]
      exact List.mem_cons_of_mem _ (ih hys hrest fun z hz => h z (List.mem_cons_of_mem _ hz))

omit [DecidableEq X] [DecidableEq K] in
theorem of_mem_takeWhile_of_sorted {α : Type*} {P : α → Bool} {rank : α → ℕ} {xs : List α} {x y : α}
    (hsorted : xs.Pairwise fun y z => rank y ≤ rank z) (hx : x ∈ xs.takeWhile P) (hy : y ∈ xs)
    (h : rank y < rank x) : P y = true := by
  induction xs with
  | nil => cases hy
  | cons z zs ih =>
    obtain ⟨hz, hzs⟩ := List.pairwise_cons.mp hsorted
    by_cases hP : P z = true
    · rw [List.takeWhile_cons_of_pos hP] at hx
      rcases List.mem_cons.mp hy with rfl | hyrest
      · exact hP
      · rcases List.mem_cons.mp hx with rfl | hxrest
        · have hle := hz y hyrest
          omega
        · exact ih hzs hxrest hyrest
    · rw [List.takeWhile_cons_of_neg hP] at hx
      cases hx

variable {c : Round R K O}

/-- A selected row is attempted when no row that is ranked before it cannot be prepared. -/
theorem attempts_of_selected (h : q.Passes d rows c)
    (hselected : d ∈ q.selected (rows ++ c.created) c.run)
    (hprepared : ∀ row ∈ rows ++ c.created, q.due c.run.now row = true → q.rank row ≤ q.rank d →
      (q.message row).isSome = true) : q.Attempts d rows c := by
  rw [Queue.Attempts, (afterPage_eq h.complete).2]
  apply List.mem_map_of_mem
  apply mem_takeWhile_of_sorted h.complete.isPage.2.1 hselected
  intro row hrow hrank
  obtain ⟨hstored, hdue⟩ := mem_selected hrow
  exact hprepared row hstored hdue hrank

/-- A row that is ranked before `d` and cannot be prepared keeps `d` from being attempted. -/
theorem not_attempts_of_blocked (h : q.Passes d rows c) (hd : d ∈ rows) {b : R} (hb : b ∈ rows)
    (hblocked : q.message b = none) (hdue : q.due c.run.now b = true)
    (hrank : q.rank b < q.rank d) : ¬q.Attempts d rows c := by
  rw [Queue.Attempts, (afterPage_eq h.complete).2]
  intro hmem
  obtain ⟨row, hrow, hkey⟩ := List.mem_map.mp hmem
  have hselected := mem_of_mem_prepared hrow
  obtain rfl := h.keyed.eq_of_key (mem_selected hselected).1 (List.mem_append_left _ hd) hkey
  by_cases hpage : q.key b ∈ (q.selected (rows ++ c.created) c.run).map q.key
  · -- the worker comes to `b` first
    obtain ⟨b', hb', hkey'⟩ := List.mem_map.mp hpage
    obtain rfl := h.keyed.eq_of_key (mem_selected hb').1 (List.mem_append_left _ hb) hkey'
    have hsome := of_mem_takeWhile_of_sorted h.complete.isPage.2.1 hrow hb' hrank
    simp [hblocked] at hsome
  · -- `b` is due, and not ranked behind any row of the page
    have hle := h.complete.isPage.2.2.2 b
      (mem_dueRows.mpr ⟨List.mem_append_left _ hb, hdue⟩) hpage row hselected
    omega

theorem mem_afterRound_of_unprepared (h : q.Passes d rows c) {b : R} (hb : b ∈ rows)
    (hblocked : q.message b = none) : b ∈ q.afterRound rows c := by
  rw [Queue.afterRound, (afterPage_eq h.complete).1]
  exact mem_drain_of_unprepared (held_selected h.keyed h.complete) (List.mem_append_left _ hb)
    hblocked

theorem mem_afterRound_of_not_attempts (h : q.Passes d rows c) (hd : d ∈ rows)
    (hnot : ¬q.Attempts d rows c) : d ∈ q.afterRound rows c := by
  rw [Queue.Attempts, (afterPage_eq h.complete).2] at hnot
  rw [Queue.afterRound, (afterPage_eq h.complete).1]
  exact mem_drain_of_notMem (List.mem_append_left _ hd) hnot

omit [DecidableEq X] in
/-- The rows that come in while a row is due stand behind it. -/
theorem Queue.Passes.created_behind (p : RetryPolicy q) (hrank : ∀ row, q.rank row = p.retryAt row)
    (h : q.Passes d rows c) {row : R} (hrow : row ∈ c.created) : p.ahead d row = false := by
  have hlt := h.behind row hrow
  rw [hrank, hrank] at hlt
  rw [← Bool.not_eq_true, p.ahead_eq_true]
  rintro ⟨_, _, hle⟩
  omega

omit [DecidableEq X] in
theorem Queue.Passes.notMem_keys (h : q.Passes d rows c) (hd : d ∈ rows)
    (hother : d ∉ q.selected (rows ++ c.created) c.run) :
    q.key d ∉ (q.selected (rows ++ c.created) c.run).map q.key := by
  intro hmem
  obtain ⟨row, hrow, hkey⟩ := List.mem_map.mp hmem
  obtain rfl := h.keyed.eq_of_key (mem_selected hrow).1 (List.mem_append_left _ hd) hkey
  exact hother hrow

omit [DecidableEq X] in
/-- The rows that are selected in place of a row that is due stand ahead of it. -/
theorem Queue.Passes.selected_ahead (p : RetryPolicy q) (hrank : ∀ row, q.rank row = p.retryAt row)
    (h : q.Passes d rows c) (hd : d ∈ rows)
    (hother : d ∉ q.selected (rows ++ c.created) c.run) {row : R}
    (hrow : row ∈ q.selected (rows ++ c.created) c.run) : p.ahead d row = true := by
  have hkey := h.notMem_keys hd hother
  have hdue : d ∈ q.dueRows (rows ++ c.created) c.run.now :=
    mem_dueRows.mpr ⟨List.mem_append_left _ hd, h.due⟩
  have hle := h.complete.isPage.2.2.2 d hdue hkey row hrow
  rw [hrank, hrank] at hle
  rw [p.ahead_eq_true]
  exact ⟨fun hsame => hkey (hsame ▸ List.mem_map_of_mem hrow),
    (p.due_waiting _ _ (mem_selected hrow).2).1, hle⟩

/-- What a round leaves when it does not select `d`, and the messages of the rows ahead of `d` can
all be prepared: `d` as it was, and fewer rows ahead of it, all of them as they were. -/
theorem RetryPolicy.afterRound_ahead (p : RetryPolicy q) (hbackoff : ∀ k, 0 < p.backoff k)
    (hrank : ∀ row, q.rank row = p.retryAt row) (h : q.Passes d rows c) (hd : d ∈ rows)
    (hprepared : ∀ row ∈ rows, p.ahead d row = true → ∀ now, q.due now row = true →
      (q.message row).isSome = true)
    (hother : d ∉ q.selected (rows ++ c.created) c.run) :
    d ∈ q.afterRound rows c ∧
      (q.afterRound rows c).countP (p.ahead d) < rows.countP (p.ahead d) ∧
      ∀ row ∈ q.afterRound rows c, p.ahead d row = true → row ∈ rows := by
  have hd' : d ∈ rows ++ c.created := List.mem_append_left _ hd
  have hheld := held_selected h.keyed h.complete
  have hdue := (p.due_waiting _ _ h.due).2
  have hkey := h.notMem_keys hd hother
  have hbehind : ∀ row ∈ c.created, p.ahead d row = false :=
    fun row hrow => h.created_behind p hrank hrow
  have hahead : ∀ row ∈ q.selected (rows ++ c.created) c.run, p.ahead d row = true :=
    fun row hrow => h.selected_ahead p hrank hd hother hrow
  have hmessages : ∀ row ∈ q.selected (rows ++ c.created) c.run, (q.message row).isSome = true := by
    intro row hrow
    rcases List.mem_append.mp (mem_selected hrow).1 with hbefore | hnew
    · exact hprepared row hbefore (hahead row hrow) _ (mem_selected hrow).2
    · cases (hbehind row hnew).symm.trans (hahead row hrow)
  have hlate : ∀ a ∈ c.run.attempts, p.retryAt d ≤ a.finishedAt :=
    fun a ha => hdue.trans (h.complete.now_le ha)
  have hcount := p.countP_drain hbackoff hheld hahead hmessages h.complete.attempts hlate
  have hpos := selected_pos h.complete hd' h.due
  have hnone : c.created.countP (p.ahead d) = 0 := by
    rw [List.countP_eq_zero]
    intro row hrow
    simp [hbehind row hrow]
  rw [List.countP_append, hnone, Nat.add_zero] at hcount
  rw [Queue.afterRound, (afterPage_eq h.complete).1]
  refine ⟨mem_drain_of_notMem hd' fun hmem => ?_, by omega, fun row hrow hrow' => ?_⟩
  · obtain ⟨row, hrow, hsame⟩ := List.mem_map.mp hmem
    exact hkey (hsame ▸ List.mem_map_of_mem (mem_of_mem_prepared hrow))
  rcases p.mem_drain hheld hrow with hbefore | ⟨old, _, a, ha, rfl⟩
  · rcases List.mem_append.mp hbefore with hold | hnew
    · exact hold
    · cases (hbehind row hnew).symm.trans hrow'
  · cases (p.not_ahead_finish hbackoff (hlate a ha) old a.outcome).symm.trans hrow'

/-- Rows whose messages can be prepared do not keep a row that is due waiting for longer than there
are rows ahead of it. -/
theorem RetryPolicy.attempted_of_rounds (p : RetryPolicy q) (hbackoff : ∀ k, 0 < p.backoff k)
    (hrank : ∀ row, q.rank row = p.retryAt row) {rounds : List (Round R K O)}
    (h : Guarded q.afterRound (q.Passes d) rows rounds) (hd : d ∈ rows)
    (hself : (q.message d).isSome = true)
    (hprepared : ∀ row ∈ rows, p.ahead d row = true → ∀ now, q.due now row = true →
      (q.message row).isSome = true)
    (hmany : rows.countP (p.ahead d) < rounds.length) :
    Occurred q.afterRound (q.Attempts d) rows rounds := by
  induction rounds generalizing rows with
  | nil => simp at hmany
  | cons c rounds ih =>
    obtain ⟨hpasses, hrest⟩ := h
    by_cases hselected : d ∈ q.selected (rows ++ c.created) c.run
    · refine ⟨[], c, rounds, rfl, attempts_of_selected hpasses hselected ?_⟩
      intro row hrow hdue hle
      rcases List.mem_append.mp hrow with hold | hnew
      · by_cases hkey : q.key row = q.key d
        · obtain rfl := hpasses.keyed.eq_of_key hrow (List.mem_append_left _ hd) hkey
          exact hself
        · rw [hrank, hrank] at hle
          exact hprepared row hold
            (p.ahead_eq_true.mpr ⟨hkey, (p.due_waiting _ _ hdue).1, hle⟩) _ hdue
      · have hlt := hpasses.behind row hnew
        omega
    · obtain ⟨hd', hfewer, hkept⟩ :=
        p.afterRound_ahead hbackoff hrank hpasses hd hprepared hselected
      obtain ⟨pre, c', post, hsplit, hattempts⟩ := ih hrest hd'
        (fun row hrow hahead => hprepared row (hkept row hrow hahead) hahead)
        (by rw [List.length_cons] at hmany; omega)
      exact ⟨c :: pre, c', post, by rw [hsplit]; rfl, hattempts⟩

/-- A row that cannot be prepared keeps the rows behind it waiting for as long as it is due. -/
theorem not_attempted_of_blocked {rounds : List (Round R K O)} {b : R}
    (h : Guarded q.afterRound (q.Passes d) rows rounds) (hd : d ∈ rows) (hb : b ∈ rows)
    (hblocked : q.message b = none) (hrank : q.rank b < q.rank d)
    (hdue : ∀ c ∈ rounds, q.due c.run.now b = true) :
    ¬Occurred q.afterRound (q.Attempts d) rows rounds := by
  induction rounds generalizing rows with
  | nil => exact not_occurred_nil _
  | cons c rounds ih =>
    obtain ⟨hpasses, hrest⟩ := h
    rintro ⟨pre, c', post, hsplit, hattempts⟩
    have hnow := not_attempts_of_blocked hpasses hd hb hblocked (hdue c List.mem_cons_self) hrank
    cases pre with
    | nil =>
      obtain ⟨rfl, _⟩ := List.cons.inj hsplit
      exact hnow hattempts
    | cons first pre =>
      obtain ⟨rfl, hlater⟩ := List.cons.inj hsplit
      exact ih hrest (mem_afterRound_of_not_attempts hpasses hd hnow)
        (mem_afterRound_of_unprepared hpasses hb hblocked)
        (fun c' hc' => hdue c' (List.mem_cons_of_mem _ hc')) ⟨pre, c', post, hlater, hattempts⟩

end HubAssist.WorkQueue
