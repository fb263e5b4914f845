import HubAssist.WorkQueue

/-! Workers that take turns with whole pages of a table of work, which is one worker after the
other. A turn selects a page and commits, or attempts the first row of the page and writes what came
of it; rows may be created at any time. -/
namespace HubAssist.WorkQueue
open KeyedTable RunSystem

variable {R K X M O : Type*}

inductive Turn (R K O : Type*) where
  | create (row : R)
  | select (now limit : ℕ) (page : List K)
  | attempt (startedAt finishedAt : ℕ) (outcome : O)
  deriving DecidableEq

/-- The readings of the clock in a turn. -/
def Turn.times : Turn R K O → List ℕ
  | .create _ => []
  | .select now _ _ => [now]
  | .attempt startedAt finishedAt _ => [startedAt, finishedAt]

/-- A finished attempt for the row of a key. -/
structure Tried (K O : Type*) where
  key : K
  startedAt : ℕ
  finishedAt : ℕ
  outcome : O
  deriving DecidableEq

/-- The database, and the worker whose turn it is. -/
abbrev Bench (R X O : Type*) := Database R X × Worker R X O

/-- No rows, and nobody at work. -/
def emptyBench : Bench R X O := (⟨[], []⟩, .idle)

variable [DecidableEq K] [DecidableEq X] (q : Queue R K X M O)

def Queue.perform (s : Bench R X O) (a : Action K X O) : Bench R X O := q.act s.1 s.2 a

/-- A select locks what its page has to, and commits; an attempt is followed by its write. -/
def Queue.turn (s : Bench R X O) : Turn R K O → Bench R X O
  | .create row =>
    if q.key row ∈ s.1.rows.map q.key then s
    else ({ s.1 with rows := s.1.rows ++ [row] }, s.2)
  | .select now limit page =>
    let locks := (page.filterMap (findRow q.key (q.candidates s.1 now))).flatMap q.locks
    q.perform (q.perform s ⟨now, .select limit page locks⟩) ⟨now, .commit⟩
  | .attempt startedAt finishedAt outcome =>
    q.perform (q.perform s ⟨startedAt, .attempt outcome⟩) ⟨finishedAt, .write⟩

omit [DecidableEq K] [DecidableEq X] in
/-- What a turn has attempted. -/
def Queue.tries (s : Bench R X O) : Turn R K O → List (Tried K O)
  | .attempt startedAt finishedAt outcome =>
    (q.sent s.2 (Move.attempt (X := X) outcome)).map fun sent =>
      ⟨sent.key, startedAt, finishedAt, sent.outcome⟩
  | _ => []

/-- The rows of a table that are due. -/
def Queue.dueRows (rows : List R) (now : ℕ) : List R := rows.filter fun row => q.due now row

/-- Between two turns no row is locked, and what has been attempted is written. -/
inductive Rested : Bench R X O → Prop
  | idle (rows : List R) : Rested (⟨rows, []⟩, .idle)
  | working (rows batch : List R) : Rested (⟨rows, []⟩, .working batch)

/-- What a turn does to the rows and to the worker, and what it attempts. -/
inductive Queue.TurnEffect (rows : List R) :
    Worker R X O → Turn R K O → List R → Worker R X O → List (Tried K O) → Prop
  | skips (w : Worker R X O) (t : Turn R K O) : Queue.TurnEffect rows w t rows w []
  | creates {row : R} (w : Worker R X O) (hkey : q.key row ∉ rows.map q.key) :
    Queue.TurnEffect rows w (.create row) (rows ++ [row]) w []
  | selects {now limit : ℕ} {page : List K} {batch : List R} (hpage : batch.map q.key = page)
    (hispage : q.IsPage limit (q.dueRows rows now) batch)
    (hbatch : ∀ row ∈ batch, row ∈ q.dueRows rows now) :
    Queue.TurnEffect rows .idle (.select now limit page) rows (.working batch) []
  | sends {row : R} {rest : List R} {startedAt finishedAt : ℕ} {outcome : O}
    (hmessage : (q.message row).isSome) :
    Queue.TurnEffect rows (.working (row :: rest)) (.attempt startedAt finishedAt outcome)
      (q.written rows finishedAt row outcome) (.working rest)
      [⟨q.key row, startedAt, finishedAt, outcome⟩]
  | aborts {row : R} {rest : List R} {startedAt finishedAt : ℕ} {outcome : O}
    (hmessage : q.message row = none) :
    Queue.TurnEffect rows (.working (row :: rest)) (.attempt startedAt finishedAt outcome)
      rows .idle []
  | ends {startedAt finishedAt : ℕ} {outcome : O} :
    Queue.TurnEffect rows (.working []) (.attempt startedAt finishedAt outcome) rows .idle []

variable {q} {s : Bench R X O} {rows : List R} {now limit : ℕ} {page : List K}

omit [DecidableEq K] in
theorem candidates_free : q.candidates (⟨rows, []⟩ : Database R X) now = q.dueRows rows now := by
  apply List.filter_congr
  intro row _
  have hall : ((q.locks row).all fun x => decide (x ∉ ([] : List X))) = true := by simp
  rw [hall, Bool.and_true]

/-- A page of due rows is selected, by its keys. -/
theorem turn_select {batch : List R}
    (hfound : page.filterMap (findRow q.key (q.dueRows rows now)) = batch)
    (hpage : batch.map q.key = page) (hispage : q.IsPage limit (q.dueRows rows now) batch) :
    q.turn (⟨rows, []⟩, .idle) (.select now limit page) = (⟨rows, []⟩, .working batch) := by
  have hselected : q.select (O := O) (⟨rows, []⟩ : Database R X) now limit page
      (batch.flatMap q.locks) = (⟨rows, batch.flatMap q.locks⟩,
        .selecting (batch.flatMap q.locks) batch) := by
    simp only [Queue.select, candidates_free, hfound]
    rw [if_pos ⟨hpage, hispage, fun row hrow x hx => List.mem_flatMap.mpr ⟨row, hrow, hx⟩, by simp⟩]
    simp
  simp only [Queue.turn, Queue.perform, candidates_free, hfound, Queue.act, hselected]
  simp

theorem turn_select_other
    (h : ¬(let batch := page.filterMap (findRow q.key (q.dueRows rows now))
      batch.map q.key = page ∧ q.IsPage limit (q.dueRows rows now) batch)) :
    q.turn ((⟨rows, []⟩, .idle) : Bench R X O) (.select now limit page) = (⟨rows, []⟩, .idle) := by
  have hrefused (acquired : List X) : q.select (O := O) (⟨rows, []⟩ : Database R X) now limit page
      acquired = (⟨rows, []⟩, .idle) := by
    simp only [Queue.select, candidates_free]
    rw [if_neg]
    rintro ⟨hpage, hispage, _⟩
    exact h ⟨hpage, hispage⟩
  simp only [Queue.turn, Queue.perform, Queue.act, hrefused]

omit [DecidableEq K] [DecidableEq X] in
theorem mem_dueRows {row : R} : row ∈ q.dueRows rows now ↔ row ∈ rows ∧ q.due now row = true :=
  List.mem_filter

theorem turn_effect_select (rows : List R) (now limit : ℕ) (page : List K) :
    let s : Bench R X O := (⟨rows, []⟩, .idle)
    let t : Turn R K O := .select now limit page
    q.TurnEffect rows .idle t (q.turn s t).1.rows (q.turn s t).2 [] ∧ Rested (q.turn s t) := by
  intro s t
  by_cases h : (page.filterMap (findRow q.key (q.dueRows rows now))).map q.key = page ∧
      q.IsPage limit (q.dueRows rows now) (page.filterMap (findRow q.key (q.dueRows rows now)))
  · have hturn : q.turn s t = _ := turn_select rfl h.1 h.2
    rw [hturn]
    refine ⟨.selects h.1 h.2 fun row hrow => ?_, .working _ _⟩
    obtain ⟨k, _, hfind⟩ := List.mem_filterMap.mp hrow
    exact (findRow_eq_some hfind).1
  · have hturn : q.turn s t = s := turn_select_other h
    rw [hturn]
    exact ⟨.skips _ _, .idle _⟩

theorem turn_effect (q : Queue R K X M O) (h : Rested s) (t : Turn R K O) :
    q.TurnEffect s.1.rows s.2 t (q.turn s t).1.rows (q.turn s t).2 (q.tries s t) ∧
      Rested (q.turn s t) := by
  cases t with
  | create row =>
    simp only [Queue.turn, Queue.tries]
    split_ifs with hkey
    · exact ⟨.skips _ _, h⟩
    · refine ⟨.creates _ hkey, ?_⟩
      cases h with
      | idle rows => exact .idle _
      | working rows batch => exact .working _ _
  | select now limit page =>
    cases h with
    | idle rows => exact turn_effect_select rows now limit page
    | working rows batch => exact ⟨.skips _ _, .working _ _⟩
  | attempt startedAt finishedAt outcome =>
    cases h with
    | idle rows => exact ⟨.skips _ _, .idle _⟩
    | working rows batch =>
      cases batch with
      | nil => exact ⟨.ends, .idle _⟩
      | cons row rest =>
        cases hmessage : q.message row with
        | none =>
          simp only [Queue.turn, Queue.perform, Queue.tries, Queue.act, Queue.sent, hmessage]
          exact ⟨.aborts hmessage, .idle _⟩
        | some message =>
          simp only [Queue.turn, Queue.perform, Queue.tries, Queue.act, Queue.sent, hmessage]
          exact ⟨.sends (by rw [hmessage]; rfl), .working _ _⟩

end HubAssist.WorkQueue
