import HubAssist.Interleaving
import HubAssist.KeyedTable
import Mathlib.Data.Fintype.Basic
import Mathlib.Data.List.Count

/-! Workers that take due rows of a table in pages and attempt them one after the other. A page is
read in a transaction that locks what it reads, and skips what others have locked; the locks are
gone before the first attempt. An attempt and the update of its row are two steps, and the update
goes by the copy of the row that the worker has read. Rows, keys, locks and outcomes are
arbitrary. -/
namespace HubAssist.WorkQueue
open KeyedTable RunSystem Interleaving

/-- A table of work: the key of a row, the lock on the row of a key, all locks that reading a row
takes, whether a row is due at a time, the order in which due rows are taken, the message that an
attempt sends, if preparing it does not throw, and the row that is stored after an attempt, from
the time, the worker's copy, the outcome and the row that was stored. -/
structure Queue (R K X M O : Type*) where
  key : R → K
  rowLock : K → X
  locks : R → List X
  due : ℕ → R → Bool
  rank : R → ℕ
  message : R → Option M
  finish : ℕ → R → O → R → R

structure Database (R X : Type*) where
  rows : List R
  held : List X
  deriving DecidableEq

inductive Worker (R X O : Type*) where
  | idle
  | selecting (acquired : List X) (batch : List R)
  | working (batch : List R)
  | writing (copy : R) (outcome : O) (rest : List R)
  deriving DecidableEq

/-- A worker selects a page, which may lock more than the page holds; it commits; it attempts the
first row of its batch; and it writes what came of it. -/
inductive Move (K X O : Type*) where
  | select (limit : ℕ) (page : List K) (acquired : List X)
  | commit
  | attempt (outcome : O)
  | write
  deriving DecidableEq

structure Action (K X O : Type*) where
  now : ℕ
  move : Move K X O
  deriving DecidableEq

/-- A sent message, with the key of its row and what came of it. -/
structure Sent (K M O : Type*) where
  key : K
  message : M
  outcome : O
  deriving DecidableEq

variable {R K X M O : Type*} [DecidableEq K] [DecidableEq X] (q : Queue R K X M O)

/-- The due rows that nobody has locked. -/
def Queue.candidates (db : Database R X) (now : ℕ) : List R :=
  db.rows.filter fun row => q.due now row && (q.locks row).all fun x => x ∉ db.held

/-- `take`, for which zero is no limit. -/
def pageSize (limit total : ℕ) : ℕ := if limit = 0 then total else min limit total

/-- A page of candidates in the order of their ranks, with rows of one rank in any order. -/
def Queue.IsPage (limit : ℕ) (candidates batch : List R) : Prop :=
  (batch.map q.key).Nodup ∧ batch.Pairwise (fun r r' => q.rank r ≤ q.rank r') ∧
    batch.length = pageSize limit candidates.length ∧
    ∀ row ∈ candidates, q.key row ∉ batch.map q.key → ∀ r ∈ batch, q.rank r ≤ q.rank row

instance (limit : ℕ) (candidates batch : List R) : Decidable (q.IsPage limit candidates batch) :=
  inferInstanceAs (Decidable (_ ∧ _ ∧ _ ∧ ∀ row ∈ candidates, _))

def Queue.select (db : Database R X) (now limit : ℕ) (page : List K) (acquired : List X) :
    Database R X × Worker R X O :=
  let candidates := q.candidates db now
  let batch := page.filterMap (findRow q.key candidates)
  if batch.map q.key = page ∧ q.IsPage limit candidates batch ∧
      (∀ row ∈ batch, ∀ x ∈ q.locks row, x ∈ acquired) ∧ ∀ x ∈ acquired, x ∉ db.held then
    ({ db with held := db.held ++ acquired }, .selecting acquired batch)
  else (db, .idle)

/-- The stored rows once the worker has written the outcome of its attempt. -/
def Queue.written (rows : List R) (now : ℕ) (copy : R) (outcome : O) : List R :=
  rows.map fun row => if q.key row = q.key copy then q.finish now copy outcome row else row

/-- One step of a worker. An attempt whose message cannot be prepared ends the whole batch; a write
waits for the lock on its row. -/
def Queue.act (db : Database R X) (w : Worker R X O) (a : Action K X O) :
    Database R X × Worker R X O :=
  match a.move, w with
  | .select limit page acquired, .idle => q.select db a.now limit page acquired
  | .commit, .selecting acquired batch =>
    ({ db with held := db.held.filter (· ∉ acquired) }, .working batch)
  | .attempt outcome, .working (row :: rest) =>
    match q.message row with
    | some _ => (db, .writing row outcome rest)
    | none => (db, .idle)
  | .attempt _, .working [] => (db, .idle)
  | .write, .writing copy outcome rest =>
    if q.rowLock (q.key copy) ∈ db.held then (db, w)
    else ({ db with rows := q.written db.rows a.now copy outcome }, .working rest)
  | _, _ => (db, w)

abbrev Workers (I R X O : Type*) := Global I (Database R X) (Worker R X O)

/-- What a step of a worker sends. -/
def Queue.sent (w : Worker R X O) (move : Move K X O) : List (Sent K M O) :=
  match move, w with
  | .attempt outcome, .working (row :: _) =>
    match q.message row with
    | some message => [⟨q.key row, message, outcome⟩]
    | none => []
  | _, _ => []

def Queue.emits {I : Type*} (g : Workers I R X O) (step : I × Action K X O) : List (Sent K M O) :=
  q.sent (g.locals step.1) step.2.move

/-- The rows that a worker has read and not yet worked through. -/
def Worker.hand : Worker R X O → List R
  | .idle => []
  | .selecting _ batch => batch
  | .working batch => batch
  | .writing copy _ rest => copy :: rest

/-- The step does not select what the worker `w` has in hand. -/
def Queue.Leaves (w : Worker R X O) (move : Move K X O) : Prop :=
  match move with
  | .select _ page _ => ∀ row ∈ w.hand, q.key row ∉ page
  | _ => True

/-- No worker selects a row that another has in hand. -/
def Queue.Unshared {I : Type*} (g : Workers I R X O) (step : I × Action K X O) : Prop :=
  ∀ j, j ≠ step.1 → q.Leaves (g.locals j) step.2.move

instance (w : Worker R X O) (move : Move K X O) : Decidable (q.Leaves w move) :=
  match move with
  | .select _ page _ => inferInstanceAs (Decidable (∀ row ∈ w.hand, q.key row ∉ page))
  | .commit | .attempt _ | .write => isTrue trivial

instance {I : Type*} [DecidableEq I] [Fintype I] (g : Workers I R X O) (step : I × Action K X O) :
    Decidable (q.Unshared g step) :=
  inferInstanceAs (Decidable (∀ j, j ≠ step.1 → q.Leaves (g.locals j) step.2.move))

/-- What a step of a worker does, and what it sends. -/
inductive Queue.Effect (db : Database R X) (now : ℕ) :
    Worker R X O → Move K X O → Database R X × Worker R X O → List (Sent K M O) → Prop
  | skips (w : Worker R X O) (m : Move K X O) : Queue.Effect db now w m (db, w) []
  | selects {limit : ℕ} {page : List K} {acquired : List X} {batch : List R} (held : List X)
    (hbatch : ∀ row ∈ batch, row ∈ db.rows ∧ q.due now row = true)
    (hpage : batch.map q.key = page) (hnodup : page.Nodup) :
    Queue.Effect db now .idle (.select limit page acquired)
      ({ db with held := held }, .selecting acquired batch) []
  | commits {acquired : List X} {batch : List R} (held : List X) :
    Queue.Effect db now (.selecting acquired batch) .commit
      ({ db with held := held }, .working batch) []
  | sends {row : R} {rest : List R} {message : M} (outcome : O) (hmessage : q.message row = some message) :
    Queue.Effect db now (.working (row :: rest)) (.attempt outcome)
      (db, .writing row outcome rest) [⟨q.key row, message, outcome⟩]
  | aborts {row : R} {rest : List R} (outcome : O) (hmessage : q.message row = none) :
    Queue.Effect db now (.working (row :: rest)) (.attempt outcome) (db, .idle) []
  | ends (outcome : O) : Queue.Effect db now (.working []) (.attempt outcome) (db, .idle) []
  | writes {copy : R} {outcome : O} {rest : List R} :
    Queue.Effect db now (.writing copy outcome rest) .write
      ({ db with rows := q.written db.rows now copy outcome }, .working rest) []

variable {q} {db : Database R X} {now : ℕ}

omit [DecidableEq K] in
theorem mem_candidates {row : R} (h : row ∈ q.candidates db now) :
    row ∈ db.rows ∧ q.due now row = true := by
  obtain ⟨hrow, hdue⟩ := List.mem_filter.mp h
  exact ⟨hrow, (Bool.and_eq_true_iff.mp hdue).1⟩

theorem act_effect (q : Queue R K X M O) (db : Database R X) (w : Worker R X O)
    (a : Action K X O) : q.Effect db a.now w a.move (q.act db w a) (q.sent w a.move) := by
  obtain ⟨now, move⟩ := a
  cases move with
  | select limit page acquired =>
    cases w with
    | idle =>
      simp only [Queue.act, Queue.select]
      split_ifs with h
      · obtain ⟨hpage, hispage, _⟩ := h
        refine .selects _ (fun row hrow => ?_) hpage (hpage ▸ hispage.1)
        obtain ⟨k, _, hfind⟩ := List.mem_filterMap.mp hrow
        exact mem_candidates (findRow_eq_some hfind).1
      · exact .skips .idle _
    | _ => exact .skips _ _
  | commit =>
    cases w with
    | selecting acquired batch => exact .commits _
    | _ => exact .skips _ _
  | attempt outcome =>
    cases w with
    | working batch =>
      cases batch with
      | nil => exact .ends outcome
      | cons row rest =>
        cases hmessage : q.message row with
        | none =>
          simp only [Queue.act, Queue.sent, hmessage]
          exact .aborts outcome hmessage
        | some message =>
          simp only [Queue.act, Queue.sent, hmessage]
          exact .sends outcome hmessage
    | _ => exact .skips _ _
  | write =>
    cases w with
    | writing copy outcome rest =>
      simp only [Queue.act]
      split_ifs with hheld
      · exact .skips _ _
      · exact .writes
    | _ => exact .skips _ _

/-- What is counted in a row, when it is final, and which outcomes are counted and which succeed.
A row that has just been attempted counts what came of it, and is final after a success. -/
structure Accounting (q : Queue R K X M O) where
  counter : R → ℕ
  final : R → Bool
  counts : O → Bool
  succeeds : O → Bool
  due_open : ∀ now row, q.due now row = true → final row = false
  finish_key : ∀ now copy outcome row, q.key row = q.key copy →
    q.key (q.finish now copy outcome row) = q.key row
  finish_counter : ∀ now row outcome,
    counter (q.finish now row outcome row) = counter row+if counts outcome then 1 else 0
  finish_final : ∀ now row outcome, succeeds outcome = true →
    final (q.finish now row outcome row) = true

variable (acct : Accounting q)

/-- What a worker has in hand is stored as it has read it, and is not final. -/
structure Accounting.InHand (db : Database R X) (w : Worker R X O) : Prop where
  stored : ∀ row ∈ w.hand, row ∈ db.rows
  nodup : (w.hand.map q.key).Nodup
  unfinished : ∀ row ∈ w.hand, acct.final row = false

/-- Two workers have no row in hand that is the same. -/
def Queue.Apart (q : Queue R K X M O) (w w' : Worker R X O) : Prop :=
  ∀ row ∈ w.hand, ∀ row' ∈ w'.hand, q.key row ≠ q.key row'

variable {acct} {w w' : Worker R X O} {move : Move K X O} {r : Database R X × Worker R X O}
  {news : List (Sent K M O)}

omit [DecidableEq X] in
/-- A worker gets rows in hand by selecting them. -/
theorem Queue.Effect.hand (h : q.Effect db now w move r news) :
    (∀ row ∈ r.2.hand, row ∈ w.hand) ∨
      ∃ limit page acquired, move = .select limit page acquired ∧ r.2.hand.map q.key = page := by
  cases h with
  | skips => exact .inl fun _ hrow => hrow
  | selects _ _ hpage => exact .inr ⟨_, _, _, rfl, hpage⟩
  | commits => exact .inl fun _ hrow => hrow
  | sends => exact .inl fun _ hrow => hrow
  | aborts => exact .inl fun _ hrow => absurd hrow List.not_mem_nil
  | ends => exact .inl fun _ hrow => absurd hrow List.not_mem_nil
  | writes => exact .inl fun _ hrow => List.mem_cons_of_mem _ hrow

omit [DecidableEq X] in
/-- A worker writes to the row that it has attempted, and to no other. -/
theorem Queue.Effect.rows (h : q.Effect db now w move r news) :
    r.1.rows = db.rows ∨ ∃ copy outcome rest, w = .writing copy outcome rest ∧ move = .write ∧
      r.1.rows = q.written db.rows now copy outcome ∧ r.2 = .working rest := by
  cases h with
  | writes => exact .inr ⟨_, _, _, rfl, rfl, rfl, rfl⟩
  | _ => exact .inl rfl

omit [DecidableEq X] in
theorem mem_written_of_ne {rows : List R} {copy row : R} {outcome : O} (hrow : row ∈ rows)
    (hne : q.key row ≠ q.key copy) : row ∈ q.written rows now copy outcome :=
  List.mem_map.mpr ⟨row, hrow, if_neg hne⟩

omit [DecidableEq X] in
/-- Writing outcomes leaves the keys as they are, where finishing a row does. -/
theorem keys_written_of_finish_key (hfinish : ∀ now copy outcome row, q.key row = q.key copy →
      q.key (q.finish now copy outcome row) = q.key row) (rows : List R) (now : ℕ) (copy : R)
    (outcome : O) : (q.written rows now copy outcome).map q.key = rows.map q.key := by
  rw [Queue.written, List.map_map]
  apply List.map_congr_left
  intro row _
  simp only [Function.comp_apply]
  split_ifs with hkey
  · exact hfinish now copy outcome row hkey
  · rfl

omit [DecidableEq X] in
theorem Accounting.keys_written (acct : Accounting q) (rows : List R) (now : ℕ) (copy : R)
    (outcome : O) : (q.written rows now copy outcome).map q.key = rows.map q.key :=
  keys_written_of_finish_key acct.finish_key rows now copy outcome

omit [DecidableEq X] in
theorem Queue.Effect.inHand (h : q.Effect db now w move r news) (hw : acct.InHand db w) :
    acct.InHand r.1 r.2 := by
  cases h with
  | skips => exact hw
  | selects _ hbatch hpage hnodup =>
    exact ⟨fun row hrow => (hbatch row hrow).1, by rw [Worker.hand, hpage]; exact hnodup,
      fun row hrow => acct.due_open now row (hbatch row hrow).2⟩
  | commits => exact ⟨hw.stored, hw.nodup, hw.unfinished⟩
  | sends => exact ⟨hw.stored, hw.nodup, hw.unfinished⟩
  | aborts => exact ⟨fun _ hrow => absurd hrow List.not_mem_nil, List.nodup_nil,
      fun _ hrow => absurd hrow List.not_mem_nil⟩
  | ends => exact ⟨fun _ hrow => absurd hrow List.not_mem_nil, List.nodup_nil,
      fun _ hrow => absurd hrow List.not_mem_nil⟩
  | @writes copy outcome rest =>
    -- the rest of the batch has other keys than the row that is written
    obtain ⟨hcopy, hrest⟩ := List.nodup_cons.mp hw.nodup
    refine ⟨fun row hrow => ?_, hrest,
      fun row hrow => hw.unfinished row (List.mem_cons_of_mem _ hrow)⟩
    apply mem_written_of_ne (hw.stored row (List.mem_cons_of_mem _ hrow))
    intro hkey
    exact hcopy (hkey ▸ List.mem_map_of_mem hrow)

/-- Workers that select no row which another has in hand do not disturb each other. -/
theorem undisturbed (acct : Accounting q) : Undisturbed q.act
    (fun db => Keyed q.key db.rows) acct.InHand q.Apart (fun _ _ _ => True)
    (fun _ w' a => q.Leaves w' a.move) where
  symm w w' h row hrow row' hrow' := (h row' hrow' row hrow).symm
  shared db w a hkeyed _ _ := by
    rcases (act_effect q db w a).rows with hrows | ⟨copy, outcome, _, _, _, hrows, _⟩
    · rwa [hrows]
    · rw [hrows, Keyed, acct.keys_written]
      exact hkeyed
  own db w a _ hw _ := (act_effect q db w a).inHand hw
  other db w w' a _ hw hw' hapart _ := by
    refine ⟨fun row hrow => ?_, hw'.nodup, hw'.unfinished⟩
    rcases (act_effect q db w a).rows with hrows | ⟨copy, outcome, rest, hwriting, _, hrows, _⟩
    · rw [hrows]
      exact hw'.stored row hrow
    · rw [hrows]
      apply mem_written_of_ne (hw'.stored row hrow)
      exact (hapart copy (hwriting ▸ List.mem_cons_self) row hrow).symm
  apart db w w' a _ _ hapart _ hunshared := by
    intro row hrow row' hrow' hkey
    rcases (act_effect q db w a).hand with hkept | ⟨limit, page, acquired, hmove, hpage⟩
    · exact hapart row (hkept row hrow) row' hrow' hkey
    · simp only [hmove, Queue.Leaves] at hunshared
      apply hunshared row' hrow'
      rw [← hpage, ← hkey]
      exact List.mem_map_of_mem hrow

end HubAssist.WorkQueue
