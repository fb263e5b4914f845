import HubAssist.WorkQueue

/-! The books of a work queue: what the rows count against what the workers have sent for them, over
any interleaving of workers that do not share rows. -/
namespace HubAssist.WorkQueue
open KeyedTable RunSystem Interleaving

variable {I R K X M O : Type*} [DecidableEq K] {q : Queue R K X M O}

/-- How many attempts for a row have had an outcome of a kind. -/
def attempts (kind : O → Bool) (sent : List (Sent K M O)) (k : K) : ℕ :=
  sent.countP fun s => decide (s.key = k) && kind s.outcome

/-- The worker has attempted the row of `k`, and not yet written what came of it. -/
def Queue.Owes (q : Queue R K X M O) (w : Worker R X O) (k : K) (outcome : O) : Prop :=
  ∃ copy rest, w = .writing copy outcome rest ∧ q.key copy = k

def Queue.Unwritten (q : Queue R K X M O) (g : Workers I R X O) (k : K) (outcome : O) : Prop :=
  ∃ i, q.Owes (g.locals i) k outcome

/-- Whether an outcome that may be there is of a kind, as a number. -/
def weigh (kind : O → Bool) : Option O → ℕ
  | some outcome => if kind outcome then 1 else 0
  | none => 0

/-- The row and the outcome that is yet to be written into it account for all attempts: the
counter for those that count, and a single success for a final row. -/
structure Accounting.Balanced (acct : Accounting q) (start : K → ℕ) (g : Workers I R X O)
    (sent : List (Sent K M O)) (row : R) (pending : Option O) (settled : ℕ) : Prop where
  pending_iff : ∀ outcome, q.Unwritten g (q.key row) outcome ↔ pending = some outcome
  counter : acct.counter row+weigh acct.counts pending =
    start (q.key row)+attempts acct.counts sent (q.key row)
  success : attempts acct.succeeds sent (q.key row) = settled+weigh acct.succeeds pending
  settled_le : settled ≤ 1
  settled_open : acct.final row = false → settled = 0

/-- What holds throughout a run of workers that do not share rows. -/
structure Accounting.Kept (acct : Accounting q) (start : K → ℕ) (g : Workers I R X O)
    (sent : List (Sent K M O)) : Prop where
  holds : Holds (fun db => Keyed q.key db.rows) acct.InHand q.Apart g
  balanced : ∀ row ∈ g.shared.rows, ∃ pending settled, acct.Balanced start g sent row pending settled

variable {acct : Accounting q} {start : K → ℕ} {g : Workers I R X O} {sent : List (Sent K M O)}
  {row : R} {pending : Option O} {settled : ℕ} {k : K} {outcome : O} {w : Worker R X O}

theorem attempts_append (kind : O → Bool) (sent news : List (Sent K M O)) (k : K) :
    attempts kind (sent ++ news) k = attempts kind sent k+attempts kind news k :=
  List.countP_append

theorem attempts_one (kind : O → Bool) (k : K) (message : M) (outcome : O) :
    attempts kind [⟨k, message, outcome⟩] k = weigh kind (some outcome) := by
  cases h : kind outcome <;> simp [attempts, weigh, h]

theorem attempts_one_of_ne (kind : O → Bool) {k k' : K} (h : k' ≠ k) (message : M) (outcome : O) :
    attempts kind [⟨k', message, outcome⟩] k = 0 := by
  simp [attempts, h]

omit [DecidableEq K] in
theorem Queue.Owes.hand (h : q.Owes w k outcome) : ∃ row ∈ w.hand, q.key row = k := by
  obtain ⟨copy, rest, rfl, hkey⟩ := h
  exact ⟨copy, List.mem_cons_self, hkey⟩

/-- A row that has been attempted before is not final, or has settled. -/
theorem Accounting.Kept.success_le (h : acct.Kept start g sent) (hrow : row ∈ g.shared.rows) :
    attempts acct.succeeds sent (q.key row) ≤ 1 := by
  obtain ⟨pending, settled, hb⟩ := h.balanced row hrow
  rw [hb.success]
  cases hpending : pending with
  | none =>
    have hle := hb.settled_le
    simp only [weigh]
    omega
  | some outcome =>
    -- the row of an unwritten attempt is in hand, so that it is not final
    obtain ⟨i, copy, rest, hwriting, hkey⟩ := (hb.pending_iff outcome).mpr hpending
    have hown := h.holds.own i
    have hmem : copy ∈ (g.locals i).hand := hwriting ▸ List.mem_cons_self
    obtain rfl := h.holds.shared.eq_of_key (hown.stored copy hmem) hrow hkey
    have hsettled := hb.settled_open (hown.unfinished copy hmem)
    simp only [weigh]
    split_ifs <;> omega

/-- Nothing is pending for a row of which no outcome is unwritten. -/
theorem Accounting.Balanced.pending_eq_none (h : acct.Balanced start g sent row pending settled)
    (hwritten : ∀ outcome, ¬q.Unwritten g (q.key row) outcome) : pending = none := by
  cases hpending : pending with
  | none => rfl
  | some outcome => exact absurd ((h.pending_iff outcome).mpr hpending) (hwritten outcome)

theorem Accounting.Kept.counter_eq (h : acct.Kept start g sent) (hrow : row ∈ g.shared.rows)
    (hwritten : ∀ outcome, ¬q.Unwritten g (q.key row) outcome) :
    acct.counter row = start (q.key row)+attempts acct.counts sent (q.key row) := by
  obtain ⟨pending, settled, hb⟩ := h.balanced row hrow
  have hnone := hb.pending_eq_none hwritten
  have hcounter := hb.counter
  rwa [hnone, weigh, Nat.add_zero] at hcounter

omit [DecidableEq K] in
theorem owes_writing {copy : R} {rest : List R} {outcome' : O} :
    q.Owes (.writing copy outcome rest : Worker R X O) k outcome' ↔
      outcome = outcome' ∧ q.key copy = k := by
  constructor
  · rintro ⟨copy', rest', heq, hkey⟩
    obtain ⟨rfl, rfl, rfl⟩ := Worker.writing.inj heq
    exact ⟨rfl, hkey⟩
  · rintro ⟨rfl, hkey⟩
    exact ⟨copy, rest, rfl, hkey⟩

omit [DecidableEq K] in
theorem not_owes_working {batch : List R} : ¬q.Owes (.working batch : Worker R X O) k outcome := by
  rintro ⟨copy, rest, heq, _⟩
  cases heq

/-- A step of a worker leaves the rows and what it owes as they are, or sends a message for the
first row of its batch, or writes what it owes. -/
theorem Queue.Effect.books {db : Database R X} {now : ℕ} {move : Move K X O}
    {r : Database R X × Worker R X O} {news : List (Sent K M O)}
    (h : q.Effect db now w move r news) :
    (news = [] ∧ r.1.rows = db.rows ∧ ∀ k outcome, q.Owes r.2 k outcome ↔ q.Owes w k outcome) ∨
    (∃ row rest message outcome, w = .working (row :: rest) ∧ r.1.rows = db.rows ∧
      r.2 = .writing row outcome rest ∧ news = [⟨q.key row, message, outcome⟩]) ∨
    ∃ copy outcome rest, w = .writing copy outcome rest ∧ news = [] ∧
      r.1.rows = q.written db.rows now copy outcome ∧ r.2 = .working rest := by
  have hnone : ∀ w' : Worker R X O, (∀ copy outcome rest, w' ≠ .writing copy outcome rest) →
      ∀ k outcome, ¬q.Owes w' k outcome :=
    fun w' hw' k outcome ⟨copy, rest, heq, _⟩ => hw' copy outcome rest heq
  cases h with
  | skips => exact .inl ⟨rfl, rfl, fun _ _ => Iff.rfl⟩
  | selects => exact .inl ⟨rfl, rfl, fun k o =>
      iff_of_false (hnone _ (by simp) k o) (hnone _ (by simp) k o)⟩
  | commits => exact .inl ⟨rfl, rfl, fun k o =>
      iff_of_false (hnone _ (by simp) k o) (hnone _ (by simp) k o)⟩
  | sends => exact .inr (.inl ⟨_, _, _, _, rfl, rfl, rfl, rfl⟩)
  | aborts => exact .inl ⟨rfl, rfl, fun k o =>
      iff_of_false (hnone _ (by simp) k o) (hnone _ (by simp) k o)⟩
  | ends => exact .inl ⟨rfl, rfl, fun k o =>
      iff_of_false (hnone _ (by simp) k o) (hnone _ (by simp) k o)⟩
  | writes => exact .inr (.inr ⟨_, _, _, rfl, rfl, rfl, rfl⟩)

variable [DecidableEq I] [DecidableEq X] {move : I × Action K X O}

omit [DecidableEq K] [DecidableEq X] in
/-- Who owes an outcome, told apart from one worker. -/
theorem unwritten_iff (i : I) : q.Unwritten g k outcome ↔
    q.Owes (g.locals i) k outcome ∨ ∃ j, j ≠ i ∧ q.Owes (g.locals j) k outcome := by
  constructor
  · rintro ⟨j, hj⟩
    by_cases hij : j = i
    · exact .inl (hij ▸ hj)
    · exact .inr ⟨j, hij, hj⟩
  · rintro (h | ⟨j, _, hj⟩)
    · exact ⟨i, h⟩
    · exact ⟨j, hj⟩

theorem unwritten_step : q.Unwritten (step q.act g move) k outcome ↔
    q.Owes (q.act g.shared (g.locals move.1) move.2).2 k outcome ∨
      ∃ j, j ≠ move.1 ∧ q.Owes (g.locals j) k outcome := by
  rw [unwritten_iff move.1, step_locals_self]
  refine or_congr_right (exists_congr fun j => and_congr_right fun hj => ?_)
  rw [step_locals_of_ne hj]

theorem unwritten_step_congr
    (h : q.Owes (q.act g.shared (g.locals move.1) move.2).2 k outcome ↔
      q.Owes (g.locals move.1) k outcome) :
    q.Unwritten (step q.act g move) k outcome ↔ q.Unwritten g k outcome := by
  rw [unwritten_step, unwritten_iff move.1, h]

omit [DecidableEq I] [DecidableEq X] [DecidableEq K] in
/-- What a worker has in hand nobody else owes. -/
theorem not_owes_of_hand {J : Database R X → Prop} {P : Database R X → Worker R X O → Prop}
    (h : Holds J P q.Apart g) {i j : I} (hj : j ≠ i) (hrow : row ∈ (g.locals i).hand) :
    ¬q.Owes (g.locals j) (q.key row) outcome := by
  intro howes
  obtain ⟨row', hrow', hkey⟩ := howes.hand
  exact h.apart j i hj row' hrow' row hrow hkey

omit [DecidableEq I] [DecidableEq X] in
theorem Accounting.Balanced.congr {g' : Workers I R X O} {news : List (Sent K M O)}
    (h : acct.Balanced start g sent row pending settled)
    (hunwritten : ∀ outcome, q.Unwritten g' (q.key row) outcome ↔ q.Unwritten g (q.key row) outcome)
    (hnews : ∀ kind, attempts kind news (q.key row) = 0) :
    acct.Balanced start g' (sent ++ news) row pending settled where
  pending_iff outcome := (hunwritten outcome).trans (h.pending_iff outcome)
  counter := by rw [attempts_append, hnews, Nat.add_zero, h.counter]
  success := by rw [attempts_append, hnews, Nat.add_zero, h.success]
  settled_le := h.settled_le
  settled_open := h.settled_open

omit [DecidableEq I] [DecidableEq X] in
/-- A message is sent for a row for which no outcome was pending. -/
theorem Accounting.Balanced.attempted {g' : Workers I R X O} {message : M}
    (h : acct.Balanced start g sent row none settled)
    (hunwritten : ∀ outcome', q.Unwritten g' (q.key row) outcome' ↔ some outcome = some outcome') :
    acct.Balanced start g' (sent ++ [⟨q.key row, message, outcome⟩]) row (some outcome) settled where
  pending_iff := hunwritten
  counter := by
    have hcounter := h.counter
    rw [weigh, Nat.add_zero] at hcounter
    rw [attempts_append, attempts_one, hcounter, Nat.add_assoc]
  success := by
    have hsuccess := h.success
    rw [weigh, Nat.add_zero] at hsuccess
    rw [attempts_append, attempts_one, hsuccess]
  settled_le := h.settled_le
  settled_open := h.settled_open

omit [DecidableEq I] [DecidableEq X] in
/-- The pending outcome of a row that is not final is written into it. -/
theorem Accounting.Balanced.recorded {g' : Workers I R X O} {now : ℕ}
    (h : acct.Balanced start g sent row (some outcome) settled) (hopen : acct.final row = false)
    (hunwritten : ∀ outcome', ¬q.Unwritten g' (q.key row) outcome') :
    acct.Balanced start g' sent (q.finish now row outcome row) none
      (weigh acct.succeeds (some outcome)) := by
  have hkey : q.key (q.finish now row outcome row) = q.key row :=
    acct.finish_key now row outcome row rfl
  refine ⟨fun outcome' => ?_, ?_, ?_, ?_, fun hfinal => ?_⟩
  · rw [hkey]
    exact iff_of_false (hunwritten outcome') (by simp)
  · have hcounter := h.counter
    rw [weigh] at hcounter
    rw [hkey, acct.finish_counter, weigh, Nat.add_zero, hcounter]
  · rw [hkey, h.success, h.settled_open hopen, weigh, weigh]
    omega
  · rw [weigh]
    split_ifs <;> omega
  · -- the row would be final after a success
    rw [weigh, if_neg]
    intro hsucceeds
    cases hfinal.symm.trans (acct.finish_final now row outcome hsucceeds)

/-- A message for the first row of the batch becomes the pending outcome of that row. -/
theorem Accounting.Kept.balanced_send (h : acct.Kept start g sent) {first : R} {rest : List R}
    {message : M} (hworking : g.locals move.1 = .working (first :: rest))
    (hwriting : (q.act g.shared (g.locals move.1) move.2).2 = .writing first outcome rest)
    (hrow : row ∈ g.shared.rows) : ∃ pending settled, acct.Balanced start
      (Interleaving.step q.act g move) (sent ++ [⟨q.key first, message, outcome⟩]) row pending
      settled := by
  obtain ⟨pending, settled, hb⟩ := h.balanced row hrow
  have hown := h.holds.own move.1
  have hhand : first ∈ (g.locals move.1).hand := hworking ▸ List.mem_cons_self
  by_cases hkey : q.key first = q.key row
  · obtain rfl := h.holds.shared.eq_of_key (hown.stored first hhand) hrow hkey
    -- this worker has just come to the row, and no other has it
    have hfree : ∀ outcome', ¬q.Unwritten g (q.key first) outcome' := by
      intro outcome'
      rw [unwritten_iff move.1, hworking]
      rintro (howes | ⟨j, hj, howes⟩)
      · exact not_owes_working howes
      · exact not_owes_of_hand h.holds hj hhand howes
    obtain rfl := hb.pending_eq_none hfree
    refine ⟨some outcome, settled, ?_⟩
    apply hb.attempted
    intro outcome'
    rw [unwritten_step, hwriting, owes_writing, Option.some.injEq]
    constructor
    · rintro (⟨houtcome, _⟩ | ⟨j, hj, howes⟩)
      · exact houtcome
      · exact absurd howes (not_owes_of_hand h.holds hj hhand)
    · exact fun houtcome => .inl ⟨houtcome, rfl⟩
  -- for another row neither the messages nor what is pending have changed
  · have howes : ∀ outcome', q.Owes (q.act g.shared (g.locals move.1) move.2).2 (q.key row)
        outcome' ↔ q.Owes (g.locals move.1) (q.key row) outcome' := by
      intro outcome'
      rw [hwriting, hworking, owes_writing]
      exact iff_of_false (fun howes => hkey howes.2) not_owes_working
    exact ⟨pending, settled, hb.congr (fun o => unwritten_step_congr (howes o)) fun kind =>
      attempts_one_of_ne kind hkey message outcome⟩

/-- The outcome that the worker writes is the one that was pending for the row. -/
theorem Accounting.Kept.balanced_write (h : acct.Kept start g sent) {now : ℕ} {copy : R}
    {rest : List R} (hwriting : g.locals move.1 = .writing copy outcome rest)
    (hworking : (q.act g.shared (g.locals move.1) move.2).2 = .working rest)
    (hrow : row ∈ q.written g.shared.rows now copy outcome) : ∃ pending settled,
      acct.Balanced start (Interleaving.step q.act g move) sent row pending settled := by
  have hown := h.holds.own move.1
  have hhand : copy ∈ (g.locals move.1).hand := hwriting ▸ List.mem_cons_self
  obtain ⟨before, hbefore, rfl⟩ := List.mem_map.mp hrow
  obtain ⟨pending, settled, hb⟩ := h.balanced before hbefore
  by_cases hkey : q.key before = q.key copy
  · obtain rfl := h.holds.shared.eq_of_key hbefore (hown.stored copy hhand) hkey
    rw [if_pos rfl]
    obtain rfl : pending = some outcome :=
      (hb.pending_iff outcome).mp ⟨move.1, before, rest, hwriting, rfl⟩
    refine ⟨none, _, hb.recorded (hown.unfinished before hhand) fun outcome' => ?_⟩
    rw [unwritten_step, hworking]
    rintro (howes | ⟨j, hj, howes⟩)
    · exact not_owes_working howes
    · exact not_owes_of_hand h.holds hj hhand howes
  · rw [if_neg hkey]
    have howes : ∀ outcome', q.Owes (q.act g.shared (g.locals move.1) move.2).2 (q.key before)
        outcome' ↔ q.Owes (g.locals move.1) (q.key before) outcome' := by
      intro outcome'
      rw [hworking, hwriting, owes_writing]
      exact iff_of_false not_owes_working fun howes => hkey howes.2.symm
    have hsame : acct.Balanced start (Interleaving.step q.act g move) (sent ++ []) before pending
        settled := hb.congr (fun o => unwritten_step_congr (howes o)) fun _ => rfl
    rw [List.append_nil] at hsame
    exact ⟨pending, settled, hsame⟩

theorem Accounting.Kept.step (h : acct.Kept start g sent) (hunshared : q.Unshared g move) :
    acct.Kept start (Interleaving.step q.act g move) (sent ++ q.emits g move) := by
  have hallowed : Allowed (fun _ _ _ => True) (fun _ w' a => q.Leaves w' a.move) g move :=
    ⟨trivial, hunshared⟩
  refine ⟨(undisturbed acct).step h.holds hallowed, fun row hrow => ?_⟩
  replace hrow : row ∈ (q.act g.shared (g.locals move.1) move.2).1.rows := hrow
  rcases (act_effect q g.shared (g.locals move.1) move.2).books with
    ⟨hnews, hrows, howes⟩ | ⟨first, rest, message, outcome, hworking, hrows, hwriting, hnews⟩ |
    ⟨copy, outcome, rest, hwriting, hnews, hrows, hworking⟩
  · rw [hrows] at hrow
    obtain ⟨pending, settled, hb⟩ := h.balanced row hrow
    refine ⟨pending, settled, hb.congr (fun o => unwritten_step_congr (howes _ o)) fun kind => ?_⟩
    rw [Queue.emits, hnews]
    rfl
  · rw [hrows] at hrow
    rw [Queue.emits, hnews]
    exact h.balanced_send hworking hwriting hrow
  · rw [hrows] at hrow
    rw [Queue.emits, hnews, List.append_nil]
    exact h.balanced_write hwriting hworking hrow

/-- A final row is nobody's, and stays as it is. -/
theorem Accounting.Kept.final_step (h : acct.Kept start g sent) (move : I × Action K X O)
    (hrow : row ∈ g.shared.rows) (hfinal : acct.final row = true) :
    row ∈ (Interleaving.step q.act g move).shared.rows := by
  change row ∈ (q.act g.shared (g.locals move.1) move.2).1.rows
  rcases (act_effect q g.shared (g.locals move.1) move.2).rows with
    hrows | ⟨copy, outcome, rest, hwriting, _, hrows, _⟩
  · rwa [hrows]
  · rw [hrows]
    apply mem_written_of_ne hrow
    intro hkey
    have hhand : copy ∈ (g.locals move.1).hand := hwriting ▸ List.mem_cons_self
    have hown := h.holds.own move.1
    obtain rfl := h.holds.shared.eq_of_key hrow (hown.stored copy hhand) hkey
    cases hfinal.symm.trans (hown.unfinished row hhand)

/-- Idle workers at a table. -/
def idleAt (I : Type*) (rows : List R) : Workers I R X O := ⟨⟨rows, []⟩, fun _ => .idle⟩

/-- What the row of a key counts at first. -/
def Accounting.initial (acct : Accounting q) (rows : List R) (k : K) : ℕ :=
  ((findRow q.key rows k).map acct.counter).getD 0

/-- Every row has been attempted with success at most once, and, once the outcome of its last
attempt is written, counts its attempts. -/
def Accounting.Exact (acct : Accounting q) (start : K → ℕ) (g : Workers I R X O)
    (sent : List (Sent K M O)) : Prop :=
  ∀ row ∈ g.shared.rows, attempts acct.succeeds sent (q.key row) ≤ 1 ∧
    ((∀ outcome, ¬q.Unwritten g (q.key row) outcome) →
      acct.counter row = start (q.key row)+attempts acct.counts sent (q.key row))

/-- The step leaves every final row as it is. -/
def Accounting.KeepsFinal (acct : Accounting q) (g : Workers I R X O) (move : I × Action K X O) :
    Prop :=
  ∀ row ∈ g.shared.rows, acct.final row = true → row ∈ (Interleaving.step q.act g move).shared.rows

/-- Workers that start idle at a table select no row that another has in hand. -/
abbrev Queue.Divided (q : Queue R K X M O) (rows : List R) (moves : List (I × Action K X O)) : Prop :=
  Guarded (Interleaving.step q.act) q.Unshared (idleAt I rows) moves

/-- Workers that start idle at a table keep exact books, and leave final rows as they are. -/
def Accounting.ExactRun (acct : Accounting q) (rows : List R) (moves : List (I × Action K X O)) :
    Prop :=
  acct.Exact (acct.initial rows) (run (Interleaving.step q.act) (idleAt I rows) moves)
      (trace (Interleaving.step q.act) q.emits (idleAt I rows) moves) ∧
    Guarded (Interleaving.step q.act) acct.KeepsFinal (idleAt I rows) moves

omit [DecidableEq X] in
theorem Accounting.initial_of_mem (acct : Accounting q) {rows : List R}
    (hkeyed : Keyed q.key rows) (hrow : row ∈ rows) :
    acct.initial rows (q.key row) = acct.counter row := by
  cases hfind : findRow q.key rows (q.key row) with
  | none =>
    have hne := List.find?_eq_none.mp hfind row hrow
    simp at hne
  | some row' =>
    obtain ⟨hrow', hkey⟩ := findRow_eq_some hfind
    obtain rfl := hkeyed.eq_of_key hrow' hrow hkey
    rw [Accounting.initial, hfind]
    rfl

omit [DecidableEq I] [DecidableEq X] in
theorem kept_idle (acct : Accounting q) (rows : List R) (hkeyed : Keyed q.key rows) :
    acct.Kept (acct.initial rows) (idleAt I rows : Workers I R X O) [] := by
  have hidle : ∀ k outcome, ¬q.Unwritten (idleAt I rows : Workers I R X O) k outcome := by
    rintro k outcome ⟨i, copy, rest, heq, _⟩
    cases heq
  refine ⟨⟨hkeyed, fun i => ⟨?_, List.nodup_nil, ?_⟩, fun i j _ row hrow => ?_⟩, fun row hrow => ?_⟩
  · exact fun row hrow => absurd hrow List.not_mem_nil
  · exact fun row hrow => absurd hrow List.not_mem_nil
  · exact absurd hrow List.not_mem_nil
  · refine ⟨none, 0, fun outcome => iff_of_false (hidle _ outcome) (by simp), ?_, rfl,
      Nat.zero_le _, fun _ => rfl⟩
    rw [acct.initial_of_mem hkeyed hrow]
    rfl

/-- The books are exact in every run in which the workers share no rows. -/
theorem exact_run (acct : Accounting q) (rows : List R) (hkeyed : Keyed q.key rows)
    {moves : List (I × Action K X O)} (hdivided : q.Divided rows moves) :
    acct.ExactRun rows moves := by
  have hidle := kept_idle (I := I) (X := X) (O := O) (M := M) acct rows hkeyed
  constructor
  · have hkept := trace_invariant (step q.act) (J := acct.Kept (acct.initial rows))
      (fun _ _ _ h ha => h.step ha) hidle hdivided
    rw [List.nil_append] at hkept
    exact fun row hrow => ⟨hkept.success_le hrow, hkept.counter_eq hrow⟩
  · refine guarded_of_guarded (step q.act)
      (J := fun g => ∃ sent, acct.Kept (acct.initial rows) g sent)
      ?_ ?_ ⟨[], hidle⟩ hdivided hdivided
    · rintro g move ⟨sent, hkept⟩ hg
      exact ⟨_, hkept.step hg⟩
    · rintro g move ⟨sent, hkept⟩ _ row hrow hfinal
      exact hkept.final_step move hrow hfinal

end HubAssist.WorkQueue
