import HubAssist.WorkTurns

/-! Rows of work that are attempted until an attempt succeeds or a limit is reached, with a waiting
time after each failure. What the fields of a row say is tied to the attempts made for it. -/
namespace HubAssist.WorkQueue
open KeyedTable RunSystem

variable {R K X M O : Type*}

inductive Stage where
  | waiting
  | succeeded
  | exhausted
  deriving DecidableEq

/-- How a queue retries: the limit, the waiting time after the k-th failure, what a row counts, when
it is to be attempted again, where it stands, and what an attempt does to these. -/
structure RetryPolicy (q : Queue R K X M O) where
  limit : ℕ
  backoff : ℕ → ℕ
  counter : R → ℕ
  retryAt : R → ℕ
  stage : R → Stage
  succeeds : O → Bool
  limit_pos : 0 < limit
  due_waiting : ∀ now row, q.due now row = true → stage row = .waiting ∧ retryAt row ≤ now
  finish_key : ∀ now copy outcome row, q.key row = q.key copy →
    q.key (q.finish now copy outcome row) = q.key row
  finish_success : ∀ now row outcome, succeeds outcome = true →
    stage (q.finish now row outcome row) = .succeeded
  finish_exhausted : ∀ now row outcome, succeeds outcome = false → limit ≤ counter row+1 →
    stage (q.finish now row outcome row) = .exhausted
  finish_waiting : ∀ now row outcome, succeeds outcome = false → counter row+1 < limit →
    let stored := q.finish now row outcome row
    stage stored = .waiting ∧ counter stored = counter row+1 ∧
      retryAt stored = now+backoff (counter row+1)

variable {q : Queue R K X M O} (p : RetryPolicy q)

def RetryPolicy.failed (t : Tried K O) : Bool := !p.succeeds t.outcome

/-- Each attempt comes later than the waiting time after any failed one before it. -/
def RetryPolicy.Spaced (tried : List (Tried K O)) : Prop :=
  ∀ pre t post, tried = pre ++ t :: post → p.failed t = true → ∀ later ∈ post,
    t.finishedAt+p.backoff ((pre ++ [t]).countP p.failed) ≤ later.startedAt

/-- A row as the attempts made for it have to leave it. -/
structure RetryPolicy.Lifecycle (row : R) (tried : List (Tried K O)) : Prop where
  within : tried.length ≤ p.limit
  succeeded_iff : p.stage row = .succeeded ↔ ∃ t ∈ tried, p.failed t = false
  exhausted_iff : p.stage row = .exhausted ↔ tried.length = p.limit ∧ ∀ t ∈ tried, p.failed t = true
  spaced : p.Spaced tried

/-- The row is not due before the waiting time after any of the attempts is over. -/
def RetryPolicy.Delayed (row : R) (tried : List (Tried K O)) : Prop :=
  ∀ pre t post, tried = pre ++ t :: post →
    t.finishedAt+p.backoff ((pre ++ [t]).countP p.failed) ≤ p.retryAt row

/-- What the fields of a row say of the attempts made for it. -/
structure RetryPolicy.Accounts (row : R) (tried : List (Tried K O)) : Prop where
  waiting : p.stage row = .waiting → (∀ t ∈ tried, p.failed t = true) ∧
    p.counter row = tried.length ∧ tried.length < p.limit ∧ p.Delayed row tried
  succeeded : p.stage row = .succeeded → ∃ t ∈ tried, p.failed t = false
  exhausted : p.stage row = .exhausted → tried.length = p.limit ∧ ∀ t ∈ tried, p.failed t = true
  within : tried.length ≤ p.limit
  spaced : p.Spaced tried

variable {p} {row : R} {tried : List (Tried K O)}

/-- The attempts decide where the row stands. -/
theorem RetryPolicy.Accounts.lifecycle (h : p.Accounts row tried) : p.Lifecycle row tried where
  within := h.within
  spaced := h.spaced
  succeeded_iff := by
    refine ⟨h.succeeded, fun ⟨t, ht, hsuccess⟩ => ?_⟩
    cases hstage : p.stage row with
    | succeeded => rfl
    | waiting => cases ((h.waiting hstage).1 t ht).symm.trans hsuccess
    | exhausted => cases ((h.exhausted hstage).2 t ht).symm.trans hsuccess
  exhausted_iff := by
    refine ⟨h.exhausted, fun ⟨hlength, hfailed⟩ => ?_⟩
    cases hstage : p.stage row with
    | exhausted => rfl
    | waiting =>
      have hlt := (h.waiting hstage).2.2.1
      omega
    | succeeded =>
      obtain ⟨t, ht, hsuccess⟩ := h.succeeded hstage
      cases (hfailed t ht).symm.trans hsuccess

theorem RetryPolicy.accounts_fresh (hstage : p.stage row = .waiting)
    (hcounter : p.counter row = 0) : p.Accounts row [] where
  waiting _ := ⟨by simp, hcounter, p.limit_pos, fun pre t post h => by simp at h⟩
  succeeded h := by simp [hstage] at h
  exhausted h := by simp [hstage] at h
  within := Nat.zero_le _
  spaced pre t post h := by simp at h

/-- Where a list with one more element is split in front of an element. -/
theorem split_last {α : Type*} {xs pre post : List α} {x y : α} (h : xs ++ [x] = pre ++ y :: post) :
    (∃ rest, post = rest ++ [x] ∧ xs = pre ++ y :: rest) ∨ post = [] ∧ xs = pre ∧ y = x := by
  obtain ⟨mid, hxs, hmid⟩ := split_concat h
  cases mid with
  | nil =>
    obtain ⟨hy, hpost⟩ := List.cons.inj hmid
    exact .inr ⟨hpost, by simpa using hxs, hy⟩
  | cons c rest =>
    obtain ⟨rfl, hpost⟩ := List.cons.inj hmid
    exact .inl ⟨rest, hpost, hxs⟩

theorem RetryPolicy.Spaced.concat {a : Tried K O} (h : p.Spaced tried)
    (hdelayed : p.Delayed row tried) (hlate : p.retryAt row ≤ a.startedAt) : p.Spaced (tried ++ [a]) := by
  intro pre t post hsplit hfailed later hlater
  rcases split_last hsplit with ⟨rest, rfl, hbefore⟩ | ⟨rfl, _, _⟩
  · rcases List.mem_append.mp hlater with hrest | hlast
    · exact h pre t rest hbefore hfailed later hrest
    · obtain rfl := List.mem_singleton.mp hlast
      exact (hdelayed pre t rest hbefore).trans hlate
  · cases hlater

/-- An attempt for a row that waits, at a time when it is due. -/
theorem RetryPolicy.Accounts.attempt (h : p.Accounts row tried) (hstage : p.stage row = .waiting)
    {a : Tried K O} (hlate : p.retryAt row ≤ a.startedAt) (hends : a.startedAt ≤ a.finishedAt) :
    p.Accounts (q.finish a.finishedAt row a.outcome row) (tried ++ [a]) := by
  obtain ⟨hfailed, hcounter, hlimit, hdelayed⟩ := h.waiting hstage
  have hspaced := h.spaced.concat hdelayed hlate
  have hlength : (tried ++ [a]).length = tried.length+1 := by simp
  have hwithin : (tried ++ [a]).length ≤ p.limit := by omega
  cases hsuccess : p.succeeds a.outcome with
  | true =>
    have hdone := p.finish_success a.finishedAt row a.outcome hsuccess
    refine ⟨fun hw => ?_, fun _ => ⟨a, by simp, ?_⟩, fun he => ?_, hwithin, hspaced⟩
    · cases hdone.symm.trans hw
    · simp [RetryPolicy.failed, hsuccess]
    · cases hdone.symm.trans he
  | false =>
    have hafailed : p.failed a = true := by simp [RetryPolicy.failed, hsuccess]
    have hallfailed : ∀ t ∈ tried ++ [a], p.failed t = true := by
      intro t ht
      rcases List.mem_append.mp ht with hbefore | hlast
      · exact hfailed t hbefore
      · rwa [List.mem_singleton.mp hlast]
    by_cases hlast : p.limit ≤ p.counter row+1
    · have hdead := p.finish_exhausted a.finishedAt row a.outcome hsuccess hlast
      refine ⟨fun hw => ?_, fun hs => ?_, fun _ => ⟨by omega, hallfailed⟩, hwithin, hspaced⟩
      · cases hdead.symm.trans hw
      · cases hdead.symm.trans hs
    · obtain ⟨hwaiting, hcount, hnext⟩ :=
        p.finish_waiting a.finishedAt row a.outcome hsuccess (by omega)
      refine ⟨fun _ => ⟨hallfailed, by omega, by omega, fun pre t post hsplit => ?_⟩,
        fun hs => ?_, fun he => ?_, hwithin, hspaced⟩
      · -- the new waiting time is counted from the last attempt, which comes after all others
        rw [hnext]
        rcases split_last hsplit with ⟨rest, _, hbefore⟩ | ⟨_, rfl, rfl⟩
        · have hle := hdelayed pre t rest hbefore
          omega
        · rw [List.countP_eq_length.mpr hallfailed, hlength, hcounter]
      · cases hwaiting.symm.trans hs
      · cases hwaiting.symm.trans he

variable [DecidableEq K] (p)

/-- The attempts for the row of a key. -/
def history (tried : List (Tried K O)) (k : K) : List (Tried K O) := tried.filter fun t => t.key = k

/-- A row that is created waits for its first attempt. -/
def RetryPolicy.Fresh : Turn R K O → Prop
  | .create row => p.stage row = .waiting ∧ p.counter row = 0
  | _ => True

instance : DecidablePred (p.Fresh (K := K)) := fun t =>
  match t with
  | .create row => inferInstanceAs (Decidable (p.stage row = .waiting ∧ p.counter row = 0))
  | .select _ _ _ | .attempt _ _ _ => isTrue trivial

/-- Rows are created fresh, and the clock does not go back. -/
structure RetryPolicy.Regular (turns : List (Turn R K O)) : Prop where
  fresh : ∀ t ∈ turns, p.Fresh t
  forward : (turns.flatMap Turn.times).Pairwise (· ≤ ·)

/-- What holds between the turns: the rows in hand are stored as they have been read, they wait, and
they were due at a reading of the clock that is behind. -/
structure RetryPolicy.Kept (rows : List R) (w : Worker R X O) (turns : List (Turn R K O))
    (tried : List (Tried K O)) : Prop where
  keyed : Keyed q.key rows
  stored : ∀ row ∈ w.hand, row ∈ rows
  nodup : (w.hand.map q.key).Nodup
  ready : ∀ row ∈ w.hand, p.stage row = .waiting ∧
    ∃ now ∈ turns.flatMap Turn.times, p.retryAt row ≤ now
  accounts : ∀ row ∈ rows, p.Accounts row (history tried (q.key row))
  untried : ∀ k, k ∉ rows.map q.key → history tried k = []

variable {p} {rows : List R} {w : Worker R X O} {turns : List (Turn R K O)}

theorem history_concat_self {tried : List (Tried K O)} (a : Tried K O) :
    history (tried ++ [a]) a.key = history tried a.key ++ [a] := by
  simp [history, List.filter_append]

theorem history_concat_of_ne {tried : List (Tried K O)} {a : Tried K O} {k : K} (h : a.key ≠ k) :
    history (tried ++ [a]) k = history tried k := by
  simp [history, List.filter_append, h]

theorem mem_written {rows : List R} {now : ℕ} {copy row : R} {outcome : O}
    (h : row ∈ q.written rows now copy outcome) :
    row ∈ rows ∧ q.key row ≠ q.key copy ∨
      ∃ old ∈ rows, q.key old = q.key copy ∧ row = q.finish now copy outcome old := by
  obtain ⟨old, hold, rfl⟩ := List.mem_map.mp h
  split_ifs with hkey
  · exact .inr ⟨old, hold, hkey, rfl⟩
  · exact .inl ⟨hold, hkey⟩

omit [DecidableEq K] in
theorem ready_concat {row : R} (t : Turn R K O)
    (h : ∃ now ∈ turns.flatMap Turn.times, p.retryAt row ≤ now) :
    ∃ now ∈ (turns ++ [t]).flatMap Turn.times, p.retryAt row ≤ now := by
  obtain ⟨now, hnow, hle⟩ := h
  exact ⟨now, by simp [List.flatMap_append, hnow], hle⟩

/-- A turn that leaves the rows as they are and puts none into the hand of the worker. -/
theorem RetryPolicy.Kept.idle {w' : Worker R X O} {tried : List (Tried K O)}
    (h : p.Kept rows w turns tried) (hhand : w'.hand = w.hand ∨ w'.hand = []) (t : Turn R K O) :
    p.Kept rows w' (turns ++ [t]) (tried ++ []) := by
  rw [List.append_nil]
  rcases hhand with hhand | hhand
  · refine ⟨h.keyed, ?_, ?_, ?_, h.accounts, h.untried⟩
    · rw [hhand]
      exact h.stored
    · rw [hhand]
      exact h.nodup
    · intro row hrow
      obtain ⟨hwaiting, hready⟩ := h.ready row (hhand ▸ hrow)
      exact ⟨hwaiting, ready_concat t hready⟩
  · refine ⟨h.keyed, ?_, ?_, ?_, h.accounts, h.untried⟩ <;> rw [hhand]
    · intro row hrow
      cases hrow
    · exact List.nodup_nil
    · intro row hrow
      cases hrow

theorem RetryPolicy.Kept.create {row : R} {tried : List (Tried K O)} (h : p.Kept rows w turns tried)
    (hkey : q.key row ∉ rows.map q.key) (hfresh : p.Fresh (.create row : Turn R K O)) :
    p.Kept (rows ++ [row]) w (turns ++ [.create row]) (tried ++ []) := by
  rw [List.append_nil]
  refine ⟨?_, fun r hr => List.mem_append_left _ (h.stored r hr), h.nodup, fun r hr => ?_,
    fun r hr => ?_, fun k hk => h.untried k fun hmem => hk (by simp [hmem])⟩
  · rw [Keyed, List.map_append]
    exact List.Nodup.append h.keyed (List.nodup_singleton _) (by simpa using hkey)
  · obtain ⟨hwaiting, hready⟩ := h.ready r hr
    exact ⟨hwaiting, ready_concat _ hready⟩
  · rcases List.mem_append.mp hr with hold | hnew
    · exact h.accounts r hold
    · -- nothing has been attempted for a key that is new
      obtain rfl := List.mem_singleton.mp hnew
      rw [h.untried _ hkey]
      exact accounts_fresh hfresh.1 hfresh.2

theorem RetryPolicy.Kept.select {now limit : ℕ} {page : List K} {batch : List R}
    {tried : List (Tried K O)} (h : p.Kept rows (.idle : Worker R X O) turns tried)
    (hispage : q.IsPage limit (q.dueRows rows now) batch)
    (hbatch : ∀ row ∈ batch, row ∈ q.dueRows rows now) :
    p.Kept rows (.working batch : Worker R X O) (turns ++ [.select now limit page])
      (tried ++ []) := by
  rw [List.append_nil]
  refine ⟨h.keyed, fun row hrow => (mem_dueRows.mp (hbatch row hrow)).1, hispage.1,
    fun row hrow => ?_, h.accounts, h.untried⟩
  obtain ⟨hwaiting, hle⟩ := p.due_waiting now row (mem_dueRows.mp (hbatch row hrow)).2
  exact ⟨hwaiting, now, by simp [List.flatMap_append, Turn.times], hle⟩

theorem RetryPolicy.Kept.attempt {row : R} {rest : List R} {startedAt finishedAt : ℕ} {outcome : O}
    {tried : List (Tried K O)} (h : p.Kept rows (.working (row :: rest) : Worker R X O) turns tried)
    (hforward : ((turns ++ [Turn.attempt startedAt finishedAt outcome]).flatMap Turn.times).Pairwise
      (· ≤ ·)) :
    p.Kept (q.written rows finishedAt row outcome) (.working rest : Worker R X O)
      (turns ++ [.attempt startedAt finishedAt outcome])
      (tried ++ [⟨q.key row, startedAt, finishedAt, outcome⟩]) := by
  have hkeys := keys_written_of_finish_key p.finish_key rows finishedAt row outcome
  have hrow : row ∈ rows := h.stored row List.mem_cons_self
  obtain ⟨hfirst, hrest⟩ := List.nodup_cons.mp h.nodup
  obtain ⟨hwaiting, now, hnow, hready⟩ := h.ready row List.mem_cons_self
  rw [List.flatMap_append, List.pairwise_append] at hforward
  obtain ⟨_, hturn, hbefore⟩ := hforward
  have hlate : p.retryAt row ≤ startedAt := hready.trans (hbefore now hnow _ (by simp [Turn.times]))
  have hends : startedAt ≤ finishedAt := by simpa [Turn.times] using hturn
  have hkeyed : Keyed q.key (q.written rows finishedAt row outcome) := by
    rw [Keyed, hkeys]
    exact h.keyed
  refine ⟨hkeyed, fun r hr => ?_, hrest, fun r hr => ?_, fun r hr => ?_, fun k hk => ?_⟩
  · apply mem_written_of_ne (h.stored r (List.mem_cons_of_mem _ hr))
    intro hkey
    exact hfirst (hkey ▸ List.mem_map_of_mem hr)
  · obtain ⟨hwait, hr'⟩ := h.ready r (List.mem_cons_of_mem _ hr)
    exact ⟨hwait, ready_concat _ hr'⟩
  · rcases mem_written hr with ⟨hold, hne⟩ | ⟨old, hold, hkey, rfl⟩
    · rw [history_concat_of_ne hne.symm]
      exact h.accounts r hold
    · -- the row that is stored under the key is the one that the worker has read
      obtain rfl := h.keyed.eq_of_key hold hrow hkey
      rw [p.finish_key finishedAt old outcome old rfl,
        history_concat_self (⟨q.key old, startedAt, finishedAt, outcome⟩ : Tried K O)]
      exact (h.accounts old hrow).attempt (a := ⟨q.key old, startedAt, finishedAt, outcome⟩)
        hwaiting hlate hends
  · rw [hkeys] at hk
    have hne : q.key row ≠ k := by
      rintro rfl
      exact hk (List.mem_map_of_mem hrow)
    rw [history_concat_of_ne hne]
    exact h.untried k hk

variable [DecidableEq X] {s : Bench R X O} {t : Turn R K O}

theorem RetryPolicy.Kept.turn {tried : List (Tried K O)} (hrested : Rested s)
    (h : p.Kept s.1.rows s.2 turns tried) (hfresh : p.Fresh t)
    (hforward : ((turns ++ [t]).flatMap Turn.times).Pairwise (· ≤ ·)) :
    p.Kept (q.turn s t).1.rows (q.turn s t).2 (turns ++ [t]) (tried ++ q.tries s t) := by
  have heffect := (turn_effect q hrested t).1
  generalize (q.turn s t).1.rows = rows', (q.turn s t).2 = w', q.tries s t = news at heffect ⊢
  generalize s.1.rows = rows, s.2 = w at heffect h
  cases heffect with
  | skips => exact h.idle (.inl rfl) t
  | creates _ hkey => exact h.create hkey hfresh
  | selects _ hispage hbatch => exact h.select hispage hbatch
  | sends => exact h.attempt hforward
  | aborts => exact h.idle (.inr rfl) _
  | ends => exact h.idle (.inr rfl) _

def triedBy (q : Queue R K X M O) (turns : List (Turn R K O)) : List (Tried K O) :=
  trace q.turn q.tries emptyBench turns

/-- In every run each row is as the attempts for it have to leave it, and a row that has succeeded
or is exhausted stays in the table as it is. -/
structure RetryPolicy.Lives (turns : List (Turn R K O)) : Prop where
  lifecycle : ∀ row ∈ (run q.turn emptyBench turns).1.rows,
    p.Lifecycle row (history (triedBy q turns) (q.key row))
  stays : ∀ pre post, turns = pre ++ post → ∀ row ∈ (run q.turn emptyBench pre).1.rows,
    p.stage row ≠ .waiting → row ∈ (run q.turn emptyBench turns).1.rows

omit [DecidableEq X] in
/-- A row that does not wait is in nobody's hand, so that no turn writes to it. -/
theorem RetryPolicy.Kept.stays {tried : List (Tried K O)} {row : R} {rows' : List R}
    {w' : Worker R X O} {news : List (Tried K O)} (h : p.Kept rows w turns tried)
    (heffect : q.TurnEffect rows w t rows' w' news) (hrow : row ∈ rows)
    (hstage : p.stage row ≠ .waiting) : row ∈ rows' := by
  cases heffect with
  | creates => exact List.mem_append_left _ hrow
  | @sends copy _ _ finishedAt outcome _ =>
    apply mem_written_of_ne hrow
    intro hkey
    obtain rfl := h.keyed.eq_of_key hrow (h.stored copy List.mem_cons_self) hkey
    exact hstage (h.ready row List.mem_cons_self).1
  | _ => exact hrow

omit [DecidableEq K] [DecidableEq X] in
theorem RetryPolicy.Regular.left {as bs : List (Turn R K O)} (h : p.Regular (as ++ bs)) :
    p.Regular as := by
  refine ⟨fun t ht => h.fresh t (List.mem_append_left _ ht), ?_⟩
  have hforward := h.forward
  rw [List.flatMap_append, List.pairwise_append] at hforward
  exact hforward.1

theorem kept_run (p : RetryPolicy q) (turns : List (Turn R K O)) (hregular : p.Regular turns) :
    Rested (run q.turn (emptyBench : Bench R X O) turns) ∧
      p.Kept (run q.turn (emptyBench : Bench R X O) turns).1.rows
        (run q.turn (emptyBench : Bench R X O) turns).2 turns (triedBy q turns) := by
  induction turns using List.reverseRecOn with
  | nil =>
    refine ⟨.idle [], List.nodup_nil, ?_, List.nodup_nil, ?_, ?_, fun k _ => rfl⟩
    · intro row hrow
      cases hrow
    · intro row hrow
      cases hrow
    · intro row hrow
      cases hrow
  | append_singleton turns t ih =>
    obtain ⟨hrested, hkept⟩ := ih hregular.left
    rw [run_concat, triedBy, trace_concat]
    refine ⟨(turn_effect q hrested t).2, ?_⟩
    exact hkept.turn hrested (hregular.fresh t (by simp)) hregular.forward

/-- In regular runs the attempts for a row decide what becomes of it. -/
theorem lives_run (p : RetryPolicy q) (turns : List (Turn R K O)) (hregular : p.Regular turns) :
    p.Lives turns := by
  refine ⟨fun row hrow => ((kept_run p turns hregular).2.accounts row hrow).lifecycle, ?_⟩
  intro pre post hsplit row hrow hstage
  subst hsplit
  induction post using List.reverseRecOn with
  | nil => rwa [List.append_nil]
  | append_singleton post t ih =>
    rw [← List.append_assoc] at hregular
    have hbefore := ih hregular.left
    obtain ⟨hrested, hkept⟩ := kept_run p (pre ++ post) hregular.left
    rw [← List.append_assoc, run_concat]
    exact hkept.stays (turn_effect q hrested t).1 hbefore hstage

end HubAssist.WorkQueue
