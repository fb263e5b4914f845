import HubAssist.OffsetFeed
import HubAssist.QueryBuilder
import HubAssist.RunSystem
import Mathlib.Data.Rat.Lemmas

/-! The contact messages: their submission, and an admin who reads them page by page while others
come in. How a submission is scored is a parameter. -/
namespace HubAssist.Contact
open QueryBuilder OffsetFeed RunSystem

inductive ContactMessageStatus where
  | pending
  | reviewed
  | flagged
  | resolved
  deriving DecidableEq, Repr

structure SubmitContactDto where
  fullName : String
  email : String
  subject : String
  message : String
  deriving DecidableEq

structure SpamAnalysis where
  score : ℚ
  flags : List String
  deriving DecidableEq

structure ContactMessage where
  id : String
  submission : SubmitContactDto
  ipAddress : String
  spamScore : ℚ
  spamFlags : List String
  status : ContactMessageStatus
  createdAt : ℕ
  deriving DecidableEq

structure PaginatedResponse (R : Type) where
  data : List R
  total : ℕ
  page : ℕ
  limit : ℕ
  totalPages : ℕ

structure PaginationQueryDto where
  page : Option ℕ
  limit : Option ℕ

def spamThreshold : ℚ := 7/10

def isSpam (score : ℚ) : Prop := spamThreshold < score

instance (score : ℚ) : Decidable (isSpam score) := inferInstanceAs (Decidable (_ < _))

/-- A number in a condition with `||`: zero counts as absent. -/
def orDefault (value : Option ℕ) (default : ℕ) : ℕ :=
  match value with
  | some n => if n = 0 then default else n
  | none => default

/-- `paginate`, of the rows in the order of the query. -/
def paginate {R : Type} (query : PaginationQueryDto) (rows : List R) : PaginatedResponse R :=
  let page := orDefault query.page 1
  let limit := orDefault query.limit 10
  { data := skipTake page limit rows
    total := rows.length
    page := page
    limit := limit
    totalPages := pageCount rows.length limit }

variable (analyse : SubmitContactDto → String → List ContactMessage → ℕ → SpamAnalysis)

def newMessage (dto : SubmitContactDto) (ipAddress id : String) (now : ℕ)
    (messages : List ContactMessage) : ContactMessage :=
  let analysis := analyse dto ipAddress messages now
  { id := id
    submission := dto
    ipAddress := ipAddress
    spamScore := analysis.score
    spamFlags := analysis.flags
    status := if isSpam analysis.score then .flagged else .pending
    createdAt := now }

/-- A message that looks like spam is saved as well. -/
def submitContact (dto : SubmitContactDto) (ipAddress id : String) (now : ℕ)
    (messages : List ContactMessage) : List ContactMessage :=
  newMessage analyse dto ipAddress id now messages :: messages

/-- The messages that a list is about, the newest first. -/
def listed (status : Option ContactMessageStatus) (messages : List ContactMessage) :
    List ContactMessage :=
  descending ContactMessage.createdAt
    (messages.filter fun message => message.status = status.getD .pending)

def getMessages (query : PaginationQueryDto) (status : Option ContactMessageStatus)
    (messages : List ContactMessage) : PaginatedResponse ContactMessage :=
  paginate query (listed status messages)

def getAllMessages (query : PaginationQueryDto) (messages : List ContactMessage) :
    PaginatedResponse ContactMessage :=
  paginate query (descending ContactMessage.createdAt messages)

/-- The table, and an admin who pages through one list of it. -/
structure Desk where
  messages : List ContactMessage
  reader : Reader ContactMessage

inductive Move where
  | submit (dto : SubmitContactDto) (ipAddress id : String) (now : ℕ)
  | read

variable (status : Option ContactMessageStatus) (limit : ℕ)

/-- The admin takes what the next page shows, and stops at the last one. -/
def readPage (d : Desk) : Reader ContactMessage :=
  if d.reader.done then d.reader
  else
    let response := getMessages ⟨some d.reader.page, some limit⟩ status d.messages
    ⟨response.page+1, d.reader.shown ++ response.data, response.totalPages ≤ response.page⟩

def step (d : Desk) : Move → Desk
  | .submit dto ipAddress id now =>
    { d with messages := submitContact analyse dto ipAddress id now d.messages }
  | .read => { d with reader := readPage status limit d }

/-- Time goes on between submissions. -/
def Later (d : Desk) : Move → Prop
  | .submit _ _ _ now => ∀ message ∈ d.messages, message.createdAt < now
  | .read => True

instance (d : Desk) : (move : Move) → Decidable (Later d move)
  | .submit _ _ _ now =>
    inferInstanceAs (Decidable (∀ message ∈ d.messages, message.createdAt < now))
  | .read => isTrue trivial

def isRead : Move → Bool
  | .read => true
  | .submit .. => false

variable {analyse status limit} {d : Desk}

theorem readPage_eq (hlimit : 0 < limit) (hpage : 1 ≤ d.reader.page) :
    readPage status limit d = d.reader.read limit (listed status d.messages) := by
  have hfirst : orDefault (some d.reader.page) 1 = d.reader.page := if_neg (by omega)
  have hsize : orDefault (some limit) 10 = limit := if_neg (by omega)
  simp only [readPage, Reader.read, getMessages, paginate, hfirst, hsize]

/-- A later message comes first in its list, and in no other. -/
theorem listed_cons {message : ContactMessage} {messages : List ContactMessage}
    (hlater : ∀ other ∈ messages, other.createdAt < message.createdAt) :
    ∃ new, listed status (message :: messages) = new ++ listed status messages ∧
      ∀ other ∈ new, other = message := by
  unfold listed
  by_cases hstatus : message.status = status.getD .pending
  · refine ⟨[message], ?_, fun other hmem => List.mem_singleton.mp hmem⟩
    rw [List.filter_cons, if_pos (decide_eq_true hstatus), descending,
      List.insertionSort_cons_of_forall_rel]
    · rfl
    · intro other hmem
      exact (hlater other (List.mem_of_mem_filter hmem)).le
  · refine ⟨[], ?_, fun other hmem => absurd hmem List.not_mem_nil⟩
    rw [List.filter_cons, if_neg (by simpa using hstatus), List.nil_append]

/-- What the admin has been shown, of the messages that were there at the start. -/
theorem reads_run (hlimit : 0 < limit) {first : List ContactMessage} {reads : ℕ}
    (hreads : Reads limit first (listed status d.messages) d.reader)
    (hpending : Pending limit reads (listed status d.messages) d.reader) {moves : List Move}
    (hclock : Guarded (step analyse status limit) Later d moves) :
    Reads limit first (listed status (run (step analyse status limit) d moves).messages)
        (run (step analyse status limit) d moves).reader ∧
      Pending limit (reads+moves.countP isRead)
        (listed status (run (step analyse status limit) d moves).messages)
        (run (step analyse status limit) d moves).reader := by
  induction moves generalizing d reads with
  | nil => exact ⟨hreads, hpending⟩
  | cons move moves ih =>
    obtain ⟨hlater, hrest⟩ := hclock
    cases move with
    | submit dto ipAddress id now =>
      obtain ⟨new, hlisted, hnew⟩ : ∃ new, listed status
          (newMessage analyse dto ipAddress id now d.messages :: d.messages) =
            new ++ listed status d.messages ∧
              ∀ message ∈ new, message = newMessage analyse dto ipAddress id now d.messages :=
        listed_cons hlater
      have hfresh : ∀ message ∈ new, message ∉ first := by
        intro message hmem hfirst
        have hold := List.mem_of_mem_filter ((mem_descending _).mp (hreads.kept message hfirst))
        have hlt := hlater message hold
        rw [hnew message hmem] at hlt
        exact lt_irrefl now hlt
      have hpush := hreads.push hfresh
      have hwait : Pending limit reads (new ++ listed status d.messages) d.reader := hpending.push
      rw [← hlisted] at hpush hwait
      exact ih hpush hwait hrest
    | read =>
      have hread : (step analyse status limit d .read).reader =
          d.reader.read limit (listed status d.messages) := readPage_eq hlimit hreads.page_pos
      have hnext := hreads.read hlimit
      have hwait := hpending.read hlimit
      rw [← hread] at hnext hwait
      have hcount : reads+(Move.read :: moves).countP isRead =
          reads+1+moves.countP isRead := by
        rw [List.countP_cons_of_pos rfl]
        omega
      rw [hcount]
      exact ih hnext hwait hrest

theorem exact_run (hlimit : 0 < limit) (hexact : Exact limit (listed status d.messages) d.reader)
    {moves : List Move} (hread : ∀ move ∈ moves, move = .read) :
    Exact limit (listed status d.messages) (run (step analyse status limit) d moves).reader := by
  induction moves generalizing d with
  | nil => exact hexact
  | cons move moves ih =>
    obtain ⟨rfl, hrest⟩ := List.forall_mem_cons.mp hread
    have hstep : (step analyse status limit d .read).reader =
        d.reader.read limit (listed status d.messages) := readPage_eq hlimit hexact.1
    have hnext := hexact.read hlimit
    rw [← hstep] at hnext
    exact ih hnext hrest

/-- The default list and the spam queue together hold every message once: no call ever sets another
status. -/
theorem queues_partition {moves : List Move} (hempty : d.messages = []) :
    ((listed none (run (step analyse status limit) d moves).messages) ++
        listed (some .flagged) (run (step analyse status limit) d moves).messages).Perm
      (run (step analyse status limit) d moves).messages := by
  have hstep (e : Desk) (move : Move)
      (he : ∀ message ∈ e.messages, message.status = .pending ∨ message.status = .flagged) :
      ∀ message ∈ (step analyse status limit e move).messages,
        message.status = .pending ∨ message.status = .flagged := by
    cases move with
    | read => exact he
    | submit dto ipAddress id now =>
      intro message hmem
      rcases List.mem_cons.mp hmem with rfl | hold
      · unfold newMessage
        dsimp only
        split_ifs
        · exact .inr rfl
        · exact .inl rfl
      · exact he message hold
  have hstatus := run_invariant_all (step analyse status limit) hstep (s := d)
    (by simp [hempty]) moves
  have hflagged : (run (step analyse status limit) d moves).messages.filter
      (fun message => message.status = .flagged) =
        (run (step analyse status limit) d moves).messages.filter
          fun message => !decide (message.status = .pending) := by
    refine List.filter_congr fun message hmem => ?_
    rcases hstatus message hmem with h | h <;> simp [h]
  refine ((descending_perm _ _).append (descending_perm _ _)).trans ?_
  rw [show (some ContactMessageStatus.flagged).getD .pending = .flagged from rfl, hflagged]
  exact List.filter_append_perm _ _

/-- No two messages came in at one time. -/
def Timed (d : Desk) : Prop := (d.messages.map ContactMessage.createdAt).Nodup

theorem Timed.step {move : Move} (h : Timed d) (hlater : Later d move) :
    Timed (step analyse status limit d move) := by
  cases move with
  | read => exact h
  | submit dto ipAddress id now =>
    refine List.nodup_cons.mpr ⟨fun hmem => ?_, h⟩
    obtain ⟨message, hmessage, hat⟩ := List.mem_map.mp hmem
    exact absurd hat (hlater message hmessage).ne

/-- The list does not depend on the order in which the database keeps the messages. -/
def OneList (status : Option ContactMessageStatus) (d : Desk) : Prop :=
  ∀ rows, rows.Perm d.messages → listed status rows = listed status d.messages

theorem Timed.oneList (h : Timed d) : OneList status d := by
  intro rows hperm
  refine descending_eq_of_perm _ (hperm.filter _) fun a ha b hb hab => ?_
  exact List.inj_on_of_nodup_map h (hperm.mem_iff.mp (List.mem_of_mem_filter ha))
    (hperm.mem_iff.mp (List.mem_of_mem_filter hb)) hab

/-- Where no two messages came in at one time, the list that an admin pages through is always one.
While messages come in, the admin misses none that was there at the start, sees each of them once
and in order if none comes in, and is done as soon as the pages read could hold the whole list. -/
theorem inbox_read (hlimit : 0 < limit) (hstart : d.reader = Reader.start) (htimed : Timed d)
    (moves : List Move) (hclock : Guarded (step analyse status limit) Later d moves) :
    Always (step analyse status limit) (OneList status) d moves ∧
    ((run (step analyse status limit) d moves).reader.done = true →
      ∀ message ∈ listed status d.messages,
        message ∈ (run (step analyse status limit) d moves).reader.shown) ∧
    ((run (step analyse status limit) d moves).reader.done = true →
      (∀ move ∈ moves, move = .read) →
        (run (step analyse status limit) d moves).reader.shown = listed status d.messages) ∧
    (0 < moves.countP isRead →
      (listed status (run (step analyse status limit) d moves).messages).length ≤
        moves.countP isRead*limit →
      (run (step analyse status limit) d moves).reader.done = true) := by
  have hreads : Reads limit (listed status d.messages) (listed status d.messages) d.reader := by
    rw [hstart]
    exact .start
  have hpending : Pending limit 0 (listed status d.messages) d.reader := by
    rw [hstart]
    exact .start
  have hexact : Exact limit (listed status d.messages) d.reader := by
    rw [hstart]
    exact .start
  obtain ⟨hshown, hwait⟩ := reads_run hlimit hreads hpending hclock
  refine ⟨always_of_guarded (step analyse status limit) (fun _ _ h hlater => h.step hlater)
      (fun _ h => h.oneList) htimed hclock,
    hshown.finished, fun hdone hread => (exact_run hlimit hexact hread).2.2 hdone,
    fun hpos hlength => ?_⟩
  by_contra hopen
  have hmore := (hwait (eq_false_of_ne_true hopen)).2
  rw [Nat.zero_add] at hmore
  have := hmore hpos
  omega

/-- A message that looks like spam comes in between the two pages of an admin. -/
theorem inbox_read_two :
    let d : Desk := ⟨[⟨"b", ⟨"Ann", "a@hub.io", "Desk", "Is it free?"⟩, "ip", 0, [], .pending, 2⟩,
      ⟨"a", ⟨"Bob", "b@hub.io", "Room", "Is it free?"⟩, "ip", 0, [], .pending, 1⟩], Reader.start⟩
    let moves : List Move :=
      [.read, .submit ⟨"Cy", "c@hub.io", "Hall", "Is it free?"⟩ "ip" "c" 3, .read, .read]
    let desk := run (step (fun _ _ _ _ => ⟨0, []⟩) none 1) d moves
    Always (step (fun _ _ _ _ => ⟨0, []⟩) none 1) (OneList none) d moves ∧
    (desk.reader.done = true → ∀ message ∈ listed none d.messages, message ∈ desk.reader.shown) ∧
    (desk.reader.done = true → (∀ move ∈ moves, move = .read) →
      desk.reader.shown = listed none d.messages) ∧
    (0 < moves.countP isRead → (listed none desk.messages).length ≤ moves.countP isRead*1 →
      desk.reader.done = true) :=
  inbox_read (by decide) rfl (by unfold Timed; decide) _ (by decide)

end HubAssist.Contact
