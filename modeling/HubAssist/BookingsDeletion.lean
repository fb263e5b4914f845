import HubAssist.BookingsCapacity

/-! The soft deletion of a workspace beside the calls that make, confirm and cancel bookings. It
reads the confirmed bookings of the future first, and cancels what it has read in a transaction of
its own; the mails to their users are left out. -/
namespace HubAssist.Bookings
open Checks KeyedTable RunSystem

variable {env : Services} {db db' : Database} {call : Call}

/-- A deletion that has read the bookings it is going to cancel, at the time `since`. -/
structure Deletion where
  workspaceId : String
  since : ℤ
  bookingIds : List ℕ
  deriving DecidableEq

/-- `softDelete` up to its transaction. -/
def readDeletion (id : String) (now : ℤ) (db : Database) : Except ServiceError Deletion := do
  let _ ← getOr (db.workspaces id) (.notFound "Workspace not found")
  let futureBookings := db.bookings.filter fun b =>
    b.workspaceId = id ∧ b.status = .confirmed ∧ now < b.startTime
  return ⟨id, now, futureBookings.map Booking.id⟩

/-- The transaction of `softDelete`. A deleted workspace is found by no query any more. -/
def writeDeletion (d : Deletion) (db : Database) : Database :=
  { db with
    bookings := db.bookings.map fun b =>
      if b.id ∈ d.bookingIds then { b with status := .cancelled } else b
    workspaces := Function.update db.workspaces d.workspaceId none }

/-- The tables, the deletions that have read and not written yet, and those that have succeeded. -/
structure Deleting where
  db : Database
  reading : ℕ → Option Deletion
  deleted : List Deletion

/-- A call of the bookings service, or one of the two steps of a deletion. -/
inductive Move where
  | create (env : Services) (userId : String) (dto : CreateBookingDto) (userTier : String)
  | confirm (env : Services) (id : ℕ)
  | cancel (env : Services) (id : ℕ) (userId : String)
  | readDeletion (softDelete : ℕ) (id : String) (now : ℤ)
  | writeDeletion (softDelete : ℕ)

def move (s : Deleting) : Move → Deleting
  | .create env userId dto userTier => { s with db := step s.db ⟨env, .create userId dto userTier⟩ }
  | .confirm env id => { s with db := step s.db ⟨env, .confirm id⟩ }
  | .cancel env id userId => { s with db := step s.db ⟨env, .cancel id userId⟩ }
  | .readDeletion softDelete id now =>
    match Bookings.readDeletion id now s.db with
    | .ok d => { s with reading := Function.update s.reading softDelete (some d) }
    | .error _ => s
  | .writeDeletion softDelete =>
    match s.reading softDelete with
    | some d =>
      { db := Bookings.writeDeletion d s.db
        reading := Function.update s.reading softDelete none
        deleted := d :: s.deleted }
    | none => s

def Deleting.start (db : Database) : Deleting := ⟨db, fun _ => none, []⟩

/-- A booking of the workspace that was still to come when the deletion read. -/
def Deletion.Concerns (d : Deletion) (b : Booking) : Prop :=
  b.workspaceId = d.workspaceId ∧ d.since < b.startTime

/-- No workspace that has been deleted has a pending or confirmed booking of its future. -/
def LeavesNone (s : Deleting) : Prop :=
  ∀ d ∈ s.deleted, ∀ b ∈ s.db.bookings, d.Concerns b → ¬b.status.Holds

/-- A deletion that is written has read every booking of its future that is pending or confirmed by
then. -/
def Covers (s : Deleting) : Move → Prop
  | .writeDeletion softDelete => ∀ d, s.reading softDelete = some d → ∀ b ∈ s.db.bookings,
    d.Concerns b → b.status.Holds → b.id ∈ d.bookingIds
  | _ => True

/-- What has been deleted is found no more. -/
def Gone (s : Deleting) : Prop := ∀ d ∈ s.deleted, s.db.workspaces d.workspaceId = none

/-- A booking was there before, or is cancelled, or is one that was pending, or is for a workspace
that is found. -/
def Arises (db : Database) (b : Booking) : Prop :=
  b ∈ db.bookings ∨ b.status = .cancelled ∨
    (∃ b₀ ∈ db.bookings, b₀.status = .pending ∧ b.workspaceId = b₀.workspaceId ∧
      b.startTime = b₀.startTime) ∨ (db.workspaces b.workspaceId).isSome = true

/-- What the calls that create, confirm and cancel may do to the tables. -/
structure Amends (db db' : Database) : Prop where
  workspaces : db'.workspaces = db.workspaces
  bookings : ∀ b ∈ db'.bookings, Arises db b

theorem Amends.refl (db : Database) : Amends db db := ⟨rfl, fun _ hb => Or.inl hb⟩

theorem create_amends {userId userTier : String} {dto : CreateBookingDto}
    (h : exec env (.create userId dto userTier) db = .ok db') : Amends db db' := by
  cases exec_effect h with
  | inserts _ _ _ workspace startTime endTime rateSnapshot event _ hworkspace _ =>
    refine ⟨rfl, fun b hb => ?_⟩
    rcases mem_of_mem_save hb with rfl | hold
    · exact Or.inr (Or.inr (Or.inr (Option.isSome_iff_exists.mpr ⟨workspace, hworkspace⟩)))
    · exact Or.inl hold
  | insertsSeries _ _ _ workspace instances haccepted =>
    refine ⟨rfl, fun b hb => ?_⟩
    rcases mem_of_mem_saveAll hb with hnew | hold
    · refine Or.inr (Or.inr (Or.inr ?_))
      rw [(mem_seriesBookings hnew).1]
      exact Option.isSome_iff_exists.mpr ⟨workspace, haccepted.workspace_eq⟩
    · exact Or.inl hold

theorem confirm_amends {id : ℕ} (h : exec env (.confirm id) db = .ok db') : Amends db db' := by
  cases exec_effect h with
  | confirms _ booking event hbooking hstatus =>
    refine ⟨rfl, fun b hb => ?_⟩
    rcases mem_of_mem_save hb with rfl | hold
    · exact Or.inr (Or.inr (Or.inl ⟨booking, (findRow_eq_some hbooking).1, hstatus, rfl, rfl⟩))
    · exact Or.inl hold

theorem cancel_amends {id : ℕ} {userId : String} (h : exec env (.cancel id userId) db = .ok db') :
    Amends db db' := by
  cases exec_effect h with
  | cancels _ _ booking refundAmount hbooking =>
    refine ⟨rfl, fun b hb => ?_⟩
    rcases mem_of_mem_save hb with rfl | hold
    · exact Or.inr (Or.inl rfl)
    · exact Or.inl hold

theorem step_amends (h : ∀ db', exec env call db = .ok db' → Amends db db') :
    Amends db (step db ⟨env, call⟩) :=
  orRollback_keeps (Amends.refl db) h

variable {s : Deleting}

/-- No such call brings a booking to life that a deletion has been to. -/
theorem LeavesNone.amends (h : LeavesNone s) (hgone : Gone s) (hdb : Amends s.db db') :
    LeavesNone { s with db := db' } := by
  rintro d hd b hb ⟨hworkspace, hfuture⟩ hholds
  rcases hdb.bookings b hb with hold | hcancelled | ⟨b₀, hold, hpending, hsame, hstart⟩ | hfound
  · exact h d hd b hold ⟨hworkspace, hfuture⟩ hholds
  -- what has been cancelled holds no place
  · rcases hholds with hstatus | hstatus <;> rw [hcancelled] at hstatus <;> cases hstatus
  -- what has been confirmed was pending before, and there is no such booking
  · exact h d hd b₀ hold ⟨hsame ▸ hworkspace, hstart ▸ hfuture⟩ (Or.inr hpending)
  -- what is new is for a workspace that has been found
  · rw [hworkspace, hgone d hd] at hfound
    exact absurd hfound (by simp)

theorem Gone.amends (h : Gone s) (hdb : Amends s.db db') : Gone { s with db := db' } := by
  intro d hd
  rw [hdb.workspaces]
  exact h d hd

/-- The bookings after the transaction that hold a place are those from before it that it has not
read. -/
theorem mem_writeDeletion {d : Deletion} {b : Booking} (hholds : b.status.Holds) :
    b ∈ (writeDeletion d db).bookings ↔ b ∈ db.bookings ∧ b.id ∉ d.bookingIds := by
  simp only [writeDeletion, List.mem_map]
  constructor
  · rintro ⟨b₀, hb₀, heq⟩
    split_ifs at heq with hread
    · subst heq
      rcases hholds with hstatus | hstatus <;> cases hstatus
    · exact heq ▸ ⟨hb₀, hread⟩
  · rintro ⟨hb, hread⟩
    exact ⟨b, hb, if_neg hread⟩

theorem LeavesNone.write {d : Deletion} {reading : ℕ → Option Deletion} (h : LeavesNone s)
    (hcovers : ∀ b ∈ s.db.bookings, d.Concerns b → b.status.Holds → b.id ∈ d.bookingIds) :
    LeavesNone ⟨writeDeletion d s.db, reading, d :: s.deleted⟩ := by
  intro d' hd' b hb hconcerns hholds
  obtain ⟨hold, hread⟩ := (mem_writeDeletion hholds).mp hb
  rcases List.mem_cons.mp hd' with rfl | hd'
  · exact hread (hcovers b hold hconcerns hholds)
  · exact h d' hd' b hold hconcerns hholds

theorem Gone.write {d : Deletion} {reading : ℕ → Option Deletion} (h : Gone s) :
    Gone ⟨writeDeletion d s.db, reading, d :: s.deleted⟩ := by
  intro d' hd'
  by_cases hsame : d'.workspaceId = d.workspaceId
  · simp [writeDeletion, hsame]
  · rcases List.mem_cons.mp hd' with rfl | hd'
    · exact absurd rfl hsame
    · simpa [writeDeletion, hsame] using h d' hd'

theorem move_keeps (h : LeavesNone s ∧ Gone s) {m : Move} (hcovers : Covers s m) :
    LeavesNone (move s m) ∧ Gone (move s m) := by
  obtain ⟨hnone, hgone⟩ := h
  cases m with
  | create env userId dto userTier =>
    have hdb : Amends s.db (step s.db ⟨env, .create userId dto userTier⟩) :=
      step_amends fun _ hcall => create_amends hcall
    exact ⟨hnone.amends hgone hdb, hgone.amends hdb⟩
  | confirm env id =>
    have hdb : Amends s.db (step s.db ⟨env, .confirm id⟩) :=
      step_amends fun _ hcall => confirm_amends hcall
    exact ⟨hnone.amends hgone hdb, hgone.amends hdb⟩
  | cancel env id userId =>
    have hdb : Amends s.db (step s.db ⟨env, .cancel id userId⟩) :=
      step_amends fun _ hcall => cancel_amends hcall
    exact ⟨hnone.amends hgone hdb, hgone.amends hdb⟩
  | readDeletion softDelete id now =>
    rw [move]
    cases readDeletion id now s.db <;> exact ⟨hnone, hgone⟩
  | writeDeletion softDelete =>
    rw [move]
    cases hreading : s.reading softDelete with
    | none => exact ⟨hnone, hgone⟩
    | some d => exact ⟨hnone.write (hcovers d hreading), hgone.write⟩

theorem LeavesNone.covers {m : Move} (h : LeavesNone (move s m)) : Covers s m := by
  cases m with
  | writeDeletion softDelete =>
    intro d hreading b hb hconcerns hholds
    rw [move, hreading] at h
    by_contra hread
    exact h d List.mem_cons_self b ((mem_writeDeletion hholds).mpr ⟨hb, hread⟩) hconcerns hholds
  | _ => trivial

/-- A deleted workspace is without pending and confirmed bookings of its future at every later
moment, exactly when each deletion has read all that there are by the time it writes. -/
theorem leavesNone_iff (db : Database) (ms : List Move) :
    Always move LeavesNone (.start db) ms ↔ Guarded move Covers (.start db) ms :=
  always_iff_guarded_of_kept (J := fun s => LeavesNone s ∧ Gone s) move (fun _ h => h.1)
    (fun _ _ h hcovers => move_keeps h hcovers) (fun _ _ _ h => h.covers)
    ⟨fun _ hd => absurd hd List.not_mem_nil, fun _ hd => absurd hd List.not_mem_nil⟩

/-- A pending booking of an hour, for the next day. -/
def tomorrow : Booking :=
  ⟨4, "ws-1", "carol", 90000000, 93600000, .pending, 20, none, none, none, none, none, none⟩

/-- The workspace is deleted, and the booking is confirmed after that. -/
theorem confirmed_after_deletion : ¬Always move LeavesNone (.start ⟨oneDesk, [], [tomorrow], [], 5⟩)
    [.readDeletion 1 "ws-1" 3600000, .writeDeletion 1, .confirm dailyTwice 4] := by
  rintro ⟨_, _, _, hend⟩
  exact hend ⟨"ws-1", 3600000, []⟩ (by decide) { tomorrow with status := .confirmed } (by decide)
    ⟨rfl, by decide⟩ (Or.inl rfl)

end HubAssist.Bookings
