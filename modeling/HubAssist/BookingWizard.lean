import HubAssist.RunSystem
import Mathlib.Algebra.Order.Ring.Int

/-! The wizard that makes a booking: its store, which outlasts a reload, and the pages of its steps,
each of which looks into the store when it is opened. -/
namespace HubAssist.BookingWizard
open RunSystem

structure TimeSlot where
  startTime : String
  endTime : String
  deriving DecidableEq

/-- The store. -/
structure Wizard where
  currentStep : ℕ
  workspaceId : Option String
  timeSlot : Option TimeSlot
  confirmed : Bool
  lastBookingId : Option String
  deriving DecidableEq

def initialState : Wizard := ⟨1, none, none, false, none⟩

/-- An optional text as an `if` takes it. -/
def isSet (text : Option String) : Bool := (text.filter fun text => text ≠ "").isSome

/-- `new Date(text)` is a parameter; the date may be invalid. -/
def isValidTimeRange (newDate : String → Option ℤ) : Option TimeSlot → Bool
  | none => false
  | some timeSlot =>
    if timeSlot.startTime = "" ∨ timeSlot.endTime = "" then false
    else
      match newDate timeSlot.endTime, newDate timeSlot.startTime with
      | some endTime, some startTime => decide (endTime > startTime)
      | _, _ => false

variable (newDate : String → Option ℤ)

def canAdvance (w : Wizard) : ℕ → Bool
  | 1 => isSet w.workspaceId
  | 2 => isValidTimeRange newDate w.timeSlot
  | 3 => w.confirmed
  | _ => false

def nextStep (w : Wizard) : Wizard :=
  if canAdvance newDate w w.currentStep = false then w
  else if w.currentStep ≥ 4 then w
  else { w with currentStep := w.currentStep+1 }

def prevStep (w : Wizard) : Wizard :=
  if w.currentStep ≤ 1 then w else { w with currentStep := w.currentStep-1 }

def goToStep (step : ℕ) (w : Wizard) : Wizard :=
  if step ≥ w.currentStep then w else { w with currentStep := step }

def completeBooking (bookingId : String) (w : Wizard) : Wizard :=
  { w with lastBookingId := some bookingId, currentStep := 4 }

/-! What a page does as it is opened: the page that is shown in the end, and the store. -/

def openStep1 (w : Wizard) : ℕ × Wizard := (1, { w with currentStep := 1 })

def openStep2 (w : Wizard) : ℕ × Wizard :=
  if canAdvance newDate w 1 = false then openStep1 w else (2, { w with currentStep := 2 })

def openStep3 (w : Wizard) : ℕ × Wizard :=
  if canAdvance newDate w 1 = false then openStep1 w
  else if canAdvance newDate w 2 = false then openStep2 newDate w
  else (3, { w with currentStep := 3 })

def openStep4 (w : Wizard) : ℕ × Wizard :=
  if isSet w.lastBookingId = false then openStep1 w else (4, { w with currentStep := 4 })

def openStep (w : Wizard) : ℕ → ℕ × Wizard
  | 2 => openStep2 newDate w
  | 3 => openStep3 newDate w
  | 4 => openStep4 w
  | _ => openStep1 w

/-- A request for a booking, with the number of the page that has sent it. -/
structure CreateBooking where
  workspaceId : String
  startTime : String
  endTime : String
  mount : ℕ
  deriving DecidableEq

/-- A tab: the page of the wizard that is open, if one is, how many have been mounted, and the
requests that have not been answered. -/
structure Tab where
  wizard : Wizard
  page : Option ℕ
  mounts : ℕ
  requests : List CreateBooking
  deriving DecidableEq

def start : Tab := ⟨initialState, none, 0, []⟩

/-- A page that is open already is not mounted anew. The router changes pages in its own time; it is
an assumption that nothing else happens before the page has settled. -/
def push (step : ℕ) (wizard : Wizard) (t : Tab) : Tab :=
  { t with
    wizard := (openStep newDate wizard step).2
    page := some (openStep newDate wizard step).1
    mounts :=
      if t.page = some (openStep newDate wizard step).1 then t.mounts else t.mounts+1 }

/-- A page has one request at a time. -/
def isPending (t : Tab) : Bool := t.requests.any fun r => r.mount = t.mounts

/-- To visit is to go to a page of the wizard, or away from it. -/
inductive Move where
  | visit (page : Option ℕ)
  | reload
  | setWorkspaceId (workspaceId : String)
  | setTimeSlot (timeSlot : TimeSlot)
  | setConfirmed (confirmed : Bool)
  | next
  | back
  | progress (step : ℕ)
  | confirm
  | answer (request : CreateBooking) (bookingId : Option String)
  | bookAnother
  deriving DecidableEq

/-- What is sent to the server. -/
def sent (t : Tab) : Move → List CreateBooking
  | .confirm =>
    if t.page = some 3 ∧ t.wizard.confirmed = true ∧ isPending t = false then
      match t.wizard.workspaceId, t.wizard.timeSlot with
      | some workspaceId, some timeSlot =>
        if workspaceId = "" then []
        else [⟨workspaceId, timeSlot.startTime, timeSlot.endTime, t.mounts⟩]
      | _, _ => []
    else []
  | _ => []

/-- A control that the page does not have, or that is disabled, does nothing. -/
def step (t : Tab) : Move → Tab
  | .visit none => { t with page := none }
  | .visit (some page) =>
    if 1 ≤ page ∧ page ≤ 4 then push newDate page t.wizard t else { t with page := none }
  -- the requests of a page that is reloaded are not waited for
  | .reload =>
    match t.page with
    | some page => push newDate page t.wizard { t with page := none, requests := [] }
    | none => { t with requests := [] }
  | .setWorkspaceId workspaceId =>
    if t.page = some 1 then { t with wizard := { t.wizard with workspaceId := some workspaceId } }
    else t
  | .setTimeSlot timeSlot =>
    if t.page = some 2 then { t with wizard := { t.wizard with timeSlot := some timeSlot } } else t
  | .setConfirmed confirmed =>
    if t.page = some 3 then { t with wizard := { t.wizard with confirmed := confirmed } } else t
  | .next =>
    match t.page with
    | some 1 =>
      if canAdvance newDate t.wizard 1 then push newDate 2 (nextStep newDate t.wizard) t else t
    | some 2 =>
      if canAdvance newDate t.wizard 2 then push newDate 3 (nextStep newDate t.wizard) t else t
    | _ => t
  | .back =>
    match t.page with
    | some 2 => push newDate 1 (prevStep t.wizard) t
    | some 3 => push newDate 2 (prevStep t.wizard) t
    | _ => t
  | .progress step =>
    if t.page.isSome = true ∧ 1 ≤ step ∧ step < t.wizard.currentStep then
      push newDate step (goToStep step t.wizard) t
    else t
  | .confirm => { t with requests := t.requests ++ sent t .confirm }
  -- the form goes on to its last page wherever the answer finds the browser
  | .answer request bookingId =>
    if request ∈ t.requests then
      match bookingId with
      | some bookingId =>
        push newDate 4 (completeBooking bookingId t.wizard)
          { t with requests := t.requests.erase request }
      | none => { t with requests := t.requests.erase request }
    else t
  | .bookAnother => if t.page = some 4 then push newDate 1 initialState t else t

/-- What the store holds where the page of a step is open. -/
def Admits (w : Wizard) : ℕ → Prop
  | 1 => True
  | 2 => isSet w.workspaceId = true
  | 3 => isSet w.workspaceId = true ∧ isValidTimeRange newDate w.timeSlot = true
  | 4 => isSet w.lastBookingId = true
  | _ => False

/-- The open page is that of the current step, and what its step needs is there. -/
def Fits (t : Tab) : Prop :=
  ∀ page, t.page = some page → t.wizard.currentStep = page ∧ Admits newDate t.wizard page

/-- The box of the payment is ticked. -/
def Ticks (t : Tab) (m : Move) : Prop := m = .setConfirmed true ∧ t.page = some 3

/-- The tick is taken back, or goes with all that the wizard holds. -/
def Unticks (t : Tab) (m : Move) : Prop :=
  (m = .setConfirmed false ∧ t.page = some 3) ∨ (m = .bookAnother ∧ t.page = some 4)

variable {newDate} {t : Tab} {w : Wizard}

theorem admits_openStep (w : Wizard) (step : ℕ) :
    (openStep newDate w step).2.currentStep = (openStep newDate w step).1 ∧
      Admits newDate (openStep newDate w step).2 (openStep newDate w step).1 := by
  have hstep1 : (openStep1 w).2.currentStep = (openStep1 w).1 ∧
      Admits newDate (openStep1 w).2 (openStep1 w).1 := ⟨rfl, trivial⟩
  have hstep2 : (openStep2 newDate w).2.currentStep = (openStep2 newDate w).1 ∧
      Admits newDate (openStep2 newDate w).2 (openStep2 newDate w).1 := by
    unfold openStep2
    split_ifs with hworkspace
    · exact hstep1
    · rw [Bool.not_eq_false] at hworkspace
      exact ⟨rfl, hworkspace⟩
  unfold openStep
  split
  · exact hstep2
  · unfold openStep3
    split_ifs with hworkspace htimes
    · exact hstep1
    · exact hstep2
    · rw [Bool.not_eq_false] at hworkspace htimes
      exact ⟨rfl, hworkspace, htimes⟩
  · unfold openStep4
    split_ifs with hbooking
    · exact hstep1
    · rw [Bool.not_eq_false] at hbooking
      exact ⟨rfl, hbooking⟩
  · exact hstep1

theorem fits_push (step : ℕ) (w : Wizard) (t : Tab) : Fits newDate (push newDate step w t) := by
  intro page hpage
  obtain rfl := Option.some.inj hpage
  exact admits_openStep w step

/-- A move that stays on the page keeps what the page needs. -/
theorem Fits.stay (h : Fits newDate t) {t' : Tab} (hpage : t'.page = t.page)
    (hstep : t'.wizard.currentStep = t.wizard.currentStep)
    (hneeds : ∀ page, t.page = some page → Admits newDate t.wizard page →
      Admits newDate t'.wizard page) : Fits newDate t' := by
  intro page hopen
  rw [hpage] at hopen
  obtain ⟨hcurrent, hadmits⟩ := h page hopen
  exact ⟨hstep.trans hcurrent, hneeds page hopen hadmits⟩

theorem Fits.of_same (h : Fits newDate t) {t' : Tab} (hpage : t'.page = t.page)
    (hwizard : t'.wizard = t.wizard) : Fits newDate t' := by
  refine h.stay hpage (congrArg _ hwizard) fun page _ hadmits => ?_
  rwa [hwizard]

theorem fits_step (t : Tab) (m : Move) (h : Fits newDate t) : Fits newDate (step newDate t m) := by
  -- a move goes to a page, which looks for what it needs, or it stays on a page and keeps that
  cases m with
  | visit page =>
    cases page with
    | none =>
      intro page hpage
      cases hpage
    | some page =>
      simp only [step]
      split_ifs
      · exact fits_push page t.wizard t
      · intro page hpage
        cases hpage
  | reload =>
    simp only [step]
    split
    · exact fits_push _ _ _
    · exact h.of_same rfl rfl
  | setWorkspaceId workspaceId =>
    simp only [step]
    split_ifs with hpage
    -- the page on which a workspace is chosen needs nothing
    · refine h.stay rfl rfl fun page hopen _ => ?_
      obtain rfl := Option.some.inj (hpage.symm.trans hopen)
      trivial
    · exact h
  | setTimeSlot timeSlot =>
    simp only [step]
    split_ifs with hpage
    · refine h.stay rfl rfl fun page hopen hadmits => ?_
      obtain rfl := Option.some.inj (hpage.symm.trans hopen)
      exact hadmits
    · exact h
  | setConfirmed confirmed =>
    simp only [step]
    split_ifs with hpage
    · refine h.stay rfl rfl fun page hopen hadmits => ?_
      obtain rfl := Option.some.inj (hpage.symm.trans hopen)
      exact hadmits
    · exact h
  | next =>
    simp only [step]
    split
    · split_ifs
      · exact fits_push _ _ _
      · exact h
    · split_ifs
      · exact fits_push _ _ _
      · exact h
    · exact h
  | back =>
    simp only [step]
    split
    · exact fits_push _ _ _
    · exact fits_push _ _ _
    · exact h
  | progress number =>
    simp only [step]
    split_ifs
    · exact fits_push _ _ _
    · exact h
  | confirm => exact h.of_same rfl rfl
  | answer request bookingId =>
    simp only [step]
    split_ifs
    · cases bookingId with
      | some bookingId => exact fits_push _ _ _
      | none => exact h.of_same rfl rfl
    · exact h
  | bookAnother =>
    simp only [step]
    split_ifs
    · exact fits_push _ _ _
    · exact h

/-- In every state of a run, the page that is open is that of the current step of the store, and the
store holds what the steps before it ask for: a workspace, a time range, or a booking. -/
theorem fits_run (newDate : String → Option ℤ) (moves : List Move) :
    Always (step newDate) (Fits newDate) start moves := by
  have hstart : Fits newDate start := by
    intro page hpage
    cases hpage
  exact always_of_invariant (step newDate) fits_step (fun _ h => h) hstart moves

theorem confirmed_openStep (w : Wizard) (step : ℕ) :
    (openStep newDate w step).2.confirmed = w.confirmed := by
  have hstep2 : (openStep2 newDate w).2.confirmed = w.confirmed := by
    unfold openStep2
    split_ifs
    · rfl
    · rfl
  unfold openStep
  split
  · exact hstep2
  · unfold openStep3
    split_ifs
    · rfl
    · exact hstep2
    · rfl
  · unfold openStep4
    split_ifs
    · rfl
    · rfl
  · rfl

theorem confirmed_push (step : ℕ) (w : Wizard) (t : Tab) :
    (push newDate step w t).wizard.confirmed = w.confirmed := confirmed_openStep w step

theorem confirmed_nextStep (w : Wizard) : (nextStep newDate w).confirmed = w.confirmed := by
  unfold nextStep
  split_ifs
  · rfl
  · rfl
  · rfl

theorem confirmed_prevStep (w : Wizard) : (prevStep w).confirmed = w.confirmed := by
  unfold prevStep
  split_ifs
  · rfl
  · rfl

theorem confirmed_goToStep (step : ℕ) (w : Wizard) :
    (goToStep step w).confirmed = w.confirmed := by
  unfold goToStep
  split_ifs
  · rfl
  · rfl

/-- The tick outlasts everything but the moves that take it back. -/
theorem confirmed_step (t : Tab) (m : Move) : (step newDate t m).wizard.confirmed = true ↔
    Ticks t m ∨ t.wizard.confirmed = true ∧ ¬Unticks t m := by
  -- the moves that do not touch the tick
  have hkept (h : (step newDate t m).wizard.confirmed = t.wizard.confirmed) (hticks : ¬Ticks t m)
      (hunticks : ¬Unticks t m) : (step newDate t m).wizard.confirmed = true ↔
        Ticks t m ∨ t.wizard.confirmed = true ∧ ¬Unticks t m := by
    rw [h]
    simp [hticks, hunticks]
  cases m with
  | visit page =>
    refine hkept ?_ (by simp [Ticks]) (by simp [Unticks])
    cases page with
    | none => rfl
    | some page =>
      simp only [step]
      split_ifs
      · exact confirmed_push page t.wizard t
      · rfl
  | reload =>
    refine hkept ?_ (by simp [Ticks]) (by simp [Unticks])
    simp only [step]
    split
    · exact confirmed_push _ _ _
    · rfl
  | setWorkspaceId workspaceId =>
    refine hkept ?_ (by simp [Ticks]) (by simp [Unticks])
    simp only [step]
    split_ifs
    · rfl
    · rfl
  | setTimeSlot timeSlot =>
    refine hkept ?_ (by simp [Ticks]) (by simp [Unticks])
    simp only [step]
    split_ifs
    · rfl
    · rfl
  | setConfirmed confirmed =>
    by_cases hpage : t.page = some 3
    · cases confirmed <;> simp [step, Ticks, Unticks, hpage]
    · simp [step, Ticks, Unticks, hpage]
  | next =>
    refine hkept ?_ (by simp [Ticks]) (by simp [Unticks])
    simp only [step]
    split
    · split_ifs
      · exact (confirmed_push _ _ _).trans (confirmed_nextStep t.wizard)
      · rfl
    · split_ifs
      · exact (confirmed_push _ _ _).trans (confirmed_nextStep t.wizard)
      · rfl
    · rfl
  | back =>
    refine hkept ?_ (by simp [Ticks]) (by simp [Unticks])
    simp only [step]
    split
    · exact (confirmed_push _ _ _).trans (confirmed_prevStep t.wizard)
    · exact (confirmed_push _ _ _).trans (confirmed_prevStep t.wizard)
    · rfl
  | progress number =>
    refine hkept ?_ (by simp [Ticks]) (by simp [Unticks])
    simp only [step]
    split_ifs
    · exact (confirmed_push _ _ _).trans (confirmed_goToStep number t.wizard)
    · rfl
  | confirm => exact hkept rfl (by simp [Ticks]) (by simp [Unticks])
  | answer request bookingId =>
    refine hkept ?_ (by simp [Ticks]) (by simp [Unticks])
    simp only [step]
    split_ifs
    · cases bookingId with
      | some bookingId => exact confirmed_push 4 (completeBooking bookingId t.wizard) _
      | none => rfl
    · rfl
  | bookAnother =>
    by_cases hpage : t.page = some 4
    · have hreset : (push newDate 1 initialState t).wizard.confirmed = false :=
        confirmed_push 1 initialState t
      simp [step, Ticks, Unticks, hpage, hreset]
    · simp [step, Ticks, Unticks, hpage]

/-- A request comes from the third page with its box ticked, and takes what the store holds. -/
theorem sent_spec {m : Move} {r : CreateBooking} (h : r ∈ sent t m) :
    m = .confirm ∧ t.page = some 3 ∧ t.wizard.confirmed = true ∧
      t.wizard.timeSlot = some ⟨r.startTime, r.endTime⟩ ∧ r.workspaceId ≠ "" := by
  cases m with
  | confirm =>
    simp only [sent] at h
    split_ifs at h with hready
    · cases hworkspace : t.wizard.workspaceId with
      | none => simp [hworkspace] at h
      | some workspaceId =>
        cases hslot : t.wizard.timeSlot with
        | none => simp [hworkspace, hslot] at h
        | some timeSlot =>
          simp only [hworkspace, hslot] at h
          split_ifs at h with hempty
          · cases h
          · obtain rfl := List.mem_singleton.mp h
            exact ⟨rfl, hready.1, hready.2.1, rfl, hempty⟩
    · cases h
  | _ => cases h

/-- Whenever a booking is asked for, it is for a workspace and a valid time range, and the box of
the payment has been ticked and not been unticked since. Another workspace, other times and a
booking that was made meanwhile leave the tick where it is; starting the wizard anew takes it. -/
theorem sent_run (newDate : String → Option ℤ) (moves : List Move) (m : Move) (r : CreateBooking)
    (h : r ∈ sent (run (step newDate) start moves) m) :
    r.workspaceId ≠ "" ∧ isValidTimeRange newDate (some ⟨r.startTime, r.endTime⟩) = true ∧
      ∃ pre tick post, moves = pre ++ tick :: post ∧ Ticks (run (step newDate) start pre) tick ∧
        Guarded (step newDate) (fun t m => ¬Unticks t m)
          (run (step newDate) start (pre ++ [tick])) post := by
  obtain ⟨_, hpage, hconfirmed, hslot, hworkspace⟩ := sent_spec h
  -- that the range is valid is not looked at again: it holds as long as the third page is open
  have hfits := (always_iff_prefixes _ _ _ _).mp (fits_run newDate moves) moves [] (by simp)
  obtain ⟨_, _, hvalid⟩ := hfits 3 hpage
  rw [hslot] at hvalid
  have hticked := lasts_iff_all (step newDate) (I := fun t => t.wizard.confirmed = true)
    confirmed_step (s := start) (by simp [start, initialState]) moves
  exact ⟨hworkspace, hvalid, hticked.mp hconfirmed⟩

/-- The two times that are read here, in milliseconds of a clock at UTC. -/
def clockTimes : String → Option ℤ
  | "2026-01-05T09:00" => some 1767603600000
  | "2026-01-05T10:00" => some 1767607200000
  | _ => none

def oneForm : List Move :=
  [.visit (some 1), .setWorkspaceId "w1", .next,
    .setTimeSlot ⟨"2026-01-05T09:00", "2026-01-05T10:00"⟩, .next, .setConfirmed true]

/-- The request that the form ends with. -/
def oneFormRequest : CreateBooking := ⟨"w1", "2026-01-05T09:00", "2026-01-05T10:00", 3⟩

theorem sent_oneForm :
    oneFormRequest ∈ sent (run (step clockTimes) start oneForm) .confirm ∧
      oneFormRequest.workspaceId ≠ "" ∧
      isValidTimeRange clockTimes
        (some ⟨oneFormRequest.startTime, oneFormRequest.endTime⟩) = true ∧
      ∃ pre tick post, oneForm = pre ++ tick :: post ∧
        Ticks (run (step clockTimes) start pre) tick ∧
        Guarded (step clockTimes) (fun t m => ¬Unticks t m)
          (run (step clockTimes) start (pre ++ [tick])) post := by
  have hsent : oneFormRequest ∈ sent (run (step clockTimes) start oneForm) .confirm := by decide
  exact ⟨hsent, sent_run clockTimes oneForm .confirm oneFormRequest hsent⟩

end HubAssist.BookingWizard
