import HubAssist.Checks
import HubAssist.Interleaving

/-! Calls that read a shared state, make their own copy of something in it and write that copy
later, in a step of its own. Two such calls are compared with what they do one after the other. -/
namespace HubAssist.ReadModifyWrite
open Checks

variable {I S C E : Type*} [DecidableEq I]

/-- What a call makes of the state it reads, and how it writes that. -/
structure RmwCall (S C E : Type*) where
  read : S → Except E C
  write : C → S → S

/-- How far a call has come. -/
inductive Phase (C E : Type*) where
  | ready
  | holding (copy : C)
  | rejected (error : E)
  | written (copy : C)

/-- The next step of a call: its read, then its write unless it is rejected. -/
def act (s : S) (phase : Phase C E) (call : RmwCall S C E) : S × Phase C E :=
  match phase with
  | .ready =>
    match call.read s with
    | .ok copy => (s, .holding copy)
    | .error e => (s, .rejected e)
  | .holding copy => (call.write copy s, .written copy)
  | .rejected e => (s, .rejected e)
  | .written copy => (s, .written copy)

abbrev Race (I S C E : Type*) := Interleaving.Global I S (Phase C E)

def start (s : S) : Race I S C E := ⟨s, fun _ => .ready⟩

/-- The calls take the turns that a schedule gives them. -/
def run (calls : I → RmwCall S C E) (schedule : List I) (race : Race I S C E) : Race I S C E :=
  schedule.foldl (fun race i => Interleaving.step act race (i, calls i)) race

namespace RmwCall

variable (a b : RmwCall S C E) (s : S)

/-- The write that a read leads to. -/
def commit (outcome : Except E C) (s : S) : S :=
  orRollback s (outcome.map fun copy => a.write copy s)

/-- The whole call at once. -/
def whole : S := a.commit (a.read s) s

/-- Both calls read before either writes. -/
def crossed : S := b.commit (b.read s) (a.commit (a.read s) s)

end RmwCall

variable {calls : I → RmwCall S C E} {i j : I} {s : S}

/-- The phase after a read. -/
def Phase.ofRead (outcome : Except E C) : Phase C E :=
  match outcome with
  | .ok copy => .holding copy
  | .error e => .rejected e

/-- The phase of a call that has come to its end. -/
def Phase.ofCall (outcome : Except E C) : Phase C E :=
  match outcome with
  | .ok copy => .written copy
  | .error e => .rejected e

theorem act_ready (call : RmwCall S C E) : act s .ready call = (s, .ofRead (call.read s)) := by
  unfold act Phase.ofRead
  cases call.read s <;> rfl

theorem act_ofRead (call : RmwCall S C E) (outcome : Except E C) :
    act s (.ofRead outcome) call = (call.commit outcome s, .ofCall outcome) := by
  cases outcome <;> rfl

/-- What two calls have come to in the end. -/
structure EndsWith (race : Race I S C E) (i j : I) (shared : S) (first second : Except E C) :
    Prop where
  shared : race.shared = shared
  first : race.locals i = .ofCall first
  second : race.locals j = .ofCall second

variable (calls s) in
/-- One call after the other. -/
theorem run_in_order (hij : i ≠ j) : EndsWith (run calls [i, i, j, j] (start s)) i j
    ((calls j).whole ((calls i).whole s)) ((calls i).read s)
    ((calls j).read ((calls i).whole s)) := by
  constructor <;>
    simp [run, start, Interleaving.step, act_ready, act_ofRead, hij, hij.symm, RmwCall.whole]

variable (calls s) in
/-- Both calls read first, whichever is the first to do so. -/
theorem run_crossed (hij : i ≠ j) {schedule : List I}
    (h : schedule = [i, j, i, j] ∨ schedule = [j, i, i, j]) :
    EndsWith (run calls schedule (start s)) i j (RmwCall.crossed (calls i) (calls j) s)
      ((calls i).read s) ((calls j).read s) := by
  rcases h with rfl | rfl <;> constructor <;>
    simp [run, start, Interleaving.step, act_ready, act_ofRead, hij, hij.symm, RmwCall.crossed]

/-- The orders in which two calls can take their two steps. -/
theorem schedule_cases (hij : i ≠ j) {schedule : List I} (h : schedule.Perm [i, i, j, j]) :
    (schedule = [i, i, j, j] ∨ schedule = [j, j, i, i]) ∨
      (schedule = [i, j, i, j] ∨ schedule = [j, i, i, j]) ∨
      (schedule = [j, i, j, i] ∨ schedule = [i, j, j, i]) := by
  obtain ⟨a, b, c, d, rfl⟩ := List.length_eq_four.mp h.length_eq
  have hmem : ∀ x ∈ [a, b, c, d], x = i ∨ x = j := fun x hx => by simpa using h.mem_iff.mp hx
  -- of the sixteen lists of two calls six have each of them twice
  have hcount := h.count_eq i
  simp only [List.forall_mem_cons] at hmem
  obtain ⟨ha | ha, hb | hb, hc | hc, hd | hd, _⟩ := hmem <;>
    simp [ha, hb, hc, hd, hij, hij.symm] at hcount ⊢

end HubAssist.ReadModifyWrite
