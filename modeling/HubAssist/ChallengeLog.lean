import HubAssist.RunSystem
import Mathlib.Data.List.Nodup
import Mathlib.Tactic.Common

/-! Challenges that are issued to users and used once: the log of issues and uses, when it is
sound, and what a sound log says. Users and challenges are arbitrary. -/
namespace HubAssist.ChallengeLog
open RunSystem

variable {U C : Type*}

inductive Event (U C : Type*) where
  | issued (user : U) (challenge : C)
  | used (user : U) (challenge : C)
  deriving DecidableEq

def Event.usedChallenge : Event U C → Option C
  | .issued _ _ => none
  | .used _ challenge => some challenge

/-- The challenge was issued to the user, and nobody has used it. -/
def Outstanding (log : List (Event U C)) (user : U) (challenge : C) : Prop :=
  .issued user challenge ∈ log ∧ ∀ other, .used other challenge ∉ log

/-- Every use in the log is of a challenge that was outstanding for its user. -/
def Sound (log : List (Event U C)) : Prop :=
  ∀ pre user challenge post, log = pre ++ .used user challenge :: post →
    Outstanding pre user challenge

theorem outstanding_iff [DecidableEq C] (log : List (Event U C)) (user : U) (challenge : C) :
    Outstanding log user challenge ↔
      .issued user challenge ∈ log ∧ challenge ∉ log.filterMap Event.usedChallenge := by
  refine and_congr_right fun _ => ?_
  simp only [List.mem_filterMap, not_exists, not_and]
  constructor
  · intro h e he hused
    cases e with
    | issued user' c => cases hused
    | used user' c =>
      cases hused
      exact h user' he
  · intro h other hmem
    exact h _ hmem rfl

instance [DecidableEq U] [DecidableEq C] (log : List (Event U C)) (user : U) (challenge : C) :
    Decidable (Outstanding log user challenge) :=
  decidable_of_iff _ (outstanding_iff log user challenge).symm

theorem sound_nil : Sound ([] : List (Event U C)) := by
  intro pre user challenge post h
  simp at h

theorem sound_concat (log : List (Event U C)) (e : Event U C) :
    Sound (log ++ [e]) ↔
      Sound log ∧ ∀ user challenge, e = .used user challenge → Outstanding log user challenge := by
  constructor
  · intro h
    refine ⟨fun pre user challenge post hlog => ?_, fun user challenge he => ?_⟩
    · exact h pre user challenge (post ++ [e]) (by simp [hlog])
    · exact h log user challenge [] (by rw [he])
  · rintro ⟨hlog, he⟩ pre user challenge post hsplit
    -- the use is the last event, or one of the log before it
    rcases List.eq_nil_or_concat post with rfl | ⟨init, last, rfl⟩
    · obtain ⟨hpre, hlast⟩ := List.append_inj' hsplit rfl
      rw [← hpre]
      exact he user challenge (List.singleton_inj.mp hlast)
    · have hsplit' : log ++ [e] = (pre ++ .used user challenge :: init) ++ [last] := by
        simpa using hsplit
      obtain ⟨hpre, _⟩ := List.append_inj' hsplit' rfl
      exact hlog pre user challenge init hpre

/-- A sound log uses no challenge twice. -/
theorem Sound.nodup_used {log : List (Event U C)} (h : Sound log) :
    (log.filterMap Event.usedChallenge).Nodup := by
  classical
  induction log using List.reverseRecOn with
  | nil => exact List.nodup_nil
  | append_singleton log e ih =>
    obtain ⟨hlog, he⟩ := (sound_concat log e).mp h
    rw [List.filterMap_append]
    cases e with
    | issued user challenge =>
      rw [show [Event.issued user challenge].filterMap Event.usedChallenge = [] from rfl,
        List.append_nil]
      exact ih hlog
    | used user challenge =>
      have hfresh := ((outstanding_iff log user challenge).mp (he user challenge rfl)).2
      refine List.nodup_append.mpr ⟨ih hlog, List.nodup_singleton _, ?_⟩
      intro c hc c' hc' heq
      rw [List.mem_singleton.mp hc'] at heq
      exact hfresh (heq ▸ hc)

theorem Sound.of_append {log later : List (Event U C)} (h : Sound (log ++ later)) : Sound log := by
  rintro pre user challenge post rfl
  exact h pre user challenge (post ++ later) (by simp)

theorem Sound.append_issued {log news : List (Event U C)} (h : Sound log)
    (hnews : ∀ e ∈ news, ∃ user challenge, e = .issued user challenge) : Sound (log ++ news) := by
  induction news using List.reverseRecOn with
  | nil => simpa using h
  | append_singleton news e ih =>
    rw [← List.append_assoc, sound_concat]
    refine ⟨ih fun e' he' => hnews e' (List.mem_append_left _ he'), fun user challenge heq => ?_⟩
    obtain ⟨_, _, hissued⟩ := hnews e (by simp)
    cases hissued.symm.trans heq

section
variable {S A : Type*} (step : S → A → S) (emit : S → A → List (Event U C))

/-- A system that logs beside its state. -/
def logged : S × List (Event U C) → A → S × List (Event U C) :=
  withHistory step fun s a log => log ++ emit s a

/-- The log of a run is sound exactly when every step meets the condition under which what it
logs keeps the log sound. -/
theorem sound_trace_iff {P : S × List (Event U C) → A → Prop}
    (hP : ∀ s log a, Sound log → (Sound (log ++ emit s a) ↔ P (s, log) a)) {s : S}
    {log : List (Event U C)} (hlog : Sound log) (as : List A) :
    Sound (log ++ trace step emit s as) ↔ Guarded (logged step emit) P (s, log) as := by
  induction as generalizing s log with
  | nil => simpa [trace, Guarded] using hlog
  | cons a as ih =>
    have happend : log ++ trace step emit s (a :: as) =
        log ++ emit s a ++ trace step emit (step s a) as := by
      rw [trace, List.append_assoc]
    rw [happend, Guarded, ← hP s log a hlog]
    constructor
    · intro h
      exact ⟨h.of_append, (ih h.of_append).mp h⟩
    · rintro ⟨hstep, hrest⟩
      exact (ih hstep).mpr hrest

end

end HubAssist.ChallengeLog
