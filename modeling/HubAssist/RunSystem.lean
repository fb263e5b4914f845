import Mathlib.Data.List.Basic
import Mathlib.Data.List.Induction
import Mathlib.Tactic.Common

/-! Runs of a deterministic transition function over arbitrary states and actions.
A run is the list of its actions; a rejected action is one that leaves the state alone. -/
namespace HubAssist.RunSystem

variable {S A E G : Type*} (step : S → A → S)

/-- The state that the actions `as` reach from `s`. -/
def run (s : S) (as : List A) : S := as.foldl step s

/-- Every action of the run meets `P` in the state it is taken from. -/
def Guarded (P : S → A → Prop) : S → List A → Prop
  | _, [] => True
  | s, a :: as => P s a ∧ Guarded P (step s a) as

/-- Every state the run goes through, the first and the last included, meets `I`. -/
def Always (I : S → Prop) : S → List A → Prop
  | s, [] => I s
  | s, a :: as => I s ∧ Always I (step s a) as

/-- Some action of the run was taken from a state in which `P` held of it. -/
def Occurred (P : S → A → Prop) (s : S) (as : List A) : Prop :=
  ∃ pre a post, as = pre ++ a :: post ∧ P (run step s pre) a

/-- `P` has occurred, and from that action on none has met `Q`. -/
def Since (P Q : S → A → Prop) (s : S) (as : List A) : Prop :=
  ∃ pre a post, as = pre ++ a :: post ∧ P (run step s pre) a ∧
    Guarded step (fun s a => ¬Q s a) (run step s pre) (a :: post)

/-- What the steps of a run emit, in order. -/
def trace (emit : S → A → List E) : S → List A → List E
  | _, [] => []
  | s, a :: as => emit s a ++ trace emit (step s a) as

/-- The same transitions with a history variable beside the state. -/
def withHistory (record : S → A → G → G) (s : S × G) (a : A) : S × G :=
  (step s.1 a, record s.1 a s.2)

@[simp] theorem run_nil (s : S) : run step s [] = s := rfl

@[simp] theorem run_cons (s : S) (a : A) (as : List A) :
    run step s (a :: as) = run step (step s a) as := rfl

theorem run_append (s : S) (as bs : List A) :
    run step s (as ++ bs) = run step (run step s as) bs := List.foldl_append

theorem run_concat (s : S) (as : List A) (a : A) :
    run step s (as ++ [a]) = step (run step s as) a := run_append step s as [a]

instance Guarded.decidable {P : S → A → Prop} [∀ s a, Decidable (P s a)] :
    (s : S) → (as : List A) → Decidable (Guarded step P s as)
  | _, [] => isTrue trivial
  | s, a :: as =>
    have : Decidable (Guarded step P (step s a) as) := Guarded.decidable (step s a) as
    inferInstanceAs (Decidable (P s a ∧ Guarded step P (step s a) as))

instance Always.decidable {I : S → Prop} [DecidablePred I] :
    (s : S) → (as : List A) → Decidable (Always step I s as)
  | s, [] => inferInstanceAs (Decidable (I s))
  | s, a :: as =>
    have : Decidable (Always step I (step s a) as) := Always.decidable (step s a) as
    inferInstanceAs (Decidable (I s ∧ Always step I (step s a) as))

theorem guarded_append (P : S → A → Prop) (s : S) (as bs : List A) :
    Guarded step P s (as ++ bs) ↔ Guarded step P s as ∧ Guarded step P (run step s as) bs := by
  induction as generalizing s with
  | nil => simp [Guarded]
  | cons a as ih => simp only [List.cons_append, Guarded, ih, run_cons, and_assoc]

/-- One guard implies another in the states that meet an invariant, which a third keeps. -/
theorem guarded_of_guarded {J : S → Prop} {G P Q : S → A → Prop}
    (hJ : ∀ s a, J s → G s a → J (step s a)) (h : ∀ s a, J s → P s a → Q s a) {s : S} {as : List A}
    (hs : J s) (hg : Guarded step G s as) (hp : Guarded step P s as) : Guarded step Q s as := by
  induction as generalizing s with
  | nil => trivial
  | cons a as ih => exact ⟨h s a hs hp.1, ih (hJ s a hs hg.1) hg.2 hp.2⟩

/-- A guard that looks at the action only. -/
theorem guarded_of_forall_mem {P : A → Prop} {s : S} {as : List A} (h : ∀ a ∈ as, P a) :
    Guarded step (fun _ a => P a) s as := by
  induction as generalizing s with
  | nil => trivial
  | cons a as ih =>
    exact ⟨h a List.mem_cons_self, ih fun b hb => h b (List.mem_cons_of_mem a hb)⟩

/-- One guard implies another in the states that meet an invariant of all runs. -/
theorem guarded_of_invariant {J : S → Prop} {P Q : S → A → Prop}
    (hJ : ∀ s a, J s → J (step s a)) (h : ∀ s a, J s → P s a → Q s a) {s : S} {as : List A}
    (hs : J s) (hp : Guarded step P s as) : Guarded step Q s as :=
  guarded_of_guarded step (fun s a hs _ => hJ s a hs) h hs
    (guarded_of_forall_mem step fun _ _ => trivial) hp

theorem guarded_and {P Q : S → A → Prop} {s : S} {as : List A}
    (hp : Guarded step P s as) (hq : Guarded step Q s as) :
    Guarded step (fun s a => P s a ∧ Q s a) s as := by
  induction as generalizing s with
  | nil => trivial
  | cons a as ih => exact ⟨⟨hp.1, hq.1⟩, ih hp.2 hq.2⟩

/-- Being guarded is a statement about every step of the run. -/
theorem guarded_iff_steps (P : S → A → Prop) (s : S) (as : List A) :
    Guarded step P s as ↔ ∀ pre a post, as = pre ++ a :: post → P (run step s pre) a := by
  constructor
  · rintro h pre a post rfl
    exact ((guarded_append step P s pre (a :: post)).mp h).2.1
  · intro h
    induction as generalizing s with
    | nil => trivial
    | cons b bs ih =>
      -- a step of the rest is a step of the whole run with `b` in front
      refine ⟨h [] b bs rfl, ih (step s b) ?_⟩
      rintro pre a post rfl
      exact h (b :: pre) a post rfl

theorem always_iff_prefixes (I : S → Prop) (s : S) (as : List A) :
    Always step I s as ↔ ∀ pre post, as = pre ++ post → I (run step s pre) := by
  constructor
  · intro h pre
    induction pre generalizing s as with
    | nil =>
      intro _ _
      cases as with
      | nil => exact h
      | cons b bs => exact h.1
    | cons a pre ih =>
      rintro post rfl
      exact ih (step s a) (pre ++ post) h.2 post rfl
  · intro h
    induction as generalizing s with
    | nil => exact h [] [] rfl
    | cons b bs ih =>
      refine ⟨h [] (b :: bs) rfl, ih (step s b) ?_⟩
      rintro pre post rfl
      exact h (b :: pre) post rfl

theorem always_append (I : S → Prop) (s : S) (as bs : List A) :
    Always step I s (as ++ bs) ↔ Always step I s as ∧ Always step I (run step s as) bs := by
  induction as generalizing s with
  | nil =>
    refine ⟨fun h => ⟨?_, h⟩, fun h => h.2⟩
    cases bs with
    | nil => exact h
    | cons b bs => exact h.1
  | cons a as ih => simp only [List.cons_append, Always, ih, run_cons, and_assoc]

theorem always_concat (I : S → Prop) (s : S) (as : List A) (a : A) :
    Always step I s (as ++ [a]) ↔ Always step I s as ∧ I (run step s (as ++ [a])) := by
  rw [always_append, run_concat]
  constructor
  · rintro ⟨h, _, hlast⟩
    exact ⟨h, hlast⟩
  · rintro ⟨h, hlast⟩
    exact ⟨h, ((always_iff_prefixes step I s as).mp h as [] (by simp)), hlast⟩

theorem Always.left {I : S → Prop} {s : S} {as bs : List A} (h : Always step I s (as ++ bs)) :
    Always step I s as := ((always_append step I s as bs).mp h).1

/-- The invariant rule: what every guarded step keeps, a guarded run keeps. -/
theorem run_invariant {I : S → Prop} {P : S → A → Prop}
    (hstep : ∀ s a, I s → P s a → I (step s a)) {s : S} {as : List A}
    (hs : I s) (hg : Guarded step P s as) : I (run step s as) := by
  induction as generalizing s with
  | nil => exact hs
  | cons a as ih => exact ih (hstep s a hs hg.1) hg.2

/-- The invariant rule for steps that need no guard. -/
theorem run_invariant_all {I : S → Prop} (hstep : ∀ s a, I s → I (step s a)) {s : S}
    (hs : I s) (as : List A) : I (run step s as) := by
  induction as generalizing s with
  | nil => exact hs
  | cons a as ih => exact ih (hstep s a hs)

/-- What follows from an invariant of the guarded steps holds in every state of a guarded run. -/
theorem always_of_guarded {I J : S → Prop} {P : S → A → Prop}
    (hstep : ∀ s a, J s → P s a → J (step s a)) (h : ∀ s, J s → I s) {s : S} (hs : J s)
    {as : List A} (hg : Guarded step P s as) : Always step I s as := by
  rw [always_iff_prefixes]
  rintro pre post rfl
  exact h _ (run_invariant step hstep hs ((guarded_append step P s pre post).mp hg).1)

/-- The same for an invariant of all steps. -/
theorem always_of_invariant {I J : S → Prop} (hstep : ∀ s a, J s → J (step s a))
    (h : ∀ s, J s → I s) {s : S} (hs : J s) (as : List A) : Always step I s as :=
  always_of_guarded step (fun s a hs _ => hstep s a hs) h hs
    (guarded_of_forall_mem step fun _ _ => trivial)

theorem not_occurred_nil {P : S → A → Prop} {s : S} : ¬Occurred step P s [] := by
  rintro ⟨pre, a, post, heq, _⟩
  exact absurd heq.symm (by simp)

theorem occurred_last {P : S → A → Prop} {s : S} {as : List A} {a : A} (h : P (run step s as) a) :
    Occurred step P s (as ++ [a]) := ⟨as, a, [], rfl, h⟩

theorem Occurred.append {P : S → A → Prop} {s : S} {as : List A} (h : Occurred step P s as)
    (bs : List A) : Occurred step P s (as ++ bs) := by
  obtain ⟨pre, a, post, rfl, hp⟩ := h
  exact ⟨pre, a, post ++ bs, by simp, hp⟩

/-- Where a run is split in front of a step, its last step is still to come. -/
theorem split_concat {as pre post : List A} {a b : A} (h : as ++ [a] = pre ++ b :: post) :
    ∃ mid, as = pre ++ mid ∧ b :: post = mid ++ [a] := by
  rcases List.append_eq_append_iff.mp h with ⟨rest, rfl, hrest⟩ | ⟨mid, has, hmid⟩
  · cases rest with
    | nil => exact ⟨[], by simp, by simpa using hrest.symm⟩
    | cons c rest => simp at hrest
  · exact ⟨mid, has, hmid⟩

/-- What has occurred by the end of a run occurred before its last step or in it. -/
theorem occurred_concat {P : S → A → Prop} {s : S} {as : List A} {a : A} :
    Occurred step P s (as ++ [a]) ↔ Occurred step P s as ∨ P (run step s as) a := by
  constructor
  · rintro ⟨pre, b, post, heq, hp⟩
    obtain ⟨mid, rfl, hmid⟩ := split_concat heq
    cases mid with
    | nil =>
      obtain ⟨rfl, _⟩ := List.cons.inj hmid
      exact Or.inr (by rwa [List.append_nil])
    | cons c rest =>
      obtain ⟨rfl, _⟩ := List.cons.inj hmid
      exact Or.inl ⟨pre, b, rest, rfl, hp⟩
  · rintro (h | h)
    · exact h.append step [a]
    · exact occurred_last step h

/-- The last action is no `Q`, and `P` occurred in it or has occurred since the last `Q` before. -/
theorem since_concat {P Q : S → A → Prop} {s : S} {as : List A} {a : A} :
    Since step P Q s (as ++ [a]) ↔
      (Since step P Q s as ∨ P (run step s as) a) ∧ ¬Q (run step s as) a := by
  constructor
  · rintro ⟨pre, b, post, heq, hp, hguard⟩
    obtain ⟨mid, rfl, hmid⟩ := split_concat heq
    rw [hmid, guarded_append, ← run_append] at hguard
    obtain ⟨hbefore, hlast, _⟩ := hguard
    refine ⟨?_, hlast⟩
    cases mid with
    | nil =>
      obtain ⟨rfl, _⟩ := List.cons.inj hmid
      rw [List.append_nil]
      exact Or.inr hp
    | cons c rest =>
      obtain ⟨rfl, _⟩ := List.cons.inj hmid
      exact Or.inl ⟨pre, b, rest, rfl, hp, hbefore⟩
  · rintro ⟨⟨pre, b, post, rfl, hp, hguard⟩ | hp, hlast⟩
    · refine ⟨pre, b, post ++ [a], by simp, hp, ?_⟩
      rw [← List.cons_append, guarded_append, ← run_append]
      exact ⟨hguard, hlast, trivial⟩
    · exact ⟨as, a, [], rfl, hp, hlast, trivial⟩

/-- What holds in all states of a run is a guard that all its steps meet. -/
theorem Always.guarded {I : S → Prop} {s : S} {as : List A} (h : Always step I s as) :
    Guarded step (fun s _ => I s) s as := by
  induction as generalizing s with
  | nil => trivial
  | cons a as ih => exact ⟨h.1, ih h.2⟩

/-- An invariant that ties the state to the guarded actions that have led to it. -/
theorem guarded_history_invariant {I : S → List A → Prop} {P : S → A → Prop} {s : S}
    (hs : I s [])
    (hstep : ∀ as a, I (run step s as) as → P (run step s as) a →
      I (step (run step s as) a) (as ++ [a])) {as : List A} (hg : Guarded step P s as) :
    I (run step s as) as := by
  induction as using List.reverseRecOn with
  | nil => exact hs
  | append_singleton as a ih =>
    obtain ⟨has, ha⟩ := (guarded_append step P s as [a]).mp hg
    rw [run_concat]
    exact hstep as a (ih has) ha.1

/-- An invariant that ties the state to the actions that have led to it. -/
theorem history_invariant {I : S → List A → Prop} {s : S} (hs : I s [])
    (hstep : ∀ as a, I (run step s as) as → I (step (run step s as) a) (as ++ [a]))
    (as : List A) : I (run step s as) as :=
  guarded_history_invariant step hs (fun as a h _ => hstep as a h)
    (guarded_of_forall_mem step fun _ _ => trivial)

/-- A property of the actions so far holds after every part of a run exactly when all steps meet the
condition under which a step keeps it, where a step that leads to the property meets that. -/
theorem prefixes_iff_guarded {I : List A → Prop} {P : S → A → Prop} {s : S} (hs : I [])
    (hkeep : ∀ as a, I as → P (run step s as) a → I (as ++ [a]))
    (hlast : ∀ as a, I (as ++ [a]) → P (run step s as) a) {as : List A} :
    (∀ pre post, as = pre ++ post → I pre) ↔ Guarded step P s as := by
  constructor
  · intro h
    rw [guarded_iff_steps]
    rintro pre a post rfl
    apply hlast
    exact h (pre ++ [a]) post (by simp)
  · rintro hguard pre post rfl
    have hpre := ((guarded_append step P s pre post).mp hguard).1
    exact guarded_history_invariant (I := fun _ as => I as) step hs hkeep hpre

/-- An invariant that ties the state to everything emitted so far. -/
theorem trace_invariant {J : S → List E → Prop} {P : S → A → Prop} {emit : S → A → List E}
    (hstep : ∀ s a h, J s h → P s a → J (step s a) (h ++ emit s a)) {s : S} {h : List E}
    {as : List A} (hs : J s h) (hg : Guarded step P s as) :
    J (run step s as) (h ++ trace step emit s as) := by
  induction as generalizing s h with
  | nil => simpa [trace] using hs
  | cons a as ih =>
    simpa [trace, List.append_assoc] using ih (hstep s a h hs hg.1) hg.2

/-- What every step keeps holds after any run, with all that it has emitted. -/
theorem trace_invariant_all (emit : S → A → List E) {J : S → List E → Prop}
    (hstep : ∀ s a h, J s h → J (step s a) (h ++ emit s a)) {s : S} (hs : J s []) (as : List A) :
    J (run step s as) (trace step emit s as) := by
  have hany : Guarded step (fun _ _ => True) s as := guarded_of_forall_mem step fun _ _ => trivial
  have hrun := trace_invariant step (fun s a h hs _ => hstep s a h hs) hs hany
  rwa [List.nil_append] at hrun

theorem trace_append (emit : S → A → List E) (s : S) (as bs : List A) :
    trace step emit s (as ++ bs) = trace step emit s as ++ trace step emit (run step s as) bs := by
  induction as generalizing s with
  | nil => simp [trace]
  | cons a as ih => simp only [List.cons_append, trace, ih, run_cons, List.append_assoc]

theorem trace_concat (emit : S → A → List E) (s : S) (as : List A) (a : A) :
    trace step emit s (as ++ [a]) = trace step emit s as ++ emit (run step s as) a := by
  rw [trace_append]
  simp [trace]

/-- Along steps that meet `G`, and with an invariant `J` that these keep, `I` holds in every
state of a run exactly when every step meets the condition under which it keeps `I`. -/
theorem always_iff_guarded_of_guarded {I J : S → Prop} {G P : S → A → Prop}
    (hJ : ∀ s a, J s → G s a → J (step s a))
    (hI : ∀ s a, J s → G s a → I s → (I (step s a) ↔ P s a)) {s : S} {as : List A}
    (hg : Guarded step G s as) (hj : J s) (hi : I s) :
    Always step I s as ↔ Guarded step P s as := by
  induction as generalizing s with
  | nil => exact ⟨fun _ => trivial, fun _ => hi⟩
  | cons a as ih =>
    obtain ⟨hga, hgas⟩ := hg
    have hstep := hI s a hj hga hi
    constructor
    · rintro ⟨_, h⟩
      -- the state after `a` is the first one of the rest of the run
      have hi' : I (step s a) := by
        cases as with
        | nil => exact h
        | cons b bs => exact h.1
      exact ⟨hstep.mp hi', (ih hgas (hJ s a hj hga) hi').mp h⟩
    · rintro ⟨hp, hps⟩
      exact ⟨hi, (ih hgas (hJ s a hj hga) (hstep.mpr hp)).mpr hps⟩

/-- With an invariant `J` of all runs at hand, `I` holds in every state of a run exactly
when every step of it meets the condition under which that step keeps `I`. -/
theorem always_iff_guarded {I J : S → Prop} {P : S → A → Prop}
    (hJ : ∀ s a, J s → J (step s a))
    (hI : ∀ s a, J s → I s → (I (step s a) ↔ P s a)) {s : S} {as : List A}
    (hj : J s) (hi : I s) : Always step I s as ↔ Guarded step P s as :=
  always_iff_guarded_of_guarded step (fun s a hj _ => hJ s a hj) (fun s a hj _ => hI s a hj)
    (guarded_of_forall_mem step fun _ _ => trivial) hj hi

/-- Along steps that meet `G`: where an invariant `J` gives `I` and is kept by every step that meets
`P`, and a step that leads from `J` to `I` meets `P`, the property `I` holds in every state of a run
exactly when all its steps meet `P`. -/
theorem always_iff_guarded_of_guarded_kept {I J : S → Prop} {G P : S → A → Prop}
    (hI : ∀ s, J s → I s) (hJ : ∀ s a, J s → G s a → P s a → J (step s a))
    (hP : ∀ s a, J s → G s a → I (step s a) → P s a) {s : S} {as : List A}
    (hg : Guarded step G s as) (hj : J s) : Always step I s as ↔ Guarded step P s as := by
  induction as generalizing s with
  | nil => exact ⟨fun _ => trivial, fun _ => hI s hj⟩
  | cons a as ih =>
    obtain ⟨hga, hgas⟩ := hg
    constructor
    · rintro ⟨_, h⟩
      have hi : I (step s a) := (always_iff_prefixes step I (step s a) as).mp h [] as rfl
      have hp := hP s a hj hga hi
      exact ⟨hp, (ih hgas (hJ s a hj hga hp)).mp h⟩
    · rintro ⟨hp, hps⟩
      exact ⟨hI s hj, (ih hgas (hJ s a hj hga hp)).mpr hps⟩

/-- The same along all steps. -/
theorem always_iff_guarded_of_kept {I J : S → Prop} {P : S → A → Prop} (hI : ∀ s, J s → I s)
    (hJ : ∀ s a, J s → P s a → J (step s a)) (hP : ∀ s a, J s → I (step s a) → P s a) {s : S}
    {as : List A} (hj : J s) : Always step I s as ↔ Guarded step P s as :=
  always_iff_guarded_of_guarded_kept step hI (fun s a hj _ => hJ s a hj) (fun s a hj _ => hP s a hj)
    (guarded_of_forall_mem step fun _ _ => trivial) hj

@[simp] theorem run_withHistory_fst (record : S → A → G → G) (s : S × G) (as : List A) :
    (run (withHistory step record) s as).1 = run step s.1 as := by
  induction as generalizing s with
  | nil => rfl
  | cons a as ih => exact ih (withHistory step record s a)

/-- A guard that looks at the state alone is met with a history exactly when without it. -/
theorem guarded_withHistory (record : S → A → G → G) (P : S → A → Prop) (s : S × G) (as : List A) :
    Guarded (withHistory step record) (fun s a => P s.1 a) s as ↔ Guarded step P s.1 as := by
  induction as generalizing s with
  | nil => exact Iff.rfl
  | cons a as ih => exact and_congr_right fun _ => ih (withHistory step record s a)

/-- A property of the state alone holds along a run with a history exactly when without it. -/
theorem always_withHistory (record : S → A → G → G) (I : S → Prop) (s : S × G) (as : List A) :
    Always (withHistory step record) (fun s => I s.1) s as ↔ Always step I s.1 as := by
  induction as generalizing s with
  | nil => exact Iff.rfl
  | cons a as ih => exact and_congr_right fun _ => ih (withHistory step record s a)

/-- All steps meet `Q` and all states with the history meet `I` exactly when every step meets the
condition under which both are kept. -/
theorem guarded_and_always_iff {record : S → A → G → G} {J : S → Prop} {I : S × G → Prop}
    {P Q : S → A → Prop} (hJ : ∀ s a, J s → J (step s a))
    (hI : ∀ s g a, J s → I (s, g) → (Q s a ∧ I (withHistory step record (s, g) a) ↔ P s a))
    {s : S} {g : G} {as : List A} (hj : J s) (hi : I (s, g)) :
    Guarded step Q s as ∧ Always (withHistory step record) I (s, g) as ↔ Guarded step P s as := by
  induction as generalizing s g with
  | nil => exact ⟨fun _ => trivial, fun _ => ⟨trivial, hi⟩⟩
  | cons a as ih =>
    have hstep := hI s g a hj hi
    constructor
    · rintro ⟨⟨hq, hqs⟩, _, halways⟩
      have hi' : I (withHistory step record (s, g) a) := by
        cases as with
        | nil => exact halways
        | cons b bs => exact halways.1
      exact ⟨hstep.mp ⟨hq, hi'⟩, (ih (hJ s a hj) hi').mp ⟨hqs, halways⟩⟩
    · rintro ⟨hp, hps⟩
      obtain ⟨hq, hi'⟩ := hstep.mpr hp
      obtain ⟨hqs, halways⟩ := (ih (hJ s a hj) hi').mpr hps
      exact ⟨⟨hq, hqs⟩, hi, halways⟩

/-- What is read after a run is what its last write has left, where each step writes or keeps it. -/
theorem last_write_iff {read : S → Option E} {write : S → A → Option (Option E)}
    (hstep : ∀ s a, read (step s a) = (write s a).getD (read s)) {s : S} (hs : read s = none)
    (as : List A) (e : E) : read (run step s as) = some e ↔
      ∃ pre a post, as = pre ++ a :: post ∧ write (run step s pre) a = some (some e) ∧
        Guarded step (fun s a => write s a = none) (run step s (pre ++ [a])) post := by
  induction as using List.reverseRecOn with
  | nil => simp [hs]
  | append_singleton as b ih =>
    rw [run_concat, hstep]
    constructor
    · intro h
      cases hwrite : write (run step s as) b with
      | none =>
        rw [hwrite, Option.getD_none, ih] at h
        obtain ⟨pre, a, post, rfl, ha, hguard⟩ := h
        refine ⟨pre, a, post ++ [b], by simp, ha, ?_⟩
        refine (guarded_append step _ _ post [b]).mpr ⟨hguard, ?_⟩
        rw [← run_append, List.append_assoc]
        exact ⟨hwrite, trivial⟩
      | some o =>
        rw [hwrite, Option.getD_some] at h
        exact ⟨as, b, [], rfl, h ▸ hwrite, trivial⟩
    · rintro ⟨pre, a, post, heq, ha, hguard⟩
      obtain ⟨mid, rfl, hmid⟩ := split_concat heq
      cases mid with
      | nil =>
        obtain ⟨rfl, _⟩ := List.cons.inj hmid
        rw [List.append_nil, ha, Option.getD_some]
      | cons c rest =>
        obtain ⟨rfl, rfl⟩ := List.cons.inj hmid
        obtain ⟨hrest, hlast, _⟩ := (guarded_append step _ _ rest [b]).mp hguard
        rw [← run_append, List.append_assoc] at hlast
        have hnone : write (run step s (pre ++ a :: rest)) b = none := hlast
        rw [hnone, Option.getD_none]
        exact ih.mpr ⟨pre, a, rest, rfl, ha, hrest⟩

/-- What a step brings about, and a later one can end, holds after a run exactly when it was brought
about and has not been ended since, where the guard `G` of the run keeps the invariant `J`. -/
theorem lasts_iff {I J : S → Prop} {G P Q : S → A → Prop} (hJ : ∀ s a, J s → G s a → J (step s a))
    (hstep : ∀ s a, J s → G s a → (I (step s a) ↔ P s a ∨ I s ∧ ¬Q s a)) {s : S} (hj : J s)
    (hs : ¬I s) {as : List A} (hg : Guarded step G s as) :
    I (run step s as) ↔ ∃ pre a post, as = pre ++ a :: post ∧ P (run step s pre) a ∧
      Guarded step (fun s a => ¬Q s a) (run step s (pre ++ [a])) post := by
  induction as using List.reverseRecOn with
  | nil => simp [hs]
  | append_singleton as b ih =>
    obtain ⟨hgas, hgb, _⟩ := (guarded_append step G s as [b]).mp hg
    rw [run_concat, hstep _ _ (run_invariant step hJ hj hgas) hgb]
    constructor
    · rintro (hp | ⟨hi, hq⟩)
      · exact ⟨as, b, [], rfl, hp, trivial⟩
      · obtain ⟨pre, a, post, rfl, ha, hguard⟩ := (ih hgas).mp hi
        refine ⟨pre, a, post ++ [b], by simp, ha, ?_⟩
        refine (guarded_append step _ _ post [b]).mpr ⟨hguard, ?_⟩
        rw [← run_append, List.append_assoc]
        exact ⟨hq, trivial⟩
    · rintro ⟨pre, a, post, heq, ha, hguard⟩
      obtain ⟨mid, rfl, hmid⟩ := split_concat heq
      cases mid with
      | nil =>
        obtain ⟨rfl, _⟩ := List.cons.inj hmid
        rw [List.append_nil]
        exact Or.inl ha
      | cons c rest =>
        obtain ⟨rfl, rfl⟩ := List.cons.inj hmid
        obtain ⟨hrest, hlast, _⟩ := (guarded_append step _ _ rest [b]).mp hguard
        rw [← run_append, List.append_assoc] at hlast
        exact Or.inr ⟨(ih hgas).mpr ⟨pre, a, rest, rfl, ha, hrest⟩, hlast⟩

/-- The same for what every run brings about and ends in one way. -/
theorem lasts_iff_all {I : S → Prop} {P Q : S → A → Prop}
    (hstep : ∀ s a, I (step s a) ↔ P s a ∨ I s ∧ ¬Q s a) {s : S} (hs : ¬I s) (as : List A) :
    I (run step s as) ↔ ∃ pre a post, as = pre ++ a :: post ∧ P (run step s pre) a ∧
      Guarded step (fun s a => ¬Q s a) (run step s (pre ++ [a])) post :=
  lasts_iff step (J := fun _ => True) (fun _ _ _ _ => trivial) (fun s a _ _ => hstep s a) trivial hs
    (guarded_of_forall_mem step (P := fun _ => True) fun _ _ => trivial)

section Refinement
variable {S T A E : Type*}

/-- A system that is seen through a view, and the system that the view follows: in the states that
meet an invariant, a step is a step of the other system on what is seen, and emits the same. -/
structure Refines (step : S → A → S) (step' : T → A → T) (emit : S → A → List E)
    (emit' : T → A → List E) (view : S → T) (J : S → Prop) : Prop where
  kept : ∀ s a, J s → J (step s a)
  step : ∀ s a, J s → view (step s a) = step' (view s) a
  emit : ∀ s a, J s → emit s a = emit' (view s) a

variable {step : S → A → S} {step' : T → A → T} {emit : S → A → List E} {emit' : T → A → List E}
  {view : S → T} {J : S → Prop} {s : S}

/-- What is seen after a run is what the other system comes to. -/
theorem Refines.run (h : Refines step step' emit emit' view J) (hs : J s) (as : List A) :
    view (run step s as) = run step' (view s) as := by
  induction as generalizing s with
  | nil => rfl
  | cons a as ih => rw [run_cons, run_cons, ih (h.kept s a hs), h.step s a hs]

/-- A run emits what the run of the other system emits. -/
theorem Refines.trace (h : Refines step step' emit emit' view J) (hs : J s) (as : List A) :
    trace step emit s as = trace step' emit' (view s) as := by
  induction as generalizing s with
  | nil => rfl
  | cons a as ih =>
    rw [RunSystem.trace, RunSystem.trace, ih (h.kept s a hs), h.step s a hs, h.emit s a hs]

end Refinement

section Hops
variable {P : Type*}

/-- Where a client is after so many hops, each to where the answer of that time sends it, unless it
has come to rest before. -/
def visited (hop : ℕ → P → Option P) (p : P) : ℕ → Option P
  | 0 => some p
  | n+1 => (visited hop p n).bind (hop n)

/-- The client comes to rest, after however many hops. -/
def ComesTo (hop : ℕ → P → Option P) (p q : P) : Prop :=
  ∃ n, visited hop p n = some q ∧ hop n q = none

/-- Where a client comes to rest that follows so many hops at most. -/
def restWithin (hop : P → Option P) : ℕ → P → Option P
  | 0, p => if (hop p).isNone then some p else none
  | n+1, p =>
    match hop p with
    | none => some p
    | some p' => restWithin hop n p'

variable {hop : ℕ → P → Option P} {p p' q : P}

theorem visited_succ (n : ℕ) :
    visited hop p (n+1) = (hop 0 p).bind fun p' => visited (fun k => hop (k+1)) p' n := by
  induction n with
  | zero => cases h : hop 0 p <;> simp [visited, h]
  | succ n ih =>
    rw [visited, ih, Option.bind_assoc]
    rfl

theorem comesTo_of_none (h : hop 0 p = none) : ComesTo hop p q ↔ q = p := by
  constructor
  · rintro ⟨n, hn, _⟩
    cases n with
    | zero => exact (Option.some.inj hn).symm
    | succ n =>
      rw [visited_succ, h] at hn
      cases hn
  · rintro rfl
    exact ⟨0, rfl, h⟩

theorem comesTo_of_some (h : hop 0 p = some p') :
    ComesTo hop p q ↔ ComesTo (fun n => hop (n+1)) p' q := by
  constructor
  · rintro ⟨n, hn, hrest⟩
    cases n with
    | zero =>
      obtain rfl := Option.some.inj hn
      rw [h] at hrest
      cases hrest
    | succ n =>
      rw [visited_succ, h] at hn
      exact ⟨n, hn, hrest⟩
  · rintro ⟨n, hn, hrest⟩
    refine ⟨n+1, ?_, hrest⟩
    rw [visited_succ, h]
    exact hn

/-- A client that is sent on wherever it is never comes to rest. -/
theorem not_comesTo {I : ℕ → P → Prop}
    (hstep : ∀ n p, I n p → ∃ p', hop n p = some p' ∧ I (n+1) p') (hp : I 0 p) :
    ¬ComesTo hop p q := by
  have hvisited (n : ℕ) : ∃ r, visited hop p n = some r ∧ I n r := by
    induction n with
    | zero => exact ⟨p, rfl, hp⟩
    | succ n ih =>
      obtain ⟨r, hr, hI⟩ := ih
      obtain ⟨r', hr', hI'⟩ := hstep n r hI
      refine ⟨r', ?_, hI'⟩
      rw [visited, hr]
      exact hr'
  rintro ⟨n, hn, hrest⟩
  obtain ⟨r, hr, hI⟩ := hvisited n
  obtain rfl := Option.some.inj (hr.symm.trans hn)
  obtain ⟨r', hr', _⟩ := hstep n r hI
  rw [hrest] at hr'
  cases hr'

theorem restWithin_of_none {hop : P → Option P} (h : hop p = none) (n : ℕ) :
    restWithin hop n p = some p := by
  cases n with
  | zero => simp [restWithin, h]
  | succ n => rw [restWithin, h]

theorem restWithin_of_some {hop : P → Option P} (h : hop p = some p') (n : ℕ) :
    restWithin hop (n+1) p = restWithin hop n p' := by
  rw [restWithin, h]

/-- A client that gives up after some hops is where one that does not give up comes to rest. -/
theorem comesTo_of_restWithin {hop : P → Option P} {n : ℕ} (h : restWithin hop n p = some q) :
    ComesTo (fun _ => hop) p q := by
  induction n generalizing p with
  | zero =>
    unfold restWithin at h
    split_ifs at h with hrest
    rw [comesTo_of_none (Option.isNone_iff_eq_none.mp hrest)]
    exact (Option.some.inj h).symm
  | succ n ih =>
    rw [restWithin] at h
    cases hhop : hop p with
    | none =>
      rw [hhop] at h
      rw [comesTo_of_none hhop]
      exact (Option.some.inj h).symm
    | some p' =>
      rw [hhop] at h
      rw [comesTo_of_some hhop]
      exact ih h

end Hops

end HubAssist.RunSystem
