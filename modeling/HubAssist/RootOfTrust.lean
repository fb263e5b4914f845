import HubAssist.SorobanHost

/-! A part of the state that names its holder and is to change with the holder's authority
only, and what it takes for a run to change it without. -/
namespace HubAssist.RootOfTrust
open RunSystem SorobanHost

/-- A transition system with a root of trust. Without the authority of its holder a step
changes the root exactly when it is a takeover. -/
structure Trust (S A R P : Type*) where
  step : S → A → S
  root : S → R
  holder : R → Option P
  Authorised : P → A → Prop
  Takeover : S → A → Prop
  kept_iff : ∀ s a p, holder (root s) = some p → ¬Authorised p a →
    (root (step s a) = root s ↔ ¬Takeover s a)

/-- The one holder has signed what a holder has signed. -/
theorem holder_signed {P : Type*} {holder : Option P} {signers : List P} {p q : P}
    (hp : holder = some p) (hq : holder = some q) (hs : q ∈ signers) : p ∈ signers := by
  rwa [Option.some.inj (hp.symm.trans hq)]

variable {S A R P : Type*} (T : Trust S A R P)

def Trust.HeldBy (s : S) (p : P) : Prop := T.holder (T.root s) = some p

/-- No step of the run has the authority of `p`. -/
def Trust.Without (p : P) (as : List A) : Prop := ∀ a ∈ as, ¬T.Authorised p a

/-- The root is the same in every state of the run. -/
def Trust.Unmoved (s : S) (as : List A) : Prop :=
  Always T.step (fun v => T.root v = T.root s) s as

/-- No step of the run is a takeover. -/
def Trust.Untaken (s : S) (as : List A) : Prop := Guarded T.step (fun v a => ¬T.Takeover v a) s as

/-- A run without the holder's authority leaves the root alone exactly when nobody takes it
over. -/
theorem Trust.unmoved_iff {s : S} {p : P} (hp : T.HeldBy s p) {as : List A}
    (has : T.Without p as) : T.Unmoved s as ↔ T.Untaken s as := by
  have hg : Guarded T.step (fun _ a => ¬T.Authorised p a) s as :=
    guarded_of_forall_mem T.step has
  have hstep (v : S) (a : A) (ha : ¬T.Authorised p a) (hv : T.root v = T.root s) :
      T.root (T.step v a) = T.root s ↔ ¬T.Takeover v a := by
    rw [← hv]
    exact T.kept_iff v a p ((congrArg T.holder hv).trans hp) ha
  have hall (v : S) (a : A) (_ : v = v) (_ : ¬T.Authorised p a) : T.step v a = T.step v a := rfl
  exact always_iff_guarded_of_guarded T.step hall (fun v a _ ha hv => hstep v a ha hv) hg rfl rfl

theorem Trust.moved_of_takeover {s : S} {p : P} {a : A} (hp : T.HeldBy s p)
    (ha : ¬T.Authorised p a) (h : T.Takeover s a) : ¬T.Unmoved s [a] := by
  have hwithout : T.Without p [a] := by
    intro b hb
    rwa [List.mem_singleton.mp hb]
  intro hkept
  exact ((T.unmoved_iff hp hwithout).mp hkept).1 h

/-- Every step of the run that changes the root has the authority of the one who held it before. -/
def Trust.Sanctioned (s : S) (as : List A) : Prop :=
  Guarded T.step (fun v a => ∀ p, T.HeldBy v p → T.root (T.step v a) ≠ T.root v → T.Authorised p a)
    s as

/-- No step of the run is a takeover without the authority of the holder at that time. -/
def Trust.Respected (s : S) (as : List A) : Prop :=
  Guarded T.step (fun v a => ∀ p, T.HeldBy v p → T.Authorised p a ∨ ¬T.Takeover v a) s as

/-- The changes of a run are sanctioned exactly when there are no takeovers without authority. -/
theorem Trust.sanctioned_iff (s : S) (as : List A) : T.Sanctioned s as ↔ T.Respected s as := by
  have hstep (v : S) (a : A) (p : P) (hp : T.HeldBy v p) :
      (T.root (T.step v a) ≠ T.root v → T.Authorised p a) ↔
        T.Authorised p a ∨ ¬T.Takeover v a := by
    by_cases ha : T.Authorised p a
    · exact ⟨fun _ => .inl ha, fun _ _ => ha⟩
    · rw [or_iff_right ha, ← T.kept_iff v a p hp ha, ← not_imp_not, not_not]
      exact ⟨fun h => h ha, fun h _ => h⟩
  rw [Trust.Sanctioned, Trust.Respected, guarded_iff_steps, guarded_iff_steps]
  exact forall₃_congr fun pre a _ => imp_congr_right fun _ =>
    forall₂_congr fun p hp => hstep (run T.step s pre) a p hp

variable {Address : Type} [DecidableEq Address] {C : Chain Address} {E Call Store Root : Type}

/-- The action is signed by `p`, or its call has an authority of its own. -/
def SignedBy (exempt : Call → Prop) (p : Address) : Action C Call → Prop
  | .invoke env call => p ∈ env.signers ∨ exempt call
  | .tick _ | .external _ _ => False

/-- The action sets the contract up, for an admin who signs it. -/
def SetUp (setsUp : Call → Option Address) : Action C Call → Prop
  | .invoke env call => ∃ admin, setsUp call = some admin ∧ admin ∈ env.signers
  | .tick _ | .external _ _ => False

/-- A signature that is missing is an authorisation fault. -/
theorem requireAuth_error {env : Env C} {a : Address} (h : a ∉ env.signers) :
    (requireAuth env a : Except (Fault E) Unit) = .error .auth := if_pos h

/-- A contract whose root names its admin. Setting it up makes whoever signs the admin; any
other call leaves the root alone, unless the stored admin signs it or it is exempt. -/
def contractTrust (exec : Env C → Call → World C Store → Except (Fault E) (World C Store))
    (root : Store → Root) (admin : Root → Option Address) (setsUp : Call → Option Address)
    (exempt : Call → Prop)
    (hsetup : ∀ env call w b, setsUp call = some b → ∃ s, admin (root s) = some b ∧
      exec env call w = do requireAuth env b; return w.setStore s)
    (hkept : ∀ env call w w' p, exec env call w = .ok w' → setsUp call = none →
      ¬exempt call → admin (root w.store) = some p → p ∉ env.signers →
      root w'.store = root w.store) :
    Trust (World C Store) (Action C Call) Root Address where
  step := step exec
  root w := root w.store
  holder := admin
  Authorised := SignedBy exempt
  Takeover _ := SetUp setsUp
  kept_iff := by
    intro w a p hp ha
    cases a with
    | tick => exact ⟨fun _ h => h, fun _ => rfl⟩
    | external token next =>
      refine ⟨fun _ h => h, fun _ => ?_⟩
      rw [step_external_store]
    | invoke env call =>
      obtain ⟨hsigned, hexempt⟩ := not_or.mp ha
      cases hcall : setsUp call with
      | none =>
        refine ⟨fun _ ⟨b, hb, _⟩ => absurd (hb.symm.trans hcall) (Option.some_ne_none b),
          fun _ => ?_⟩
        cases hok : exec env call w with
        | ok w' =>
          rw [step_invoke_ok hok]
          exact hkept env call w w' p hok hcall hexempt hp hsigned
        | error fault => rw [step_invoke_error hok]
      | some b =>
        obtain ⟨s, hs, hexec⟩ := hsetup env call w b hcall
        by_cases hb : b ∈ env.signers
        · have hok : exec env call w = .ok (w.setStore s) := by
            rw [hexec, requireAuth, failIf, if_neg (not_not.mpr hb)]
            rfl
          refine ⟨fun hsame => ?_, fun h => absurd ⟨b, hcall, hb⟩ h⟩
          -- the new admin has signed and the old one has not
          rw [step_invoke_ok hok, World.setStore_store] at hsame
          rw [hsame, hp] at hs
          exact absurd (Option.some.inj hs ▸ hb) hsigned
        · have herror : exec env call w = .error .auth := by
            rw [hexec, requireAuth_error hb]
            rfl
          refine ⟨fun _ ⟨b', hb', hmem⟩ => ?_, fun _ => by rw [step_invoke_error herror]⟩
          exact hb (Option.some.inj (hcall.symm.trans hb') ▸ hmem)

end HubAssist.RootOfTrust
