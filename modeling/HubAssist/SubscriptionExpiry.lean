import HubAssist.SubscriptionSteps
import HubAssist.ManageHubPrivilege
import Mathlib.Tactic.Ring

/-! When a subscription ends: the paid cycles since it was created, and the time that it has been
paused. -/
namespace HubAssist.ManageHub.Subscriptions
open SorobanHost CheckedArith RunSystem

variable {Address : Type} [DecidableEq Address] {C : Chain Address} {K : Crypto Address}
variable {env : Env C} {w : ManageWorld C K} {user : Address}

/-- What has happened to the subscription of a user since it was created. -/
structure Account where
  renewals : ℕ
  pausedTime : ℕ
  deriving DecidableEq, Repr

def Paused {Digest : Type} (s : Storage Address Digest) (user : Address) : Prop :=
  ∃ sub, s.subscription user = some sub ∧ sub.status = .paused

instance {Digest : Type} (s : Storage Address Digest) (user : Address) :
    Decidable (Paused s user) :=
  match hsub : s.subscription user with
  | none => isFalse fun ⟨_, h, _⟩ => by simp [hsub] at h
  | some sub => decidable_of_iff (sub.status = .paused) (by simp [Paused, hsub])

theorem paused_iff {sub : Subscription Address K.Digest}
    (hsub : w.store.subscription user = some sub) :
    Paused w.store user ↔ sub.status = .paused := by
  constructor
  · rintro ⟨other, hother, hpaused⟩
    rwa [Option.some.inj (hsub.symm.trans hother)]
  · intro hpaused
    exact ⟨sub, hsub, hpaused⟩

/-- An accepted call of the user. A subscription that is created has an account of its own. -/
def bookCall : Call Address → Account → Account
  | .createSubscription _ _ _ _ _ _, _ => ⟨0, 0⟩
  | .renewSubscription _, g => { g with renewals := g.renewals+1 }
  | .setTierFeatures _ _ _, g | .setTier _ _, g | .cancelSubscription _, g
  | .pauseSubscription _ _, g | .resumeSubscription _, g => g

/-- The account of `user` after a step. Time counts as paused as long as the status says so. -/
def book (user : Address) (w : ManageWorld C K) : Action C (Call Address) → Account → Account
  | .tick seconds, g =>
    if Paused w.store user then { g with pausedTime := g.pausedTime+seconds } else g
  | .invoke env call, g => recordCalls exec
    (fun call _ _ g => if call.subscriber = some user then bookCall call g else g) w
      (.invoke env call) g
  | .external _ _, g => g

/-- The end that the account of a subscription gives it. -/
def due {Digest : Type} (sub : Subscription Address Digest) (g : Account) : ℕ :=
  sub.createdAt+(1+g.renewals)*sub.billingCycle+g.pausedTime

/-- While it is active, the subscription of `user` ends when its account says. -/
def Accounted (user : Address) (v : ManageWorld C K × Account) : Prop :=
  ∀ sub, v.1.store.subscription user = some sub → sub.status = .active →
    sub.expiresAt = due sub v.2

/-- `user` renews a paused subscription, with time gone by since it was paused. -/
def RenewsPaused (user : Address) (w : ManageWorld C K) : Action C (Call Address) → Prop
  | .invoke env (.renewSubscription other) => other = user ∧ ∃ sub, Renewable env w user sub ∧
    sub.status = .paused ∧ sub.pausedAt < w.now
  | _ => False

/-- While it is paused, a subscription still has to get the time since it was paused. -/
def Due {Digest : Type} (now : ℕ) (g : Account) (sub : Subscription Address Digest) : Prop :=
  match sub.status with
  | .active => sub.expiresAt = due sub g
  | .paused => sub.pausedAt ≤ now ∧ sub.expiresAt+(now-sub.pausedAt) = due sub g
  | .cancelled => True
  | .expired => False

def Booked (user : Address) (w : ManageWorld C K) (g : Account) : Prop :=
  ∀ sub, w.store.subscription user = some sub → Due w.now g sub

theorem Booked.accounted {g : Account} (h : Booked user w g) : Accounted user (w, g) := by
  intro sub hsub hactive
  have hdue := h sub hsub
  rwa [Due, hactive] at hdue

/-- Time passes for the account of a subscription exactly while it is paused. -/
theorem Booked.tick {g : Account} (h : Booked user w g) (seconds : ℕ) :
    Booked user (w.elapse seconds) (book user w (.tick seconds) g) := by
  intro sub hsub
  have hstatus_iff : Paused w.store user ↔ sub.status = .paused := paused_iff hsub
  have hdue := h sub hsub
  unfold Due at hdue ⊢
  cases hstatus : sub.status with
  | active =>
    have hnot : ¬Paused w.store user := by
      rw [hstatus_iff, hstatus]
      decide
    rw [hstatus] at hdue
    simpa only [book, if_neg hnot] using hdue
  | paused =>
    have hpaused : Paused w.store user := hstatus_iff.mpr hstatus
    rw [hstatus] at hdue
    obtain ⟨hle, hdue⟩ := hdue
    simp only [book, if_pos hpaused, due, World.elapse] at hdue ⊢
    exact ⟨by omega, by omega⟩
  | cancelled => trivial
  | expired => simp only [hstatus] at hdue

/-- An accepted call keeps the account, unless it renews a subscription that has been paused for
some time. -/
theorem Booked.call {g : Account} {call : Call Address} {sub : Subscription Address K.Digest}
    (h : Booked user w g) (heffect : Effect env w user call sub)
    (hcall : ¬RenewsPaused user w (.invoke env call)) : Due w.now (bookCall call g) sub := by
  cases heffect with
  | creates => simp [Due, due, created, bookCall]
  | cancels sub hsub => trivial
  | pauses reason sub hsub hactive =>
    -- the pause begins now, so nothing is owed for it yet
    have hdue := h sub hsub
    rw [Due, hactive] at hdue
    exact ⟨le_refl _, by simpa [due, bookCall] using hdue⟩
  | resumes sub hresume =>
    -- the end moves by the time since the pause, which is what the account has over it
    have hdue := h sub hresume.2.1
    rw [Due, hresume.2.2.1] at hdue
    exact hdue.2
  | renews sub hrenew =>
    have hdue := h sub hrenew.2.1
    have hcancelled := hrenew.2.2.1
    have hexact : sub.expiresAt = due sub g := by
      unfold Due at hdue
      cases hstatus : sub.status with
      | active => simpa only [hstatus] using hdue
      | paused =>
        simp only [hstatus] at hdue
        -- no time has gone by since the pause
        have hnow : ¬sub.pausedAt < w.now := fun hlt => hcall ⟨rfl, sub, hrenew, hstatus, hlt⟩
        omega
      | cancelled => exact absurd hstatus hcancelled
      | expired => simp only [hstatus] at hdue
    simp only [Due, due, bookCall] at hexact ⊢
    rw [hexact]
    ring

theorem book_invoke_ok {w' : ManageWorld C K} {call : Call Address} {g : Account}
    (h : exec env call w = .ok w') : book user w (.invoke env call) g =
      if call.subscriber = some user then bookCall call g else g := by
  rw [book, recordCalls_ok h]

theorem book_invoke_error {fault : Fault ModuleError} {call : Call Address} {g : Account}
    (h : exec env call w = .error fault) : book user w (.invoke env call) g = g := by
  rw [book, recordCalls_error h]

theorem Booked.step {g : Account} (h : Booked user w g) (a : Action C (Call Address))
    (ha : ¬RenewsPaused user w a) :
    Booked user (SorobanHost.step exec w a) (book user w a g) := by
  cases a with
  | tick seconds => exact h.tick seconds
  | external token next =>
    exact step_external_keeps (fun v => Booked user v g) h h
  | invoke env call =>
    cases hok : exec env call w with
    | error fault =>
      rw [step_invoke_error hok, book_invoke_error hok]
      exact h
    | ok w' =>
      obtain ⟨hnow, hown, hapart⟩ := exec_effect user hok
      rw [step_invoke_ok hok, book_invoke_ok hok]
      intro sub hsub
      rw [hnow]
      split_ifs with hcall
      · obtain ⟨after, hafter, heffect⟩ := hown hcall
        rw [Option.some.inj (hsub.symm.trans hafter)]
        exact h.call heffect ha
      · rw [hapart hcall] at hsub
        exact h sub hsub

/-- A renewal that takes a subscription out of a pause leaves out the time that it was paused. -/
theorem RenewsPaused.not_accounted {g : Account} {a : Action C (Call Address)}
    (h : Booked user w g) (ha : RenewsPaused user w a) :
    ¬Accounted user (withHistory (SorobanHost.step exec) (book user) (w, g) a) := by
  unfold RenewsPaused at ha
  split at ha
  · next env other =>
    obtain ⟨rfl, sub, hrenew, hpaused, hlt⟩ := ha
    obtain ⟨t, ht⟩ := hrenew.2.2.2.1
    have hok := renewSubscription_eq_ok.mpr ⟨sub, hrenew, t, ht, rfl⟩
    intro haccounted
    simp only [Accounted, withHistory, step_invoke_ok hok, book_invoke_ok hok, Call.subscriber,
      if_true] at haccounted
    have hexact := haccounted _ (Function.update_self ..) rfl
    have hdue := h sub hrenew.2.1
    rw [Due, hpaused] at hdue
    obtain ⟨_, hdue⟩ := hdue
    have hcycles : (1+(g.renewals+1))*sub.billingCycle =
        (1+g.renewals)*sub.billingCycle+sub.billingCycle := by ring
    simp only [due, bookCall, hcycles] at hexact hdue
    omega
  · exact ha.elim

/-- In every run of the deployed contract, a user's subscription ends while it is active when its
paid cycles and the time that it was paused say, exactly when the user never renews it out of a
pause that has taken any time. -/
theorem expiry_accounted_iff (wasm : BytesN32) (tokens : Address → C.token.State) (now : ℕ)
    (user : Address) (as : List (Action C (Call Address))) :
    Always (withHistory (SorobanHost.step exec) (book user)) (Accounted user)
        ((deployed wasm tokens now : ManageWorld C K), ⟨0, 0⟩) as ↔
      Guarded (SorobanHost.step exec) (fun w a => ¬RenewsPaused user w a)
        (deployed wasm tokens now : ManageWorld C K) as := by
  have hstart : Booked user (deployed wasm tokens now : ManageWorld C K) ⟨0, 0⟩ := by
    intro sub hsub
    exact absurd hsub (by simp [deployed, Storage.empty])
  rw [← guarded_withHistory (SorobanHost.step exec) (book user) (fun w a => ¬RenewsPaused user w a)
    ((deployed wasm tokens now : ManageWorld C K), (⟨0, 0⟩ : Account)) as]
  exact always_iff_guarded_of_kept (J := fun v : ManageWorld C K × Account => Booked user v.1 v.2) _
    (fun _ h => h.accounted) (fun _ a h ha => h.step a ha)
    (fun _ _ h haccounted ha => ha.not_accounted h haccounted) hstart

/-- Account 1 pauses a cycle of 100 seconds for 40 seconds and then renews it. It ends after 200
seconds, as if there had been no pause. -/
theorem expiry_not_accounted :
    ¬Always (withHistory (SorobanHost.step exec) (book 1)) (Accounted 1)
      ((deployed 0 (fun _ _ => (50 : ℕ)) 1000 : ManageWorld numberedChain plainCrypto), ⟨0, 0⟩)
      [.invoke (signedBy 4) (.setTier 3 ⟨3, "desk", .basic, 10, 30, [], true, 5⟩),
        .invoke (signedBy 0) (.createSubscription 1 9 10 3 100 0),
        .invoke (signedBy 0) (.pauseSubscription 1 "travel"), .tick 40,
        .invoke (signedBy 0) (.renewSubscription 1)] := by
  intro h
  have hend : 1200 = 1240 :=
    (always_iff_prefixes _ _ _ _).mp h _ [] (List.append_nil _).symm _ rfl rfl
  exact absurd hend (by decide)

end HubAssist.ManageHub.Subscriptions
