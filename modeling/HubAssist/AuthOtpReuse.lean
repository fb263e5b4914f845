import HubAssist.AuthOtpBudget

/-! One-time codes along runs of AuthService: whether a code is accepted again, and whether a code
that is sent again is accepted. -/
namespace HubAssist.Auth
open Checks KeyedTable RunSystem

variable (bcrypt : Bcrypt)

/-- The code of an address: when it was issued, whether it was sent again and to a user whose last
one was marked invalid, the wrong guesses compared with it, and whether it has been accepted. -/
structure Code where
  text : String
  issuedAt : ℕ
  resent : Bool
  marked : Bool
  misses : ℕ
  accepted : Bool

def isResend : Call → Bool
  | .resendOtp _ => true
  | _ => false

/-- The user of an address is marked: the code has been invalidated. -/
def Marked (s : AuthState) (email : String) : Prop :=
  ∃ user, findByEmail s email = some user ∧ user.otpInvalidatedAt ≠ none

instance (s : AuthState) (email : String) : Decidable (Marked s email) :=
  decidable_of_iff ((findByEmail s email).any (fun user => user.otpInvalidatedAt ≠ none) = true) <| by
    simp [Marked, Option.any_eq_true]

def Code.after (code : Code) (guess : Guess) (succeeds : Bool) : Code :=
  if guess.right then { code with accepted := code.accepted || succeeds }
  else { code with misses := code.misses+1 }

/-- The codes by address, brought up to date with a call. -/
def recordCodes (s : AuthState) (a : Action) (g : String → Option Code) : String → Option Code :=
  match issues bcrypt s a with
  | some email => Function.update g email
      (some ⟨a.env.otp, a.env.now, isResend a.call, decide (Marked s email), 0, false⟩)
  | none =>
    match comparison bcrypt s a with
    | some guess => Function.update g guess.email
        ((g guess.email).map fun code => code.after guess (decide (Succeeds bcrypt s a)))
    | none => g

abbrev Coded := AuthState × (String → Option Code)

/-- The address and the code that a call presents. -/
def presents (a : Action) : Option (String × String) :=
  match a.call with
  | .verifyOtp email otp | .resetPassword email otp _ => some (email, otp)
  | _ => none

/-- The right code in time, sent again to the user and not accepted yet, before three wrong
guesses. -/
def Code.Reactivates (code : Code) (otp : String) (now : ℕ) : Prop :=
  code.resent = true ∧ otp = code.text ∧ code.accepted = false ∧ code.misses < otpMaxAttempts ∧
    now ≤ code.issuedAt+otpLifetimeMs

/-- A code is accepted once, and a code that is sent again reactivates the account. -/
structure CodeLaw (sg : Coded) (a : Action) : Prop where
  once : ∀ email otp code, presents a = some (email, otp) → sg.2 email = some code →
    Succeeds bcrypt sg.1 a → code.accepted = false
  reactivates : ∀ email otp code, a.call = .verifyOtp email otp → sg.2 email = some code →
    code.Reactivates otp a.env.now → Succeeds bcrypt sg.1 a

/-- What a call asks for besides the right code in time: at `verifyOtp` that the user is not marked,
at `resetPassword` a password that meets the policy. -/
def Open (s : AuthState) (a : Action) : Prop :=
  match a.call with
  | .verifyOtp email _ => ¬Marked s email
  | .resetPassword _ _ newPassword => a.env.policyViolations newPassword = []
  | _ => False

/-- No accepted code is presented again in time to a call that is open to it, and no code in time
that was sent again to a marked user. -/
structure CodeFresh (sg : Coded) (a : Action) : Prop where
  notAgain : ∀ email otp code, presents a = some (email, otp) → sg.2 email = some code →
    otp = code.text → a.env.now ≤ code.issuedAt+otpLifetimeMs → Open sg.1 a →
      code.accepted = false
  notMarked : ∀ email otp code, a.call = .verifyOtp email otp → sg.2 email = some code →
    code.Reactivates otp a.env.now → code.marked = false

/-- The row of a user holds the code that was issued last, and after it has been sent again accounts
for the wrong guesses and for the mark. -/
structure Holding (user : User) (code : Code) : Prop where
  otp : user.otp = some (bcrypt.hash code.text)
  otpExpiry : user.otpExpiry = some (code.issuedAt+otpLifetimeMs)
  attempts : code.resent = true → user.otpAttempts ≤ code.misses
  mark : code.resent = true → code.misses < otpMaxAttempts →
    (user.otpInvalidatedAt ≠ none ↔ code.marked = true)

/-- What is kept along a run. -/
structure Traced (sg : Coded) : Prop where
  keyed : Keyed User.id sg.1.users
  found : ∀ email code, sg.2 email = some code → ∃ user, findByEmail sg.1 email = some user
  holds : ∀ email user, findByEmail sg.1 email = some user →
    ∃ code, sg.2 email = some code ∧ Holding bcrypt user code

variable {bcrypt} {s : AuthState} {a : Action} {g : String → Option Code} {email otp : String}
  {guess : Guess} {code : Code} {user user' : User}

theorem marked_of_found (h : findByEmail s email = some user) :
    Marked s email ↔ user.otpInvalidatedAt ≠ none := by
  simp [Marked, h]

/-- The row that a call issuing a code leaves holds the code. -/
theorem holding_issued (hwrites : Writes bcrypt s a email user') :
    Holding bcrypt user'
      ⟨a.env.otp, a.env.now, isResend a.call, decide (Marked s email), 0, false⟩ := by
  refine ⟨hwrites.otp, hwrites.otpExpiry, fun hresent => ?_, fun hresent _ => ?_⟩
  -- both are about a code that was sent again
  all_goals
    obtain ⟨email', hcall⟩ : ∃ email', a.call = .resendOtp email' := by
      cases hcall : a.call with
      | resendOtp email' => exact ⟨email', rfl⟩
      | _ => simp [hcall, isResend] at hresent
    obtain ⟨hattempts, old, hold, hmark⟩ := hwrites.resent email' hcall
  · exact hattempts.le
  · rw [hmark, decide_eq_true_eq, marked_of_found hold]

theorem Guess.Moves.mark (h : guess.Moves user') (hright : guess.right = true) :
    user'.otpInvalidatedAt = guess.user.otpInvalidatedAt := by
  unfold Guess.Moves at h
  split_ifs at h
  · exact h.2
  · exact h.2

theorem Guess.Moves.attempts (h : guess.Moves user') :
    user'.otpAttempts ≤ guess.user.otpAttempts+1 ∧
      (guess.right = true → user'.otpAttempts ≤ guess.user.otpAttempts) := by
  unfold Guess.Moves at h
  split_ifs at h with _ hright
  · omega
  · exact ⟨h.1.le, fun hr => absurd hr hright⟩
  · omega

/-- A comparison keeps the row in step with the code. -/
theorem Holding.after (h : Holding bcrypt guess.user code) (hmoves : guess.Moves user')
    (hkeeps : KeepsCode guess.user user') (succeeds : Bool) :
    Holding bcrypt user' (code.after guess succeeds) := by
  obtain ⟨hattempts, hrightAttempts⟩ := hmoves.attempts
  cases hright : guess.right with
  | true =>
    have hafter : code.after guess succeeds =
        { code with accepted := code.accepted || succeeds } := by simp [Code.after, hright]
    rw [hafter]
    refine ⟨hkeeps.otp.trans h.otp, hkeeps.otpExpiry.trans h.otpExpiry, fun hresent => ?_,
      fun hresent hbelow => ?_⟩
    · exact (hrightAttempts hright).trans (h.attempts hresent)
    · rw [hmoves.mark hright]
      exact h.mark hresent hbelow
  | false =>
    have hafter : code.after guess succeeds = { code with misses := code.misses+1 } := by
      simp [Code.after, hright]
    rw [hafter]
    refine ⟨hkeeps.otp.trans h.otp, hkeeps.otpExpiry.trans h.otpExpiry, fun hresent => ?_,
      fun hresent hbelow => ?_⟩
    · exact hattempts.trans (Nat.succ_le_succ (h.attempts hresent))
    · -- before the third miss the row was below it too
      have hcount := h.attempts hresent
      dsimp only at hbelow ⊢
      rw [hkeeps.mark (by omega)]
      exact h.mark hresent (by omega)

/-- The row of an address with a code holds it. -/
theorem Traced.row {sg : Coded} (h : Traced bcrypt sg) (hcode : sg.2 email = some code) :
    ∃ user, findByEmail sg.1 email = some user ∧ Holding bcrypt user code := by
  obtain ⟨user, hfind⟩ := h.found email code hcode
  obtain ⟨code', hcode', hholding⟩ := h.holds email user hfind
  obtain rfl := Option.some.inj (hcode.symm.trans hcode')
  exact ⟨user, hfind, hholding⟩

/-- One row is written together with the code that it holds. -/
theorem Traced.write {s' : AuthState} (h : Traced bcrypt (s, g)) (hsets : Sets s s' email user')
    (hholding : Holding bcrypt user' code) :
    Traced bcrypt (s', Function.update g email (some code)) := by
  refine ⟨hsets.keyed h.keyed, fun other code' hcode => ?_, fun other user hfind => ?_⟩
  · dsimp only at hcode ⊢
    rw [hsets.found h.keyed]
    by_cases hother : other = email
    · exact ⟨user', if_pos hother⟩
    · rw [Function.update_of_ne hother] at hcode
      rw [if_neg hother]
      exact h.found other code' hcode
  · dsimp only at hfind ⊢
    rw [hsets.found h.keyed] at hfind
    by_cases hother : other = email
    · rw [if_pos hother] at hfind
      subst hother
      rw [Function.update_self]
      exact ⟨code, rfl, Option.some.inj hfind ▸ hholding⟩
    · rw [if_neg hother] at hfind
      rw [Function.update_of_ne hother]
      exact h.holds other user hfind

theorem Traced.congr {s' : AuthState} (h : Traced bcrypt (s, g)) (husers : s'.users = s.users) :
    Traced bcrypt (s', g) := by
  refine ⟨husers ▸ h.keyed, fun other code' hcode => ?_, fun other user hfind => ?_⟩
  · rw [findByEmail_congr husers]
    exact h.found other code' hcode
  · rw [findByEmail_congr husers] at hfind
    exact h.holds other user hfind

theorem Traced.step {sg : Coded} (h : Traced bcrypt sg) (a : Action) :
    Traced bcrypt (withHistory (step bcrypt) (recordCodes bcrypt) sg a) := by
  obtain ⟨s, g⟩ := sg
  simp only [withHistory, recordCodes]
  cases hissue : issues bcrypt s a with
  | some email =>
    obtain ⟨user', hsets, hwrites⟩ := sets_of_issues hissue
    exact h.write hsets (holding_issued hwrites)
  | none =>
    cases hcompare : comparison bcrypt s a with
    | none => exact h.congr (users_of_neither hissue hcompare)
    | some guess =>
      obtain ⟨huser, _, user', hsets, hmoves, hkeeps⟩ := sets_of_comparison hcompare
      -- there is a code to be brought up to date, since the user of the guess has a row
      obtain ⟨code, hcode, hholding⟩ := h.holds guess.email guess.user huser
      dsimp only at hcode ⊢
      rw [hcode]
      exact h.write hsets (hholding.after hmoves hkeeps _)

theorem verifyOtp_succeeds_iff {env : Env} : Succeeds bcrypt s ⟨env, .verifyOtp email otp⟩ ↔
    ∃ user hash, verifyTarget env email s = .ok (user, hash) ∧ bcrypt.compare otp hash = true := by
  simp only [Succeeds, exec, verifyOtp]
  cases htarget : verifyTarget env email s with
  | error e => simp
  | ok target =>
    obtain ⟨user, hash⟩ := target
    simp only [Except.ok.injEq, Prod.mk.injEq]
    constructor
    · rintro ⟨reply, h⟩
      split_ifs at h with hright
      exact ⟨user, hash, ⟨rfl, rfl⟩, hright⟩
    · rintro ⟨_, _, ⟨rfl, rfl⟩, hright⟩
      rw [if_pos hright]
      exact ⟨_, rfl⟩

theorem resetPassword_succeeds_iff {env : Env} {newPassword : String} :
    Succeeds bcrypt s ⟨env, .resetPassword email otp newPassword⟩ ↔
      ∃ user hash, resetTarget env email s = .ok (user, hash) ∧ bcrypt.compare otp hash = true ∧
        env.policyViolations newPassword = [] := by
  simp only [Succeeds, exec, resetPassword]
  cases htarget : resetTarget env email s with
  | error e => simp
  | ok target =>
    obtain ⟨user, hash⟩ := target
    simp only [Except.ok.injEq, Prod.mk.injEq]
    constructor
    · rintro ⟨reply, h⟩
      split_ifs at h with hwrong hpolicy
      exact ⟨user, hash, ⟨rfl, rfl⟩, by simpa using hwrong, by simpa using hpolicy⟩
    · rintro ⟨_, _, ⟨rfl, rfl⟩, hright, hpolicy⟩
      rw [if_neg (by simp [hright]), if_neg (by simp [hpolicy])]
      exact ⟨_, rfl⟩

/-- A code that is presented is accepted when it is the right one, in time, and the call is open to
it. -/
theorem Traced.succeeds_iff {sg : Coded} (h : Traced bcrypt sg) (hcode : sg.2 email = some code)
    (hpresents : presents a = some (email, otp)) :
    Succeeds bcrypt sg.1 a ↔
      otp = code.text ∧ a.env.now ≤ code.issuedAt+otpLifetimeMs ∧ Open sg.1 a := by
  obtain ⟨user, hfind, hholding⟩ := h.row hcode
  obtain ⟨env, call⟩ := a
  cases call with
  | verifyOtp mail text =>
    obtain ⟨rfl, rfl⟩ := Prod.mk.inj (Option.some.inj hpresents)
    rw [verifyOtp_succeeds_iff]
    simp only [verifyTarget_eq_ok, hfind, Option.some.injEq, Open, marked_of_found hfind, not_not]
    constructor
    · rintro ⟨_, hash, ⟨rfl, hotp, expiry, hexpiry, hmark, hnow⟩, hright⟩
      obtain rfl := Option.some.inj (hholding.otp.symm.trans hotp)
      obtain rfl := Option.some.inj (hholding.otpExpiry.symm.trans hexpiry)
      rw [bcrypt.compare_hash] at hright
      exact ⟨of_decide_eq_true hright, hnow, hmark⟩
    · rintro ⟨hright, hnow, hmark⟩
      refine ⟨user, _, ⟨rfl, hholding.otp, _, hholding.otpExpiry, hmark, hnow⟩, ?_⟩
      rw [bcrypt.compare_hash]
      exact decide_eq_true hright
  | resetPassword mail text newPassword =>
    -- `resetPassword` does not look at the mark
    obtain ⟨rfl, rfl⟩ := Prod.mk.inj (Option.some.inj hpresents)
    rw [resetPassword_succeeds_iff]
    simp only [resetTarget_eq_ok, hfind, Option.some.injEq, Open]
    constructor
    · rintro ⟨_, hash, ⟨rfl, hotp, expiry, hexpiry, hnow⟩, hright, hpolicy⟩
      obtain rfl := Option.some.inj (hholding.otp.symm.trans hotp)
      obtain rfl := Option.some.inj (hholding.otpExpiry.symm.trans hexpiry)
      rw [bcrypt.compare_hash] at hright
      exact ⟨of_decide_eq_true hright, hnow, hpolicy⟩
    · rintro ⟨hright, hnow, hpolicy⟩
      refine ⟨user, _, ⟨rfl, hholding.otp, _, hholding.otpExpiry, hnow⟩, ?_, hpolicy⟩
      rw [bcrypt.compare_hash]
      exact decide_eq_true hright
  | _ => exact absurd hpresents (by simp [presents])

/-- One call meets the law exactly when it meets the condition. -/
theorem codeLaw_iff {sg : Coded} (h : Traced bcrypt sg) (a : Action) :
    CodeLaw bcrypt sg a ↔ CodeFresh sg a := by
  constructor
  · intro hlaw
    refine ⟨fun email otp code hpresents hcode hright hnow hopen => ?_,
      fun email otp code hcall hcode hreactivates => ?_⟩
    · exact hlaw.once email otp code hpresents hcode
        ((h.succeeds_iff hcode hpresents).mpr ⟨hright, hnow, hopen⟩)
    · have hpresents : presents a = some (email, otp) := by simp [presents, hcall]
      have hsucceeds := hlaw.reactivates email otp code hcall hcode hreactivates
      have hopen := ((h.succeeds_iff hcode hpresents).mp hsucceeds).2.2
      obtain ⟨user, hfind, hholding⟩ := h.row hcode
      -- an open call finds no mark in the row, and the code says the same of it
      simp only [Open, hcall, marked_of_found hfind] at hopen
      obtain ⟨hresent, _, _, hmisses, _⟩ := hreactivates
      rw [hholding.mark hresent hmisses] at hopen
      exact Bool.not_eq_true _ ▸ hopen
  · intro hfresh
    refine ⟨fun email otp code hpresents hcode hsucceeds => ?_,
      fun email otp code hcall hcode hreactivates => ?_⟩
    · obtain ⟨hright, hnow, hopen⟩ := (h.succeeds_iff hcode hpresents).mp hsucceeds
      exact hfresh.notAgain email otp code hpresents hcode hright hnow hopen
    · have hpresents : presents a = some (email, otp) := by simp [presents, hcall]
      have hunmarked := hfresh.notMarked email otp code hcall hcode hreactivates
      obtain ⟨user, hfind, hholding⟩ := h.row hcode
      obtain ⟨hresent, hright, _, hmisses, hnow⟩ := hreactivates
      refine (h.succeeds_iff hcode hpresents).mpr ⟨hright, hnow, ?_⟩
      simp only [Open, hcall, marked_of_found hfind]
      rw [hholding.mark hresent hmisses, hunmarked]
      exact Bool.false_ne_true

/-- In a run from an empty users table codes are accepted once, and codes that are sent again
reactivate their account, exactly when no accepted code is presented again in time and no code that
was sent again to a marked user is presented in time: a success does not clear the code, and a
resend does not clear the mark. -/
theorem codes_run_iff (s : AuthState) (hstart : s.users = []) (as : List Action) :
    Guarded (withHistory (step bcrypt) (recordCodes bcrypt)) (CodeLaw bcrypt) (s, fun _ => none)
        as ↔
      Guarded (withHistory (step bcrypt) (recordCodes bcrypt)) CodeFresh (s, fun _ => none) as := by
  have htraced : Traced bcrypt (s, fun _ => none) := by
    refine ⟨?_, fun email code hcode => absurd hcode (by simp), fun email user hfind => ?_⟩
    · simp only [hstart]
      exact List.nodup_nil
    · simp [findByEmail, hstart] at hfind
  constructor
  · exact guarded_of_invariant _ (fun sg a h => h.step a)
      (fun sg a h hlaw => (codeLaw_iff h a).mp hlaw) htraced
  · exact guarded_of_invariant _ (fun sg a h => h.step a)
      (fun sg a h hfresh => (codeLaw_iff h a).mpr hfresh) htraced

/-- A registration whose code is verified. -/
def verified : List Action :=
  [⟨smallEnv, .register "a@hub" "secret" none none⟩, ⟨smallEnv, .verifyOtp "a@hub" "271828"⟩]

/-- The code is presented again, another one is sent, and that is presented twice. -/
def resent : List Action :=
  verified ++ [⟨smallEnv, .verifyOtp "a@hub" "271828"⟩,
    ⟨{ smallEnv with otp := "141421" }, .resendOtp "a@hub"⟩,
    ⟨smallEnv, .verifyOtp "a@hub" "141421"⟩, ⟨smallEnv, .verifyOtp "a@hub" "141421"⟩]

theorem codes_run_iff_resent :
    ((run (withHistory (step markingBcrypt) (recordCodes markingBcrypt))
      (emptyState, fun _ => none) resent).2 "a@hub").map (fun code => (code.text, code.resent,
        code.accepted)) = some ("141421", true, true) ∧
      (Guarded (withHistory (step markingBcrypt) (recordCodes markingBcrypt))
          (CodeLaw markingBcrypt) (emptyState, fun _ => none) resent ↔
        Guarded (withHistory (step markingBcrypt) (recordCodes markingBcrypt)) CodeFresh
          (emptyState, fun _ => none) resent) :=
  ⟨by decide, codes_run_iff emptyState rfl resent⟩

/-- The code is accepted once more. -/
theorem code_accepted_twice :
    ¬Guarded (withHistory (step markingBcrypt) (recordCodes markingBcrypt)) (CodeLaw markingBcrypt)
      (emptyState, fun _ => none)
      (verified ++ [⟨smallEnv, .verifyOtp "a@hub" "271828"⟩]) := by
  rintro ⟨_, _, hlaw, _⟩
  exact absurd (hlaw.once "a@hub" "271828" ⟨"271828", 0, false, false, 0, true⟩ rfl rfl (by decide))
    (by decide)

end HubAssist.Auth
