import HubAssist.AuthSteps
import HubAssist.RunSystem

/-! The budget of guesses at a one-time code: how many wrong guesses the endpoints compare with
a code between its issue and the next, and when they accept the right one. -/
namespace HubAssist.Auth
open Checks KeyedTable RunSystem

variable (bcrypt : Bcrypt)

/-- The mail address for which a call issues a new code. -/
def issues (s : AuthState) (a : Action) : Option String :=
  match a.call, (exec bcrypt a.env a.call s).2 with
  | .register email _ _ _, .ok _ => some email
  | .resendOtp email, .ok _ => some email
  | .forgotPassword email, .ok _ => (findByEmail s email).map fun _ => email
  | _, _ => none

/-- A guess that is compared with the stored code of `user`, at `verifyOtp` or else at
`resetPassword`. -/
structure Guess where
  email : String
  user : User
  right : Bool
  atVerify : Bool

/-- The guess that a call compares, if it comes to that. -/
def comparison (s : AuthState) (a : Action) : Option Guess :=
  match a.call with
  | .verifyOtp email otp =>
    match verifyTarget a.env email s with
    | .ok (user, hash) => some ⟨email, user, bcrypt.compare otp hash, true⟩
    | .error _ => none
  | .resetPassword email otp _ =>
    match resetTarget a.env email s with
    | .ok (user, hash) => some ⟨email, user, bcrypt.compare otp hash, false⟩
    | .error _ => none
  | _ => none

def Succeeds (s : AuthState) (a : Action) : Prop := ∃ reply, (exec bcrypt a.env a.call s).2 = .ok reply

/-- What has happened to a code since it was issued: the wrong guesses compared with it at any
endpoint, and whether `verifyOtp` has accepted it or marked it invalid. -/
structure Tally where
  misses : ℕ
  accepted : Bool
  invalidated : Bool

def Tally.fresh : Tally := ⟨0, false, false⟩

def Tally.after (t : Tally) (guess : Guess) : Tally :=
  if guess.right then { t with accepted := t.accepted || guess.atVerify }
  else { t with
    misses := t.misses+1
    invalidated := t.invalidated ||
      (guess.atVerify && decide (otpMaxAttempts ≤ guess.user.otpAttempts+1)) }

/-- The tallies by mail address, brought up to date with a call. -/
def record (s : AuthState) (a : Action) (g : String → Tally) : String → Tally :=
  match issues bcrypt s a with
  | some email => Function.update g email Tally.fresh
  | none =>
    match comparison bcrypt s a with
    | some guess => Function.update g guess.email ((g guess.email).after guess)
    | none => g

abbrev Tallied := AuthState × (String → Tally)

/-- A wrong guess is compared, or the right one accepted, only before the third wrong guess. -/
def WithinBudget (sg : Tallied) (a : Action) : Prop :=
  ∀ guess ∈ comparison bcrypt sg.1 a, guess.right = false ∨ Succeeds bcrypt sg.1 a →
    (sg.2 guess.email).misses < otpMaxAttempts

/-- A guess goes where it is counted: no wrong one to `resetPassword`, no right one there once
`verifyOtp` has marked the code invalid, and no wrong one to `verifyOtp` once that has accepted
the code. -/
def Guess.Counted (guess : Guess) (t : Tally) (succeeds : Prop) : Prop :=
  if guess.atVerify then guess.right = false → t.accepted = false
  else guess.right = true ∧ (succeeds → t.invalidated = false)

def Counted (sg : Tallied) (a : Action) : Prop :=
  ∀ guess ∈ comparison bcrypt sg.1 a,
    guess.Counted (sg.2 guess.email) (Succeeds bcrypt sg.1 a)

instance (s : AuthState) (a : Action) : Decidable (Succeeds bcrypt s a) :=
  match h : (exec bcrypt a.env a.call s).2 with
  | .ok reply => isTrue ⟨reply, h⟩
  | .error _ => isFalse fun ⟨_, hok⟩ => nomatch h.symm.trans hok

instance (guess : Guess) (t : Tally) (p : Prop) [Decidable p] : Decidable (guess.Counted t p) :=
  inferInstanceAs (Decidable (if guess.atVerify then _ else _))

instance (sg : Tallied) (a : Action) : Decidable (WithinBudget bcrypt sg a) :=
  inferInstanceAs (Decidable (∀ guess ∈ comparison bcrypt sg.1 a, _))

instance (sg : Tallied) (a : Action) : Decidable (Counted bcrypt sg a) :=
  inferInstanceAs (Decidable (∀ guess ∈ comparison bcrypt sg.1 a, _))

/-- The counter and the mark of a user's row account for the tally of its code. -/
structure Accounts (user : User) (t : Tally) : Prop where
  counted : t.accepted = false → t.misses ≤ user.otpAttempts
  open_below : t.invalidated = false → t.misses < otpMaxAttempts
  marked : t.invalidated = true → user.otpInvalidatedAt ≠ none

structure Accounted (sg : Tallied) : Prop where
  keyed : Keyed User.id sg.1.users
  accounts : ∀ email user, findByEmail sg.1 email = some user → Accounts user (sg.2 email)

variable {bcrypt} {s : AuthState} {a : Action} {g : String → Tally} {email : String} {guess : Guess}

theorem accounts_fresh (user : User) : Accounts user Tally.fresh :=
  ⟨fun _ => Nat.zero_le _, fun _ => by decide, fun h => Bool.noConfusion h⟩

/-- The row of `email` becomes `user'` and every other address keeps its row. -/
structure Sets (s s' : AuthState) (email : String) (user' : User) : Prop where
  keyed : Keyed User.id s.users → Keyed User.id s'.users
  found : Keyed User.id s.users → ∀ other, findByEmail s' other =
    if other = email then some user' else findByEmail s other

theorem sets_updateUser {user : User} (h : findByEmail s email = some user) (patch : UserPatch) :
    Sets s (updateUser s user patch) email (user.assign patch) :=
  ⟨fun hk => keyed_updateUser hk user patch, fun hk => findByEmail_updateUser hk h patch⟩

theorem Sets.congr {s' s'' : AuthState} {user' : User} (h : Sets s s' email user')
    (husers : s''.users = s'.users) : Sets s s'' email user' :=
  ⟨fun hk => husers ▸ h.keyed hk, fun hk other => by rw [findByEmail_congr husers, h.found hk]⟩

theorem Sets.of_users {s₀ s' : AuthState} {user' : User} (h : Sets s₀ s' email user')
    (husers : s₀.users = s.users) : Sets s s' email user' :=
  ⟨fun hk => h.keyed (husers ▸ hk),
    fun hk other => by rw [h.found (husers ▸ hk), findByEmail_congr husers]⟩

/-- What a call that issues a code writes: the code with its time, and where it is sent again no
attempts and the mark that there was. -/
structure Writes (bcrypt : Bcrypt) (s : AuthState) (a : Action) (email : String) (user' : User) :
    Prop where
  otp : user'.otp = some (bcrypt.hash a.env.otp)
  otpExpiry : user'.otpExpiry = some (a.env.now+otpLifetimeMs)
  resent : ∀ email', a.call = .resendOtp email' → user'.otpAttempts = 0 ∧
    ∃ user, findByEmail s email = some user ∧ user'.otpInvalidatedAt = user.otpInvalidatedAt

/-- A call that issues a code for an address sets the row of that address. -/
theorem sets_of_issues (h : issues bcrypt s a = some email) :
    ∃ user', Sets s (step bcrypt s a) email user' ∧ Writes bcrypt s a email user' := by
  obtain ⟨env, call⟩ := a
  cases call with
  | register mail password firstName lastName =>
    simp only [issues, exec, register] at h
    split_ifs at h with hpolicy
    cases hcreate : createUser env s mail (bcrypt.hash password) (bcrypt.hash env.otp)
      (env.now+otpLifetimeMs) firstName lastName with
    | error e => simp [hcreate] at h
    | ok s' =>
      simp only [hcreate, Option.some.injEq] at h
      subst h
      have hstep : step bcrypt s ⟨env, .register mail password firstName lastName⟩ = s' := by
        simp only [step, exec, register, if_neg hpolicy, hcreate]
      rw [hstep]
      obtain ⟨hmail, hid, rfl⟩ := createUser_eq_ok.mp hcreate
      exact ⟨_, ⟨fun hk => keyed_append hk hid, fun _ => findByEmail_append hmail rfl⟩,
        ⟨rfl, rfl, fun _ hcall => absurd hcall (by simp)⟩⟩
  | resendOtp mail =>
    cases huser : findByEmail s mail with
    | none => simp [issues, exec, resendOtp, huser] at h
    | some user =>
      simp only [issues, exec, resendOtp, huser] at h
      have husers := checkAndRecordResend_users env mail s
      split_ifs at h with hallowed hfallback
      simp only [Option.some.injEq] at h
      subst h
      have hfound : findByEmail (checkAndRecordResend env mail s).2 mail = some user :=
        (findByEmail_congr husers mail).trans huser
      simp only [step, exec, resendOtp, huser, if_neg hallowed, if_neg hfallback]
      exact ⟨_, (sets_updateUser hfound _).of_users husers,
        ⟨rfl, rfl, fun _ _ => ⟨rfl, user, huser, rfl⟩⟩⟩
  | forgotPassword mail =>
    cases huser : findByEmail s mail with
    | none => simp [issues, exec, forgotPassword, huser] at h
    | some user =>
      simp only [issues, exec, forgotPassword, huser, Option.map_some, Option.some.injEq] at h
      subst h
      simp only [step, exec, forgotPassword, huser]
      exact ⟨_, sets_updateUser huser _, ⟨rfl, rfl, fun _ hcall => absurd hcall (by simp)⟩⟩
  | _ => simp [issues] at h

/-- The counter and the mark after a comparison: `verifyOtp` counts a miss, marks the third
and starts again once it accepts; `resetPassword` leaves both alone. -/
def Guess.Moves (guess : Guess) (user' : User) : Prop :=
  if guess.atVerify then
    if guess.right then
      user'.otpAttempts = 0 ∧ user'.otpInvalidatedAt = guess.user.otpInvalidatedAt
    else
      user'.otpAttempts = guess.user.otpAttempts+1 ∧
        (otpMaxAttempts ≤ guess.user.otpAttempts+1 → user'.otpInvalidatedAt ≠ none) ∧
        (guess.user.otpInvalidatedAt ≠ none → user'.otpInvalidatedAt ≠ none)
  else
    user'.otpAttempts = guess.user.otpAttempts ∧
      user'.otpInvalidatedAt = guess.user.otpInvalidatedAt

theorem sets_self {user : User} (h : findByEmail s email = some user) : Sets s s email user := by
  refine ⟨fun hk => hk, fun _ other => ?_⟩
  split_ifs with hother
  · rw [hother, h]
  · rfl

/-- The row keeps its code and the time of it, and before the third miss the mark. -/
structure KeepsCode (user user' : User) : Prop where
  otp : user'.otp = user.otp
  otpExpiry : user'.otpExpiry = user.otpExpiry
  mark : user.otpAttempts+1 < otpMaxAttempts → user'.otpInvalidatedAt = user.otpInvalidatedAt

/-- A guess that `verifyOtp` compares moves the row of its user. -/
theorem verifyOtp_moves {env : Env} {email otp hash : String} {user : User}
    (htarget : verifyTarget env email s = .ok (user, hash)) :
    ∃ user', Sets s (step bcrypt s ⟨env, .verifyOtp email otp⟩) email user' ∧
      Guess.Moves ⟨email, user, bcrypt.compare otp hash, true⟩ user' ∧ KeepsCode user user' := by
  have huser := (verifyTarget_eq_ok.mp htarget).1
  cases hright : bcrypt.compare otp hash with
  | true =>
    have hsets := sets_updateUser huser
      { isVerified := some true, otpAttempts := some 0, otpResendCount := some 0 }
    refine ⟨_, hsets.congr ?_, ⟨rfl, rfl⟩, ⟨rfl, rfl, fun _ => rfl⟩⟩
    simp only [step, exec, verifyOtp, htarget, hright, if_true, openSession]
    rfl
  | false =>
    by_cases hthird : otpMaxAttempts ≤ user.otpAttempts+1
    -- the third miss is the one that is marked
    · have hsets := sets_updateUser huser
        { otpAttempts := some (user.otpAttempts+1), otpInvalidatedAt := some (some env.now) }
      refine ⟨_, hsets.congr ?_, ?_, ⟨rfl, rfl, fun hbelow => by omega⟩⟩
      · simp only [step, exec, verifyOtp, htarget, hright, if_pos hthird]
        rfl
      · exact ⟨rfl, fun _ => Option.some_ne_none _, fun _ => Option.some_ne_none _⟩
    · have hsets := sets_updateUser huser { otpAttempts := some (user.otpAttempts+1) }
      refine ⟨_, hsets.congr ?_, ?_, ⟨rfl, rfl, fun _ => rfl⟩⟩
      · simp only [step, exec, verifyOtp, htarget, hright, if_neg hthird]
        rfl
      · exact ⟨rfl, fun h => absurd h hthird, fun h => h⟩

/-- One that `resetPassword` compares leaves the counter and the mark. -/
theorem resetPassword_moves {env : Env} {email otp password hash : String} {user : User}
    (htarget : resetTarget env email s = .ok (user, hash)) :
    ∃ user', Sets s (step bcrypt s ⟨env, .resetPassword email otp password⟩) email user' ∧
      Guess.Moves ⟨email, user, bcrypt.compare otp hash, false⟩ user' ∧ KeepsCode user user' := by
  have huser := (resetTarget_eq_ok.mp htarget).1
  by_cases hreset : bcrypt.compare otp hash = true ∧ env.policyViolations password = []
  · have hsets := sets_updateUser huser { passwordHash := some (bcrypt.hash password) }
    refine ⟨_, hsets.congr ?_, ⟨rfl, rfl⟩, ⟨rfl, rfl, fun _ => rfl⟩⟩
    simp only [step, exec, resetPassword, htarget, hreset.1, hreset.2]
    rfl
  · refine ⟨user, (sets_self huser).congr ?_, ⟨rfl, rfl⟩, ⟨rfl, rfl, fun _ => rfl⟩⟩
    simp only [step, exec, resetPassword, htarget]
    split_ifs with hwrong hpolicy
    · rfl
    · rfl
    · exact absurd ⟨by simpa using hwrong, by simpa using hpolicy⟩ hreset

/-- A call that compares a guess is for a user with a row, and moves that row only. -/
theorem sets_of_comparison (h : comparison bcrypt s a = some guess) :
    findByEmail s guess.email = some guess.user ∧
      (guess.atVerify = true → guess.user.otpInvalidatedAt = none) ∧
      ∃ user', Sets s (step bcrypt s a) guess.email user' ∧ guess.Moves user' ∧
        KeepsCode guess.user user' := by
  obtain ⟨env, call⟩ := a
  cases call with
  | verifyOtp email otp =>
    cases htarget : verifyTarget env email s with
    | error e => simp [comparison, htarget] at h
    | ok target =>
      simp only [comparison, htarget, Option.some.injEq] at h
      subst h
      obtain ⟨huser, _, _, _, hmark, _⟩ := verifyTarget_eq_ok.mp htarget
      exact ⟨huser, fun _ => hmark, verifyOtp_moves htarget⟩
  | resetPassword email otp password =>
    cases htarget : resetTarget env email s with
    | error e => simp [comparison, htarget] at h
    | ok target =>
      simp only [comparison, htarget, Option.some.injEq] at h
      subst h
      have huser := (resetTarget_eq_ok.mp htarget).1
      exact ⟨huser, fun h => Bool.noConfusion h, resetPassword_moves htarget⟩
  | _ => simp [comparison] at h

/-- A call that neither issues a code nor compares a guess leaves the users alone. -/
theorem users_of_neither (hissue : issues bcrypt s a = none)
    (hcompare : comparison bcrypt s a = none) :
    (step bcrypt s a).users = s.users := by
  obtain ⟨env, call⟩ := a
  cases call with
  | register mail password firstName lastName =>
    simp only [issues, exec, register] at hissue
    simp only [step, exec, register]
    split_ifs at hissue ⊢ with hpolicy
    · rfl
    · cases hcreate : createUser env s mail (bcrypt.hash password) (bcrypt.hash env.otp)
        (env.now+otpLifetimeMs) firstName lastName with
      | error e => rfl
      | ok s' => simp [hcreate] at hissue
  | verifyOtp mail otp =>
    simp only [comparison] at hcompare
    simp only [step, exec, verifyOtp]
    cases htarget : verifyTarget env mail s with
    | error e => rfl
    | ok target => simp [htarget] at hcompare
  | resendOtp mail =>
    cases huser : findByEmail s mail with
    | none => simp only [step, exec, resendOtp, huser]
    | some user =>
      simp only [issues, exec, resendOtp, huser] at hissue
      simp only [step, exec, resendOtp, huser]
      split_ifs at hissue ⊢
      · exact checkAndRecordResend_users env mail s
      · exact checkAndRecordResend_users env mail s
  | login mail password =>
    simp only [step, exec, login]
    split
    · rfl
    · split_ifs <;> rfl
  | refresh token =>
    simp only [step, exec, refresh]
    split <;> rfl
  | logout userId token => exact endSessions_users env userId token _ s
  | logoutAll userId token => exact endSessions_users env userId token _ s
  | forgotPassword mail =>
    cases huser : findByEmail s mail with
    | none => simp only [step, exec, forgotPassword, huser]
    | some user => simp [issues, exec, forgotPassword, huser] at hissue
  | resetPassword mail otp password =>
    simp only [comparison] at hcompare
    simp only [step, exec, resetPassword]
    cases htarget : resetTarget env mail s with
    | error e => rfl
    | ok target => simp [htarget] at hcompare

/-- A guess that is counted keeps the account of its code. -/
theorem Accounts.after {t : Tally} {user' : User} (h : Accounts guess.user t)
    (hmoves : guess.Moves user') {succeeds : Prop} (hc : guess.Counted t succeeds) :
    Accounts user' (t.after guess) := by
  unfold Guess.Moves at hmoves
  unfold Guess.Counted at hc
  cases hverify : guess.atVerify with
  | false =>
    simp only [hverify, Bool.false_eq_true, if_false] at hmoves hc
    have hright := hc.1
    have hafter : t.after guess = t := by simp [Tally.after, hright, hverify]
    rw [hafter]
    obtain ⟨hattempts, hmark⟩ := hmoves
    exact ⟨fun hacc => hattempts ▸ h.counted hacc, h.open_below, fun hinv => hmark ▸ h.marked hinv⟩
  | true =>
    cases hright : guess.right with
    | true =>
      simp only [hverify, hright, if_true] at hmoves
      have hafter : t.after guess = { t with accepted := true } := by
        simp [Tally.after, hright, hverify]
      rw [hafter]
      -- an accepted code asks nothing more of the counter
      exact ⟨fun hacc => Bool.noConfusion hacc, h.open_below, fun hinv => hmoves.2 ▸ h.marked hinv⟩
    | false =>
      simp only [hverify, hright, if_true, Bool.false_eq_true, if_false] at hmoves
      obtain ⟨hattempts, hthird, hmark⟩ := hmoves
      rw [hverify, if_pos rfl] at hc
      have hcounted := h.counted (hc hright)
      have hafter : t.after guess = ⟨t.misses+1, t.accepted,
          t.invalidated || decide (otpMaxAttempts ≤ guess.user.otpAttempts+1)⟩ := by
        simp [Tally.after, hright, hverify]
      rw [hafter]
      refine ⟨fun _ => ?_, fun hvalid => ?_, fun hinv => ?_⟩
      · rw [hattempts]
        exact Nat.succ_le_succ hcounted
      · have hbelow : ¬otpMaxAttempts ≤ guess.user.otpAttempts+1 :=
          of_decide_eq_false (Bool.or_eq_false_iff.mp hvalid).2
        dsimp only
        omega
      · rcases Bool.or_eq_true_iff.mp hinv with hinv | hinv
        · exact hmark (h.marked hinv)
        · exact hthird (of_decide_eq_true hinv)

theorem Accounted.step {sg : Tallied} (h : Accounted sg) (hc : Counted bcrypt sg a) :
    Accounted (withHistory (step bcrypt) (record bcrypt) sg a) := by
  obtain ⟨s, g⟩ := sg
  cases hissue : issues bcrypt s a with
  | some email =>
    obtain ⟨user', hsets, _⟩ := sets_of_issues hissue
    refine ⟨hsets.keyed h.keyed, fun other user hfind => ?_⟩
    have hfound := (hsets.found h.keyed other).symm.trans hfind
    by_cases hother : other = email
    · simp only [withHistory, record, hissue, hother, Function.update_self]
      exact accounts_fresh user
    · rw [if_neg hother] at hfound
      simp only [withHistory, record, hissue, Function.update_of_ne hother]
      exact h.accounts other user hfound
  | none =>
    cases hcompare : comparison bcrypt s a with
    | none =>
      have husers := users_of_neither hissue hcompare
      refine ⟨husers ▸ h.keyed, fun other user hfind => ?_⟩
      simp only [withHistory, record, hissue, hcompare]
      exact h.accounts other user ((findByEmail_congr husers other).symm.trans hfind)
    | some guess =>
      obtain ⟨huser, _, user', hsets, hmoves, _⟩ := sets_of_comparison hcompare
      refine ⟨hsets.keyed h.keyed, fun other user hfind => ?_⟩
      have hfound := (hsets.found h.keyed other).symm.trans hfind
      by_cases hother : other = guess.email
      · rw [if_pos hother] at hfound
        obtain rfl := Option.some.inj hfound
        simp only [withHistory, record, hissue, hcompare, hother, Function.update_self]
        exact (h.accounts guess.email guess.user huser).after hmoves (hc guess hcompare)
      · rw [if_neg hother] at hfound
        simp only [withHistory, record, hissue, hcompare, Function.update_of_ne hother]
        exact h.accounts other user hfound

theorem Accounted.withinBudget {sg : Tallied} (h : Accounted sg) (hc : Counted bcrypt sg a) :
    WithinBudget bcrypt sg a := by
  intro guess hcompare hevent
  obtain ⟨huser, hvalid, _⟩ := sets_of_comparison hcompare
  have haccounts := h.accounts guess.email guess.user huser
  apply haccounts.open_below
  cases hverify : guess.atVerify with
  | true =>
    -- `verifyOtp` compares only where there is no mark
    by_contra hinv
    exact haccounts.marked (by simpa using hinv) (hvalid hverify)
  | false =>
    have hcounted := hc guess hcompare
    simp only [Guess.Counted, hverify, Bool.false_eq_true, if_false] at hcounted
    exact hcounted.2 (hevent.resolve_left (by simp [hcounted.1]))

/-- Wrong guesses stay within the budget, and no code is accepted beyond it, in every run in
which the guesses go where they are counted. -/
theorem otp_budget_run (s : AuthState) (hkeyed : Keyed User.id s.users) (as : List Action)
    (hc : Guarded (withHistory (step bcrypt) (record bcrypt)) (Counted bcrypt)
      (s, fun _ => Tally.fresh) as) :
    Guarded (withHistory (step bcrypt) (record bcrypt)) (WithinBudget bcrypt)
      (s, fun _ => Tally.fresh) as := by
  have hstart : Accounted (s, fun _ => Tally.fresh) :=
    ⟨hkeyed, fun _ user _ => accounts_fresh user⟩
  exact guarded_of_guarded (withHistory (step bcrypt) (record bcrypt))
    (fun _ _ h hc => h.step hc) (fun _ _ h hc => h.withinBudget hc) hstart hc hc

/-- A bcrypt that marks what it has hashed. -/
def markingBcrypt : Bcrypt where
  hash s := "$2b$10$" ++ s
  compare s h := decide (h = "$2b$10$" ++ s)
  compare_hash s t := by
    simp only [String.append_right_inj, eq_comm]

/-- Nobody is registered. -/
def emptyState : AuthState := ⟨[], [], some TtlCache.empty, TtlCache.empty⟩

def smallEnv : Env where
  now := 0
  otp := "271828"
  userId := "u"
  tokenId := "t"
  refreshToken := "r"
  familyId := "f"
  jti := "j"
  policyViolations _ := []
  cacheGetFails := false
  cacheSetFails := false
  cacheDelFails := false

/-- A registration, and three wrong guesses at its code. -/
def threeMisses : List Action :=
  [⟨smallEnv, .register "a@hub" "secret" none none⟩, ⟨smallEnv, .verifyOtp "a@hub" "000000"⟩,
   ⟨smallEnv, .verifyOtp "a@hub" "000001"⟩, ⟨smallEnv, .verifyOtp "a@hub" "000002"⟩]

/-- After them the right guess is rejected. -/
theorem otp_budget_threeMisses :
    (run (step markingBcrypt) emptyState threeMisses).users.map (·.otpInvalidatedAt) =
        [some 0] ∧
      Guarded (withHistory (step markingBcrypt) (record markingBcrypt)) (WithinBudget markingBcrypt)
        (emptyState, fun _ => Tally.fresh)
        (threeMisses ++ [⟨smallEnv, .verifyOtp "a@hub" "271828"⟩]) :=
  ⟨by decide, otp_budget_run emptyState List.nodup_nil _ (by decide)⟩

/-- But `resetPassword` accepts it. -/
theorem otp_budget_exceeded :
    ¬Guarded (withHistory (step markingBcrypt) (record markingBcrypt)) (WithinBudget markingBcrypt)
      (emptyState, fun _ => Tally.fresh)
      (threeMisses ++ [⟨smallEnv, .resetPassword "a@hub" "271828" "changed"⟩]) := by
  decide

end HubAssist.Auth
