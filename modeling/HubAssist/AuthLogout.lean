import HubAssist.AuthSessions

/-! Logging out from all devices: which of the tokens that a user has been given are rejected
afterwards, along runs of AuthService. -/
namespace HubAssist.Auth
open Checks KeyedTable RunSystem QueryBuilder

variable (bcrypt : Bcrypt)

/-- An access token that has been given out; `exp` is in seconds. -/
structure AccessToken where
  jti : String
  userId : String
  exp : ℕ

/-- An access token that its user has logged out from everywhere, and since when. -/
structure Revocation where
  jti : String
  exp : ℕ
  since : ℕ
  deriving DecidableEq

/-- The tokens given out so far, the refresh tokens with their users, and those given out before
their user has logged out from all devices. -/
structure Devices where
  access : List AccessToken
  refresh : List (String × String)
  revokedAccess : List Revocation
  revokedRefresh : List String

def noDevices : Devices := ⟨[], [], [], []⟩

def Devices.logOut (d : Devices) (userId : String) (now : ℕ) : Devices :=
  { d with
    revokedAccess := d.revokedAccess ++
      (d.access.filter fun token => token.userId = userId).map fun token =>
        ⟨token.jti, token.exp, now⟩
    revokedRefresh := d.revokedRefresh ++
      (d.refresh.filter fun token => token.2 = userId).map Prod.fst }

/-- The expiry that `sign` gives an access token: the lifetime after the second it is issued in. -/
def Devices.issue (d : Devices) (pair : TokenPair) (now lifetime : ℕ) : Devices :=
  { d with
    access := d.access ++ [⟨pair.accessToken.jti, pair.accessToken.sub, now/1000+lifetime⟩]
    refresh := d.refresh ++ [(pair.refreshToken, pair.accessToken.sub)] }

/-- The tokens brought up to date with a call, for a lifetime of access tokens. -/
def recordDevices (lifetime : ℕ) (s : AuthState) (a : Action) (d : Devices) : Devices :=
  match a.call, grants bcrypt s a with
  | .logoutAll userId _, _ => d.logOut userId a.env.now
  | _, some pair => d.issue pair a.env.now lifetime
  | _, none => d

/-- The tokens of all devices are rejected: the access tokens until they expire. -/
structure LoggedOut (sd : AuthState × Devices) : Prop where
  access : ∀ r ∈ sd.2.revokedAccess, ∀ env payload, payload.jti = r.jti → r.since ≤ env.now →
    env.now < r.exp*1000 → ∃ e, validateJwt env payload sd.1 = .error e
  refresh : ∀ token ∈ sd.2.revokedRefresh, ∀ env,
    ∃ e, (refresh bcrypt env token sd.1).2 = .error e

/-- The token that a call puts on the blacklist, with its expiry, while it has not expired. -/
def blacklisting (a : Action) : Option (String × ℕ) :=
  match a.call with
  | .logout _ token | .logoutAll _ token => token.filter fun pair => a.env.now < pair.2*1000
  | _ => none

/-- The token is the one that the call puts on the blacklist, until it expires, or stands there
until then already. -/
def Blacklists (s : AuthState) (a : Action) (jti : String) (exp : ℕ) : Prop :=
  match blacklisting a with
  | some (jti', exp') =>
    if jti' = jti then exp ≤ exp' else ∃ e, s.blacklist jti = some e ∧ exp*1000 ≤ e.expiresAt
  | none => ∃ e, s.blacklist jti = some e ∧ exp*1000 ≤ e.expiresAt

/-- Every access token of the user that has not expired is the one that `logoutAll` is called with,
or is on the blacklist already; and no later call puts such a token there for a shorter time. -/
structure EndsAll (sd : AuthState × Devices) (a : Action) : Prop where
  covers : ∀ userId token, a.call = .logoutAll userId token → ∀ t ∈ sd.2.access,
    t.userId = userId → a.env.now < t.exp*1000 → Blacklists sd.1 a t.jti t.exp
  keeps : ∀ r ∈ sd.2.revokedAccess, ∀ exp, blacklisting a = some (r.jti, exp) →
    r.since < r.exp*1000 → r.exp ≤ exp

variable {bcrypt} {s : AuthState} {a : Action}

theorem endSessions_blacklist (env : Env) (userId : String) (token : Option (String × ℕ))
    (text : String) (s : AuthState) :
    (endSessions env userId token text s).1.blacklist =
      match token.filter fun pair => env.now < pair.2*1000 with
      | some (jti, exp) => TtlCache.set s.blacklist env.now (exp*1000-env.now) jti ()
      | none => s.blacklist := by
  cases token with
  | none => rfl
  | some pair =>
    obtain ⟨jti, exp⟩ := pair
    simp only [endSessions, blacklistAccessToken, blacklistToken]
    by_cases h : env.now < exp*1000
    · rw [if_neg (by omega), Option.filter_some, if_pos (decide_eq_true h)]
      rfl
    · rw [if_pos (by omega), Option.filter_some, if_neg (by simpa using h)]
      rfl

/-- What a call does to the blacklist. -/
theorem blacklist_step (s : AuthState) (a : Action) :
    (step bcrypt s a).blacklist = match blacklisting a with
      | some (jti, exp) => TtlCache.set s.blacklist a.env.now (exp*1000-a.env.now) jti ()
      | none => s.blacklist := by
  obtain ⟨env, call⟩ := a
  cases call with
  | register email password firstName lastName =>
    simp only [step, exec, register, blacklisting]
    split_ifs
    · rfl
    · split
      · rfl
      · next s' hcreate =>
        obtain ⟨_, _, rfl⟩ := createUser_eq_ok.mp hcreate
        rfl
  | verifyOtp email otp =>
    simp only [step, exec, verifyOtp, blacklisting]
    split
    · rfl
    · split_ifs <;> rfl
  | resendOtp email =>
    simp only [step, exec, resendOtp, blacklisting]
    obtain ⟨windows, hframe⟩ := checkAndRecordResend_frame env email s
    split
    · rfl
    · simp only [hframe]
      split_ifs <;> rfl
  | login email password =>
    simp only [step, exec, login, blacklisting]
    split
    · rfl
    · split_ifs <;> rfl
  | refresh refreshToken =>
    simp only [step, exec, refresh, blacklisting]
    split <;> rfl
  | logout userId token => exact endSessions_blacklist env userId token _ s
  | logoutAll userId token => exact endSessions_blacklist env userId token _ s
  | forgotPassword email =>
    simp only [step, exec, forgotPassword, blacklisting]
    split <;> rfl
  | resetPassword email otp newPassword =>
    simp only [step, exec, resetPassword, blacklisting]
    split
    · rfl
    · split_ifs <;> rfl

/-- A token is on the blacklist until it expires. -/
def Blacklisted (s : AuthState) (jti : String) (exp : ℕ) : Prop :=
  ∃ e, s.blacklist jti = some e ∧ exp*1000 ≤ e.expiresAt

variable (bcrypt) in
theorem blacklisted_step (s : AuthState) (a : Action) (jti : String) (exp : ℕ) :
    Blacklisted (step bcrypt s a) jti exp ↔ Blacklists s a jti exp := by
  rw [Blacklisted, blacklist_step, Blacklists]
  cases hwrites : blacklisting a with
  | none => rfl
  | some pair =>
    obtain ⟨jti', exp'⟩ := pair
    dsimp only
    -- an expiry that has passed is not put on the blacklist
    have hnow : a.env.now < exp'*1000 := by
      unfold blacklisting at hwrites
      split at hwrites
      · exact of_decide_eq_true (Option.filter_eq_some_iff.mp hwrites).2
      · exact of_decide_eq_true (Option.filter_eq_some_iff.mp hwrites).2
      · exact absurd hwrites (by simp)
    by_cases h : jti' = jti
    · subst h
      rw [if_pos rfl, TtlCache.set, Function.update_self]
      constructor
      · rintro ⟨e, he, hle⟩
        obtain rfl := Option.some.inj he
        dsimp only at hle
        omega
      · intro hle
        refine ⟨_, rfl, ?_⟩
        dsimp only
        omega
    · rw [if_neg h, TtlCache.set, Function.update_of_ne (Ne.symm h)]

/-- A token is rejected from a time on until it expires when it is on the blacklist until then. -/
theorem rejected_iff (s : AuthState) (r : Revocation) :
    (∀ env payload, payload.jti = r.jti → r.since ≤ env.now → env.now < r.exp*1000 →
      ∃ e, validateJwt env payload s = .error e) ↔
        (r.since < r.exp*1000 → Blacklisted s r.jti r.exp) := by
  rw [Blacklisted, ← TtlCache.found_until_iff]
  constructor
  · intro h t hlo hhi
    obtain ⟨e, he⟩ := h { smallEnv with now := t } ⟨"", "", .member, r.jti⟩ rfl hlo hhi
    by_contra hfound
    simp [validateJwt, hfound, failIf, bind, Except.bind, pure, Except.pure] at he
  · intro h env payload hjti hlo hhi
    have hfound := h env.now hlo hhi
    refine ⟨.unauthorized "Token has been revoked", ?_⟩
    rw [validateJwt, hjti, failIf, if_pos hfound]
    rfl

/-- What is kept along a run: the column holds hashes, and the refresh tokens are UUIDs. -/
structure Given (bcrypt : Bcrypt) (sd : AuthState × Devices) : Prop where
  hashed : StoredHashed bcrypt sd.1
  drawn : ∀ token ∈ sd.2.refresh, IsUuidText token.1
  revoked : ∀ token ∈ sd.2.revokedRefresh, IsUuidText token

theorem recordDevices_of_logoutAll {lifetime : ℕ} {d : Devices} {userId : String}
    {token : Option (String × ℕ)} (h : a.call = .logoutAll userId token) :
    recordDevices bcrypt lifetime s a d = d.logOut userId a.env.now := by
  rw [recordDevices, h]

variable (bcrypt s) in
/-- A call other than `logoutAll` revokes no more tokens, and gives out those that it draws. -/
theorem recordDevices_of_ne (lifetime : ℕ) (d : Devices)
    (h : ∀ userId token, a.call ≠ .logoutAll userId token) :
    (recordDevices bcrypt lifetime s a d).revokedAccess = d.revokedAccess ∧
      (recordDevices bcrypt lifetime s a d).revokedRefresh = d.revokedRefresh ∧
      ∀ token ∈ (recordDevices bcrypt lifetime s a d).refresh,
        token ∈ d.refresh ∨ token.1 = a.env.refreshToken := by
  unfold recordDevices
  split
  · next hcall => exact absurd hcall (h _ _)
  · next pair hgrants _ =>
    refine ⟨rfl, rfl, fun token htoken => ?_⟩
    rcases storedTokens_step bcrypt s a with ⟨user, hpair, _⟩ | ⟨hnone, _⟩
    · obtain rfl := Option.some.inj (hgrants.symm.trans hpair)
      exact (List.mem_append.mp htoken).imp_right fun hmem => by rw [List.mem_singleton.mp hmem]
    · exact absurd (hgrants.symm.trans hnone) (by simp)
  · exact ⟨rfl, rfl, fun token htoken => Or.inl htoken⟩

theorem Given.step {lifetime : ℕ} {sd : AuthState × Devices} (h : Given bcrypt sd)
    (hdrawn : IsUuidText a.env.refreshToken) :
    Given bcrypt (withHistory (step bcrypt) (recordDevices bcrypt lifetime) sd a) := by
  by_cases hcall : ∃ userId token, a.call = .logoutAll userId token
  · obtain ⟨userId, token, hcall⟩ := hcall
    simp only [withHistory, recordDevices_of_logoutAll hcall]
    refine ⟨h.hashed.step a, h.drawn, fun text htext => ?_⟩
    rcases List.mem_append.mp htext with hold | hnew
    · exact h.revoked text hold
    · obtain ⟨pair, hpair, rfl⟩ := List.mem_map.mp hnew
      exact h.drawn pair (List.mem_of_mem_filter hpair)
  · obtain ⟨_, hrevoked, hrefresh⟩ := recordDevices_of_ne bcrypt sd.1 lifetime sd.2
      fun userId token heq => hcall ⟨userId, token, heq⟩
    refine ⟨h.hashed.step a, fun token htoken => ?_, fun text htext => ?_⟩
    · rcases hrefresh token htoken with hold | hnew
      · exact h.drawn token hold
      · exact hnew ▸ hdrawn
    · exact h.revoked text (hrevoked ▸ htext)

/-- The refresh tokens are rejected anyway, so what counts is the blacklist. -/
theorem Given.loggedOut_iff {sd : AuthState × Devices} (h : Given bcrypt sd)
    (hhash : ∀ token, ¬IsUuidText (bcrypt.hash token)) :
    LoggedOut bcrypt sd ↔ ∀ r ∈ sd.2.revokedAccess, r.since < r.exp*1000 →
      Blacklisted sd.1 r.jti r.exp := by
  constructor
  · exact fun hlaw r hr => (rejected_iff sd.1 r).mp (hlaw.access r hr)
  · intro hlisted
    refine ⟨fun r hr => (rejected_iff sd.1 r).mpr (hlisted r hr), fun token htoken env => ?_⟩
    have hplain (t : String) : token ≠ bcrypt.hash t := fun heq =>
      hhash t (heq ▸ h.revoked token htoken)
    rw [refresh_rejected h.hashed hplain]
    exact ⟨_, rfl⟩

/-- What stands on the blacklist stays there unless it is put there for a shorter time. -/
theorem blacklists_iff {jti : String} {exp : ℕ} (h : Blacklisted s jti exp) :
    Blacklists s a jti exp ↔ ∀ exp', blacklisting a = some (jti, exp') → exp ≤ exp' := by
  unfold Blacklists
  cases hwrites : blacklisting a with
  | none => exact iff_of_true h (by simp)
  | some pair =>
    obtain ⟨jti', exp'⟩ := pair
    dsimp only
    by_cases hjti : jti' = jti
    · subst hjti
      simp
    · rw [if_neg hjti]
      exact iff_of_true h fun exp'' heq => absurd (congrArg Prod.fst (Option.some.inj heq)) hjti

/-- One call keeps the tokens of all devices rejected exactly when it meets the condition. -/
theorem loggedOut_step_iff {lifetime : ℕ} {sd : AuthState × Devices} (h : Given bcrypt sd)
    (hhash : ∀ token, ¬IsUuidText (bcrypt.hash token)) (hdrawn : IsUuidText a.env.refreshToken)
    (hlaw : LoggedOut bcrypt sd) :
    LoggedOut bcrypt (withHistory (step bcrypt) (recordDevices bcrypt lifetime) sd a) ↔
      EndsAll sd a := by
  have hnow := (h.loggedOut_iff hhash).mp hlaw
  rw [(h.step hdrawn).loggedOut_iff hhash]
  -- what the call means for the tokens revoked before it
  have hold : (∀ r ∈ sd.2.revokedAccess, r.since < r.exp*1000 →
      Blacklisted (step bcrypt sd.1 a) r.jti r.exp) ↔ ∀ r ∈ sd.2.revokedAccess, ∀ exp,
        blacklisting a = some (r.jti, exp) → r.since < r.exp*1000 → r.exp ≤ exp := by
    refine forall₂_congr fun r hr => ?_
    constructor
    · intro hlisted exp hwrites hopen
      exact (blacklists_iff (hnow r hr hopen)).mp ((blacklisted_step _ _ _ _ _).mp (hlisted hopen))
        exp hwrites
    · intro hkeeps hopen
      exact (blacklisted_step _ _ _ _ _).mpr ((blacklists_iff (hnow r hr hopen)).mpr
        fun exp hwrites => hkeeps exp hwrites hopen)
  by_cases hcall : ∃ userId token, a.call = .logoutAll userId token
  · obtain ⟨userId, token, hcall⟩ := hcall
    simp only [withHistory, recordDevices_of_logoutAll hcall, Devices.logOut, List.mem_append]
    constructor
    · intro hlisted
      refine ⟨fun userId' token' hcall' t ht huser hopen => ?_,
        hold.mp fun r hr => hlisted r (Or.inl hr)⟩
      obtain ⟨rfl, _⟩ := Call.logoutAll.inj (hcall.symm.trans hcall')
      rw [← blacklisted_step bcrypt]
      refine hlisted ⟨t.jti, t.exp, a.env.now⟩ (Or.inr ?_) hopen
      exact List.mem_map.mpr ⟨t, List.mem_filter.mpr ⟨ht, decide_eq_true huser⟩, rfl⟩
    · rintro hends r (hr | hr) hopen
      · exact hold.mpr hends.keeps r hr hopen
      · obtain ⟨t, ht, rfl⟩ := List.mem_map.mp hr
        obtain ⟨hmem, huser⟩ := List.mem_filter.mp ht
        exact (blacklisted_step _ _ _ _ _).mpr
          (hends.covers userId token hcall t hmem (of_decide_eq_true huser) hopen)
  · have hother (userId : String) (token : Option (String × ℕ)) :
        a.call ≠ .logoutAll userId token := fun heq => hcall ⟨userId, token, heq⟩
    -- any other call revokes nothing new
    have hsame := (recordDevices_of_ne bcrypt sd.1 lifetime sd.2 hother).1
    simp only [withHistory, hsame]
    rw [hold]
    exact ⟨fun hkeeps => ⟨fun userId token heq => absurd heq (hother userId token), hkeeps⟩,
      EndsAll.keeps⟩

/-- After every logout from all devices, the tokens given out before are rejected in a run exactly
when at each of these calls every unexpired access token of the user is the one it is called with
or stands on the blacklist already, and none of them is put there later for a shorter time. -/
theorem logoutAll_run_iff (hhash : ∀ token, ¬IsUuidText (bcrypt.hash token)) (lifetime : ℕ)
    (s : AuthState) (hstart : s.refreshTokens = []) (as : List Action)
    (hdrawn : ∀ a ∈ as, IsUuidText a.env.refreshToken) :
    Always (withHistory (step bcrypt) (recordDevices bcrypt lifetime)) (LoggedOut bcrypt)
        (s, noDevices) as ↔
      Guarded (withHistory (step bcrypt) (recordDevices bcrypt lifetime)) EndsAll
        (s, noDevices) as := by
  have hgiven : Given bcrypt (s, noDevices) :=
    ⟨by simp [StoredHashed, storedTokens, hstart], by simp [noDevices], by simp [noDevices]⟩
  refine always_iff_guarded_of_guarded (withHistory (step bcrypt) (recordDevices bcrypt lifetime))
    (J := Given bcrypt) (G := fun _ a => IsUuidText a.env.refreshToken)
    (fun sd a h ha => h.step ha) (fun sd a h ha hlaw => loggedOut_step_iff h hhash ha hlaw)
    (guarded_of_forall_mem _ hdrawn) hgiven ?_
  exact (hgiven.loggedOut_iff hhash).mpr (by simp [noDevices])

/-- A login on a second device. -/
def secondLogin : Action := ⟨{ uuidEnv with jti := "k" }, .login "a@hub" "secret"⟩

/-- One login and a logout from all devices with its token. -/
def oneDevice : List Action := [loggedIn, ⟨uuidEnv, .logoutAll "u" (some ("j", 3600))⟩]

theorem logoutAll_run_iff_oneDevice :
    (Always (withHistory (step markingBcrypt) (recordDevices markingBcrypt 3600))
        (LoggedOut markingBcrypt) (verifiedState, noDevices) oneDevice ↔
      Guarded (withHistory (step markingBcrypt) (recordDevices markingBcrypt 3600)) EndsAll
        (verifiedState, noDevices) oneDevice) :=
  logoutAll_run_iff markingBcrypt_hash_plain 3600 verifiedState rfl oneDevice (by decide)

/-- With two devices, the token of the other one goes on being accepted. -/
theorem logoutAll_leaves_device :
    ¬Always (withHistory (step markingBcrypt) (recordDevices markingBcrypt 3600))
      (LoggedOut markingBcrypt) (verifiedState, noDevices)
      [loggedIn, secondLogin, ⟨uuidEnv, .logoutAll "u" (some ("j", 3600))⟩] := by
  rintro ⟨_, _, _, h⟩
  have hlisted := (rejected_iff _ ⟨"k", 3600, 0⟩).mp (h.access ⟨"k", 3600, 0⟩ (by decide))
  obtain ⟨e, he, _⟩ := hlisted (by decide)
  have hfree : (run (step markingBcrypt) verifiedState
      [loggedIn, secondLogin, ⟨uuidEnv, .logoutAll "u" (some ("j", 3600))⟩]).blacklist "k" =
        none := by decide
  exact absurd (hfree.symm.trans he) (by simp)

end HubAssist.Auth
