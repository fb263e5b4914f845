import HubAssist.AuthOtpBudget
import HubAssist.QueryBuilder

/-! Refresh tokens along runs of AuthService: how they are stored when a session is opened, and what
becomes of the tokens that have been given out when they are presented. -/
namespace HubAssist.Auth
open Checks KeyedTable RunSystem QueryBuilder

variable (bcrypt : Bcrypt)

/-- The tokens that a call gives out. -/
def grants (s : AuthState) (a : Action) : Option TokenPair :=
  match (exec bcrypt a.env a.call s).2 with
  | .ok (.tokens pair) => some pair
  | _ => none

/-- The texts in the token column. -/
def storedTokens (s : AuthState) : List String := s.refreshTokens.map RefreshToken.token

/-- Every stored text is the hash of something. -/
def StoredHashed (s : AuthState) : Prop := ∀ text ∈ storedTokens s, ∃ token, text = bcrypt.hash token

/-- A refresh token that has been given out: whether it has been presented since, and whether its
user has logged out. -/
structure Session where
  token : String
  userId : String
  expiresAt : ℕ
  presented : Bool
  ended : Bool

def Session.after (session : Session) (call : Call) : Session :=
  match call with
  | .refresh refreshToken =>
    if refreshToken = session.token then { session with presented := true } else session
  | .logout userId _ | .logoutAll userId _ =>
    if userId = session.userId then { session with ended := true } else session
  | _ => session

/-- The first presentation of a token before it expires and before its user logs out. -/
def Session.InTime (session : Session) (now : ℕ) : Prop :=
  session.presented = false ∧ session.ended = false ∧ now < session.expiresAt

instance (session : Session) (now : ℕ) : Decidable (session.InTime now) :=
  inferInstanceAs (Decidable (_ ∧ _))

/-- The tokens given out so far, brought up to date with a call. -/
def recordSessions (s : AuthState) (a : Action) (sessions : List Session) : List Session :=
  sessions.map (fun session => session.after a.call) ++
    (grants bcrypt s a).toList.map fun pair =>
      ⟨pair.refreshToken, pair.accessToken.sub, a.env.now+refreshLifetimeMs, false, false⟩

abbrev Logged := AuthState × List Session

/-- A token that is presented is accepted the first time in time, and rejected any later time and
after a logout. -/
def RotatesOnce (sl : Logged) (a : Action) : Prop :=
  ∀ session ∈ sl.2, a.call = .refresh session.token →
    (session.InTime a.env.now → Succeeds bcrypt sl.1 a) ∧
      (session.presented = true ∨ session.ended = true → ¬Succeeds bcrypt sl.1 a)

/-- No token is presented in time. -/
def NonePresented (sl : Logged) (a : Action) : Prop :=
  ∀ session ∈ sl.2, a.call = .refresh session.token → ¬session.InTime a.env.now

instance (sl : Logged) (a : Action) : Decidable (RotatesOnce bcrypt sl a) :=
  inferInstanceAs (Decidable (∀ session ∈ sl.2, _))

variable {bcrypt} {env : Env} {s s' : AuthState} {a : Action} {user : User}

/-- A call opens a session, over a state with the same texts in the token column, or gives out no
token and leaves them. -/
inductive SessionEffect (bcrypt : Bcrypt) (env : Env) (s : AuthState) : Outcome → Prop
  | opens {s₁ : AuthState} (user : User) (htokens : storedTokens s₁ = storedTokens s) :
    SessionEffect bcrypt env s (openSession bcrypt env user s₁)
  | keeps {o : Outcome} (htokens : storedTokens o.1 = storedTokens s)
    (hreply : ∀ pair, o.2 ≠ .ok (.tokens pair)) : SessionEffect bcrypt env s o

theorem storedTokens_revokeToken (s : AuthState) (id : String) :
    storedTokens (revokeToken s id) = storedTokens s := by
  rw [storedTokens, revokeToken, List.map_map]
  refine List.map_congr_left fun record _ => ?_
  simp only [Function.comp_apply]
  split_ifs <;> rfl

theorem storedTokens_revokeAllUserTokens (s : AuthState) (userId : String) :
    storedTokens (revokeAllUserTokens s userId) = storedTokens s := by
  rw [storedTokens, revokeAllUserTokens, List.map_map]
  refine List.map_congr_left fun record _ => ?_
  simp only [Function.comp_apply]
  split_ifs <;> rfl

theorem endSessions_effect (env : Env) (userId : String) (token : Option (String × ℕ))
    (text : String) (s : AuthState) :
    SessionEffect bcrypt env s (endSessions env userId token text s) := by
  have hrevoked := storedTokens_revokeAllUserTokens s userId
  cases token with
  | none => exact .keeps hrevoked (by simp [endSessions])
  | some pair =>
    refine .keeps ?_ (by simp [endSessions])
    obtain ⟨blacklist, hframe⟩ :=
      blacklistAccessToken_frame env pair.1 pair.2 (revokeAllUserTokens s userId)
    rw [← hrevoked]
    simp only [endSessions, hframe]
    rfl

theorem resendOtp_effect (env : Env) (email : String) (s : AuthState) :
    SessionEffect bcrypt env s (resendOtp bcrypt env email s) := by
  obtain ⟨windows, hframe⟩ := checkAndRecordResend_frame env email s
  have hwindow : storedTokens (checkAndRecordResend env email s).2 = storedTokens s := by
    rw [hframe]
    rfl
  unfold resendOtp
  split
  · exact .keeps rfl (by simp)
  · dsimp only
    split_ifs
    · exact .keeps hwindow (by simp)
    · exact .keeps hwindow (by simp)
    · exact .keeps hwindow (by simp)

variable (bcrypt) in
theorem exec_effect (env : Env) (call : Call) (s : AuthState) :
    SessionEffect bcrypt env s (exec bcrypt env call s) := by
  cases call with
  | register email password firstName lastName =>
    simp only [exec, register]
    split_ifs
    · exact .keeps rfl (by simp)
    · split
      · exact .keeps rfl (by simp)
      · next s' hcreate =>
        obtain ⟨_, _, rfl⟩ := createUser_eq_ok.mp hcreate
        exact .keeps rfl (by simp)
  | verifyOtp email otp =>
    simp only [exec, verifyOtp]
    split
    · exact .keeps rfl (by simp)
    · split_ifs
      · exact .opens _ rfl
      · exact .keeps rfl (by simp)
      · exact .keeps rfl (by simp)
  | resendOtp email => exact resendOtp_effect env email s
  | login email password =>
    simp only [exec, login]
    split
    · exact .keeps rfl (by simp)
    · split_ifs
      · exact .keeps rfl (by simp)
      · exact .keeps rfl (by simp)
      · exact .opens _ rfl
  | refresh refreshToken =>
    simp only [exec, refresh]
    split
    · exact .keeps rfl (by simp)
    · exact .opens _ (storedTokens_revokeToken s _)
  | logout userId token => exact endSessions_effect env userId token _ s
  | logoutAll userId token => exact endSessions_effect env userId token _ s
  | forgotPassword email =>
    simp only [exec, forgotPassword]
    split
    · exact .keeps rfl (by simp)
    · exact .keeps rfl (by simp)
  | resetPassword email otp newPassword =>
    simp only [exec, resetPassword]
    split
    · exact .keeps rfl (by simp)
    · split_ifs
      · exact .keeps rfl (by simp)
      · exact .keeps rfl (by simp)
      · exact .keeps rfl (by simp)

variable (bcrypt) in
/-- What a call gives out is what it draws, and is stored as its hash; all other calls leave the
texts that are stored. -/
theorem storedTokens_step (s : AuthState) (a : Action) :
    (∃ user : User, grants bcrypt s a = some ⟨⟨user.id, user.email, user.role, a.env.jti⟩,
        a.env.refreshToken⟩ ∧
      storedTokens (step bcrypt s a) = storedTokens s ++ [bcrypt.hash a.env.refreshToken]) ∨
    (grants bcrypt s a = none ∧ storedTokens (step bcrypt s a) = storedTokens s) := by
  have heffect := exec_effect bcrypt a.env a.call s
  unfold grants step
  generalize exec bcrypt a.env a.call s = o at heffect
  cases heffect with
  | opens user htokens =>
    -- the session is stored last, behind the texts that were there
    refine Or.inl ⟨user, rfl, ?_⟩
    rw [← htokens]
    simp [storedTokens, openSession, createRefreshToken]
  | keeps htokens hreply =>
    refine Or.inr ⟨?_, htokens⟩
    split
    · next pair h => exact absurd h (hreply pair)
    · rfl

theorem StoredHashed.step (h : StoredHashed bcrypt s) (a : Action) :
    StoredHashed bcrypt (step bcrypt s a) := by
  intro text htext
  rcases storedTokens_step bcrypt s a with ⟨_, _, htokens⟩ | ⟨_, htokens⟩
  · rw [htokens, List.mem_append, List.mem_singleton] at htext
    exact htext.elim (h text) fun heq => ⟨_, heq⟩
  · exact h text (htokens ▸ htext)

/-- A text that is no hash is not found in the token column, so it is never accepted. -/
theorem refresh_rejected (h : StoredHashed bcrypt s) {text : String}
    (hplain : ∀ token, text ≠ bcrypt.hash token) :
    refresh bcrypt env text s =
      (s, .error (.unauthorized "Invalid or revoked refresh token")) := by
  -- the column is searched for the text itself, not for its hash
  have hnone : findByToken s text = none := by
    rw [findByToken, List.find?_eq_none]
    intro record hrecord htext
    obtain ⟨token, htoken⟩ := h record.token (List.mem_map_of_mem hrecord)
    exact hplain token ((of_decide_eq_true htext).symm.trans htoken)
  rw [refresh, refreshTarget, hnone]
  rfl

/-- What is kept along a run: the column holds hashes, and what has been given out is a UUID. -/
structure Issued (bcrypt : Bcrypt) (sl : Logged) : Prop where
  hashed : StoredHashed bcrypt sl.1
  drawn : ∀ session ∈ sl.2, IsUuidText session.token

theorem Session.after_token (session : Session) (call : Call) :
    (session.after call).token = session.token := by
  unfold Session.after
  split
  · split_ifs <;> rfl
  · split_ifs <;> rfl
  · split_ifs <;> rfl
  · rfl

theorem Issued.step {sl : Logged} (h : Issued bcrypt sl) (hdrawn : IsUuidText a.env.refreshToken) :
    Issued bcrypt (withHistory (step bcrypt) (recordSessions bcrypt) sl a) := by
  refine ⟨h.hashed.step a, fun session hsession => ?_⟩
  rcases List.mem_append.mp hsession with hold | hnew
  · obtain ⟨old, hmem, rfl⟩ := List.mem_map.mp hold
    rw [Session.after_token]
    exact h.drawn old hmem
  · obtain ⟨pair, hpair, rfl⟩ := List.mem_map.mp hnew
    rcases storedTokens_step bcrypt sl.1 a with ⟨user, hgrants, _⟩ | ⟨hgrants, _⟩
    · rw [hgrants, Option.toList_some, List.mem_singleton] at hpair
      rw [hpair]
      exact hdrawn
    · rw [hgrants] at hpair
      exact absurd hpair List.not_mem_nil

/-- No token that has been given out is ever accepted. -/
theorem Issued.not_succeeds {sl : Logged} (h : Issued bcrypt sl)
    (hhash : ∀ token, ¬IsUuidText (bcrypt.hash token)) {session : Session}
    (hsession : session ∈ sl.2) (hcall : a.call = .refresh session.token) :
    ¬Succeeds bcrypt sl.1 a := by
  have hplain (token : String) : session.token ≠ bcrypt.hash token := fun heq =>
    hhash token (heq ▸ h.drawn session hsession)
  rintro ⟨reply, hreply⟩
  rw [hcall, exec, refresh_rejected h.hashed hplain] at hreply
  exact absurd hreply (by simp)

/-- Refresh tokens rotate as they should in a run exactly when none of them is presented in time:
they are stored as hashes but looked up as they are, so the first presentation is rejected like all
others. -/
theorem rotation_run_iff (hhash : ∀ token, ¬IsUuidText (bcrypt.hash token)) (s : AuthState)
    (hstart : s.refreshTokens = []) (as : List Action)
    (hdrawn : ∀ a ∈ as, IsUuidText a.env.refreshToken) :
    Guarded (withHistory (step bcrypt) (recordSessions bcrypt)) (RotatesOnce bcrypt) (s, []) as ↔
      Guarded (withHistory (step bcrypt) (recordSessions bcrypt)) NonePresented (s, []) as := by
  have hissued : Issued bcrypt (s, []) :=
    ⟨by simp [StoredHashed, storedTokens, hstart], by simp⟩
  have hguard : Guarded (withHistory (step bcrypt) (recordSessions bcrypt))
      (fun _ a => IsUuidText a.env.refreshToken) (s, []) as := guarded_of_forall_mem _ hdrawn
  constructor
  · intro h
    refine guarded_of_guarded _ (fun sl a hsl ha => hsl.step ha) (fun sl a hsl hlaw => ?_)
      hissued hguard h
    intro session hsession hcall hintime
    exact hsl.not_succeeds hhash hsession hcall ((hlaw session hsession hcall).1 hintime)
  · intro h
    refine guarded_of_guarded _ (fun sl a hsl ha => hsl.step ha) (fun sl a hsl hnone => ?_)
      hissued hguard h
    intro session hsession hcall
    exact ⟨fun hintime => absurd hintime (hnone session hsession hcall),
      fun _ => hsl.not_succeeds hhash hsession hcall⟩

theorem markingBcrypt_hash_plain (token : String) : ¬IsUuidText (markingBcrypt.hash token) := by
  rintro ⟨_, hdigits⟩
  have htext : (markingBcrypt.hash token).toList = '$' :: ("2b$10$".toList ++ token.toList) := by
    simp [markingBcrypt]
  rw [htext, List.zipIdx_cons, List.all_cons, Bool.and_eq_true] at hdigits
  exact absurd hdigits.1 (by decide)

/-- A user who has verified the account, and no session. -/
def verifiedState : AuthState :=
  { emptyState with users := [⟨"u", none, none, "a@hub", "$2b$10$secret", .member, none, none, 0,
    none, 0, true⟩] }

def uuidEnv : Env :=
  { smallEnv with refreshToken := "00000000-0000-4000-8000-000000000001" }

def loggedIn : Action := ⟨uuidEnv, .login "a@hub" "secret"⟩

/-- After a login and a logout the token is presented. -/
def lateRefresh : List Action :=
  [loggedIn, ⟨uuidEnv, .logout "u" none⟩, ⟨uuidEnv, .refresh uuidEnv.refreshToken⟩]

theorem rotation_run_iff_lateRefresh :
    (Guarded (withHistory (step markingBcrypt) (recordSessions markingBcrypt))
        (RotatesOnce markingBcrypt) (verifiedState, []) lateRefresh ↔
      Guarded (withHistory (step markingBcrypt) (recordSessions markingBcrypt)) NonePresented
        (verifiedState, []) lateRefresh) :=
  rotation_run_iff markingBcrypt_hash_plain verifiedState rfl lateRefresh (by decide)

/-- A token that is presented right after the login is rejected. -/
theorem rotation_refused :
    ¬Guarded (withHistory (step markingBcrypt) (recordSessions markingBcrypt))
      (RotatesOnce markingBcrypt) (verifiedState, [])
      [loggedIn, ⟨uuidEnv, .refresh uuidEnv.refreshToken⟩] := by
  decide

end HubAssist.Auth
