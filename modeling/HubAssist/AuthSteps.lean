import HubAssist.AuthModel

/-! What the calls of AuthService do to the users table: which row each call changes, and how
the columns of the one-time code move. -/
namespace HubAssist.Auth
open Checks KeyedTable TtlCache

variable {bcrypt : Bcrypt} {env : Env} {s s' : AuthState} {user : User} {email : String}

theorem findByEmail_some (h : findByEmail s email = some user) :
    user ∈ s.users ∧ user.email = email :=
  ⟨List.mem_of_find?_eq_some h, by simpa using List.find?_some h⟩

@[simp] theorem createRefreshToken_users (env : Env) (s : AuthState) (userId token : String)
    (expiresAt : ℕ) : (createRefreshToken env s userId token expiresAt).users = s.users := rfl

@[simp] theorem clearResendWindow_users (env : Env) (email : String) (s : AuthState) :
    (clearResendWindow env email s).users = s.users := rfl

/-- A resend is recorded in the resend windows, and nowhere else. -/
theorem checkAndRecordResend_frame (env : Env) (email : String) (s : AuthState) :
    ∃ windows, (checkAndRecordResend env email s).2 = { s with resendWindows := windows } := by
  unfold checkAndRecordResend
  split
  · exact ⟨s.resendWindows, rfl⟩
  · dsimp only
    split_ifs
    · exact ⟨s.resendWindows, rfl⟩
    · exact ⟨_, rfl⟩

theorem blacklistAccessToken_frame (env : Env) (jti : String) (exp : ℕ) (s : AuthState) :
    ∃ blacklist, blacklistAccessToken env jti exp s = { s with blacklist := blacklist } := by
  simp only [blacklistAccessToken, blacklistToken]
  split_ifs
  · exact ⟨s.blacklist, rfl⟩
  · exact ⟨_, rfl⟩

theorem checkAndRecordResend_users (env : Env) (email : String) (s : AuthState) :
    (checkAndRecordResend env email s).2.users = s.users := by
  obtain ⟨windows, hframe⟩ := checkAndRecordResend_frame env email s
  rw [hframe]

theorem endSessions_users (env : Env) (userId : String) (token : Option (String × ℕ))
    (text : String) (s : AuthState) : (endSessions env userId token text s).1.users = s.users := by
  unfold endSessions
  cases token with
  | none => rfl
  | some pair =>
    obtain ⟨blacklist, hframe⟩ :=
      blacklistAccessToken_frame env pair.1 pair.2 (revokeAllUserTokens s userId)
    simp only [hframe]
    rfl

theorem findByEmail_congr (h : s'.users = s.users) (email : String) :
    findByEmail s' email = findByEmail s email := by rw [findByEmail, h, findByEmail]

/-- A search by mail address after the row of `user` has been updated. -/
theorem findByEmail_updateUser (hkeyed : Keyed User.id s.users)
    (h : findByEmail s email = some user) (patch : UserPatch) (other : String) :
    findByEmail (updateUser s user patch) other =
      if other = email then some (user.assign patch) else findByEmail s other := by
  obtain ⟨hmem, hemail⟩ := findByEmail_some h
  have hfind := hkeyed.find?_save hmem (rfl : (user.assign patch).id = user.id)
    (fun row => row.email = other) rfl
  refine hfind.trans ?_
  split_ifs with hother
  · subst hother
    rw [← findByEmail, h]
    simp [User.assign]
  · cases hrow : s.users.find? fun row => row.email = other with
    | none => rw [findByEmail, hrow]; rfl
    | some row =>
      -- a row of another address has another id
      have hid : row.id ≠ user.id := by
        intro hid
        have hsame := hkeyed.eq_of_key (List.mem_of_find?_eq_some hrow) hmem hid
        have hrowEmail : row.email = other := by simpa using List.find?_some hrow
        exact hother (hrowEmail.symm.trans (hsame ▸ hemail))
      rw [findByEmail, hrow]
      simp [User.assign, hid]

theorem keyed_updateUser (hkeyed : Keyed User.id s.users) (user : User) (patch : UserPatch) :
    Keyed User.id (updateUser s user patch).users := hkeyed.save _

/-- The row that a registration adds. -/
def newUser (env : Env) (email passwordHash otp : String) (otpExpiry : ℕ)
    (firstName lastName : Option String) : User where
  id := env.userId
  firstName := firstName
  lastName := lastName
  email := email
  passwordHash := passwordHash
  role := .member
  otp := some otp
  otpExpiry := some otpExpiry
  otpAttempts := 0
  otpInvalidatedAt := none
  otpResendCount := 0
  isVerified := false

theorem createUser_eq_ok {passwordHash otp : String} {otpExpiry : ℕ}
    {firstName lastName : Option String} :
    createUser env s email passwordHash otp otpExpiry firstName lastName = .ok s' ↔
      findByEmail s email = none ∧ findById s env.userId = none ∧
        { s with users := s.users ++
          [newUser env email passwordHash otp otpExpiry firstName lastName] } = s' := by
  simp only [createUser, bind_eq_ok, failIf_eq_ok, pure_eq_ok, exists_const, not_or,
    Option.not_isSome_iff_eq_none, and_assoc, newUser]

theorem findByEmail_append (hfree : findByEmail s email = none) (hemail : user.email = email)
    (other : String) : findByEmail { s with users := s.users ++ [user] } other =
      if other = email then some user else findByEmail s other := by
  rw [findByEmail, List.find?_append, ← findByEmail]
  split_ifs with hother
  · subst hother
    simp [hfree, hemail]
  · have hne : ¬user.email = other := fun h => hother (h.symm.trans hemail)
    simp [hne]

theorem keyed_append (hkeyed : Keyed User.id s.users) (hfree : findById s user.id = none) :
    Keyed User.id (s.users ++ [user]) := by
  rw [Keyed, List.map_append, List.nodup_append]
  refine ⟨hkeyed, List.nodup_singleton _, fun id hid id' hid' => ?_⟩
  obtain ⟨row, hrow, rfl⟩ := List.mem_map.mp hid
  rw [List.mem_singleton.mp hid']
  intro heq
  have hnone := List.find?_eq_none.mp hfree row hrow
  simp [heq] at hnone

theorem verifyTarget_eq_ok {hash : String} :
    verifyTarget env email s = .ok (user, hash) ↔ findByEmail s email = some user ∧
      user.otp = some hash ∧ ∃ expiry, user.otpExpiry = some expiry ∧
        user.otpInvalidatedAt = none ∧ env.now ≤ expiry := by
  simp only [verifyTarget, bind_eq_ok, getOr_eq_ok, failIf_eq_ok, pure_eq_ok, exists_const,
    Prod.mk.injEq, not_not, not_lt]
  constructor
  · rintro ⟨u, hu, h, hh, expiry, he, hi, hn, rfl, rfl⟩
    exact ⟨hu, hh, expiry, he, hi, hn⟩
  · rintro ⟨hu, hh, expiry, he, hi, hn⟩
    exact ⟨user, hu, hash, hh, expiry, he, hi, hn, rfl, rfl⟩

theorem resetTarget_eq_ok {hash : String} :
    resetTarget env email s = .ok (user, hash) ↔ findByEmail s email = some user ∧
      user.otp = some hash ∧ ∃ expiry, user.otpExpiry = some expiry ∧ env.now ≤ expiry := by
  simp only [resetTarget, bind_eq_ok, getOr_eq_ok, failIf_eq_ok, pure_eq_ok, exists_const,
    Prod.mk.injEq, not_lt]
  constructor
  · rintro ⟨u, hu, h, hh, expiry, he, hn, rfl, rfl⟩
    exact ⟨hu, hh, expiry, he, hn⟩
  · rintro ⟨hu, hh, expiry, he, hn⟩
    exact ⟨user, hu, hash, hh, expiry, he, hn, rfl, rfl⟩

end HubAssist.Auth
