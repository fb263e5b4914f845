import HubAssist.Checks
import HubAssist.KeyedTable
import HubAssist.TtlCache

/-! The AuthService of the backend: registration, one-time codes, sessions and logout, over the
tables of users and refresh tokens and the caches. Every call is atomic. The mails, the
notifications and the webhook events that it sends, which no call reads, are left out. -/
namespace HubAssist.Auth
open Checks KeyedTable TtlCache

/-- The bcrypt package: comparing with the hash of a text tells whether it is that text. -/
structure Bcrypt where
  hash : String → String
  compare : String → String → Bool
  compare_hash : ∀ s t, compare s (hash t) = decide (s = t)

inductive UserRole where
  | admin
  | member
  | staff
  deriving DecidableEq, Repr

/-- A row of the users table, with the columns that AuthService reads or writes. -/
structure User where
  id : String
  firstName : Option String
  lastName : Option String
  email : String
  passwordHash : String
  role : UserRole
  otp : Option String
  otpExpiry : Option ℕ
  otpAttempts : ℕ
  otpInvalidatedAt : Option ℕ
  otpResendCount : ℕ
  isVerified : Bool
  deriving DecidableEq, Repr

structure RefreshToken where
  id : String
  token : String
  userId : String
  familyId : String
  expiresAt : ℕ
  isRevoked : Bool
  deriving DecidableEq, Repr

/-- The payload of an access token. -/
structure JwtPayload where
  sub : String
  email : String
  role : UserRole
  jti : String
  deriving DecidableEq, Repr

structure PolicyViolation where
  code : String
  message : String
  deriving DecidableEq, Repr

inductive HttpError where
  | badRequest (message : String)
  | invalidOtp (message : String) (attemptsRemaining : ℕ)
  | policyViolations (message : String) (violations : List PolicyViolation)
  | tooManyRequests (message : String) (retryAfterSeconds : ℕ)
  | unauthorized (message : String)
  | uniqueViolation
  deriving DecidableEq, Repr

/-- The tables and the caches. The cache of the resend windows is missing where no cache is
provided. -/
structure AuthState where
  users : List User
  refreshTokens : List RefreshToken
  resendWindows : Option (Cache String (List ℕ))
  blacklist : Cache String Unit

/-- What a call takes from outside: the time in milliseconds, the values it draws, the
violations that the password policy finds, and which of its cache operations fail. -/
structure Env where
  now : ℕ
  otp : String
  userId : String
  tokenId : String
  refreshToken : String
  familyId : String
  jti : String
  policyViolations : String → List PolicyViolation
  cacheGetFails : Bool
  cacheSetFails : Bool
  cacheDelFails : Bool

def otpMaxAttempts : ℕ := 3

def otpResendLimit : ℕ := 3

def otpResendWindowMs : ℕ := 5*60*1000

def otpLifetimeMs : ℕ := 10*60*1000

def refreshLifetimeMs : ℕ := 7*24*60*60*1000

/-- A partial user for `UpdateUserProvider`. A property that is absent or undefined is not
written by `Repository.save`. -/
structure UserPatch where
  passwordHash : Option String := none
  otp : Option (Option String) := none
  otpExpiry : Option (Option ℕ) := none
  otpAttempts : Option ℕ := none
  otpInvalidatedAt : Option (Option ℕ) := none
  otpResendCount : Option ℕ := none
  isVerified : Option Bool := none

/-- The value `undefined` of a property of a patch. -/
abbrev undefined {α : Type} : Option α := none

def User.assign (user : User) (patch : UserPatch) : User :=
  { user with
    passwordHash := patch.passwordHash.getD user.passwordHash
    otp := patch.otp.getD user.otp
    otpExpiry := patch.otpExpiry.getD user.otpExpiry
    otpAttempts := patch.otpAttempts.getD user.otpAttempts
    otpInvalidatedAt := patch.otpInvalidatedAt.getD user.otpInvalidatedAt
    otpResendCount := patch.otpResendCount.getD user.otpResendCount
    isVerified := patch.isVerified.getD user.isVerified }

def findByEmail (s : AuthState) (email : String) : Option User :=
  s.users.find? fun user => user.email = email

def findById (s : AuthState) (id : String) : Option User := findRow User.id s.users id

/-- `UsersService.update`, on a row that the call has just read. -/
def updateUser (s : AuthState) (user : User) (patch : UserPatch) : AuthState :=
  { s with users := save User.id s.users (user.assign patch) }

/-- `UsersService.create` with the default values of the columns. The id is generated, and a
mail address that is taken violates the unique constraint. -/
def createUser (env : Env) (s : AuthState) (email passwordHash otp : String) (otpExpiry : ℕ)
    (firstName lastName : Option String) : Except HttpError AuthState := do
  failIf ((findByEmail s email).isSome = true ∨ (findById s env.userId).isSome = true)
    .uniqueViolation
  let user : User :=
    { id := env.userId
      firstName := firstName
      lastName := lastName
      email := email
      passwordHash := passwordHash
      role := .member
      otp := some otp
      otpExpiry := some otpExpiry
      otpAttempts := 0
      otpInvalidatedAt := none
      otpResendCount := 0
      isVerified := false }
  return { s with users := s.users ++ [user] }

/-- `RefreshTokenRepository.create`. -/
def createRefreshToken (env : Env) (s : AuthState) (userId token : String) (expiresAt : ℕ) :
    AuthState :=
  { s with refreshTokens := s.refreshTokens ++
    [⟨env.tokenId, token, userId, env.familyId, expiresAt, false⟩] }

/-- `RefreshTokenRepository.findByToken`: the column is compared with the text presented. -/
def findByToken (s : AuthState) (token : String) : Option RefreshToken :=
  s.refreshTokens.find? fun record => record.token = token

def revokeToken (s : AuthState) (id : String) : AuthState :=
  { s with refreshTokens := s.refreshTokens.map fun record =>
    if record.id = id then { record with isRevoked := true } else record }

def revokeAllUserTokens (s : AuthState) (userId : String) : AuthState :=
  { s with refreshTokens := s.refreshTokens.map fun record =>
    if record.userId = userId then { record with isRevoked := true } else record }

structure ResendCheckResult where
  allowed : Bool
  remaining : ℕ
  retryAfterSeconds : ℕ
  redisUnavailable : Bool
  deriving DecidableEq, Repr

def loadTimestamps (env : Env) (cache : Cache String (List ℕ)) (email : String) : List ℕ :=
  if env.cacheGetFails then [] else (get cache env.now email).getD []

def saveTimestamps (env : Env) (cache : Cache String (List ℕ)) (email : String)
    (timestamps : List ℕ) : Cache String (List ℕ) :=
  if env.cacheSetFails then cache else set cache env.now otpResendWindowMs email timestamps

/-- The oldest of a list of timestamps that is not empty. -/
def oldest : List ℕ → ℕ
  | [] => 0
  | t :: ts => ts.foldl min t

/-- `OtpRateLimitService.checkAndRecordResend`. -/
def checkAndRecordResend (env : Env) (email : String) (s : AuthState) :
    ResendCheckResult × AuthState :=
  match s.resendWindows with
  | none => (⟨true, otpResendLimit-1, 0, true⟩, s)
  | some cache =>
    let timestamps := (loadTimestamps env cache email).filter fun t => env.now < t+otpResendWindowMs
    if otpResendLimit ≤ timestamps.length then
      (⟨false, 0, (oldest timestamps+otpResendWindowMs-env.now+999)/1000, false⟩, s)
    else
      let recorded := timestamps ++ [env.now]
      (⟨true, otpResendLimit-recorded.length, 0, false⟩,
        { s with resendWindows := some (saveTimestamps env cache email recorded) })

def clearResendWindow (env : Env) (email : String) (s : AuthState) : AuthState :=
  { s with resendWindows := s.resendWindows.map fun cache =>
    if env.cacheDelFails then cache else del cache email }

structure TokenPair where
  accessToken : JwtPayload
  refreshToken : String
  deriving DecidableEq, Repr

inductive Reply where
  | message (text : String)
  | resent (text : String) (resendsRemaining : ℕ)
  | tokens (pair : TokenPair)
  deriving DecidableEq, Repr

/-- What a call leaves behind, and its answer. What it has written before it throws stays. -/
abbrev Outcome := AuthState × Except HttpError Reply

section
variable (bcrypt : Bcrypt)

def register (env : Env) (email password : String) (firstName lastName : Option String)
    (s : AuthState) : Outcome :=
  let violations := env.policyViolations password
  if violations ≠ [] then
    (s, .error (.policyViolations "Password does not meet security requirements" violations))
  else
    match createUser env s email (bcrypt.hash password) (bcrypt.hash env.otp)
      (env.now+otpLifetimeMs) firstName lastName with
    | .error e => (s, .error e)
    | .ok s' => (s', .ok (.message "User registered. Check your email for OTP."))

/-- The tests of `verifyOtp` before it compares: the user and the hash of its code. -/
def verifyTarget (env : Env) (email : String) (s : AuthState) :
    Except HttpError (User × String) := do
  let user ← getOr (findByEmail s email) (.badRequest "User not found")
  let otp ← getOr user.otp (.badRequest "No OTP found for this user")
  let otpExpiry ← getOr user.otpExpiry (.badRequest "No OTP found for this user")
  failIf (user.otpInvalidatedAt ≠ none) (.invalidOtp
    "OTP has been invalidated due to too many wrong attempts. Please request a new OTP." 0)
  failIf (otpExpiry < env.now) (.badRequest "OTP has expired")
  return (user, otp)

/-- The session that `verifyOtp`, `login` and `refresh` open. -/
def openSession (env : Env) (user : User) (s : AuthState) : Outcome :=
  (createRefreshToken env s user.id (bcrypt.hash env.refreshToken) (env.now+refreshLifetimeMs),
    .ok (.tokens ⟨⟨user.id, user.email, user.role, env.jti⟩, env.refreshToken⟩))

def verifyOtp (env : Env) (email otp : String) (s : AuthState) : Outcome :=
  match verifyTarget env email s with
  | .error e => (s, .error e)
  | .ok (user, hash) =>
    if bcrypt.compare otp hash then
      let s := updateUser s user
        { isVerified := some true
          otp := undefined
          otpExpiry := undefined
          otpAttempts := some 0
          otpInvalidatedAt := undefined
          otpResendCount := some 0 }
      openSession bcrypt env user (clearResendWindow env email s)
    else
      let newAttempts := user.otpAttempts+1
      if otpMaxAttempts ≤ newAttempts then
        (updateUser s user { otpAttempts := some newAttempts, otpInvalidatedAt := some (some env.now) },
          .error (.invalidOtp
            "OTP has been invalidated due to too many wrong attempts. Please request a new OTP." 0))
      else
        (updateUser s user { otpAttempts := some newAttempts },
          .error (.invalidOtp "Invalid OTP" (otpMaxAttempts-newAttempts)))

def resendOtp (env : Env) (email : String) (s : AuthState) : Outcome :=
  match findByEmail s email with
  | none => (s, .error (.badRequest "User not found"))
  | some user =>
    let (result, s) := checkAndRecordResend env email s
    if result.allowed = false then
      (s, .error (.tooManyRequests ("Too many OTP resend requests. Please wait " ++
        toString result.retryAfterSeconds ++ " seconds before trying again.")
        result.retryAfterSeconds))
    else if result.redisUnavailable = true ∧ otpResendLimit ≤ user.otpResendCount then
      (s, .error (.tooManyRequests "Too many OTP resend requests. Please try again later." 300))
    else
      (updateUser s user
        { otp := some (some (bcrypt.hash env.otp))
          otpExpiry := some (some (env.now+otpLifetimeMs))
          otpAttempts := some 0
          otpInvalidatedAt := undefined
          otpResendCount := some (user.otpResendCount+1) },
        .ok (.resent "OTP resent to your email" result.remaining))

def login (env : Env) (email password : String) (s : AuthState) : Outcome :=
  match findByEmail s email with
  | none => (s, .error (.unauthorized "Invalid credentials"))
  | some user =>
    if bcrypt.compare password user.passwordHash = false then
      (s, .error (.unauthorized "Invalid credentials"))
    else if user.isVerified = false then
      (s, .error (.unauthorized "Please verify your email first"))
    else openSession bcrypt env user s

/-- The tests of `refresh`: the record of the token presented, and its user. -/
def refreshTarget (env : Env) (refreshToken : String) (s : AuthState) :
    Except HttpError (RefreshToken × User) := do
  let record ← getOr (findByToken s refreshToken) (.unauthorized "Invalid or revoked refresh token")
  failIf (record.isRevoked = true) (.unauthorized "Invalid or revoked refresh token")
  failIf (record.expiresAt < env.now) (.unauthorized "Refresh token has expired")
  let user ← getOr (findById s record.userId) (.unauthorized "User not found")
  return (record, user)

def refresh (env : Env) (refreshToken : String) (s : AuthState) : Outcome :=
  match refreshTarget env refreshToken s with
  | .error e => (s, .error e)
  | .ok (record, user) => openSession bcrypt env user (revokeToken s record.id)

/-- `TokenBlacklistService.blacklistToken`. -/
def blacklistToken (env : Env) (jti : String) (ttlMs : ℕ) (s : AuthState) : AuthState :=
  if ttlMs = 0 then s else { s with blacklist := set s.blacklist env.now ttlMs jti () }

/-- The access token's remaining time in milliseconds, from its expiry in seconds. -/
def blacklistAccessToken (env : Env) (jti : String) (exp : ℕ) (s : AuthState) : AuthState :=
  blacklistToken env jti (exp*1000-env.now) s

/-- `JwtStrategy.validate`. -/
def validateJwt (env : Env) (payload : JwtPayload) (s : AuthState) : Except HttpError JwtPayload := do
  failIf ((get s.blacklist env.now payload.jti).isSome = true) (.unauthorized "Token has been revoked")
  return payload

/-- The common body of `logout` and `logoutAll`. The token is given where its `jti` is not empty and
it has an expiry. -/
def endSessions (env : Env) (userId : String) (token : Option (String × ℕ)) (text : String)
    (s : AuthState) : Outcome :=
  let s := revokeAllUserTokens s userId
  match token with
  | none => (s, .ok (.message text))
  | some (jti, exp) => (blacklistAccessToken env jti exp s, .ok (.message text))

def logout (env : Env) (userId : String) (token : Option (String × ℕ)) (s : AuthState) : Outcome :=
  endSessions env userId token "Logged out successfully" s

def logoutAll (env : Env) (userId : String) (token : Option (String × ℕ)) (s : AuthState) :
    Outcome :=
  endSessions env userId token "Logged out from all devices successfully" s

def forgotPassword (env : Env) (email : String) (s : AuthState) : Outcome :=
  let response := .message
    "If an account exists, a password reset OTP has been sent to the email."
  match findByEmail s email with
  | none => (s, .ok response)
  | some user =>
    -- neither the attempts nor the invalidation mark is reset
    (updateUser s user
      { otp := some (some (bcrypt.hash env.otp)), otpExpiry := some (some (env.now+otpLifetimeMs)) },
      .ok response)

/-- The tests of `resetPassword` before it compares: the user and the hash of its code. The
invalidation mark is not among them. -/
def resetTarget (env : Env) (email : String) (s : AuthState) :
    Except HttpError (User × String) := do
  let user ← getOr (findByEmail s email) (.badRequest "User not found")
  let otp ← getOr user.otp (.badRequest "No password reset request found")
  let otpExpiry ← getOr user.otpExpiry (.badRequest "No password reset request found")
  failIf (otpExpiry < env.now) (.badRequest "OTP has expired")
  return (user, otp)

def resetPassword (env : Env) (email otp newPassword : String) (s : AuthState) : Outcome :=
  match resetTarget env email s with
  | .error e => (s, .error e)
  | .ok (user, hash) =>
    if bcrypt.compare otp hash = false then (s, .error (.badRequest "Invalid OTP"))
    else
      let violations := env.policyViolations newPassword
      if violations ≠ [] then
        (s, .error (.policyViolations "Password does not meet security requirements" violations))
      else
        (updateUser s user
          { passwordHash := some (bcrypt.hash newPassword), otp := undefined, otpExpiry := undefined },
          .ok (.message "Password reset successfully"))

inductive Call where
  | register (email password : String) (firstName lastName : Option String)
  | verifyOtp (email otp : String)
  | resendOtp (email : String)
  | login (email password : String)
  | refresh (refreshToken : String)
  | logout (userId : String) (token : Option (String × ℕ))
  | logoutAll (userId : String) (token : Option (String × ℕ))
  | forgotPassword (email : String)
  | resetPassword (email otp newPassword : String)
  deriving DecidableEq

def exec (env : Env) : Call → AuthState → Outcome
  | .register email password firstName lastName, s =>
    register bcrypt env email password firstName lastName s
  | .verifyOtp email otp, s => verifyOtp bcrypt env email otp s
  | .resendOtp email, s => resendOtp bcrypt env email s
  | .login email password, s => login bcrypt env email password s
  | .refresh refreshToken, s => refresh bcrypt env refreshToken s
  | .logout userId token, s => logout env userId token s
  | .logoutAll userId token, s => logoutAll env userId token s
  | .forgotPassword email, s => forgotPassword bcrypt env email s
  | .resetPassword email otp newPassword, s => resetPassword bcrypt env email otp newPassword s

/-- One call of a run, with what it takes from outside. -/
structure Action where
  env : Env
  call : Call

def step (s : AuthState) (a : Action) : AuthState := (exec bcrypt a.env a.call s).1

end

end HubAssist.Auth
