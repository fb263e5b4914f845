import HubAssist.AuthModel
import HubAssist.RunSystem

/-! The guards in front of every route, and the one cache in which they look up the CSRF token of a
session and the access tokens that were logged out. A request is one step. What passport finds in a
header is a parameter, and the verdict of the throttler, which has a store of its own, an input. -/
namespace HubAssist.Guards
open Checks RunSystem TtlCache Auth

/-- The claims of an access token. -/
structure AccessClaims where
  sub : String
  email : String
  role : UserRole
  jti : Option String
  exp : Option ℕ
  deriving DecidableEq

inductive GuardError where
  | unauthorized (message : String)
  | tooManyRequests
  | forbidden (message : String)
  deriving DecidableEq

/-- The handlers that write the cache, and one that is meant to: `updateRole` reads `dto`, which
nothing binds, and throws before it comes to the blacklist. -/
inductive Handler where
  | getCsrfToken
  | logout
  | logoutAll
  | updateRole
  | other
  deriving DecidableEq

/-- What is declared on a route. -/
structure Route where
  handler : Handler
  isPublic : Bool
  roles : Option (List UserRole)

structure Request where
  method : String
  route : Route
  authorization : Option String
  xCsrfToken : Option String
  throttled : Bool

structure Server where
  now : ℕ
  cache : Cache String String

def start : Server := ⟨0, empty⟩

def csrfKey (jti : String) : String := "csrf:" ++ jti

def blacklistKey (jti : String) : String := "blacklist:jti:" ++ jti

/-- What is neither undefined nor empty. -/
def truthy (text : Option String) : Option String := text.filter fun text => text ≠ ""

def generateToken (jti token : String) (s : Server) : Server :=
  { s with cache := set s.cache s.now 3600000 (csrfKey jti) token }

def verifyToken (jti token : String) (s : Server) : Bool :=
  if token = "" ∨ jti = "" then false else get s.cache s.now (csrfKey jti) = some token

def invalidateToken (jti : String) (s : Server) : Server :=
  { s with cache := del s.cache (csrfKey jti) }

def blacklistToken (jti : String) (exp : ℕ) (s : Server) : Server :=
  if exp*1000 ≤ s.now then s
  else { s with cache := set s.cache s.now (exp*1000-s.now) (blacklistKey jti) "1" }

def isBlacklisted (jti : String) (s : Server) : Bool :=
  (get s.cache s.now (blacklistKey jti)).isSome

variable (authenticate : ℕ → Option String → Option AccessClaims)

def jwtAuthGuard (s : Server) (r : Request) : Except GuardError (Option AccessClaims) :=
  if r.route.isPublic then .ok none
  else do
    let claims ← getOr (authenticate s.now r.authorization) (.unauthorized "Unauthorized")
    failIf ((truthy claims.jti).any fun jti => isBlacklisted jti s)
      (.unauthorized "Token has been revoked")
    return some claims

def rolesGuard (r : Request) (user : Option AccessClaims) : Except GuardError Unit :=
  match r.route.roles with
  | none => .ok ()
  | some roles =>
    failIf (¬user.any fun user => roles.contains user.role) (.forbidden "Insufficient permissions")

def mutatingMethods : List String := ["POST", "PATCH", "DELETE", "PUT"]

/-- The test is for this spelling of the scheme, which passport reads in any case. -/
def hasBearer (r : Request) : Bool :=
  r.authorization.any fun header => "Bearer ".toList.isPrefixOf header.toList

/-- No route skips the check: `SkipCsrf` makes another decorator at every use, and what is looked up
is `SkipCsrf` itself. -/
def csrfGuard (s : Server) (r : Request) (user : Option AccessClaims) : Except GuardError Unit :=
  if r.method ∉ mutatingMethods then .ok ()
  else if hasBearer r then .ok ()
  else do
    let jti ← getOr (user.bind fun user => truthy user.jti)
      (.forbidden "CSRF validation failed: no user session")
    let token ← getOr (truthy r.xCsrfToken) (.forbidden "CSRF token missing")
    failIf (verifyToken jti token s = false) (.forbidden "CSRF token invalid or expired")

/-- The global guards, in their order. -/
def canActivate (s : Server) (r : Request) : Except GuardError (Option AccessClaims) := do
  let user ← jwtAuthGuard authenticate s r
  failIf (r.throttled = true) .tooManyRequests
  rolesGuard r user
  csrfGuard s r user
  return user

/-- `blacklistAccessToken`, where the token has an id and an expiry. -/
def endToken (user : AccessClaims) (s : Server) : Server :=
  match truthy user.jti, user.exp with
  | some jti, some exp => blacklistToken jti exp s
  | _, _ => s

/-- What a handler does to the cache, with the bytes that are drawn for a token. -/
def handle (token : String) (user : AccessClaims) (s : Server) : Handler → Server
  | .getCsrfToken => generateToken (user.jti.getD "undefined") token s
  | .logout =>
    endToken user (match truthy user.jti with
      | some jti => invalidateToken jti s
      | none => s)
  | .logoutAll => endToken user s
  | .updateRole | .other => s

inductive Move where
  | elapse (ms : ℕ)
  | request (r : Request) (token : String)

def step (s : Server) : Move → Server
  | .elapse ms => { s with now := s.now+ms }
  | .request r token =>
    match canActivate authenticate s r with
    | .ok (some user) => handle token user s r.route.handler
    | .ok none => s
    | .error _ => s

/-- The handler that a step runs, with the user and the bytes it is given. -/
def accepted (s : Server) : Move → Option (Handler × AccessClaims × String)
  | .elapse _ => none
  | .request r token =>
    match canActivate authenticate s r with
    | .ok (some user) => some (r.route.handler, user, token)
    | .ok none => none
    | .error _ => none

/-- The step gives out a CSRF token for `jti`. -/
def Issues (jti token : String) (s : Server) (m : Move) : Prop :=
  ∃ user, accepted authenticate s m = some (.getCsrfToken, user, token) ∧
    user.jti.getD "undefined" = jti

/-- The step gives out a CSRF token for `jti`, or logs `jti` out. -/
def Touches (jti : String) (s : Server) (m : Move) : Prop :=
  (∃ token, Issues authenticate jti token s m) ∨
    ∃ user token, accepted authenticate s m = some (.logout, user, token) ∧
      truthy user.jti = some jti

/-- The step logs the access token `jti` out, which lives until `expiresAt`. -/
def Revokes (jti : String) (expiresAt : ℕ) (s : Server) (m : Move) : Prop :=
  ∃ handler user token exp, accepted authenticate s m = some (handler, user, token) ∧
    (handler = .logout ∨ handler = .logoutAll) ∧ truthy user.jti = some jti ∧
    user.exp = some exp ∧ expiresAt = exp*1000

/-- Of the CSRF tokens of `jti` the last one given out is `token`, in the last hour, and there has
been no logout since. -/
def CsrfCurrent (moves : List Move) (jti token : String) : Prop :=
  ∃ pre m post, moves = pre ++ m :: post ∧
    Issues authenticate jti token (run (step authenticate) start pre) m ∧
    Guarded (step authenticate) (fun s m => ¬Touches authenticate jti s m)
      (run (step authenticate) start (pre ++ [m])) post ∧
    (run (step authenticate) start moves).now < (run (step authenticate) start pre).now+3600000

variable {authenticate} {s : Server} {r : Request} {user : AccessClaims} {jti token : String}

theorem csrfKey_ne_blacklistKey (jti jti' : String) : csrfKey jti ≠ blacklistKey jti' := by
  intro h
  have hlist := congrArg String.toList h
  simp [csrfKey, blacklistKey] at hlist

theorem csrfKey_inj {jti jti' : String} : csrfKey jti = csrfKey jti' ↔ jti = jti' := by
  constructor
  · intro h
    have hlist := congrArg String.toList h
    simp only [csrfKey, String.toList_append] at hlist
    exact String.toList_injective (List.append_cancel_left hlist)
  · rintro rfl
    rfl

theorem blacklistKey_inj {jti jti' : String} :
    blacklistKey jti = blacklistKey jti' ↔ jti = jti' := by
  constructor
  · intro h
    have hlist := congrArg String.toList h
    simp only [blacklistKey, String.toList_append] at hlist
    exact String.toList_injective (List.append_cancel_left hlist)
  · rintro rfl
    rfl

theorem truthy_eq_some {text : Option String} {x : String} :
    truthy text = some x ↔ text = some x ∧ x ≠ "" := by
  rw [truthy, Option.filter_eq_some_iff]
  simp

variable (authenticate) in
/-- A step lets time pass, runs a handler, or does nothing. -/
theorem step_cases (s : Server) (m : Move) :
    (∃ ms, m = .elapse ms ∧ accepted authenticate s m = none ∧
      step authenticate s m = { s with now := s.now+ms }) ∨
    (accepted authenticate s m = none ∧ step authenticate s m = s) ∨
    ∃ handler user token, accepted authenticate s m = some (handler, user, token) ∧
      step authenticate s m = handle token user s handler := by
  cases m with
  | elapse ms => exact Or.inl ⟨ms, rfl, rfl, rfl⟩
  | request r token =>
    right
    simp only [accepted, step]
    cases hguards : canActivate authenticate s r with
    | error e => exact Or.inl ⟨rfl, rfl⟩
    | ok user =>
      cases user with
      | none => exact Or.inl ⟨rfl, rfl⟩
      | some user => exact Or.inr ⟨_, user, token, rfl, rfl⟩

@[simp] theorem endToken_now : (endToken user s).now = s.now := by
  unfold endToken blacklistToken
  split
  · split_ifs <;> rfl
  · rfl

theorem endToken_csrf : (endToken user s).cache (csrfKey jti) = s.cache (csrfKey jti) := by
  unfold endToken blacklistToken
  split
  · split_ifs
    · rfl
    · simp [TtlCache.set, csrfKey_ne_blacklistKey]
  · rfl

/-- What a step writes for the CSRF token of `jti`. -/
def csrfWrite (authenticate : ℕ → Option String → Option AccessClaims) (jti : String) (s : Server)
    (m : Move) : Option (Option (Entry String)) :=
  match accepted authenticate s m with
  | some (.getCsrfToken, user, token) =>
    if user.jti.getD "undefined" = jti then some (some ⟨token, s.now+3600000⟩) else none
  | some (.logout, user, _) => if truthy user.jti = some jti then some none else none
  | some (.logoutAll, _, _) | some (.updateRole, _, _) | some (.other, _, _) | none => none

theorem csrf_step (jti : String) (s : Server) (m : Move) :
    (step authenticate s m).cache (csrfKey jti) =
      (csrfWrite authenticate jti s m).getD (s.cache (csrfKey jti)) := by
  rcases step_cases authenticate s m with
    ⟨ms, rfl, haccepted, hstep⟩ | ⟨haccepted, hstep⟩ | ⟨handler, user, token, haccepted, hstep⟩
  · rw [hstep, csrfWrite, haccepted]
    rfl
  · rw [hstep, csrfWrite, haccepted]
    rfl
  · rw [hstep, csrfWrite, haccepted]
    cases handler with
    | getCsrfToken =>
      simp only [handle, generateToken, TtlCache.set]
      split_ifs with h
      · rw [h, Function.update_self]
        rfl
      · exact Function.update_of_ne (fun hkey => h (csrfKey_inj.mp hkey).symm) _ _
    | logout =>
      simp only [handle, endToken_csrf]
      split_ifs with h
      · rw [h]
        exact Function.update_self _ _ _
      · cases hjti : truthy user.jti with
        | none => rfl
        | some jti' =>
          rw [hjti] at h
          exact Function.update_of_ne (fun hkey => h (congrArg some (csrfKey_inj.mp hkey).symm)) _ _
    | logoutAll => exact endToken_csrf
    | updateRole | other => rfl

theorem csrfWrite_eq_none {m : Move} :
    csrfWrite authenticate jti s m = none ↔ ¬Touches authenticate jti s m := by
  unfold csrfWrite Touches Issues
  split <;> simp_all

theorem csrfWrite_eq_some {m : Move} {e : Entry String} :
    csrfWrite authenticate jti s m = some (some e) ↔
      Issues authenticate jti e.value s m ∧ e.expiresAt = s.now+3600000 := by
  unfold csrfWrite Issues
  constructor
  · intro h
    split at h
    · next user token haccepted =>
      split_ifs at h with hjti
      obtain rfl := Option.some.inj (Option.some.inj h)
      exact ⟨⟨user, haccepted, hjti⟩, rfl⟩
    · split_ifs at h
      exact absurd (Option.some.inj h) (by simp)
    all_goals exact absurd h (by simp)
  · rintro ⟨⟨user, haccepted, hjti⟩, hexpires⟩
    rw [haccepted]
    dsimp only
    rw [if_pos hjti, ← hexpires]

theorem get_csrf_iff (moves : List Move) (jti token : String) :
    get (run (step authenticate) start moves).cache (run (step authenticate) start moves).now
      (csrfKey jti) = some token ↔ CsrfCurrent authenticate moves jti token := by
  have hlast := @last_write_iff Server Move (Entry String) (step authenticate)
    (fun s => s.cache (csrfKey jti)) (csrfWrite authenticate jti) (csrf_step jti) start rfl moves
  unfold TtlCache.get
  constructor
  · intro h
    split at h
    · next e he =>
      split_ifs at h with hlive
      obtain rfl := Option.some.inj h
      obtain ⟨pre, m, post, hmoves, hwrite, hguard⟩ := (hlast e).mp he
      obtain ⟨hissues, hexpires⟩ := csrfWrite_eq_some.mp hwrite
      refine ⟨pre, m, post, hmoves, hissues, ?_, hexpires ▸ hlive⟩
      simpa only [csrfWrite_eq_none] using hguard
    · exact absurd h (by simp)
  · rintro ⟨pre, m, post, hmoves, hissues, hguard, hlive⟩
    have hwrite : csrfWrite authenticate jti (run (step authenticate) start pre) m =
        some (some ⟨token, (run (step authenticate) start pre).now+3600000⟩) :=
      csrfWrite_eq_some.mpr ⟨hissues, rfl⟩
    simp only [← csrfWrite_eq_none] at hguard
    rw [(hlast _).mpr ⟨pre, m, post, hmoves, hwrite, hguard⟩]
    exact if_pos hlive

theorem endToken_blacklist (user : AccessClaims) (s : Server) (jti : String) :
    (endToken user s).cache (blacklistKey jti) =
      match truthy user.jti, user.exp with
      | some jti', some exp =>
        if jti' = jti ∧ s.now < exp*1000 then some ⟨"1", exp*1000⟩
        else s.cache (blacklistKey jti)
      | _, _ => s.cache (blacklistKey jti) := by
  unfold endToken blacklistToken
  cases truthy user.jti with
  | none => rfl
  | some jti' =>
    cases user.exp with
    | none => rfl
    | some exp =>
      dsimp only
      by_cases hexpired : exp*1000 ≤ s.now
      · rw [if_pos hexpired, if_neg fun h => absurd h.2 (Nat.not_lt.mpr hexpired)]
      · rw [if_neg hexpired]
        by_cases hjti : jti' = jti
        · have hend : s.now+(exp*1000-s.now) = exp*1000 := by omega
          rw [if_pos ⟨hjti, Nat.not_le.mp hexpired⟩, hjti]
          simp [TtlCache.set, hend]
        · rw [if_neg fun h => hjti h.1]
          exact Function.update_of_ne (fun hkey => hjti (blacklistKey_inj.mp hkey).symm) _ _

theorem canActivate_eq_ok {user : Option AccessClaims} :
    canActivate authenticate s r = .ok user ↔ jwtAuthGuard authenticate s r = .ok user ∧
      r.throttled = false ∧ rolesGuard r user = .ok () ∧ csrfGuard s r user = .ok () := by
  simp only [canActivate, bind_eq_ok, failIf_eq_ok, pure_eq_ok, exists_const, Bool.not_eq_true]
  constructor
  · rintro ⟨_, hjwt, hthrottled, _, hroles, _, hcsrf, rfl⟩
    exact ⟨hjwt, hthrottled, hroles, hcsrf⟩
  · rintro ⟨hjwt, hthrottled, hroles, hcsrf⟩
    exact ⟨user, hjwt, hthrottled, (), hroles, (), hcsrf, rfl⟩

theorem jwtAuthGuard_eq_ok {user : Option AccessClaims} :
    jwtAuthGuard authenticate s r = .ok user ↔ r.route.isPublic = true ∧ user = none ∨
      r.route.isPublic = false ∧ ∃ claims, authenticate s.now r.authorization = some claims ∧
        (∀ jti, truthy claims.jti = some jti → isBlacklisted jti s = false) ∧
        user = some claims := by
  have hrevoked (claims : AccessClaims) : ¬(truthy claims.jti).any (isBlacklisted · s) = true ↔
      ∀ jti, truthy claims.jti = some jti → isBlacklisted jti s = false := by
    cases truthy claims.jti <;> simp
  unfold jwtAuthGuard
  cases hpublic : r.route.isPublic with
  | true =>
    rw [if_pos rfl]
    constructor
    · intro h
      exact Or.inl ⟨rfl, (Except.ok.inj h).symm⟩
    · rintro (⟨_, rfl⟩ | ⟨h, _⟩)
      · rfl
      · exact absurd h (by simp)
  | false =>
    rw [if_neg (by simp)]
    simp only [bind_eq_ok, getOr_eq_ok, failIf_eq_ok, pure_eq_ok, exists_const, hrevoked]
    constructor
    · rintro ⟨claims, hclaims, hlive, rfl⟩
      exact Or.inr ⟨trivial, claims, hclaims, hlive, rfl⟩
    · rintro (⟨h, _⟩ | ⟨_, claims, hclaims, hlive, rfl⟩)
      · exact absurd h (by simp)
      · exact ⟨claims, hclaims, hlive, rfl⟩

theorem rolesGuard_eq_ok {user : Option AccessClaims} : rolesGuard r user = .ok () ↔
    ∀ roles, r.route.roles = some roles → ∃ claims, user = some claims ∧ claims.role ∈ roles := by
  unfold rolesGuard
  cases hroles : r.route.roles with
  | none => simp
  | some roles =>
    rw [failIf_eq_ok, not_not, Option.any_eq_true]
    simp

theorem csrfGuard_eq_ok {user : Option AccessClaims} : csrfGuard s r user = .ok () ↔
    (r.method ∈ mutatingMethods → hasBearer r = false →
      ∃ claims jti token, user = some claims ∧ truthy claims.jti = some jti ∧
        truthy r.xCsrfToken = some token ∧ get s.cache s.now (csrfKey jti) = some token) := by
  unfold csrfGuard
  split_ifs with hmethod hbearer
  · simp [hbearer]
  · simp only [bind_eq_ok, getOr_eq_ok, failIf_eq_ok, Option.bind_eq_some_iff]
    constructor
    · rintro ⟨jti, ⟨claims, rfl, hjti⟩, token, htoken, hverify⟩ _ _
      refine ⟨claims, jti, token, rfl, hjti, htoken, ?_⟩
      unfold verifyToken at hverify
      split_ifs at hverify
      · exact absurd rfl hverify
      · simpa using hverify
    · intro h
      obtain ⟨claims, jti, token, rfl, hjti, htoken, hget⟩ :=
        h hmethod (by simpa using hbearer)
      refine ⟨jti, ⟨claims, rfl, hjti⟩, token, htoken, ?_⟩
      unfold verifyToken
      rw [if_neg]
      · simp [hget]
      · rw [not_or]
        exact ⟨(truthy_eq_some.mp htoken).2, (truthy_eq_some.mp hjti).2⟩
  · simp [hmethod]

theorem accepted_eq_some {m : Move} {handler : Handler}
    (h : accepted authenticate s m = some (handler, user, token)) :
    ∀ jti, truthy user.jti = some jti → isBlacklisted jti s = false := by
  cases m with
  | elapse ms => exact absurd h (by simp [accepted])
  | request r bytes =>
    unfold accepted at h
    dsimp only at h
    split at h
    · next claims hguards =>
      have hjwt := (canActivate_eq_ok.mp hguards).1
      rcases jwtAuthGuard_eq_ok.mp hjwt with ⟨_, hnone⟩ | ⟨_, claims', _, hlive, hsome⟩
      · exact absurd hnone (by simp)
      · obtain rfl := Option.some.inj hsome
        obtain ⟨_, rfl, _⟩ : r.route.handler = handler ∧ claims = user ∧ bytes = token := by
          simpa using h
        exact hlive
    · exact absurd h (by simp)
    · exact absurd h (by simp)

/-- The blacklist is about the logouts so far: each entry is of one, and each is found on it until
the access token expires. -/
structure Listed (authenticate : ℕ → Option String → Option AccessClaims) (s : Server)
    (moves : List Move) : Prop where
  logout : ∀ jti e, s.cache (blacklistKey jti) = some e →
    Occurred (step authenticate) (Revokes authenticate jti e.expiresAt) start moves
  found : ∀ jti expiresAt,
    Occurred (step authenticate) (Revokes authenticate jti expiresAt) start moves →
    s.now < expiresAt → ∃ e, s.cache (blacklistKey jti) = some e ∧ expiresAt ≤ e.expiresAt

theorem handle_now (handler : Handler) : (handle token user s handler).now = s.now := by
  cases handler with
  | getCsrfToken => rfl
  | logout =>
    rw [handle, endToken_now]
    split <;> rfl
  | logoutAll => exact endToken_now
  | updateRole | other => rfl

variable (authenticate) in
theorem step_now (s : Server) (m : Move) : s.now ≤ (step authenticate s m).now := by
  rcases step_cases authenticate s m with
    ⟨ms, _, _, hstep⟩ | ⟨_, hstep⟩ | ⟨handler, user, token, _, hstep⟩
  · rw [hstep]
    exact Nat.le_add_right _ _
  · rw [hstep]
  · rw [hstep, handle_now]

/-- The two handlers that log out do the same to the blacklist. -/
theorem handle_blacklist (token jti : String) (user : AccessClaims) (s : Server)
    (handler : Handler) : (handle token user s handler).cache (blacklistKey jti) =
      if handler = .logout ∨ handler = .logoutAll then (endToken user s).cache (blacklistKey jti)
      else s.cache (blacklistKey jti) := by
  have hne (jti' : String) : blacklistKey jti ≠ csrfKey jti' :=
    (csrfKey_ne_blacklistKey jti' jti).symm
  cases handler with
  | getCsrfToken => simp [handle, generateToken, TtlCache.set, hne]
  | logout =>
    rw [if_pos (Or.inl rfl), handle, endToken_blacklist, endToken_blacklist]
    cases truthy user.jti <;> simp [invalidateToken, del, hne]
  | logoutAll => simp [handle]
  | updateRole | other => simp [handle]

variable (authenticate) in
/-- A step leaves the entry of `jti` on the blacklist alone, or puts a logout there that is the
first one in effect. -/
theorem blacklist_step (jti : String) (s : Server) (m : Move) :
    ((step authenticate s m).cache (blacklistKey jti) = s.cache (blacklistKey jti) ∧
      ∀ t, Revokes authenticate jti t s m → t ≤ s.now) ∨
    ∃ t, (∀ t', Revokes authenticate jti t' s m ↔ t' = t) ∧ isBlacklisted jti s = false ∧
      (step authenticate s m).cache (blacklistKey jti) = some ⟨"1", t⟩ := by
  rcases step_cases authenticate s m with
    ⟨ms, rfl, haccepted, hstep⟩ | ⟨haccepted, hstep⟩ | ⟨handler, user, token, haccepted, hstep⟩
  · exact Or.inl ⟨by rw [hstep], by simp [Revokes, haccepted]⟩
  · exact Or.inl ⟨by rw [hstep], by simp [Revokes, haccepted]⟩
  · have hrevokes (t : ℕ) : Revokes authenticate jti t s m ↔
        (handler = .logout ∨ handler = .logoutAll) ∧ truthy user.jti = some jti ∧
          ∃ exp, user.exp = some exp ∧ t = exp*1000 := by
      simp [Revokes, haccepted]
    simp only [hrevokes, hstep, handle_blacklist]
    split_ifs with hhandler
    · rw [endToken_blacklist]
      cases hjti : truthy user.jti with
      | none => exact Or.inl ⟨rfl, by simp⟩
      | some jti' =>
        cases hexp : user.exp with
        | none => exact Or.inl ⟨rfl, by simp⟩
        | some exp =>
          dsimp only
          by_cases hput : jti' = jti ∧ s.now < exp*1000
          · rw [if_pos hput]
            obtain ⟨rfl, _⟩ := hput
            have hlive := accepted_eq_some haccepted jti' hjti
            exact Or.inr ⟨exp*1000, fun t' => by simp [hhandler], hlive, rfl⟩
          · rw [if_neg hput]
            refine Or.inl ⟨rfl, ?_⟩
            rintro t ⟨_, hsame, exp', hexp', rfl⟩
            obtain rfl := Option.some.inj hexp'
            exact Nat.not_lt.mp fun hlt => hput ⟨Option.some.inj hsame, hlt⟩
    · exact Or.inl ⟨rfl, fun t h => absurd h.1 hhandler⟩

theorem listed_step {moves : List Move} (m : Move)
    (h : Listed authenticate (run (step authenticate) start moves) moves) :
    Listed authenticate (step authenticate (run (step authenticate) start moves) m)
      (moves ++ [m]) := by
  have hnow := step_now authenticate (run (step authenticate) start moves) m
  constructor
  · intro jti e he
    rcases blacklist_step authenticate jti _ m with
      ⟨hsame, _⟩ | ⟨t, hrevokes, _, hput⟩
    · exact (h.logout jti e (hsame ▸ he)).append _ [m]
    · obtain rfl := Option.some.inj (hput.symm.trans he)
      exact occurred_last (step authenticate) ((hrevokes t).mpr rfl)
  · intro jti expiresAt hoccurred hlive
    rcases blacklist_step authenticate jti _ m with
      ⟨hsame, hpast⟩ | ⟨t, hrevokes, hclear, hput⟩
    · rw [hsame]
      rcases (occurred_concat (step authenticate)).mp hoccurred with hold | hnew
      · exact h.found jti expiresAt hold (by omega)
      · exact absurd (hpast expiresAt hnew) (by omega)
    · refine ⟨⟨"1", t⟩, hput, ?_⟩
      rcases (occurred_concat (step authenticate)).mp hoccurred with hold | hnew
      · -- a token that is on the blacklist cannot log out again
        obtain ⟨e, he, hle⟩ := h.found jti expiresAt hold (by omega)
        have hlisted : (run (step authenticate) start moves).now < e.expiresAt := by omega
        simp [isBlacklisted, TtlCache.get, he, hlisted] at hclear
      · exact ((hrevokes expiresAt).mp hnew).le

variable (authenticate) in
theorem listed_run (moves : List Move) :
    Listed authenticate (run (step authenticate) start moves) moves := by
  have hstart : Listed authenticate start [] := by
    constructor
    · intro jti e he
      exact absurd he (by simp [start, empty])
    · intro jti expiresAt h
      exact absurd h (not_occurred_nil (step authenticate))
  exact history_invariant (step authenticate) hstart (fun _ m h => listed_step m h) moves

/-- No logout of the access token is in effect. -/
def Unrevoked (authenticate : ℕ → Option String → Option AccessClaims) (moves : List Move)
    (jti : String) : Prop :=
  ∀ expiresAt, Occurred (step authenticate) (Revokes authenticate jti expiresAt) start moves →
    expiresAt ≤ (run (step authenticate) start moves).now

theorem isBlacklisted_eq_false (moves : List Move) (jti : String) :
    isBlacklisted jti (run (step authenticate) start moves) = false ↔
      Unrevoked authenticate moves jti := by
  have hlisted := listed_run authenticate moves
  constructor
  · intro h expiresAt hoccurred
    by_contra hlive
    obtain ⟨e, he, hle⟩ := hlisted.found jti expiresAt hoccurred (Nat.not_le.mp hlive)
    have hfound : (run (step authenticate) start moves).now < e.expiresAt := by omega
    simp [isBlacklisted, TtlCache.get, he, hfound] at h
  · intro h
    unfold isBlacklisted TtlCache.get
    split
    · next e he =>
      rw [if_neg (Nat.not_lt.mpr (h e.expiresAt (hlisted.logout jti e he)))]
      rfl
    · rfl

/-- In every run a request to a public route is let through when it carries no roles, and, if it
mutates, has a header of the right scheme, whatever stands in it. One to another route is let
through when its access token is genuine, of a role that is asked for, and not logged out; and, if
it mutates and spells the scheme otherwise, its CSRF token is the one last given to the session. -/
theorem admitted_iff_run (moves : List Move) (r : Request) :
    (∃ user, canActivate authenticate (run (step authenticate) start moves) r = .ok user) ↔
      r.throttled = false ∧
        if r.route.isPublic then r.route.roles = none ∧
          (r.method ∈ mutatingMethods → hasBearer r = true)
        else ∃ claims,
          authenticate (run (step authenticate) start moves).now r.authorization = some claims ∧
          (∀ roles, r.route.roles = some roles → claims.role ∈ roles) ∧
          (∀ jti, truthy claims.jti = some jti → Unrevoked authenticate moves jti) ∧
          (r.method ∈ mutatingMethods → hasBearer r = false →
            ∃ jti token, truthy claims.jti = some jti ∧ truthy r.xCsrfToken = some token ∧
              CsrfCurrent authenticate moves jti token) := by
  simp only [canActivate_eq_ok, jwtAuthGuard_eq_ok, rolesGuard_eq_ok, csrfGuard_eq_ok,
    isBlacklisted_eq_false, get_csrf_iff]
  cases hpublic : r.route.isPublic with
  | true =>
    rw [if_pos rfl]
    constructor
    · rintro ⟨user, ⟨_, rfl⟩ | ⟨hprivate, _⟩, hthrottled, hroles, hcsrf⟩
      · refine ⟨hthrottled, ?_, fun hmethod => ?_⟩
        · cases h : r.route.roles with
          | none => rfl
          | some roles =>
            obtain ⟨_, hnone, _⟩ := hroles roles h
            exact absurd hnone (by simp)
        · by_contra hbearer
          obtain ⟨_, _, _, hnone, _⟩ := hcsrf hmethod (by simpa using hbearer)
          exact absurd hnone (by simp)
      · exact absurd hprivate (by simp)
    · rintro ⟨hthrottled, hroles, hcsrf⟩
      refine ⟨none, Or.inl ⟨rfl, rfl⟩, hthrottled, by simp [hroles], fun hmethod hother => ?_⟩
      exact absurd (hcsrf hmethod) (by simp [hother])
  | false =>
    rw [if_neg (by simp)]
    constructor
    · rintro ⟨user, ⟨hpublic', _⟩ | ⟨_, claims, hclaims, hlive, rfl⟩, hthrottled, hroles, hcsrf⟩
      · exact absurd hpublic' (by simp)
      · refine ⟨hthrottled, claims, hclaims, fun roles h => ?_, hlive,
          fun hmethod hother => ?_⟩
        · obtain ⟨claims', hsame, hrole⟩ := hroles roles h
          obtain rfl := Option.some.inj hsame
          exact hrole
        · obtain ⟨claims', jti, token, hsame, hjti, htoken, hcurrent⟩ := hcsrf hmethod hother
          obtain rfl := Option.some.inj hsame
          exact ⟨jti, token, hjti, htoken, hcurrent⟩
    · rintro ⟨hthrottled, claims, hclaims, hroles, hlive, hcsrf⟩
      refine ⟨some claims, Or.inr ⟨rfl, claims, hclaims, hlive, rfl⟩, hthrottled,
        fun roles h => ?_, fun hmethod hother => ?_⟩
      · exact ⟨claims, rfl, hroles roles h⟩
      · obtain ⟨jti, token, hjti, htoken, hcurrent⟩ := hcsrf hmethod hother
        exact ⟨claims, jti, token, rfl, hjti, htoken, hcurrent⟩

end HubAssist.Guards
