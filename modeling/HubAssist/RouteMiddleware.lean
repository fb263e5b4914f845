import HubAssist.Base64
import HubAssist.JsonText
import HubAssist.NumberText
import HubAssist.RunSystem

/-! The middleware in front of the pages, which reads a token off the cookie, and the store of the
browser, which keeps a token of its own and writes the cookie now and then. -/
namespace HubAssist.RouteMiddleware
open RunSystem JsText JsonText Binary64

/-- The text of a token, of a pathname and of a cookie. -/
abbrev Text := List Char

/-! The payload of a token. -/

def asciiSpace (c : Char) : Bool := c = ' ' ∨ c = '\t' ∨ c = '\n' ∨ c = '\x0c' ∨ c = '\r'

/-- A text of whole groups may end in one or two padding characters. -/
def dropPadding (text : Text) : Text :=
  if text.length%4 = 0 then
    match text.reverse with
    | '=' :: '=' :: rest => rest.reverse
    | '=' :: rest => rest.reverse
    | _ => text
  else text

/-- `atob` knows the standard alphabet alone. -/
def standardSextet (c : Char) : Option ℕ := if c = '-' ∨ c = '_' then none else Base64.sextet c

/-- `atob`, where it does not throw. -/
def atob (text : Text) : Option (List UInt8) :=
  let letters := dropPadding (text.filter fun c => !asciiSpace c)
  if letters.length%4 = 1 then none else (letters.mapM standardSextet).map Base64.unpack

/-- `JSON.parse(atob(text))`: every byte is a character. -/
def parseSegment (text : Text) : Option JsonTree :=
  (atob text).bind fun bytes => parse (bytes.map fun byte => Char.ofNat byte.toNat)

/-- `token.split(".")[1]`. -/
def payloadSegment (token : Text) : Option Text := (token.splitOn '.')[1]?

def urlSafe (c : Char) : Char := if c = '-' then '+' else if c = '_' then '/' else c

/-- The payload, and null where the token has none. -/
def decodeToken (token : Text) : JsonTree :=
  match payloadSegment token with
  | none => .null
  | some segment =>
    if segment = [] then .null else (parseSegment (segment.map urlSafe)).getD .null

def numberOf (literal : List Char) : Reading := NumberText.toNumber (utf16 literal)

def isZero : Reading → Bool
  | .finite number => number.magnitude = 0
  | .infinite _ => false
  | .nan => true

/-- Whether an `if` takes the value; a number must be neither zero nor `NaN`. -/
def truthy : JsonTree → Bool
  | .null => false
  | .bool value => value
  | .number literal => !isZero (numberOf literal)
  | .string value => value ≠ []
  | .array _ | .object _ => true

/-- `Date.now() >= seconds * 1000`. -/
def passed (now : ℕ) : Reading → Bool
  | .finite number => number.negative || decide (roundMagnitude (number.magnitude*1000) ≤ now)
  | .infinite negative => negative
  | .nan => false

def expKey : JsString := utf16 "exp".toList

def roleKey : JsString := utf16 "role".toList

def isTokenExpired (now : ℕ) (token : Text) : Bool :=
  let payload := decodeToken token
  if truthy payload = false then true
  else
    match payload.get expKey with
    | some (.number literal) => passed now (numberOf literal)
    | _ => true

/-- A role, or several of them, that a route asks for. -/
inductive Roles where
  | one (role : JsString)
  | several (roles : List JsString)
  deriving DecidableEq

def Roles.list : Roles → List JsString
  | .one role => [role]
  | .several roles => roles

def isText (text : JsString) : JsonTree → Bool
  | .string value => value = text
  | _ => false

def held : JsonTree → List JsonTree
  | .array items => items
  | role => [role]

def hasRequiredRole (payload : JsonTree) : Option Roles → Bool
  | none => true
  | some required =>
    -- the empty text is no role
    if required = .one [] then true
    else
      match payload.get roleKey with
      | none => false
      | some role => truthy role && required.list.any fun r => (held role).any (isText r)

/-! The middleware. -/

def loginPath : Text := "/login".toList

def registerPath : Text := "/register".toList

def dashboardPath : Text := "/dashboard".toList

def protectedRoutes : List (Text × Option Roles) :=
  [(dashboardPath, none), ("/profile".toList, none), ("/settings".toList, none),
    ("/admin".toList, some (.one (utf16 "admin".toList)))]

/-- The route itself, and what lies behind it. -/
def covers (route pathname : Text) : Bool :=
  pathname = route || (route ++ ['/']).isPrefixOf pathname

inductive Answer where
  | next
  | redirect (pathname : Text) (redirect : Option Text)
  deriving DecidableEq

/-- A token of the cookie that is not empty. -/
def present (token : Option Text) : Option Text := token.filter fun token => token ≠ []

def middleware (now : ℕ) (pathname : Text) (token : Option Text) : Answer :=
  if (present token).isSome = true ∧ (pathname = loginPath ∨ pathname = registerPath) then
    .redirect dashboardPath none
  else
    match protectedRoutes.find? fun route => covers route.1 pathname with
    | none => .next
    | some (_, requiredRole) =>
      match present token with
      | none => .redirect loginPath (some pathname)
      | some token =>
        let payload := decodeToken token
        if truthy payload = false ∨ isTokenExpired now token = true then
          .redirect loginPath (some pathname)
        else if hasRequiredRole payload requiredRole = false then .redirect dashboardPath none
        else .next

/-- The files that the matcher of the middleware leaves out. Its dot stands for any character. -/
def isExcluded (rest : Text) : Bool :=
  "_next/static".toList.isPrefixOf rest || "_next/image".toList.isPrefixOf rest ||
    "api/".toList.isPrefixOf rest ||
      ("favicon".toList.isPrefixOf rest && "ico".toList.isPrefixOf (rest.drop 8))

def isMatched : Text → Bool
  | '/' :: rest => !isExcluded rest
  | _ => false

/-- Where a request for a page is sent on to, if it is. -/
def hop (now : ℕ) (token : Option Text) (pathname : Text) : Option Text :=
  if isMatched pathname = false then none
  else
    match middleware now pathname token with
    | .next => none
    | .redirect pathname _ => some pathname

/-! What the middleware comes down to. -/

inductive Gate where
  | free
  | signIn
  | guarded (requiredRole : Option Roles)
  deriving DecidableEq

def gate (pathname : Text) : Gate :=
  if isMatched pathname = false then .free
  else if pathname = loginPath ∨ pathname = registerPath then .signIn
  else
    match protectedRoutes.find? fun route => covers route.1 pathname with
    | none => .free
    | some (_, requiredRole) => .guarded requiredRole

/-- Where a request that is made at the times of the clock ends, if it ends. -/
def landing (clock : ℕ → ℕ) (token : Option Text) (pathname : Text) : Option Text :=
  match present token, gate pathname with
  | _, .free => some pathname
  | none, .signIn => some pathname
  | none, .guarded _ => some loginPath
  | some token, .signIn => if isTokenExpired (clock 1) token then none else some dashboardPath
  | some token, .guarded requiredRole =>
    if isTokenExpired (clock 0) token then none
    else if hasRequiredRole (decodeToken token) requiredRole then some pathname
    else if isTokenExpired (clock 1) token then none
    else some dashboardPath

example : gate "/admin/users".toList = .guarded (some (.one (utf16 "admin".toList))) := by decide

theorem gate_loginPath : gate loginPath = .signIn := by decide

theorem gate_dashboardPath : gate dashboardPath = .guarded none := by decide

theorem passed_mono {now now' : ℕ} (hle : now ≤ now') {r : Reading} (h : passed now r = true) :
    passed now' r = true := by
  cases r with
  | finite number =>
    simp only [passed, Bool.or_eq_true, decide_eq_true_eq] at h ⊢
    have hcast : (now : ℚ) ≤ now' := by exact_mod_cast hle
    exact h.imp id fun h => h.trans hcast
  | infinite negative => exact h
  | nan => exact h

/-- A token that has expired stays so. -/
theorem isTokenExpired_mono {now now' : ℕ} (hle : now ≤ now') {token : Text}
    (h : isTokenExpired now token = true) : isTokenExpired now' token = true := by
  simp only [isTokenExpired] at h ⊢
  split_ifs with hfalsy
  · rfl
  · rw [if_neg hfalsy] at h
    split
    · next literal hexp =>
      rw [hexp] at h
      exact passed_mono hle h
    · rfl

theorem truthy_of_alive {now : ℕ} {token : Text} (h : isTokenExpired now token = false) :
    truthy (decodeToken token) = true := by
  by_contra hfalsy
  rw [Bool.not_eq_true] at hfalsy
  simp [isTokenExpired, hfalsy] at h

variable {now : ℕ} {token : Option Text} {pathname page : Text}

theorem hop_free (h : gate pathname = .free) : hop now token pathname = none := by
  unfold gate at h
  unfold hop
  split_ifs at h ⊢ with hmatched hsign
  · rfl
  · rw [middleware, if_neg fun h => hsign h.2]
    cases hfind : protectedRoutes.find? fun route => covers route.1 pathname with
    | none => rfl
    | some route =>
      rw [hfind] at h
      cases h

theorem hop_signIn (h : gate pathname = .signIn) :
    hop now token pathname = (present token).map fun _ => dashboardPath := by
  unfold gate at h
  unfold hop
  split_ifs at h ⊢ with hmatched hsign
  -- without a token the page is looked up among the protected routes as any other is
  · have hopen : protectedRoutes.find? (fun route => covers route.1 pathname) = none := by
      rcases hsign with rfl | rfl
      · decide
      · decide
    cases hpresent : present token with
    | none => simp [middleware, hpresent, hopen]
    | some token => simp [middleware, hpresent, hsign]
  · cases hfind : protectedRoutes.find? fun route => covers route.1 pathname with
    | none =>
      rw [hfind] at h
      cases h
    | some route =>
      rw [hfind] at h
      cases h

theorem hop_guarded {requiredRole : Option Roles} (h : gate pathname = .guarded requiredRole) :
    hop now token pathname =
      match present token with
      | none => some loginPath
      | some token =>
        if isTokenExpired now token then some loginPath
        else if hasRequiredRole (decodeToken token) requiredRole then none
        else some dashboardPath := by
  unfold gate at h
  unfold hop
  split_ifs at h ⊢ with hmatched hsign
  cases hfind : protectedRoutes.find? fun route => covers route.1 pathname with
  | none =>
    rw [hfind] at h
    cases h
  | some route =>
    rw [hfind] at h
    obtain rfl := Gate.guarded.inj h
    rw [middleware, if_neg fun h => hsign h.2, hfind]
    cases present token with
    | none => rfl
    | some token =>
      dsimp only
      by_cases hexpired : isTokenExpired now token = true
      · simp [hexpired]
      -- a payload that could not be read would count as expired
      · have hpayload := truthy_of_alive (Bool.not_eq_true _ ▸ hexpired)
        by_cases hrole : hasRequiredRole (decodeToken token) route.2 = true
        · simp [hexpired, hpayload, hrole]
        · simp [hexpired, hpayload, hrole]

/-- With a token that has expired, the sign-in page and the dashboard send on to each other. -/
theorem not_comesTo_of_expired {clock : ℕ → ℕ} (hclock : Monotone clock) {token : Text}
    (hpresent : present (some token) = some token)
    (hexpired : isTokenExpired (clock 0) token = true)
    (hpath : pathname = loginPath ∨ pathname = dashboardPath) :
    ¬ComesTo (fun n => hop (clock n) (some token)) pathname page := by
  -- the invariant of the hops: the request is at one of the two pages
  refine not_comesTo (I := fun _ p => p = loginPath ∨ p = dashboardPath) ?_ hpath
  rintro n p (rfl | rfl)
  · refine ⟨dashboardPath, ?_, Or.inr rfl⟩
    rw [hop_signIn gate_loginPath, hpresent]
    rfl
  · refine ⟨loginPath, ?_, Or.inl rfl⟩
    have hstill := isTokenExpired_mono (hclock (Nat.zero_le n)) hexpired
    rw [hop_guarded gate_dashboardPath, hpresent]
    exact if_pos hstill

theorem comesTo_dashboard {clock : ℕ → ℕ} (hclock : Monotone clock) {token : Text}
    (hpresent : present (some token) = some token) :
    ComesTo (fun n => hop (clock n) (some token)) dashboardPath page ↔
      (if isTokenExpired (clock 0) token then none else some dashboardPath) = some page := by
  have hhop : hop (clock 0) (some token) dashboardPath = _ := hop_guarded gate_dashboardPath
  rw [hpresent] at hhop
  dsimp only at hhop
  by_cases hexpired : isTokenExpired (clock 0) token = true
  · rw [if_pos hexpired]
    refine ⟨fun h => absurd h ?_, fun h => by cases h⟩
    exact not_comesTo_of_expired hclock hpresent hexpired (Or.inr rfl)
  · rw [if_neg hexpired] at hhop ⊢
    rw [comesTo_of_none hhop, eq_comm, Option.some_inj]

/-- With a token, a guarded page leads to itself, to the dashboard or on without end. -/
theorem comesTo_guarded {clock : ℕ → ℕ} (hclock : Monotone clock) {token : Text}
    (hpresent : present (some token) = some token) {requiredRole : Option Roles}
    (hgate : gate pathname = .guarded requiredRole) :
    ComesTo (fun n => hop (clock n) (some token)) pathname page ↔
      (if isTokenExpired (clock 0) token then none
        else if hasRequiredRole (decodeToken token) requiredRole then some pathname
        else if isTokenExpired (clock 1) token then none
        else some dashboardPath) = some page := by
  have hlater : Monotone fun n => clock (n+1) := fun _ _ h => hclock (Nat.add_le_add_right h 1)
  have hhop : hop (clock 0) (some token) pathname = _ := hop_guarded hgate
  rw [hpresent] at hhop
  dsimp only at hhop
  by_cases hexpired : isTokenExpired (clock 0) token = true
  · rw [if_pos hexpired] at hhop ⊢
    have hagain := isTokenExpired_mono (hclock (Nat.zero_le 1)) hexpired
    rw [comesTo_of_some hhop]
    refine ⟨fun h => absurd h ?_, fun h => by cases h⟩
    exact not_comesTo_of_expired hlater hpresent hagain (Or.inl rfl)
  · rw [if_neg hexpired] at hhop ⊢
    by_cases hrole : hasRequiredRole (decodeToken token) requiredRole = true
    · rw [if_pos hrole] at hhop ⊢
      rw [comesTo_of_none hhop, eq_comm, Option.some_inj]
    · rw [if_neg hrole] at hhop ⊢
      rw [comesTo_of_some hhop]
      exact comesTo_dashboard hlater hpresent

/-- A request for a page follows the redirects of the middleware to one page, or without end: the
clock tells when each of the requests is made. -/
theorem comesTo_iff_landing {clock : ℕ → ℕ} (hclock : Monotone clock) (token : Option Text)
    (pathname page : Text) :
    ComesTo (fun n => hop (clock n) token) pathname page ↔
      landing clock token pathname = some page := by
  have hlater : Monotone fun n => clock (n+1) := fun _ _ h => hclock (Nat.add_le_add_right h 1)
  cases hgate : gate pathname with
  | free =>
    have hlanding : landing clock token pathname = some pathname := by
      simp only [landing, hgate]
    rw [comesTo_of_none (hop_free hgate), hlanding, eq_comm, Option.some_inj]
  | signIn =>
    have hhop : hop (clock 0) token pathname = _ := hop_signIn hgate
    rw [landing, hgate]
    cases hpresent : present token with
    | none =>
      rw [hpresent] at hhop
      rw [comesTo_of_none hhop, eq_comm, Option.some_inj]
    | some t =>
      obtain ⟨rfl, hsome⟩ := Option.filter_eq_some_iff.mp hpresent
      rw [hpresent] at hhop
      rw [comesTo_of_some hhop]
      exact comesTo_dashboard hlater hpresent
  | guarded requiredRole =>
    have hhop : hop (clock 0) token pathname = _ := hop_guarded hgate
    rw [landing, hgate]
    cases hpresent : present token with
    | none =>
      rw [hpresent] at hhop
      have hrest : hop (clock 1) token loginPath = none := by
        rw [hop_signIn gate_loginPath, hpresent]
        rfl
      rw [comesTo_of_some hhop, comesTo_of_none hrest, eq_comm, Option.some_inj]
    | some t =>
      obtain ⟨rfl, hsome⟩ := Option.filter_eq_some_iff.mp hpresent
      exact comesTo_guarded hclock hpresent hgate

/-- Its payload is an expiry at the first second and no role. -/
def briefToken : Text := "e30.eyJleHAiOjF9.c2ln".toList

/-- A page of the administration is asked for half a second before the token expires. The request is
sent on to the dashboard, where the token is no longer good, and from there without end. -/
theorem comesTo_briefToken :
    ¬∃ page, ComesTo (fun n => hop (500+500*n) (some briefToken)) "/admin/users".toList page := by
  rintro ⟨page, h⟩
  have hclock : Monotone fun n : ℕ => 500+500*n :=
    fun _ _ hle => Nat.add_le_add_left (Nat.mul_le_mul_left 500 hle) 500
  have hlanding : landing (fun n => 500+500*n) (some briefToken) "/admin/users".toList = none := by
    decide +kernel
  have hpage := (comesTo_iff_landing hclock (some briefToken) "/admin/users".toList page).mp h
  rw [hlanding] at hpage
  cases hpage

example : landing (fun _ => 500) (some briefToken) "/admin/users".toList = some dashboardPath := by
  decide +kernel

/-! The store of the browser. -/

namespace AuthStore

def numberText : Reading → JsString
  | .finite number => NumberText.numberToString number
  | .infinite negative => (if negative then [45] else []) ++ NumberText.infinityText
  | .nan => utf16 "NaN".toList

mutual

/-- `String(value)`. -/
def textOf : JsonTree → JsString
  | .null => utf16 "null".toList
  | .bool value => utf16 (if value then "true".toList else "false".toList)
  | .number literal => numberText (numberOf literal)
  | .string value => value
  | .array items => join items
  | .object _ => utf16 "[object Object]".toList

/-- The items between commas. An item that is null is left empty. -/
def join : List JsonTree → JsString
  | [] => []
  | [.null] => []
  | [item] => textOf item
  | .null :: rest => 44 :: join rest
  | item :: rest => textOf item ++ 44 :: join rest

end

/-- What a product takes a property for; an object is `NaN`. -/
def toNumber : Option JsonTree → Reading
  | none | some (.object _) => .nan
  | some .null | some (.bool false) => .finite positiveZero
  | some (.bool true) => NumberText.ofDecimal false 1 0
  | some (.number literal) => numberOf literal
  | some (.string value) => NumberText.toNumber value
  | some (.array items) => NumberText.toNumber (join items)

/-- The store's own reading of a token, in the standard alphabet alone. It throws without a payload
and on null. -/
def isTokenExpired (now : ℕ) (token : Text) : Bool :=
  match (payloadSegment token).bind parseSegment with
  | none | some .null => true
  | some payload => passed now (toNumber (payload.get expKey))

end AuthStore

/-- A browser with one page open. The store keeps `accessToken` across loads; the cookie lasts until
the browser is closed. -/
structure Browser where
  now : ℕ
  cookie : Option Text
  accessToken : Option Text
  token : Option Text
  isAuthenticated : Bool

namespace AuthStore

def login (access_token : Text) (b : Browser) : Browser :=
  { b with
    cookie := some access_token
    accessToken := some access_token
    token := some access_token
    isAuthenticated := true }

def register (access_token : Text) (b : Browser) : Browser := login access_token b

def setToken (token : Text) (b : Browser) : Browser :=
  { b with accessToken := some token, token := some token, isAuthenticated := true }

def clearAuth (b : Browser) : Browser :=
  { b with accessToken := none, token := none, isAuthenticated := false }

def initializeAuth (b : Browser) : Browser :=
  match present b.accessToken with
  | some accessToken =>
    if isTokenExpired b.now accessToken = false then
      { b with cookie := some accessToken, token := some accessToken, isAuthenticated := true }
    else clearAuth { b with cookie := none }
  | none => clearAuth { b with cookie := none }

/-- What it does before the page is left for `/login`. -/
def logout (b : Browser) : Browser := clearAuth { b with cookie := none }

/-- With the token that the request has been answered with, if it has. -/
def refreshAccessToken : Option Text → Browser → Browser
  | some access_token, b => setToken access_token b
  | none, b => clearAuth b

end AuthStore

inductive Move where
  | elapse (ms : ℕ)
  | login (access_token : Text)
  | register (access_token : Text)
  | verifyOtp (access_token : Text)
  | setToken (token : Text)
  | refreshAccessToken (answer : Option Text)
  | clearAuth
  | logout
  | load (pathname : Text)
  | close
  deriving DecidableEq

/-- A browser follows so many redirects. -/
def maxRedirects : ℕ := 20

/-- A page that is loaded starts the store anew and initialises it. -/
def load (pathname : Text) (b : Browser) : Browser :=
  let opened := { b with token := none, isAuthenticated := false }
  match restWithin (hop b.now b.cookie) maxRedirects pathname with
  | some page => if isMatched page then AuthStore.initializeAuth opened else opened
  | none => opened

def start (now : ℕ) : Browser := ⟨now, none, none, none, false⟩

def step (b : Browser) : Move → Browser
  | .elapse ms => { b with now := b.now+ms }
  | .login access_token => AuthStore.login access_token b
  | .register access_token => AuthStore.register access_token b
  -- the page of the one-time password leaves the store alone
  | .verifyOtp access_token => { b with cookie := some access_token }
  | .setToken token => AuthStore.setToken token b
  | .refreshAccessToken answer => AuthStore.refreshAccessToken answer b
  | .clearAuth => AuthStore.clearAuth b
  | .logout => AuthStore.logout b
  | .load pathname => load pathname b
  | .close => { b with cookie := none, token := none, isAuthenticated := false }

/-- A token that the middleware takes for expired. -/
def Dead (now : ℕ) (token : Option Text) : Prop :=
  ∃ t, present token = some t ∧ isTokenExpired now t = true

/-- A token that the store takes up when a page is loaded. -/
def Accepted (now : ℕ) (token : Option Text) : Prop :=
  ∃ t, present token = some t ∧ AuthStore.isTokenExpired now t = false

/-- No request for the page ever ends. -/
def Lost (b : Browser) (pathname : Text) : Prop :=
  ∀ page, ¬ComesTo (fun _ => hop b.now b.cookie) pathname page

/-- A load that comes to a page of the application. -/
def Loads (b : Browser) (pathname : Text) : Prop :=
  isMatched pathname = true ∧ ¬Lost b pathname

/-- The step leaves a token in the cookie that has expired, or lets it expire there. -/
def Traps (b : Browser) : Move → Prop
  | .elapse ms => ¬Dead b.now b.cookie ∧ Dead (b.now+ms) b.cookie
  | .login t | .register t | .verifyOtp t => Dead b.now (some t)
  | .load pathname => Loads b pathname ∧ Accepted b.now b.accessToken ∧ Dead b.now b.accessToken
  | .setToken _ | .refreshAccessToken _ | .clearAuth | .logout | .close => False

/-- The step takes an expired token out of the cookie. -/
def Frees (b : Browser) : Move → Prop
  | .login t | .register t | .verifyOtp t => ¬Dead b.now (some t)
  | .load pathname => Loads b pathname ∧ ¬(Accepted b.now b.accessToken ∧ Dead b.now b.accessToken)
  | .logout | .close => True
  | .elapse _ | .setToken _ | .refreshAccessToken _ | .clearAuth => False

variable {b : Browser}

theorem lost_iff_landing : Lost b pathname ↔ landing (fun _ => b.now) b.cookie pathname = none := by
  have hends (page : Text) :=
    comesTo_iff_landing (fun _ _ _ => Nat.le_refl b.now) b.cookie pathname page
  constructor
  · intro h
    apply Option.eq_none_iff_forall_ne_some.mpr
    intro page hpage
    exact h page ((hends page).mpr hpage)
  · intro h page hpage
    rw [hends, h] at hpage
    cases hpage

/-- A page is lost exactly when it is not open to all and the token of the cookie has expired. -/
theorem lost_iff_dead : Lost b pathname ↔ gate pathname ≠ .free ∧ Dead b.now b.cookie := by
  rw [lost_iff_landing, landing, Dead]
  cases hpresent : present b.cookie with
  | none => cases gate pathname <;> simp
  | some t =>
    cases gate pathname with
    | free => simp
    | signIn => simp
    | guarded requiredRole =>
      by_cases hexpired : isTokenExpired b.now t = true
      · simp [hexpired]
      · by_cases hrole : hasRequiredRole (decodeToken t) requiredRole = true
        · simp [hexpired, hrole]
        · simp [hexpired, hrole]

/-- Where the token of the cookie has not expired, a request is sent on once at most. -/
theorem hop_hop (hlive : ¬Dead b.now b.cookie) {p : Text}
    (h : hop b.now b.cookie pathname = some p) : hop b.now b.cookie p = none := by
  have hdashboard {t : Text} (hpresent : present b.cookie = some t) :
      hop b.now b.cookie dashboardPath = none := by
    have hexpired : ¬isTokenExpired b.now t = true := fun hexpired => hlive ⟨t, hpresent, hexpired⟩
    rw [hop_guarded gate_dashboardPath, hpresent]
    simp [hexpired, hasRequiredRole]
  cases hgate : gate pathname with
  | free =>
    rw [hop_free hgate] at h
    cases h
  | signIn =>
    rw [hop_signIn hgate] at h
    obtain ⟨t, hpresent, rfl⟩ := Option.map_eq_some_iff.mp h
    exact hdashboard hpresent
  | guarded requiredRole =>
    rw [hop_guarded hgate] at h
    cases hpresent : present b.cookie with
    | none =>
      rw [hpresent] at h
      obtain rfl := Option.some.inj h
      rw [hop_signIn gate_loginPath, hpresent]
      rfl
    | some t =>
      have hexpired : ¬isTokenExpired b.now t = true :=
        fun hexpired => hlive ⟨t, hpresent, hexpired⟩
      rw [hpresent] at h
      dsimp only at h
      rw [if_neg hexpired] at h
      split_ifs at h with hrole
      obtain rfl := Option.some.inj h
      exact hdashboard hpresent

/-- A browser comes to the page that its request ends at: it follows redirects enough. -/
theorem restWithin_hop : restWithin (hop b.now b.cookie) maxRedirects pathname =
    landing (fun _ => b.now) b.cookie pathname := by
  have hends (page : Text) :=
    comesTo_iff_landing (fun _ _ _ => Nat.le_refl b.now) b.cookie pathname page
  -- what is found within the limit is the landing, so it is enough that something is found
  have hsound {page : Text}
      (h : restWithin (hop b.now b.cookie) maxRedirects pathname = some page) :
      landing (fun _ => b.now) b.cookie pathname = some page :=
    (hends page).mp (comesTo_of_restWithin h)
  cases hlanding : landing (fun _ => b.now) b.cookie pathname with
  | none =>
    apply Option.eq_none_iff_forall_ne_some.mpr
    intro page hpage
    have hfound := hsound hpage
    rw [hlanding] at hfound
    cases hfound
  | some page =>
    -- a browser that lands somewhere has no expired token, and is sent on once at most
    have hfound : ∃ page, restWithin (hop b.now b.cookie) maxRedirects pathname = some page := by
      cases hhop : hop b.now b.cookie pathname with
      | none => exact ⟨pathname, restWithin_of_none hhop maxRedirects⟩
      | some p =>
        have hlive : ¬Dead b.now b.cookie := by
          intro hdead
          have hgate : gate pathname ≠ .free := by
            intro hfree
            rw [hop_free hfree] at hhop
            cases hhop
          have hlost := lost_iff_landing.mp (lost_iff_dead.mpr ⟨hgate, hdead⟩)
          rw [hlanding] at hlost
          cases hlost
        have hrest := restWithin_of_none (hop_hop hlive hhop) 19
        exact ⟨p, (restWithin_of_some hhop 19).trans hrest⟩
    obtain ⟨page', hpage'⟩ := hfound
    rw [hpage', ← hsound hpage', hlanding]

theorem isMatched_of_gate (h : gate pathname ≠ .free) : isMatched pathname = true := by
  by_contra hmatched
  rw [Bool.not_eq_true] at hmatched
  apply h
  rw [gate, if_pos hmatched]

theorem isMatched_landing {clock : ℕ → ℕ} (h : landing clock token pathname = some page) :
    isMatched page = isMatched pathname := by
  have hsame : page = pathname → isMatched page = isMatched pathname := congrArg isMatched
  have hother (hgate : gate pathname ≠ .free) (hpage : isMatched page = true) :
      isMatched page = isMatched pathname := by rw [hpage, isMatched_of_gate hgate]
  have hlogin : isMatched loginPath = true := by decide
  have hdashboard : isMatched dashboardPath = true := by decide
  unfold landing at h
  split at h
  · exact hsame (Option.some.inj h).symm
  · exact hsame (Option.some.inj h).symm
  · next hgate =>
    obtain rfl := Option.some.inj h
    exact hother (by simp [hgate]) hlogin
  · next hgate =>
    split_ifs at h
    obtain rfl := Option.some.inj h
    exact hother (by simp [hgate]) hdashboard
  · next hgate =>
    split_ifs at h
    · exact hsame (Option.some.inj h).symm
    · obtain rfl := Option.some.inj h
      exact hother (by simp [hgate]) hdashboard

theorem load_of_loads (h : Loads b pathname) :
    load pathname b =
      AuthStore.initializeAuth { b with token := none, isAuthenticated := false } := by
  obtain ⟨hmatched, hfound⟩ := h
  rw [lost_iff_landing] at hfound
  obtain ⟨page, hpage⟩ := Option.ne_none_iff_exists'.mp hfound
  have hpageMatched := (isMatched_landing hpage).trans hmatched
  simp only [load, restWithin_hop, hpage, hpageMatched, if_true]

theorem load_of_not_loads (h : ¬Loads b pathname) :
    load pathname b = { b with token := none, isAuthenticated := false } := by
  cases hpage : landing (fun _ => b.now) b.cookie pathname with
  | none => simp only [load, restWithin_hop, hpage]
  | some page =>
    have hunmatched : isMatched page ≠ true := by
      intro hmatched
      apply h
      refine ⟨(isMatched_landing hpage).symm.trans hmatched, fun hlost => ?_⟩
      rw [lost_iff_landing, hpage] at hlost
      cases hlost
    simp only [load, restWithin_hop, hpage, if_neg hunmatched]

theorem not_dead_none {now : ℕ} : ¬Dead now none := by
  rintro ⟨t, hpresent, _⟩
  cases hpresent

/-- The store puts an expired token into the cookie where it takes it for a live one. -/
theorem dead_initializeAuth :
    Dead (AuthStore.initializeAuth b).now (AuthStore.initializeAuth b).cookie ↔
      Accepted b.now b.accessToken ∧ Dead b.now b.accessToken := by
  cases hpresent : present b.accessToken with
  | none =>
    have hinit : AuthStore.initializeAuth b = AuthStore.clearAuth { b with cookie := none } := by
      rw [AuthStore.initializeAuth, hpresent]
    have hrefused : ¬Accepted b.now b.accessToken := by
      rintro ⟨t, ht, _⟩
      rw [hpresent] at ht
      cases ht
    rw [hinit]
    exact iff_of_false not_dead_none fun h => hrefused h.1
  | some t =>
    obtain ⟨htoken, _⟩ := Option.filter_eq_some_iff.mp hpresent
    by_cases haccepted : AuthStore.isTokenExpired b.now t = false
    · have hinit : AuthStore.initializeAuth b =
          { b with cookie := some t, token := some t, isAuthenticated := true } := by
        rw [AuthStore.initializeAuth, hpresent]
        exact if_pos haccepted
      rw [hinit, htoken]
      rw [htoken] at hpresent
      exact (and_iff_right ⟨t, hpresent, haccepted⟩).symm
    · have hinit : AuthStore.initializeAuth b = AuthStore.clearAuth { b with cookie := none } := by
        rw [AuthStore.initializeAuth, hpresent]
        exact if_neg haccepted
      have hrefused : ¬Accepted b.now b.accessToken := by
        rintro ⟨t', ht', hok⟩
        obtain rfl := Option.some.inj (hpresent.symm.trans ht')
        exact haccepted hok
      rw [hinit]
      exact iff_of_false not_dead_none fun h => hrefused h.1

theorem dead_elapse {now : ℕ} {token : Option Text} (ms : ℕ) (h : Dead now token) :
    Dead (now+ms) token := by
  obtain ⟨t, hpresent, hexpired⟩ := h
  exact ⟨t, hpresent, isTokenExpired_mono (Nat.le_add_right now ms) hexpired⟩

theorem dead_step (b : Browser) (m : Move) : Dead (step b m).now (step b m).cookie ↔
    Traps b m ∨ Dead b.now b.cookie ∧ ¬Frees b m := by
  -- a token that is written decides by itself
  have hwritten (t : Option Text) : Dead b.now t ↔ Dead b.now t ∨
      Dead b.now b.cookie ∧ ¬¬Dead b.now t := by
    rw [not_not]
    exact ⟨Or.inl, fun h => h.elim id And.right⟩
  cases m with
  | elapse ms =>
    simp only [step, Traps, Frees, not_false_eq_true, and_true]
    have hlater : Dead b.now b.cookie → Dead (b.now+ms) b.cookie := dead_elapse ms
    tauto
  | login t => exact hwritten (some t)
  | register t => exact hwritten (some t)
  | verifyOtp t => exact hwritten (some t)
  | setToken t => simp [step, AuthStore.setToken, Traps, Frees]
  | refreshAccessToken answer =>
    cases answer with
    | none => simp [step, AuthStore.refreshAccessToken, AuthStore.clearAuth, Traps, Frees]
    | some t => simp [step, AuthStore.refreshAccessToken, AuthStore.setToken, Traps, Frees]
  | clearAuth => simp [step, AuthStore.clearAuth, Traps, Frees]
  | logout => simp [step, AuthStore.logout, AuthStore.clearAuth, Traps, Frees, not_dead_none]
  | load pathname =>
    by_cases hloads : Loads b pathname
    · have hload : step b (.load pathname) = _ := load_of_loads hloads
      rw [hload, dead_initializeAuth]
      simp only [Traps, Frees, hloads, true_and, not_not]
      exact ⟨Or.inl, fun h => h.elim id And.right⟩
    · have hload : step b (.load pathname) = _ := load_of_not_loads hloads
      rw [hload]
      simp [Traps, Frees, hloads]
  | close => simp [step, Traps, Frees, not_dead_none]

/-- A page can no longer be loaded exactly when it is not open to all, and a step has left an
expired token in the cookie, or let it expire there, with no step since then that took it out. -/
theorem lost_run (now : ℕ) (moves : List Move) (pathname : Text) :
    Lost (run step (start now) moves) pathname ↔ gate pathname ≠ .free ∧
      ∃ pre m post, moves = pre ++ m :: post ∧ Traps (run step (start now) pre) m ∧
        Guarded step (fun b m => ¬Frees b m) (run step (start now) (pre ++ [m])) post := by
  have hlasts := lasts_iff_all step (I := fun b => Dead b.now b.cookie) dead_step
    (s := start now) not_dead_none moves
  rw [lost_iff_dead]
  exact and_congr_right fun _ => hlasts

end HubAssist.RouteMiddleware
