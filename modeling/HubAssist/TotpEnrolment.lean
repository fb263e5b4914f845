import HubAssist.Base32
import HubAssist.Base64
import HubAssist.Checks
import HubAssist.RunSystem
import HubAssist.TotpCodes

/-! The enrolment of the TotpController. What `randomBytes`, `Math.random` and the clock give comes
with each call. -/
namespace HubAssist.Totp
open JsText DecimalText Base32 Checks RunSystem

structure User where
  email : String
  totpEnabled : Bool
  totpSecret : Option JsString
  backupCodes : Option (List JsString)

abbrev Users := String → Option User

inductive HttpError where
  | badRequest (message : String)
  | notFound (message : String)
  deriving DecidableEq, Repr

def generateSecret (random : Vector UInt8 20) : JsString := base32Encode random.toList

def hexDigits : List Char := "0123456789ABCDEF".toList

/-- What `encodeURIComponent` leaves as it is. -/
def unreserved (byte : UInt8) : Bool :=
  (Char.ofNat byte.toNat).isAlphanum || "-_.!~*'()".toList.contains (Char.ofNat byte.toNat)

def encodeURIComponent (text : String) : List Char :=
  (Base64.utf8Bytes text.toList).flatMap fun byte =>
    if unreserved byte then [Char.ofNat byte.toNat]
    else ['%', hexDigits.getD (byte.toNat/16) '0', hexDigits.getD (byte.toNat%16) '0']

/-- `generateQrCodeUri` with the issuer that is its default. -/
def generateQrCodeUri (secret : JsString) (email : String) : JsString :=
  let issuer := encodeURIComponent "HubAssist"
  utf16 ("otpauth://totp/".toList ++ issuer ++ ":".toList ++ encodeURIComponent email ++
      "?secret=".toList) ++ secret ++
    utf16 ("&issuer=".toList ++ issuer ++ "&algorithm=SHA1&digits=6&period=30".toList)

structure Setup where
  secret : JsString
  qrCodeUri : JsString
  manualEntryKey : JsString

def setupTotp (users : Users) (sub : String) (random : Vector UInt8 20) :
    Except HttpError Setup := do
  let user ← getOr (users sub) (.badRequest "User not found")
  failIf (user.totpEnabled = true) (.badRequest "TOTP is already enabled for this account")
  let secret := generateSecret random
  return { secret, qrCodeUri := generateQrCodeUri secret user.email, manualEntryKey := secret }

/-- The texts are those of `Math.random().toString(36)`. -/
def generateBackupCodes (unicode : CaseMapping) (count : ℕ) (texts : ℕ → JsString) :
    List JsString :=
  (List.range count).map fun i => (((texts i).drop 2).take 8).flatMap unicode.toUpperCase

/-- `UsersService.update`, where the data is assigned by `assign`. -/
def update (users : Users) (sub : String) (assign : User → User) : Except HttpError Users := do
  let user ← getOr (users sub) (.notFound "User not found")
  return Function.update users sub (some (assign user))

section
variable (unicode : CaseMapping) (hotp : Hotp) (users : Users) (sub : String) (nowMs : ℤ)
  (code : JsString)

def enableTotp (random : Vector UInt8 20) (texts : ℕ → JsString) :
    Except HttpError (Users × List JsString) := do
  let user ← getOr (users sub) (.badRequest "User not found")
  failIf (user.totpEnabled = true) (.badRequest "TOTP is already enabled for this account")
  let secret := generateSecret random
  failIf (verifyToken hotp nowMs secret code = false)
    (.badRequest "Invalid TOTP code. Please try again.")
  let backupCodes := generateBackupCodes unicode 10 texts
  let users ← update users sub fun user =>
    { user with totpEnabled := true, totpSecret := secret, backupCodes := backupCodes }
  return (users, backupCodes)

/-- The secret of a user for whom TOTP is enabled. -/
def activeSecret (user : User) : Option JsString :=
  if user.totpEnabled = false ∨ user.totpSecret.getD [] = [] then none else user.totpSecret

structure Verification where
  message : String
  valid : Bool
  deriving DecidableEq, Repr

def verifyTotp : Except HttpError Verification := do
  let user ← getOr (users sub) (.badRequest "User not found")
  let secret ← getOr (activeSecret user) (.badRequest "TOTP is not enabled for this account")
  failIf (verifyToken hotp nowMs secret code = false) (.badRequest "Invalid TOTP code")
  return { message := "TOTP code verified successfully", valid := true }

def disableTotp : Except HttpError Users := do
  let user ← getOr (users sub) (.badRequest "User not found")
  let secret ← getOr (activeSecret user) (.badRequest "TOTP is not enabled for this account")
  failIf (verifyToken hotp nowMs secret code = false)
    (.badRequest "Invalid TOTP code. Cannot disable TOTP.")
  update users sub fun user =>
    { user with totpEnabled := false, totpSecret := none, backupCodes := none }

def getTotpStatus : Except HttpError Bool := do
  let user ← getOr (users sub) (.badRequest "User not found")
  return user.totpEnabled

end

/-- A request of a user, with the time and what it draws. -/
inductive Call where
  | setup (sub : String) (random : Vector UInt8 20)
  | enable (sub : String) (nowMs : ℤ) (code : JsString) (random : Vector UInt8 20)
    (texts : ℕ → JsString)
  | verify (sub : String) (nowMs : ℤ) (code : JsString)
  | disable (sub : String) (nowMs : ℤ) (code : JsString)
  | status (sub : String)

def Call.sub : Call → String
  | .setup sub _ | .enable sub _ _ _ _ | .verify sub _ _ | .disable sub _ _ | .status sub => sub

/-- The secrets that each user has been shown, and those that an enrolment has to keep. -/
structure Enrolments where
  shown : String → List JsString
  bound : String → List JsString

variable (unicode : CaseMapping) (hotp : Hotp)

def step (users : Users) : Call → Users
  | .enable sub nowMs code random texts =>
    match enableTotp unicode hotp users sub nowMs code random texts with
    | .ok (after, _) => after
    | .error _ => users
  | .disable sub nowMs code => orRollback users (disableTotp hotp users sub nowMs code)
  | .setup _ _ | .verify _ _ _ | .status _ => users

instance (nowMs : ℤ) (secret token : JsString) : Decidable (ValidCode hotp nowMs secret token) :=
  have : Decidable (∀ u ∈ token, isDigit u = true) := List.decidableBAll _ token
  inferInstanceAs (Decidable (_ ∧ _ ∧ _))

/-- The secrets shown to a user for whom the code is valid. -/
def vouched (enrolments : Enrolments) (sub : String) (nowMs : ℤ) (code : JsString) :
    List JsString :=
  (enrolments.shown sub).filter fun secret => ValidCode hotp nowMs secret code

/-- There is the user, and has no TOTP. -/
def Unenrolled (users : Users) (sub : String) : Prop :=
  (users sub).any (fun user => !user.totpEnabled) = true

instance (users : Users) (sub : String) : Decidable (Unenrolled users sub) :=
  inferInstanceAs (Decidable (_ = true))

/-- A setup shows a secret. Enabling binds the secrets for which the code is valid, and disabling
frees them. -/
def record (users : Users) (call : Call) (enrolments : Enrolments) : Enrolments :=
  match call with
  | .setup sub random =>
    match setupTotp users sub random with
    | .ok setup =>
      { enrolments with
        shown := Function.update enrolments.shown sub (setup.secret :: enrolments.shown sub) }
    | .error _ => enrolments
  | .enable sub nowMs code _ _ =>
    if Unenrolled users sub then
      { enrolments with
        bound := Function.update enrolments.bound sub
          (vouched hotp enrolments sub nowMs code ++ enrolments.bound sub) }
    else enrolments
  | .disable sub nowMs code =>
    match disableTotp hotp users sub nowMs code with
    | .ok _ => { enrolments with bound := Function.update enrolments.bound sub [] }
    | .error _ => enrolments
  | .verify _ _ _ | .status _ => enrolments

/-- The secret of the user is stored. -/
def Stores (users : Users) (sub : String) (secret : JsString) : Prop :=
  ∃ user, users sub = some user ∧ user.totpEnabled = true ∧ user.totpSecret = some secret

/-- Every secret that the code vouches for when TOTP is enabled is the one that is drawn there. -/
def DrawsShown (s : Users × Enrolments) : Call → Prop
  | .enable sub nowMs code random _ => Unenrolled s.1 sub →
      ∀ secret ∈ vouched hotp s.2 sub nowMs code, generateSecret random = secret
  | _ => True

/-- TOTP is enabled, with every secret that the code vouches for. -/
def Enrols (s : Users × Enrolments) : Call → Prop
  | .enable sub nowMs code random texts => Unenrolled s.1 sub →
      ∀ secret ∈ vouched hotp s.2 sub nowMs code, ∃ after backupCodes,
        enableTotp unicode hotp s.1 sub nowMs code random texts = .ok (after, backupCodes) ∧
          Stores after sub secret
  | _ => True

/-- A secret that is bound is stored, and its codes are verified at any time. -/
def Binds (s : Users × Enrolments) : Prop :=
  ∀ sub, ∀ secret ∈ s.2.bound sub, Stores s.1 sub secret ∧
    ∀ nowMs code, ValidCode hotp nowMs secret code → verifyTotp hotp s.1 sub nowMs code =
      .ok { message := "TOTP code verified successfully", valid := true }

/-- What is kept: a secret that is bound is stored, and is not empty. -/
def BoundStored (s : Users × Enrolments) : Prop :=
  ∀ sub, ∀ secret ∈ s.2.bound sub, Stores s.1 sub secret ∧ secret ≠ []

/-- A secret has 32 letters. -/
theorem generateSecret_ne_nil (random : Vector UInt8 20) : generateSecret random ≠ [] := by
  intro h
  have hlength := congrArg List.length h
  rw [generateSecret, length_base32Encode, Vector.length_toList] at hlength
  simp at hlength

variable {unicode hotp}

theorem unenrolled_iff {users : Users} {sub : String} :
    Unenrolled users sub ↔ ∃ user, users sub = some user ∧ user.totpEnabled = false := by
  simp [Unenrolled, Option.any_eq_true]

theorem not_unenrolled_of_stores {users : Users} {sub : String} {secret : JsString}
    (h : Stores users sub secret) : ¬Unenrolled users sub := by
  obtain ⟨user, huser, henabled, _⟩ := h
  rw [unenrolled_iff]
  rintro ⟨other, hother, hdisabled⟩
  obtain rfl := Option.some.inj (huser.symm.trans hother)
  simp [henabled] at hdisabled

theorem stores_congr {users after : Users} {sub : String} {secret : JsString}
    (h : after sub = users sub) : Stores after sub secret ↔ Stores users sub secret := by
  rw [Stores, h, Stores]

theorem update_eq_ok {users after : Users} {sub : String} {assign : User → User} :
    update users sub assign = .ok after ↔ ∃ user, users sub = some user ∧
      after = Function.update users sub (some (assign user)) := by
  simp only [update, bind_eq_ok, getOr_eq_ok, pure_eq_ok, eq_comm (a := after)]

/-- TOTP is enabled for a user without it, when the code is accepted for the secret that is
drawn. -/
theorem enableTotp_eq_ok {users after : Users} {sub : String} {nowMs : ℤ} {code : JsString}
    {random : Vector UInt8 20} {texts : ℕ → JsString} {backupCodes : List JsString} :
    enableTotp unicode hotp users sub nowMs code random texts = .ok (after, backupCodes) ↔
      Unenrolled users sub ∧ verifyToken hotp nowMs (generateSecret random) code = true ∧
        backupCodes = generateBackupCodes unicode 10 texts ∧ ∃ user, users sub = some user ∧
          after = Function.update users sub (some
            { user with totpEnabled := true, totpSecret := some (generateSecret random),
                        backupCodes := some backupCodes }) := by
  simp only [enableTotp, bind_eq_ok, getOr_eq_ok, failIf_eq_ok, update_eq_ok, pure_eq_ok,
    unenrolled_iff, Prod.mk.injEq, exists_const, Bool.not_eq_true, Bool.not_eq_false]
  constructor
  · rintro ⟨user, huser, hdisabled, haccepted, _, ⟨_, huser', rfl⟩, rfl, rfl⟩
    obtain rfl := Option.some.inj (huser.symm.trans huser')
    exact ⟨⟨user, huser, hdisabled⟩, haccepted, rfl, user, huser, rfl⟩
  · rintro ⟨⟨user, huser, hdisabled⟩, haccepted, rfl, _, huser', rfl⟩
    obtain rfl := Option.some.inj (huser.symm.trans huser')
    exact ⟨user, huser, hdisabled, haccepted, _, ⟨user, huser, rfl⟩, rfl, rfl⟩

theorem disableTotp_eq_ok {users after : Users} {sub : String} {nowMs : ℤ} {code : JsString}
    (h : disableTotp hotp users sub nowMs code = .ok after) :
    ∃ user, after = Function.update users sub (some user) := by
  simp only [disableTotp, bind_eq_ok, update_eq_ok] at h
  obtain ⟨_, _, _, _, _, _, user, _, hafter⟩ := h
  exact ⟨_, hafter⟩

/-- A valid code is verified for the secret that is stored. -/
theorem verifyTotp_of_stores {users : Users} {sub : String} {secret code : JsString} {nowMs : ℤ}
    (h : Stores users sub secret) (hsecret : secret ≠ [])
    (hcode : ValidCode hotp nowMs secret code) : verifyTotp hotp users sub nowMs code =
      .ok { message := "TOTP code verified successfully", valid := true } := by
  obtain ⟨user, huser, henabled, hstored⟩ := h
  have hactive : activeSecret user = some secret := by
    rw [activeSecret, if_neg (by simp [henabled, hstored, hsecret]), hstored]
  have haccepted := verifyToken_of_validCode hcode
  simp [verifyTotp, huser, hactive, haccepted, getOr, failIf, ok_bind]

theorem BoundStored.binds {s : Users × Enrolments} (h : BoundStored s) : Binds hotp s := by
  intro sub secret hbound
  obtain ⟨hstores, hsecret⟩ := h sub secret hbound
  exact ⟨hstores, fun nowMs code hcode => verifyTotp_of_stores hstores hsecret hcode⟩

theorem mem_vouched {enrolments : Enrolments} {sub : String} {nowMs : ℤ} {code secret : JsString} :
    secret ∈ vouched hotp enrolments sub nowMs code ↔
      secret ∈ enrolments.shown sub ∧ ValidCode hotp nowMs secret code := by
  simp [vouched]

/-- When the secret drawn is the one that the code vouches for, it is stored. -/
theorem enrols_of_drawsShown {s : Users × Enrolments} {call : Call} (h : DrawsShown hotp s call) :
    Enrols unicode hotp s call := by
  cases call with
  | enable sub nowMs code random texts =>
    intro hun secret hvouched
    obtain ⟨user, huser, _⟩ := unenrolled_iff.mp hun
    have hdrawn := h hun secret hvouched
    have haccepted := verifyToken_of_validCode (mem_vouched.mp hvouched).2
    rw [← hdrawn] at haccepted ⊢
    exact ⟨_, _, enableTotp_eq_ok.mpr ⟨hun, haccepted, rfl, user, huser, rfl⟩,
      _, Function.update_self .., rfl, rfl⟩
  | setup | verify | disable | status => trivial

theorem step_enable {users after : Users} {sub : String} {nowMs : ℤ} {code : JsString}
    {random : Vector UInt8 20} {texts : ℕ → JsString} {backupCodes : List JsString}
    (h : enableTotp unicode hotp users sub nowMs code random texts = .ok (after, backupCodes)) :
    step unicode hotp users (.enable sub nowMs code random texts) = after := by
  rw [step, h]

theorem step_enable_of_not {users : Users} {sub : String} {nowMs : ℤ} {code : JsString}
    {random : Vector UInt8 20} {texts : ℕ → JsString} (h : ¬∃ after backupCodes,
      enableTotp unicode hotp users sub nowMs code random texts = .ok (after, backupCodes)) :
    step unicode hotp users (.enable sub nowMs code random texts) = users := by
  rw [step]
  cases hcall : enableTotp unicode hotp users sub nowMs code random texts with
  | error e => rfl
  | ok result => exact absurd ⟨_, _, hcall⟩ h

/-- A call does nothing to other users. -/
theorem step_of_ne (users : Users) {call : Call} {other : String} (h : other ≠ call.sub) :
    step unicode hotp users call other = users other := by
  cases call with
  | enable sub nowMs code random texts =>
    by_cases hok : ∃ after backupCodes,
        enableTotp unicode hotp users sub nowMs code random texts = .ok (after, backupCodes)
    · obtain ⟨after, backupCodes, hok⟩ := hok
      obtain ⟨_, _, _, user, _, hafter⟩ := enableTotp_eq_ok.mp hok
      rw [step_enable hok, hafter]
      exact Function.update_of_ne h ..
    · rw [step_enable_of_not hok]
  | disable sub nowMs code =>
    rw [step]
    cases hcall : disableTotp hotp users sub nowMs code with
    | error e => rfl
    | ok after =>
      obtain ⟨user, hafter⟩ := disableTotp_eq_ok hcall
      rw [hafter]
      exact Function.update_of_ne h ..
  | setup | verify | status => rfl

theorem bound_of_ne (users : Users) {call : Call} (enrolments : Enrolments) {other : String}
    (h : other ≠ call.sub) : (record hotp users call enrolments).bound other =
      enrolments.bound other := by
  cases call with
  | setup sub random =>
    rw [record]
    split <;> rfl
  | enable sub nowMs code random texts =>
    rw [record]
    split
    · exact Function.update_of_ne h ..
    · rfl
  | disable sub nowMs code =>
    rw [record]
    split
    · exact Function.update_of_ne h ..
    · rfl
  | verify | status => rfl

/-- A call whose draws are the secrets shown keeps what is bound. -/
theorem BoundStored.later {s : Users × Enrolments} {call : Call} (h : BoundStored s)
    (hdraws : DrawsShown hotp s call) :
    BoundStored (withHistory (step unicode hotp) (record hotp) s call) := by
  obtain ⟨users, enrolments⟩ := s
  intro sub' secret hbound
  simp only [withHistory] at hbound ⊢
  by_cases hsub : sub' = call.sub
  · subst hsub
    cases call with
    | setup sub random =>
      have hsame : (record hotp users (.setup sub random) enrolments).bound =
          enrolments.bound := by
        rw [record]
        split <;> rfl
      exact h _ secret (hsame ▸ hbound)
    | enable sub nowMs code random texts =>
      by_cases hun : Unenrolled users sub
      · simp only [record, if_pos hun, Call.sub, Function.update_self, List.mem_append] at hbound
        rcases hbound with hvouched | hold
        · -- the secret is the one that has been drawn, and the call has gone through
          have henrols : Enrols unicode hotp (users, enrolments)
              (.enable sub nowMs code random texts) := enrols_of_drawsShown hdraws
          obtain ⟨after, backupCodes, hok, hstores⟩ := henrols hun secret hvouched
          rw [step_enable hok]
          exact ⟨hstores, hdraws hun secret hvouched ▸ generateSecret_ne_nil random⟩
        · exact absurd hun (not_unenrolled_of_stores (h sub secret hold).1)
      · simp only [record, if_neg hun] at hbound
        rw [step_enable_of_not]
        · exact h sub secret hbound
        · rintro ⟨after, backupCodes, hok⟩
          exact hun (enableTotp_eq_ok.mp hok).1
    | disable sub nowMs code =>
      cases hcall : disableTotp hotp users sub nowMs code with
      | error e =>
        simp only [record, hcall] at hbound
        simp only [step, hcall]
        exact h sub secret hbound
      | ok after =>
        -- nothing is bound any more
        simp [record, hcall, Call.sub] at hbound
    | verify sub nowMs code => exact h sub secret hbound
    | status sub => exact h sub secret hbound
  · rw [bound_of_ne users enrolments hsub] at hbound
    obtain ⟨hstores, hsecret⟩ := h sub' secret hbound
    exact ⟨(stores_congr (step_of_ne users hsub)).mpr hstores, hsecret⟩

/-- What an enabling call has bound afterwards, it has drawn. -/
theorem drawsShown_of_binds {s : Users × Enrolments} {call : Call}
    (h : Binds hotp (withHistory (step unicode hotp) (record hotp) s call)) :
    DrawsShown hotp s call := by
  obtain ⟨users, enrolments⟩ := s
  cases call with
  | enable sub nowMs code random texts =>
    intro hun secret hvouched
    have hbound : secret ∈ (record hotp users (.enable sub nowMs code random texts)
        enrolments).bound sub := by
      simp only [record, if_pos hun, Function.update_self]
      exact List.mem_append_left _ hvouched
    obtain ⟨hstores, _⟩ := h sub secret hbound
    simp only [withHistory] at hstores
    by_cases hok : ∃ after backupCodes,
        enableTotp unicode hotp users sub nowMs code random texts = .ok (after, backupCodes)
    · obtain ⟨after, backupCodes, hok⟩ := hok
      obtain ⟨_, _, _, user, _, hafter⟩ := enableTotp_eq_ok.mp hok
      rw [step_enable hok, hafter] at hstores
      obtain ⟨stored, hstored, _, hsecret⟩ := hstores
      rw [Function.update_self] at hstored
      obtain rfl := Option.some.inj hstored
      exact Option.some.inj hsecret
    · rw [step_enable_of_not hok] at hstores
      exact absurd hun (not_unenrolled_of_stores hstores)
  | setup | verify | disable | status => trivial

/-- Nothing has been shown. -/
def noEnrolments : Enrolments := ⟨fun _ => [], fun _ => []⟩

/-- From any users on: an enabling call goes through with every secret that was shown and for which
its code is valid, and this secret is stored and its codes are verified until TOTP is disabled,
exactly when each such call draws the secret shown. -/
theorem enrolment_iff (unicode : CaseMapping) (hotp : Hotp) (users : Users) (calls : List Call) :
    (Guarded (withHistory (step unicode hotp) (record hotp)) (Enrols unicode hotp)
        (users, noEnrolments) calls ∧
      Always (withHistory (step unicode hotp) (record hotp)) (Binds hotp)
        (users, noEnrolments) calls) ↔
      Guarded (withHistory (step unicode hotp) (record hotp)) (DrawsShown hotp)
        (users, noEnrolments) calls := by
  have hstart : BoundStored (users, noEnrolments) := fun sub secret hbound => by cases hbound
  have hiff : Always (withHistory (step unicode hotp) (record hotp)) (Binds hotp)
        (users, noEnrolments) calls ↔
      Guarded (withHistory (step unicode hotp) (record hotp)) (DrawsShown hotp)
        (users, noEnrolments) calls :=
    always_iff_guarded_of_kept _ (fun _ hs => hs.binds) (fun _ _ hs hdraws => hs.later hdraws)
      (fun _ _ _ hbinds => drawsShown_of_binds hbinds) hstart
  constructor
  · rintro ⟨_, hbinds⟩
    exact hiff.mp hbinds
  · intro hdraws
    exact ⟨guarded_of_invariant _ (J := fun _ => True) (fun _ _ _ => trivial)
      (fun _ _ _ h => enrols_of_drawsShown h) trivial hdraws, hiff.mpr hdraws⟩

/-- The codes of secrets that begin with A are 1, all others are 2. -/
def initialHotp : Hotp where
  code secret _ := if secret.head? = some 65 then 1 else 2
  lt secret _ := by split <;> decide

def newMember : Users := fun sub =>
  if sub = "u1" then some { email := "member@example.com", totpEnabled := false, totpSecret := none,
                            backupCodes := none }
  else none

def zeroBytes : Vector UInt8 20 := .replicate 20 0

def onesBytes : Vector UInt8 20 := .replicate 20 255

/-- Letters outside ASCII stay as they are. -/
def asciiCase : CaseMapping where
  toUpperCase u := [if IsLower u then u-32 else u]
  ascii _ _ := rfl

def setupThenEnable : List Call :=
  [.setup "u1" zeroBytes,
    .enable "u1" 1700000000000 (utf16 "000001".toList) onesBytes fun _ => []]

/-- The code of the secret shown, which begins with A, is refused for another secret. -/
theorem shown_secret_refused :
    ¬(Guarded (withHistory (step asciiCase initialHotp) (record initialHotp))
        (Enrols asciiCase initialHotp) (newMember, noEnrolments) setupThenEnable ∧
      Always (withHistory (step asciiCase initialHotp) (record initialHotp)) (Binds initialHotp)
        (newMember, noEnrolments) setupThenEnable) := by
  rintro ⟨⟨_, henrols, _⟩, _⟩
  obtain ⟨after, backupCodes, hok, _⟩ := henrols (by decide) (generateSecret zeroBytes)
    (mem_vouched.mpr ⟨List.mem_cons_self, by decide⟩)
  have haccepted := (enableTotp_eq_ok.mp hok).2.1
  exact absurd haccepted (by decide)

end HubAssist.Totp
