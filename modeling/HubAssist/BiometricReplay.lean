import HubAssist.BiometricModel
import HubAssist.ChallengeLog

/-! Which logins of a run answer a challenge: one that was issued to the user and that no earlier
login has used. -/
namespace HubAssist.Biometric
open Checks KeyedTable JsonValue ChallengeLog RunSystem

variable (lib : WebAuthn) (config : Config)

/-- The challenge inside the signed client data of a response. -/
def signedChallenge (response : Json) : Option String := (lib.read response).map (·.challenge)

/-- What a call adds to the log: the challenge of the options that it gives out, or the one that
was signed for the token that it gives out. -/
def events (s : BiometricState) (a : Action) : List (Event String (Option String)) :=
  match a.call, (exec lib config a.env a.call s).2 with
  | .generateAuthenticationOptions userId, .ok (.authenticationOptions options) =>
    [.issued userId (some options.challenge)]
  | .verifyAuthentication userId response, .ok _ =>
    [.used userId (response.bind (signedChallenge lib))]
  | _, _ => []

/-- A response with an assertion that is valid whatever its challenge: it is signed for this site
under the stored key, its counter has moved or is not in use, and it names the challenge that it
was signed over. -/
structure Presents (s : BiometricState) (userId : String) (response : Json) (user : Auth.User)
    (credential : WebAuthnCredential) (signed : SignedAssertion) : Prop where
  hasUser : findUser s userId = some user
  hasCredential : findCredential config s userId (response.get "id") = some credential
  reads : lib.read response = some signed
  names : namedChallenge response = some (.string signed.challenge)
  origin : signed.origin = config.origin
  rpId : signed.rpId = config.rpID
  signature : lib.signs response credential.publicKey = true
  counter : credential.counter < signed.counter ∨ signed.counter = 0 ∧ credential.counter = 0

/-- An assertion that is presented answers a challenge that is outstanding for its user. -/
def Answers (sl : BiometricState × List (Event String (Option String))) (a : Action) : Prop :=
  ∀ userId response user credential signed, a.call = .verifyAuthentication userId (some response) →
    Presents lib config sl.1 userId response user credential signed →
    Outstanding sl.2 userId (some signed.challenge)

variable {lib config} {s : BiometricState} {userId : String} {response : Json} {user : Auth.User}
  {credential : WebAuthnCredential} {signed : SignedAssertion}

theorem authenticationTarget_eq_ok {assertionResponse : Option Json} :
    authenticationTarget config userId assertionResponse s = .ok (user, response, credential) ↔
      findUser s userId = some user ∧ assertionResponse = some response ∧
      response.isNull = false ∧
      findCredential config s userId (response.get "id") = some credential := by
  simp only [authenticationTarget, bind_eq_ok, getOr_eq_ok, failIf_eq_ok, pure_eq_ok]
  constructor
  · rintro ⟨_, huser, _, hresponse, _, hnull, _, hcredential, heq⟩
    obtain ⟨rfl, rfl, rfl⟩ : _ ∧ _ ∧ _ := by simpa using heq
    exact ⟨huser, hresponse, by simpa using hnull, hcredential⟩
  · rintro ⟨huser, hresponse, hnull, hcredential⟩
    exact ⟨user, huser, response, hresponse, (), by simp [hnull], credential, hcredential, rfl⟩

theorem checkAssertion_eq_ok {newCounter : ℕ} :
    checkAssertion lib config response credential = .ok newCounter ↔
      ∃ signed, lib.read response = some signed ∧
        (authenticationCheck config response credential).Admits signed ∧
        lib.signs response credential.publicKey = true ∧ newCounter = signed.counter := by
  simp only [checkAssertion, bind_eq_ok, failIf_eq_ok, pure_eq_ok]
  constructor
  · rintro ⟨⟨verified, counter⟩, hcheck, _, hverified, rfl⟩
    obtain rfl : verified = true := by simpa using hverified
    exact (lib.verified_iff _ _).mp hcheck
  · intro h
    exact ⟨⟨true, newCounter⟩, (lib.verified_iff _ _).mpr h, (), by simp, rfl⟩

/-- The state that an accepted login leaves behind: the counter of the credential is the one
that was signed. -/
def afterLogin (s : BiometricState) (credential : WebAuthnCredential) (newCounter : ℕ) :
    BiometricState :=
  { s with
    credentials := save WebAuthnCredential.id s.credentials { credential with counter := newCounter } }

theorem Presents.accepted (h : Presents lib config s userId response user credential signed) :
    verifyAuthentication lib config userId (some response) s =
      (afterLogin s credential signed.counter,
        .ok (.loggedIn ⟨userId, user.email, user.role⟩ user)) := by
  have hnull : response.isNull = false := by
    obtain ⟨clientData, hclientData, _⟩ := Option.bind_eq_some_iff.mp h.names
    exact isNull_of_get hclientData
  have htarget := authenticationTarget_eq_ok.mpr ⟨h.hasUser, rfl, hnull, h.hasCredential⟩
  have hcheck : checkAssertion lib config response credential = .ok signed.counter :=
    checkAssertion_eq_ok.mpr ⟨signed, h.reads, ⟨h.names, h.origin, h.rpId, h.counter⟩,
      h.signature, rfl⟩
  simp only [verifyAuthentication, htarget, hcheck]
  rfl

/-- A login is accepted for an assertion that is presented, and otherwise leaves the state. -/
theorem verifyAuthentication_cases (lib : WebAuthn) (config : Config) (s : BiometricState)
    (userId : String) (assertionResponse : Option Json) :
    (∃ e, verifyAuthentication lib config userId assertionResponse s = (s, .error e)) ∨
      ∃ response user credential signed, assertionResponse = some response ∧
        Presents lib config s userId response user credential signed := by
  cases htarget : authenticationTarget config userId assertionResponse s with
  | error e => exact .inl ⟨e, by simp only [verifyAuthentication, htarget]⟩
  | ok target =>
    obtain ⟨user, response, credential⟩ := target
    obtain ⟨huser, hresponse, _, hcredential⟩ := authenticationTarget_eq_ok.mp htarget
    cases hcheck : checkAssertion lib config response credential with
    | error text => exact .inl ⟨_, by simp only [verifyAuthentication, htarget, hcheck]; rfl⟩
    | ok newCounter =>
      obtain ⟨signed, hread, ⟨hnamed, horigin, hrpId, hcounter⟩, hsigns, _⟩ :=
        checkAssertion_eq_ok.mp hcheck
      exact .inr ⟨response, user, credential, signed, hresponse,
        ⟨huser, hcredential, hread, hnamed, horigin, hrpId, hsigns, hcounter⟩⟩

/-- A response in the form that browsers send, with the client data inside `response` only, is
never accepted. -/
theorem browser_response_refused (hform : response.get "clientDataJSON" = none) :
    ∃ e, verifyAuthentication lib config userId (some response) s = (s, .error e) := by
  rcases verifyAuthentication_cases lib config s userId (some response) with
    h | ⟨response', _, _, _, heq, hpresents⟩
  · exact h
  · obtain rfl := Option.some.inj heq
    have hnames := hpresents.names
    rw [namedChallenge, hform] at hnames
    cases hnames

/-- A call that is no login presents nothing, and what it logs is no use. -/
theorem sound_events_of_no_login {log : List (Event String (Option String))} {env : Env}
    {call : Call} (hlog : Sound log)
    (hcall : ∀ userId response, call ≠ .verifyAuthentication userId response)
    (hevents : ∀ e ∈ events lib config s ⟨env, call⟩,
      ∃ userId challenge, e = .issued userId challenge) :
    Sound (log ++ events lib config s ⟨env, call⟩) ↔ Answers lib config (s, log) ⟨env, call⟩ := by
  apply iff_of_true
  · exact hlog.append_issued hevents
  · intro userId response _ _ _ hlogin
    exact absurd hlogin (hcall userId (some response))

/-- Logging a call keeps the log sound exactly when what the call presents answers a challenge. -/
theorem sound_events_iff {log : List (Event String (Option String))} {a : Action}
    (hlog : Sound log) :
    Sound (log ++ events lib config s a) ↔ Answers lib config (s, log) a := by
  obtain ⟨env, call⟩ := a
  cases call with
  | generateRegistrationOptions userId =>
    apply sound_events_of_no_login hlog
    · intro _ _ h
      cases h
    · simp [events]
  | verifyRegistration userId response =>
    apply sound_events_of_no_login hlog
    · intro _ _ h
      cases h
    · simp [events]
  | generateAuthenticationOptions userId =>
    apply sound_events_of_no_login hlog
    · intro _ _ h
      cases h
    · intro e he
      simp only [events] at he
      split at he
      · exact ⟨_, _, List.mem_singleton.mp he⟩
      · next heq _ => cases heq
      · simp at he
  | verifyAuthentication userId assertionResponse =>
    rcases verifyAuthentication_cases lib config s userId assertionResponse with
      ⟨e, hrefused⟩ | ⟨response, user, credential, signed, rfl, hpresents⟩
    · have hevents :
          events lib config s ⟨env, .verifyAuthentication userId assertionResponse⟩ = [] := by
        simp only [events, exec, hrefused]
      rw [hevents, List.append_nil]
      apply iff_of_true hlog
      intro userId response user credential signed hcall hpresents
      cases hcall
      -- what is presented would have been accepted
      have hreply := congrArg Prod.snd (hrefused.symm.trans hpresents.accepted)
      cases hreply
    · have hevents : events lib config s ⟨env, .verifyAuthentication userId (some response)⟩ =
          [.used userId (some signed.challenge)] := by
        simp only [events, exec, hpresents.accepted, Option.bind_some, signedChallenge,
          hpresents.reads, Option.map_some]
      rw [hevents, sound_concat]
      constructor
      · rintro ⟨_, hused⟩ userId response user credential signed' hcall hpresents'
        cases hcall
        obtain rfl := Option.some.inj (hpresents'.reads.symm.trans hpresents.reads)
        exact hused userId _ rfl
      · intro hanswers
        refine ⟨hlog, fun _ _ heq => ?_⟩
        cases heq
        exact hanswers userId response user credential signed rfl hpresents

/-- The counter of the credential that a response names, once its assertion is accepted, is never
below the one that was signed. -/
def Spent (config : Config) (userId : String) (response : Json) (n : ℕ) (s : BiometricState) :
    Prop :=
  ∃ credential, findCredential config s userId (response.get "id") = some credential ∧
    n ≤ credential.counter

theorem findCredential_afterLogin (hkeyed : Keyed WebAuthnCredential.id s.credentials)
    (hmem : credential ∈ s.credentials) (newCounter : ℕ) (userId : String) (id : Option Json) :
    findCredential config (afterLogin s credential newCounter) userId id =
      (findCredential config s userId id).map fun row =>
        if row.id = credential.id then { credential with counter := newCounter } else row := by
  apply hkeyed.find?_save hmem (rfl : { credential with counter := newCounter }.id = credential.id)
  cases id with
  | none => rfl
  | some value => cases value <;> rfl

/-- What a call does to the tables. -/
inductive Effect (lib : WebAuthn) (config : Config) (s : BiometricState) : BiometricState → Prop
  | same : Effect lib config s s
  | registered (row : WebAuthnCredential) (hfresh : row.id ∉ s.credentials.map WebAuthnCredential.id) :
    Effect lib config s { s with credentials := s.credentials ++ [row] }
  | loggedIn {userId : String} {response : Json} {user : Auth.User}
    {credential : WebAuthnCredential} {signed : SignedAssertion}
    (hpresents : Presents lib config s userId response user credential signed) :
    Effect lib config s (afterLogin s credential signed.counter)

theorem step_effect (s : BiometricState) (a : Action) :
    Effect lib config s (step lib config s a) := by
  obtain ⟨env, call⟩ := a
  cases call with
  | generateRegistrationOptions userId =>
    simp only [step, exec, generateRegistrationOptions]
    split <;> exact .same
  | verifyRegistration userId attestationResponse =>
    simp only [step, exec, verifyRegistration]
    split
    · exact .same
    · split
      · exact .same
      · split
        · exact .same
        · next hok =>
          obtain ⟨registration, _, hcreate⟩ := bind_eq_ok.mp hok
          simp only [createCredential, bind_eq_ok, failIf_eq_ok, pure_eq_ok] at hcreate
          obtain ⟨_, hfresh, rfl⟩ := hcreate
          exact .registered _ hfresh
  | generateAuthenticationOptions userId =>
    simp only [step, exec, generateAuthenticationOptions]
    split
    · exact .same
    · split_ifs <;> exact .same
  | verifyAuthentication userId assertionResponse =>
    rcases verifyAuthentication_cases lib config s userId assertionResponse with
      ⟨e, hrefused⟩ | ⟨response, user, credential, signed, rfl, hpresents⟩
    · simp only [step, exec, hrefused]
      exact .same
    · simp only [step, exec, hpresents.accepted]
      exact .loggedIn hpresents

theorem Effect.keyed {s' : BiometricState} (h : Effect lib config s s')
    (hkeyed : Keyed WebAuthnCredential.id s.credentials) :
    Keyed WebAuthnCredential.id s'.credentials := by
  cases h with
  | same => exact hkeyed
  | registered row hfresh => exact save_fresh hfresh ▸ hkeyed.save row
  | loggedIn hpresents => exact hkeyed.save _

/-- No call lowers the counter that a response is compared with. -/
theorem Effect.spent {s' : BiometricState} {n : ℕ} (h : Effect lib config s s')
    (hkeyed : Keyed WebAuthnCredential.id s.credentials)
    (hspent : Spent config userId response n s) : Spent config userId response n s' := by
  obtain ⟨found, hfound, hle⟩ := hspent
  cases h with
  | same => exact ⟨found, hfound, hle⟩
  | registered row hfresh =>
    refine ⟨found, ?_, hle⟩
    -- the new row is behind the one that is found
    rw [findCredential, List.find?_append, ← findCredential, hfound, Option.some_or]
  | @loggedIn userId' response' user' credential' signed' hpresents =>
    have hmem := List.mem_of_find?_eq_some hpresents.hasCredential
    have hafter : findCredential config (afterLogin s credential' signed'.counter) userId
        (response.get "id") =
        (findCredential config s userId (response.get "id")).map fun row =>
          if row.id = credential'.id then { credential' with counter := signed'.counter }
          else row :=
      findCredential_afterLogin hkeyed hmem signed'.counter userId (response.get "id")
    rw [hfound, Option.map_some] at hafter
    refine ⟨_, hafter, ?_⟩
    split_ifs with hid
    · have hsame := hkeyed.eq_of_key (List.mem_of_find?_eq_some hfound) hmem hid
      have hcounter := hpresents.counter
      subst hsame
      dsimp only
      omega
    · exact hle

/-- An assertion is accepted again only where authenticators keep no counter: in any run, the one
that was accepted first and is presented again has counter zero. -/
theorem replay_counter_zero {user' : Auth.User} {credential' : WebAuthnCredential} {a : Action}
    {as : List Action} (hkeyed : Keyed WebAuthnCredential.id s.credentials)
    (hfirst : Presents lib config s userId response user credential signed)
    (hcall : a.call = .verifyAuthentication userId (some response))
    (hagain : Presents lib config (run (step lib config) s (a :: as)) userId response user'
      credential' signed) : signed.counter = 0 := by
  have hstep : step lib config s a = afterLogin s credential signed.counter := by
    rw [step, hcall, exec, hfirst.accepted]
  have hmem := List.mem_of_find?_eq_some hfirst.hasCredential
  have hspent : Spent config userId response signed.counter (step lib config s a) := by
    rw [hstep]
    refine ⟨{ credential with counter := signed.counter }, ?_, le_rfl⟩
    rw [findCredential_afterLogin hkeyed hmem, hfirst.hasCredential, Option.map_some, if_pos rfl]
  have hkept := run_invariant_all (step lib config)
    (I := fun s => Keyed WebAuthnCredential.id s.credentials ∧
      Spent config userId response signed.counter s)
    (fun s a h => ⟨(step_effect s a).keyed h.1, (step_effect s a).spent h.1 h.2⟩)
    ⟨(step_effect s a).keyed hkeyed, hspent⟩ as
  obtain ⟨found, hfound, hle⟩ := hkept.2
  obtain rfl := Option.some.inj (hfound.symm.trans hagain.hasCredential)
  have hcounter := hagain.counter
  omega

/-- The tokens of a run are given out for challenges that were outstanding exactly when every
assertion that is presented answers such a challenge. -/
theorem logins_fresh_iff (s : BiometricState) (as : List Action) :
    Sound (trace (step lib config) (events lib config) s as) ↔
      Guarded (logged (step lib config) (events lib config)) (Answers lib config) (s, []) as := by
  have h := sound_trace_iff (step lib config) (events lib config)
    (fun s log a hlog => sound_events_iff (s := s) (a := a) hlog) (s := s) sound_nil as
  rwa [List.nil_append] at h

/-- The value is the text `text`. -/
def isText (text : String) : Option Json → Bool
  | some (.string t) => t = text
  | _ => false

theorem isText_iff {text : String} {value : Option Json} :
    isText text value = true ↔ value = some (.string text) := by
  unfold isText
  split
  · simp
  · next h =>
    simp only [Bool.false_eq_true, false_iff]
    exact h text

/-- A library that knows one assertion by its signature, and the key it verifies under. -/
def libraryOf (signature publicKey : String) (signed : SignedAssertion) : WebAuthn where
  read response :=
    if isText signature ((response.get "response").bind (·.get "signature")) then some signed
    else none
  signs _ key := key = publicKey
  verifyRegistrationResponse _ _ _ _ := .error "Error: not an attestation"
  verifyAuthenticationResponse check := do
    failIf (isText signature ((check.response.get "response").bind (·.get "signature")) = false)
      "Error: Credential response was invalid"
    failIf (isText signed.challenge check.expectedChallenge = false)
      "Error: Unexpected authentication response challenge"
    failIf (signed.origin ≠ check.expectedOrigin) "Error: Unexpected authentication response origin"
    failIf (signed.rpId ≠ check.expectedRPID) "Error: Unexpected RP ID hash"
    failIf (¬(check.credential.counter < signed.counter ∨
      signed.counter = 0 ∧ check.credential.counter = 0)) "Error: Response counter value was lower"
    return ⟨check.credential.publicKey = publicKey, signed.counter⟩
  verified_iff check newCounter := by
    simp only [bind_eq_ok, failIf_eq_ok, pure_eq_ok, AuthenticationCheck.Admits, ← isText_iff]
    constructor
    · rintro ⟨_, hread, _, hnamed, _, horigin, _, hrpId, _, hcounter, heq⟩
      obtain ⟨hkey, rfl⟩ := VerifiedAuthentication.mk.inj heq
      refine ⟨signed, if_pos (by simpa using hread), ⟨by simpa using hnamed, by simpa using horigin,
        by simpa using hrpId, not_not.mp hcounter⟩, hkey, rfl⟩
    · rintro ⟨signed', hread, ⟨hnamed, horigin, hrpId, hcounter⟩, hkey, rfl⟩
      split_ifs at hread with hknown
      obtain rfl := Option.some.inj hread
      exact ⟨(), by simp [hknown], (), by simp [hnamed], (), by simp [horigin], (), by simp [hrpId],
        (), not_not.mpr hcounter, by rw [hkey]⟩

/-- A member whose security key keeps no counter. -/
def member : Auth.User where
  id := "u"
  firstName := none
  lastName := none
  email := "a@hub"
  passwordHash := ""
  role := .member
  otp := none
  otpExpiry := none
  otpAttempts := 0
  otpInvalidatedAt := none
  otpResendCount := 0
  isVerified := true

def memberState : BiometricState := ⟨[member], [⟨"row", "u", "key", "cHVi", 0⟩]⟩

def localConfig : Config := ⟨none, none, fun _ => ""⟩

def memberAssertion : SignedAssertion := ⟨"c", "http://localhost:3000", "localhost", 0⟩

/-- What the browser sends, with the client data once more in front, where it is looked for. -/
def replayedResponse : Json :=
  .object [("id", .string "key"), ("clientDataJSON", .object [("challenge", .string "c")]),
    ("response", .object [("signature", .string "MEUC")])]

/-- Options for the member, one login, and the same response once more. -/
def replay : List Action :=
  [⟨⟨"c", "row2"⟩, .generateAuthenticationOptions "u"⟩,
   ⟨⟨"c2", "row2"⟩, .verifyAuthentication "u" (some replayedResponse)⟩,
   ⟨⟨"c2", "row2"⟩, .verifyAuthentication "u" (some replayedResponse)⟩]

/-- The second token is given out for a challenge that the first has used. -/
theorem logins_not_fresh_replay :
    let lib := libraryOf "MEUC" "cHVi" memberAssertion
    trace (step lib localConfig) (events lib localConfig) memberState replay =
        [.issued "u" (some "c"), .used "u" (some "c"), .used "u" (some "c")] ∧
      ¬Sound (trace (step lib localConfig) (events lib localConfig) memberState replay) := by
  have htrace : trace (step (libraryOf "MEUC" "cHVi" memberAssertion) localConfig)
      (events (libraryOf "MEUC" "cHVi" memberAssertion) localConfig) memberState replay =
        [.issued "u" (some "c"), .used "u" (some "c"), .used "u" (some "c")] := by
    decide
  refine ⟨htrace, fun hsound => ?_⟩
  rw [htrace] at hsound
  exact absurd hsound.nodup_used (by decide)

end HubAssist.Biometric
