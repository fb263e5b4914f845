import HubAssist.AuthModel
import HubAssist.JsonValue

/-! The BiometricService of the backend: registering WebAuthn credentials and logging in with
them, over the tables of users and credentials. Every call is atomic. The text of a response is
given as what `JSON.parse` makes of it, `none` where that throws. -/
namespace HubAssist.Biometric
open Checks KeyedTable JsonValue
open Auth (User UserRole)

/-- A row of the credentials table. The public key is stored as base64 and read back. -/
structure WebAuthnCredential where
  id : String
  userId : String
  credentialId : String
  publicKey : String
  counter : ℕ
  deriving DecidableEq, Repr

structure BiometricState where
  users : List User
  credentials : List WebAuthnCredential
  deriving DecidableEq, Repr

/-- What an authenticator has signed for a login: the client data, and the RP id and the
signature counter of the authenticator data. -/
structure SignedAssertion where
  challenge : String
  origin : String
  rpId : String
  counter : ℕ
  deriving DecidableEq, Repr

/-- The arguments of `verifyAuthenticationResponse`. The expected challenge may be undefined, or
anything that a JSON value can hold. -/
structure AuthenticationCheck where
  response : Json
  expectedChallenge : Option Json
  expectedOrigin : String
  expectedRPID : String
  credential : WebAuthnCredential

/-- What the library asks of a signed assertion, the signature apart. -/
def AuthenticationCheck.Admits (check : AuthenticationCheck) (signed : SignedAssertion) : Prop :=
  check.expectedChallenge = some (.string signed.challenge) ∧
    signed.origin = check.expectedOrigin ∧ signed.rpId = check.expectedRPID ∧
    (check.credential.counter < signed.counter ∨
      signed.counter = 0 ∧ check.credential.counter = 0)

structure VerifiedAuthentication where
  verified : Bool
  newCounter : ℕ
  deriving DecidableEq, Repr

structure VerifiedRegistration where
  verified : Bool
  credentialId : String
  publicKey : String
  counter : ℕ
  deriving DecidableEq, Repr

/-- The WebAuthn library: how it reads a response, whether the signature of a response verifies
under a public key, and its two checks, which throw with a text or report. -/
structure WebAuthn where
  read : Json → Option SignedAssertion
  signs : Json → String → Bool
  verifyRegistrationResponse : Json → Option Json → String → String →
    Except String VerifiedRegistration
  verifyAuthenticationResponse : AuthenticationCheck → Except String VerifiedAuthentication
  verified_iff : ∀ check newCounter,
    verifyAuthenticationResponse check = .ok ⟨true, newCounter⟩ ↔
      ∃ signed, read check.response = some signed ∧ check.Admits signed ∧
        signs check.response check.credential.publicKey = true ∧ newCounter = signed.counter

/-- The environment variables, and how the database driver writes a value that is not a string
where it is compared with a text column. -/
structure Config where
  webauthnRpId : Option String
  webauthnOrigin : Option String
  columnText : Json → String

/-- A variable that is missing or empty gives way to the default. -/
def orDefault (variableValue : Option String) (default : String) : String :=
  match variableValue with
  | none => default
  | some value => if value = "" then default else value

def rpName : String := "HubAssist"

def Config.rpID (config : Config) : String := orDefault config.webauthnRpId "localhost"

def Config.origin (config : Config) : String :=
  orDefault config.webauthnOrigin "http://localhost:3000"

inductive HttpError where
  | badRequest (message : String)
  | unauthorized (message : String)
  | typeError (message : String)
  deriving DecidableEq, Repr

/-- What a call takes from outside: the challenge that the library draws, and the id of a new
row. -/
structure Env where
  challenge : String
  rowId : String
  deriving DecidableEq, Repr

structure RegistrationOptions where
  challenge : String
  rpName : String
  rpID : String
  userID : String
  userName : String
  userDisplayName : String
  attestationType : String
  deriving DecidableEq, Repr

structure AllowedCredential where
  id : String
  transports : List String
  deriving DecidableEq, Repr

structure AuthenticationOptions where
  challenge : String
  rpID : String
  allowCredentials : List AllowedCredential
  deriving DecidableEq, Repr

/-- The payload of the token that a login gives. -/
structure JwtPayload where
  sub : String
  email : String
  role : UserRole
  deriving DecidableEq, Repr

inductive Reply where
  | registrationOptions (options : RegistrationOptions)
  | registered (success : Bool) (message : String)
  | authenticationOptions (options : AuthenticationOptions)
  | loggedIn (accessToken : JwtPayload) (user : User)
  deriving DecidableEq, Repr

abbrev Outcome := BiometricState × Except HttpError Reply

def transports : List String := ["usb", "nfc", "ble", "internal"]

def findUser (s : BiometricState) (userId : String) : Option User := findRow User.id s.users userId

/-- `findOne` with the user and the credential id that a response names. A condition whose value
is undefined or null is left out. -/
def WebAuthnCredential.matchesId (config : Config) (credential : WebAuthnCredential) :
    Option Json → Bool
  | none => true
  | some .null => true
  | some (.string credentialId) => credential.credentialId = credentialId
  | some value => credential.credentialId = config.columnText value

def findCredential (config : Config) (s : BiometricState) (userId : String)
    (credentialId : Option Json) : Option WebAuthnCredential :=
  s.credentials.find? fun credential =>
    credential.userId = userId && credential.matchesId config credentialId

/-- `response.clientDataJSON?.challenge`: the challenge that the response itself names. -/
def namedChallenge (response : Json) : Option Json :=
  (response.get "clientDataJSON").bind fun clientData => clientData.get "challenge"

section
variable (lib : WebAuthn) (config : Config)

def generateRegistrationOptions (env : Env) (userId : String) (s : BiometricState) : Outcome :=
  match findUser s userId with
  | none => (s, .error (.badRequest "User not found"))
  | some user =>
    (s, .ok (.registrationOptions
      ⟨env.challenge, rpName, config.rpID, userId, user.email, user.email, "direct"⟩))

/-- The checked part of `verifyRegistration`; the texts are those of what is thrown. -/
def checkAttestation (attestation : Json) : Except String VerifiedRegistration := do
  failIf (attestation.isNull = true) ("TypeError: " ++ nullRead "clientDataJSON")
  let verification ← lib.verifyRegistrationResponse attestation (namedChallenge attestation)
    config.origin config.rpID
  failIf (verification.verified = false)
    "BadRequestException: Registration verification failed"
  return verification

/-- A new row has an id of its own. -/
def createCredential (env : Env) (userId : String) (registration : VerifiedRegistration)
    (s : BiometricState) : Except String BiometricState := do
  failIf (env.rowId ∈ s.credentials.map WebAuthnCredential.id) "QueryFailedError: duplicate key"
  return { s with credentials := s.credentials ++
    [⟨env.rowId, userId, registration.credentialId, registration.publicKey, registration.counter⟩] }

def verifyRegistration (env : Env) (userId : String) (attestationResponse : Option Json)
    (s : BiometricState) : Outcome :=
  match findUser s userId with
  | none => (s, .error (.badRequest "User not found"))
  | some _ =>
    match attestationResponse with
    | none => (s, .error (.badRequest "Invalid attestation response"))
    | some attestation =>
      match checkAttestation lib config attestation >>= fun registration =>
        createCredential env userId registration s with
      | .error text => (s, .error (.badRequest ("Registration verification failed: " ++ text)))
      | .ok s' => (s', .ok (.registered true "Biometric registration successful"))

def generateAuthenticationOptions (env : Env) (userId : String) (s : BiometricState) : Outcome :=
  match findUser s userId with
  | none => (s, .error (.badRequest "User not found"))
  | some _ =>
    let credentials := s.credentials.filter fun credential => credential.userId = userId
    if credentials = [] then
      (s, .error (.badRequest "No biometric credentials registered for this user"))
    else
      (s, .ok (.authenticationOptions ⟨env.challenge, config.rpID,
        credentials.map fun credential => ⟨credential.credentialId, transports⟩⟩))

/-- The part of `verifyAuthentication` before the library is asked. -/
def authenticationTarget (userId : String) (assertionResponse : Option Json)
    (s : BiometricState) : Except HttpError (User × Json × WebAuthnCredential) := do
  let user ← getOr (findUser s userId) (.unauthorized "User not found")
  let assertion ← getOr assertionResponse (.badRequest "Invalid assertion response")
  failIf (assertion.isNull = true) (.typeError (nullRead "id"))
  let credential ← getOr (findCredential config s userId (assertion.get "id"))
    (.unauthorized "Credential not found")
  return (user, assertion, credential)

/-- The challenge that the library is to expect is the one that the assertion names. -/
def authenticationCheck (assertion : Json) (credential : WebAuthnCredential) :
    AuthenticationCheck :=
  ⟨assertion, namedChallenge assertion, config.origin, config.rpID, credential⟩

/-- The checked part of `verifyAuthentication`, with the new counter as its result. -/
def checkAssertion (assertion : Json) (credential : WebAuthnCredential) : Except String ℕ := do
  let verification ← lib.verifyAuthenticationResponse
    (authenticationCheck config assertion credential)
  failIf (verification.verified = false)
    "UnauthorizedException: Authentication verification failed"
  return verification.newCounter

def verifyAuthentication (userId : String) (assertionResponse : Option Json)
    (s : BiometricState) : Outcome :=
  match authenticationTarget config userId assertionResponse s with
  | .error e => (s, .error e)
  | .ok (user, assertion, credential) =>
    match checkAssertion lib config assertion credential with
    | .error text => (s, .error (.unauthorized ("Authentication verification failed: " ++ text)))
    | .ok newCounter =>
      ({ s with
          credentials :=
            save WebAuthnCredential.id s.credentials { credential with counter := newCounter } },
        .ok (.loggedIn ⟨userId, user.email, user.role⟩ user))

inductive Call where
  | generateRegistrationOptions (userId : String)
  | verifyRegistration (userId : String) (attestationResponse : Option Json)
  | generateAuthenticationOptions (userId : String)
  | verifyAuthentication (userId : String) (assertionResponse : Option Json)

def exec (env : Env) : Call → BiometricState → Outcome
  | .generateRegistrationOptions userId, s => generateRegistrationOptions config env userId s
  | .verifyRegistration userId attestationResponse, s =>
    verifyRegistration lib config env userId attestationResponse s
  | .generateAuthenticationOptions userId, s => generateAuthenticationOptions config env userId s
  | .verifyAuthentication userId assertionResponse, s =>
    verifyAuthentication lib config userId assertionResponse s

/-- One request of a run, with what its handling takes from outside. -/
structure Action where
  env : Env
  call : Call

def step (s : BiometricState) (a : Action) : BiometricState := (exec lib config a.env a.call s).1

end

end HubAssist.Biometric
