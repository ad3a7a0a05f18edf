import NoreplyGateway.Json
import NoreplyGateway.Message
import NoreplyGateway.Upstream.Backend

namespace NoreplyGateway

open Upstream

/-- A JSON object. -/
abbrev Upstream.Fields := List (String × Value)

/-- Python's truth value. A number is false when it is written with zeros only. -/
def Upstream.Value.truthy : Value → Bool
  | .null => false
  | .bool b => b
  | .number text => (text.toList.takeWhile (fun c ↦ c ≠ 'e' ∧ c ≠ 'E')).any (fun c ↦ '1' ≤ c ∧ c ≤ '9')
  | .string s => s ≠ ""
  | .array values => !values.isEmpty
  | .object fields => !fields.isEmpty

def Upstream.Value.string? : Value → Option String
  | .string s => some s
  | _ => none

/-- `float()`, with the exception it raises. -/
def Upstream.Value.float (lib : Library) : Value → Except String PyFloat
  | .bool b => .ok (if b then (1 : ℚ) else (0 : ℚ))
  | .number text | .string text =>
    match lib.float text with
    | some x => .ok x
    | none => .error "ValueError"
  | _ => .error "TypeError"

namespace Oauth

structure LoginFlow where
  state : String
  nonce : String
  verifier : String
  expires : Time
  deriving DecidableEq

/-- A credential record. The program writes every field; a record of an earlier
version, or an empty one, lacks some. -/
structure Record where
  fingerprint : Option String := none
  mode : Option String := none
  username : Option String := none
  defaultSender : Option String := none
  refreshToken : Option Value := none
  lastRefresh : Option Time := none

def Record.isEmpty (r : Record) : Bool :=
  r.fingerprint.isNone && r.mode.isNone && r.username.isNone && r.defaultSender.isNone &&
    r.refreshToken.isNone && r.lastRefresh.isNone

/-- What a manager is made for. The client secret is read from the environment. -/
structure Setup where
  account : AccountConfig
  fingerprint : String
  allowAnyUsername : Bool
  secret : Option String

def backendName : BackendKind → String
  | .ews => "ews"
  | .graph => "graph"

def accountFingerprint (lib : Library) (a : AccountConfig) : String :=
  let values := [casefold a.sender, casefold a.username, backendName a.backend, a.tenantId,
    a.clientId, a.redirectUri]
  lib.sha256 (Json.dumps (if a.sendShared then values ++ ["Mail.Send.Shared"] else values))

structure TokenManager extends Tokens where
  record : Record := {}

def authenticationRequired {α : Type} (message : String) : Except DeliveryError α :=
  .error (.authenticationRequired message)

/-- `_read_json`. -/
def readJson (lib : Library) : PostResult → Except DeliveryError Fields
  | .raised (.other name) _ => .error (.unexpected name)
  | .raised _ _ =>
    .error (.retryable "Identity provider connection failed" (30 : ℚ) true)
  | .answered response =>
    match readLimited 1048576 response.parts with
    | none => authenticationRequired "Oversized identity provider response"
    | some content =>
      if response.status ∈ [429, 500, 502, 503, 504] then
        .error (.retryable "Identity provider temporarily unavailable" (30 : ℚ) true)
      else match lib.loads content with
        | .error .valueError => authenticationRequired "Invalid identity provider response"
        | .error (.other name) => .error (.unexpected name)
        | .ok (.object result) =>
          if response.status ≥ 300 ∨ (result.lookup "error").isSome then
            match lib.str ((result.lookup "error").getD (.string "identity_request_failed")) with
            | .error .valueError => .error (.unexpected "ValueError")
            | .error (.other name) => .error (.unexpected name)
            | .ok code =>
              authenticationRequired ("Microsoft login: " ++ safeCode ['_', '.', '-'] code)
          else .ok result
        | .ok _ => authenticationRequired "Invalid identity provider response"

/-- `hmac.compare_digest` on text. -/
def compareDigest (a b : String) : Except DeliveryError Bool :=
  if a.toList.all (·.toNat < 128) ∧ b.toList.all (·.toNat < 128) then .ok (a = b)
  else .error (.unexpected "TypeError")

/-- The flow of `begin_login`, from its random tokens. -/
def beginLogin (state nonce verifier : String) (now : Time) : LoginFlow :=
  ⟨state, nonce, verifier, now + 600⟩

/-- The checks of `complete_login` before it takes the lock. They give the
authorization code. -/
def checkResponse (flow : LoginFlow) (response : List (String × String)) (now : Time) :
    Except DeliveryError String :=
  if flow.expires < now then authenticationRequired "Expired login or OAuth state mismatch"
  else match compareDigest ((response.lookup "state").getD "") flow.state with
    | .error e => .error e
    | .ok false => authenticationRequired "Expired login or OAuth state mismatch"
    | .ok true =>
      let code := (response.lookup "code").getD ""
      if (response.lookup "error").isSome ∨ code = "" then
        authenticationRequired "Microsoft login was not completed"
      else .ok code

def addClientSecret (setup : Setup) (data : Fields) : Except DeliveryError Fields :=
  if setup.account.clientSecretEnv = "" then .ok data
  else
    let secret := setup.secret.getD ""
    if secret = "" then
      authenticationRequired "Configured OAuth client-secret environment variable is missing"
    else .ok (data ++ [("client_secret", .string secret)])

/-- The request that redeems an authorization code. -/
def exchangeData (setup : Setup) (flow : LoginFlow) (code : String) : Except DeliveryError Fields :=
  addClientSecret setup
    [("client_id", .string setup.account.clientId), ("grant_type", .string "authorization_code"),
      ("code", .string code), ("redirect_uri", .string setup.account.redirectUri),
      ("scope", .string setup.account.scope), ("code_verifier", .string flow.verifier)]

/-- `a or b or c` on the entries of the claims. -/
def claimedUsername (claims : Fields) : Value :=
  let get key := (claims.lookup key).getD .null
  if (get "preferred_username").truthy then get "preferred_username"
  else if (get "upn").truthy then get "upn"
  else get "unique_name"

/-- The end of `_verify_id_token`, from the claims of a token whose signature,
issuer, audience and times are in order. -/
def verifyClaims (lib : Library) (setup : Setup) (nonce : String) (claims : Fields) :
    Except DeliveryError Fields :=
  let failed := authenticationRequired ("ID token validation failed, or the signed-in account " ++
    "does not match the configured login username")
  match lib.str ((claims.lookup "nonce").getD .null) with
  | .error _ => failed
  | .ok text =>
    match compareDigest text nonce with
    | .ok true =>
      match claimedUsername claims with
      | .string username =>
        if setup.allowAnyUsername = false ∧
            casefold username ≠ casefold setup.account.username then failed
        else .ok claims
      | _ => failed
    | _ => failed

/-- `_profile_address`. -/
def profileAddress (lib : Library) (email : EmailPackage) (post : PostResult) :
    Except DeliveryError String :=
  let invalid := authenticationRequired
    "Could not read a valid address from the signed-in Microsoft account"
  match post with
  | .raised (.other name) _ => .error (.unexpected name)
  | .raised _ _ => invalid
  | .answered response =>
    match readLimited 1048576 response.parts with
    | none => invalid
    | some content =>
      if response.status ≠ 200 then
        authenticationRequired "Could not read the signed-in Microsoft address"
      else match lib.loads content with
        | .error .valueError => invalid
        | .error (.other name) => .error (.unexpected name)
        | .ok (.object profile) =>
          let mail := (profile.lookup "mail").getD .null
          let address := if mail.truthy then mail
            else (profile.lookup "userPrincipalName").getD .null
          match address with
          | .string s =>
            match mailbox email s false with
            | .ok a => .ok a
            | .error _ => invalid
          | _ => invalid
        | .ok _ => invalid

/-- The access token of a response, if it is a bearer token. -/
def bearerToken (result : Fields) : Option String :=
  match result.lookup "access_token", (result.lookup "token_type").getD (.string "Bearer") with
  | some (.string token), .string kind =>
    if token ≠ "" ∧ casefold kind = "bearer" then some token else none
  | _, _ => none

/-- `_save_result` up to its write: the token, and the record that is to be
persisted. -/
def saveResult (setup : Setup) (record : Record) (result : Fields) (mode : String)
    (username defaultSender : String) (now : Time) : Except DeliveryError (String × Record) :=
  match bearerToken result with
  | none => authenticationRequired "Token endpoint did not return a bearer access token"
  | some token =>
    let refreshToken := (result.lookup "refresh_token").orElse fun _ ↦ record.refreshToken
    if (refreshToken.getD .null).truthy = false then
      authenticationRequired "No refresh credential is available"
    else .ok (token, {
      fingerprint := some setup.fingerprint
      mode := some mode
      username := some (if username = "" then record.username.getD setup.account.username
        else username)
      defaultSender := some (if defaultSender = "" then
        record.defaultSender.getD setup.account.sender else defaultSender)
      refreshToken := refreshToken
      lastRefresh := some now })

/-- `_save_result` after its write. The token is installed before a lifetime
that is no number raises. -/
def install (lib : Library) (m : TokenManager) (result : Fields) (token : String) (now : Time) :
    TokenManager × Except DeliveryError Unit :=
  let m := { m with accessToken := token }
  match ((result.lookup "expires_in").getD (.number "3600")).float lib with
  | .error name => (m, .error (.unexpected name))
  | .ok lifetime =>
    let bounded := PyFloat.min (PyFloat.max lifetime (1 : ℚ)) (86400 : ℚ)
    ({ m with expires := PyFloat.add now bounded }, .ok ())

/-- The request that refreshes the access token. -/
def refreshData (setup : Setup) (record : Record) : Except DeliveryError Fields :=
  let data : Fields := [("client_id", .string setup.account.clientId),
    ("grant_type", .string "refresh_token"), ("refresh_token", record.refreshToken.getD .null)]
  addClientSecret setup (if record.mode.getD "v2" = "legacy_v1" then
      data ++ [("resource", .string "https://outlook.office365.com/"),
        ("redirect_uri", .string setup.account.redirectUri)]
    else data ++ [("scope", .string setup.account.scope)])

/-- The start of `get_token`: the cached token, or the refresh request. -/
def getToken (setup : Setup) (m : TokenManager) (now : Time) :
    Except DeliveryError (String ⊕ Fields) :=
  if m.needsLogin = true ∨ (m.record.refreshToken.getD .null).truthy = false then
    authenticationRequired (if m.lastError = "" then "Sign in to the configured Microsoft account"
      else m.lastError)
  else if m.accessToken ≠ "" ∧ PyFloat.lt (now + 60 : ℚ) m.expires then .ok (.inl m.accessToken)
  else (refreshData setup m.record).map .inr

/-- What `get_token` keeps of an exception of the exchange or of `_save_result`. -/
def refreshFailed (m : TokenManager) : DeliveryError → TokenManager
  | .authenticationRequired message | .additionalAuthenticationRequired message =>
    { m with lastError := message, needsLogin := true }
  | _ => m

/-- The end of `complete_login`. -/
def loggedIn (m : TokenManager) : TokenManager :=
  { m with needsLogin := false, lastError := "", rejections := 0, rejectedDigest := "" }

/-- The end of `disconnect`. -/
def disconnected (m : TokenManager) : TokenManager :=
  { m with
    record := {}
    accessToken := ""
    expires := (0 : ℚ)
    needsLogin := true
    lastError := "Account disconnected locally" }

end Oauth

end NoreplyGateway
