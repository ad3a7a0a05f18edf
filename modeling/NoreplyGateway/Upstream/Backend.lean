import NoreplyGateway.Upstream.Library

namespace NoreplyGateway.Upstream

/-- The exceptions that leave `send`. The additional sender raises a class of
its own for its authentication failures. -/
inductive DeliveryError
  | retryable (message : String) (delay : PyFloat) (globalCooldown : Bool)
  | authenticationRequired (message : String)
  | additionalAuthenticationRequired (message : String)
  | permanent (message : String)
  | uncertain (message : String)
  | unexpected (name : String)

/-- The part of `TokenManager` that the outcome of a request reads and writes. -/
structure Tokens where
  accessToken : String := ""
  expires : PyFloat := (0 : ℚ)
  rejections : ℕ := 0
  rejectedDigest : String := ""
  needsLogin : Bool := false
  lastError : String := ""

def acceptedToken (tokens : Tokens) : Tokens :=
  { tokens with rejections := 0, rejectedDigest := "" }

/-- `TokenManager.rejected_token`, which always raises. -/
def rejectedToken (lib : Library) (tokens : Tokens) (rejected : String) : DeliveryError × Tokens :=
  if tokens.accessToken ≠ "" ∧ tokens.accessToken ≠ rejected then
    (.retryable "An older access token was rejected" (3 : ℚ) true, tokens)
  else
    let digest := lib.sha256 rejected
    let tokens₁ := if digest ≠ tokens.rejectedDigest then
      { tokens with rejectedDigest := digest, rejections := tokens.rejections + 1 } else tokens
    let tokens₂ := { tokens₁ with accessToken := "", expires := (0 : ℚ) }
    if tokens₂.rejections > 1 then
      let message := "Microsoft rejected renewed credentials; sign in again"
      (.authenticationRequired message, { tokens₂ with needsLogin := true, lastError := message })
    else (.retryable "Microsoft requested a fresh access token" (3 : ℚ) true, tokens₂)

structure Response where
  status : ℕ
  retryAfter : Option String
  parts : List Octets

inductive PostError
  | clientConnectorError
  | connectionTimeoutError
  | clientError
  | timeoutError
  | other (name : String)
  deriving DecidableEq

/-- The end of a POST and of reading its response. An exception may come
before or after the request was written. -/
inductive PostResult
  | raised (error : PostError) (written : Bool)
  | answered (response : Response)

def messagesNamespace : String :=
  "\x7bhttp://schemas.microsoft.com/exchange/services/2006/messages\x7d"

def responseMessages (root : Xml) : List Xml :=
  root.findall (messagesNamespace ++ "CreateItemResponseMessage")

def responseCode (item : Xml) : String := item.findtext (messagesNamespace ++ "ResponseCode") ""

/-- The longest delay that the document asks for. -/
def backOff (lib : Library) (root : Xml) (delay : PyFloat) : PyFloat :=
  root.iter.foldl (fun delay value ↦
    if value.get "Name" = some "BackOffMilliseconds" then
      let text := value.text.getD ""
      match lib.float (if text = "" then "0" else text) with
      | some x => PyFloat.max delay (x.divBy 1000)
      | none => delay
    else delay) delay

/-- `_interpret_ews`. -/
def interpretEws (lib : Library) (status : ℕ) (content : Octets) (delay : PyFloat) :
    Except DeliveryError Unit :=
  match lib.fromstring content with
  | none => .error (.uncertain "Unparseable EWS response; submission outcome unknown")
  | some root =>
    match responseMessages root with
    | [item] =>
      let code := responseCode item
      if status = 200 ∧ item.get "ResponseClass" = some "Success" ∧ code = "NoError" then .ok ()
      else
        let delay := backOff lib root delay
        let safe := safeCode ['_'] code
        if code ∈ ["ErrorServerBusy", "ErrorExceededConnectionCount",
            "ErrorMailboxStoreUnavailable", "ErrorInsufficientResources",
            "ErrorInternalServerTransientError"] then
          .error (.retryable ("EWS " ++ safe) delay true)
        else if code ∈ ["ErrorAccessDenied", "ErrorInvalidClientSecurityContext",
            "ErrorInvalidUserSid"] then
          .error (.authenticationRequired ("EWS " ++ safe))
        else if code ∈ ["ErrorQuotaExceeded", "ErrorMessageSubmissionBlocked",
            "ErrorSendQuotaExceeded"] then
          .error (.retryable ("EWS " ++ safe) (PyFloat.max delay (3600 : ℚ)) true)
        else if code ∈ ["ErrorTimeoutExpired", "ErrorInternalServerError", ""] then
          .error (.uncertain ("EWS " ++ (if safe = "" then "unknown error" else safe) ++
            "; review before retry"))
        else .error (.permanent ("EWS " ++ safe))
    | _ => .error (.uncertain "Unexpected EWS response structure; submission outcome unknown")

/-- The error code in a Graph body. It is empty where the body has another
shape, which raises a ValueError or an AttributeError. -/
def graphCode (lib : Library) (content : Octets) : Except DeliveryError Value :=
  match lib.loads content with
  | .error .valueError => .ok (.string "")
  | .error (.other name) => .error (.unexpected name)
  | .ok body =>
    .ok (((body.get? "error" (.object [])).bind (·.get? "code" (.string ""))).getD (.string ""))

def textOf (lib : Library) (code : Value) : Except DeliveryError String :=
  match lib.str code with
  | .error .valueError => .ok ""
  | .error (.other name) => .error (.unexpected name)
  | .ok text => .ok text

/-- A 403: only Graph can say that the From address was the reason. -/
def accessDenied (lib : Library) (kind : BackendKind) (content : Octets) : DeliveryError :=
  let denied := DeliveryError.authenticationRequired
    "Upstream access denied; verify consent, account permissions, and service availability"
  match kind with
  | .ews => denied
  | .graph =>
    match graphCode lib content with
    | .error e => e
    | .ok (.string "ErrorSendAsDenied") =>
      .permanent "Microsoft denied Send As for the selected From address"
    | .ok _ => denied

/-- Any other 3xx or 4xx. -/
def clientFailure (lib : Library) (kind : BackendKind) (status : ℕ) (content : Octets) :
    DeliveryError :=
  let code : Except DeliveryError String := match kind with
    | .ews => .ok ""
    | .graph => (graphCode lib content).bind (textOf lib)
  match code with
  | .error e => e
  | .ok text =>
    let line := "Upstream HTTP " ++ toString status ++ " " ++ safeCode ['_', '.', '-'] text
    .permanent (String.ofList ((line.toList.reverse.dropWhile (· = ' ')).reverse))

/-- The body of a response that an EWS backend takes for XML. -/
def isXml (kind : BackendKind) (content : Octets) : Bool :=
  kind = .ews ∧ (lstrip content).head? = some 60

/-- What `send` does with a response. -/
def respond (lib : Library) (kind : BackendKind) (tokens : Tokens) (token : String) (now : Time)
    (response : Response) : Except DeliveryError Unit × Tokens :=
  match readLimited 1048576 response.parts with
  | none =>
    (.error (.uncertain "Oversized upstream response; submission outcome unknown"), tokens)
  | some content =>
    let delay := retryAfter lib now response.retryAfter
    if response.status = 401 then
      let rejected := rejectedToken lib tokens token
      (.error rejected.1, rejected.2)
    else if response.status = 403 then (.error (accessDenied lib kind content), tokens)
    else if response.status = 429 then
      (.error (.retryable "Upstream HTTP 429 throttling" delay true), tokens)
    else if kind = .graph ∧ response.status = 202 then (.ok (), acceptedToken tokens)
    else if isXml kind content then
      match interpretEws lib response.status content delay with
      | .ok () => (.ok (), acceptedToken tokens)
      | .error e => (.error e, tokens)
    else if response.status ≥ 500 then
      (.error (.uncertain ("Upstream HTTP " ++ toString response.status ++
        "; submission outcome unknown")), tokens)
    else if 300 ≤ response.status then
      (.error (clientFailure lib kind response.status content), tokens)
    else (.error (.uncertain "Unexpected upstream response; submission outcome unknown"), tokens)

/-- `MicrosoftBackend.send`, from what `get_token` gave and how the POST ended. -/
def send (lib : Library) (kind : BackendKind) (getToken : Except DeliveryError String)
    (tokens : Tokens) (now : Time) (post : PostResult) : Except DeliveryError Unit × Tokens :=
  match getToken with
  | .error e => (.error e, tokens)
  | .ok token =>
    match post with
    | .answered response => respond lib kind tokens token now response
    | .raised .clientConnectorError _ | .raised .connectionTimeoutError _ =>
      (.error (.retryable "Upstream connection could not be established" (0 : ℚ) false), tokens)
    | .raised .clientError _ | .raised .timeoutError _ =>
      (.error (.uncertain "Connection interrupted during submission; review before retry"), tokens)
    | .raised (.other name) _ => (.error (.unexpected name), tokens)

end NoreplyGateway.Upstream
