import NoreplyGateway.Additional.Sender
import NoreplyGateway.Gateway.System
import NoreplyGateway.Web.Throttle

namespace NoreplyGateway.Web

open Gateway Oauth Store Upstream

inductive FlowKind
  | original
  | additional
  deriving DecidableEq

/-- A pending login flow, numbered in the order of the beginnings. -/
structure Pending where
  number : ℕ
  flow : LoginFlow

structure AdminSession where
  csrf : String
  expires : Time
  flow : Option Pending := none
  flowKind : FlowKind := .original

/-- What a handler does after `set_setting`. -/
inductive Next
  | done
  | paused (payload : Fields)
  | disconnect

/-- What a request waits for. A handler that waits for a manager or for the
additional sender answers with the given status in the end. -/
inductive Wait
  | loginBody (now : Time)
  | loginPassword (now : Time)
  | actionBody (id verb : String)
  | controlBody
  | completeBody (session : ℕ)
  | chooseBody
  | action (id verb : String) (acknowledgeDuplicate : Bool)
  | setting (setting : Setting) (stored : Bool) (next : Next)
  | lock (kind : FlowKind)
  | call (status : ℕ)

/-- A flow that was begun, and a flow that was taken from its session to complete
the login. `begun` is the number of flows begun before. -/
structure Begun where
  session : ℕ
  kind : FlowKind
  flow : LoginFlow
  began : Time

structure Completion where
  task : ℕ
  session : ℕ
  kind : FlowKind
  pending : Pending
  response : List (String × String)
  now : Time
  begun : ℕ

/-- An authorization code that was sent to the identity provider. -/
structure Exchange where
  task : ℕ
  kind : FlowKind
  data : Fields

/-- What the program does not keep: the flows begun, the flows taken, and the
codes exchanged, in their order. -/
structure History where
  begun : List Begun := []
  completions : List Completion := []
  exchanges : List Exchange := []

/-- The administration pages with the components they control. The sessions are
a dictionary from cookies to session objects; requests are numbered in the order
of their arrival. -/
structure AdminUI where
  objects : List AdminSession := []
  sessions : List (String × ℕ) := []
  attempts : Attempts := []
  requests : List (ℕ × Wait) := []
  arrived : ℕ := 0
  history : History := {}
  gateway : Gateway
  tokens : Oauth.Session
  additional : Option Additional.Sender

/-- Fresh random texts. They are never empty. -/
structure Secrets where
  first : String
  second : String
  third : String

def Secrets.Drawn (s : Secrets) : Prop := s.first ≠ "" ∧ s.second ≠ "" ∧ s.third ≠ ""

instance (s : Secrets) : Decidable s.Drawn := by unfold Secrets.Drawn; infer_instance

/-- One step of a request, of a manager or of another task of the gateway. A body
is the value that `request.json` returns, or the answer to its exception. -/
inductive Event
  | request (request : Request) (now : Time) (secrets : Secrets)
  | body (task : ℕ) (payload : Except Reply Value) (now : Time)
  | password (task : ℕ) (verified : Bool) (secrets : Secrets)
  | job (task : ℕ) (clock : RetryClock)
  | fault (task : ℕ)
  | resume (task : ℕ)
  | tokens (kind : FlowKind) (event : Oauth.Event)
  | written (task : ℕ) (choice : Option Additional.Choice) (write : Write)
  | gateway (action : Action)

/-- What the process is made with. -/
structure Environment where
  lib : Upstream.Library
  email : EmailPackage
  urls : UrlLibrary
  config : Config
  originalSecret : Option String := none
  additionalSecret : Option String := none

namespace Environment

variable (env : Environment)

def base : Url := (env.urls.urlsplit env.config.web.baseUrl).getD ⟨"", "", "", ""⟩

def pathPrefix : String :=
  String.ofList (env.base.path.toList.reverse.dropWhile (· = '/')).reverse

def origin : String := env.base.scheme ++ "://" ++ env.base.netloc

def publicPaths : List String :=
  (["/", "/app.js", "/style.css", "/api/login", "/health/live", "/health/ready"].map
    (env.pathPrefix ++ ·)) ++ if env.pathPrefix = "" then [] else [env.pathPrefix]

def account : FlowKind → AccountConfig
  | .original => env.config.account
  | .additional => Additional.account env.config

def original : Setup where
  account := env.config.account
  fingerprint := accountFingerprint env.lib env.config.account
  allowAnyUsername := false
  secret := env.originalSecret

end Environment

/-- The pages after a step, with the answer that it gives. -/
abbrev Result := AdminUI × Option (ℕ × Reply)

namespace AdminUI

variable (env : Environment) (s : AdminUI)

def reply (task : ℕ) (r : Reply) : Result :=
  ({ s with requests := s.requests.filter (·.1 ≠ task) }, some (task, r))

def wait (task : ℕ) (w : Wait) : Result :=
  ({ s with requests := s.requests.filter (·.1 ≠ task) ++ [(task, w)] }, none)

/-- The session object of a cookie. -/
def object? (cookie : String) : Option (ℕ × AdminSession) :=
  (s.sessions.lookup cookie).bind fun i ↦ (s.objects[i]?).map (i, ·)

/-- The filter on the sessions at the start of every request. -/
def unexpired (now : Time) : List (String × ℕ) :=
  s.sessions.filter fun entry ↦ (s.objects[entry.2]?).any (now < ·.expires)

/-- The checks of the middleware that follow the filter. -/
def admitRequest (r : Request) (session : Option (ℕ × AdminSession)) :
    Except Reply (Option (ℕ × AdminSession)) :=
  if r.path ∉ env.publicPaths ∧ session.isNone then
    .error { status := 401, error := some "Administration login required" }
  else if r.method.reads then .ok session
  else if r.origin ≠ some env.origin then
    .error { status := 403, error := some "Same-origin request required" }
  else if r.contentType ≠ "application/json" then
    .error { status := 415, error := some "Use application/json" }
  else if r.path = env.pathPrefix ++ "/api/login" then .ok session
  else match session with
    | none => .error { status := 403, error := some "CSRF validation failed" }
    | some (i, session) =>
      match compareDigest (r.csrf.getD "") session.csrf with
      | .ok true => .ok (some (i, session))
      | .ok false => .error { status := 403, error := some "CSRF validation failed" }
      | .error _ => .error .internal

/-- The middleware up to its call of the handler: the sessions that it leaves,
and its own answer or the session of the request. -/
def boundary (r : Request) (now : Time) : AdminUI × Except Reply (Option (ℕ × AdminSession)) :=
  if casefold r.host ≠ casefold env.base.netloc then
    (s, .error (.valueError "Unexpected Host header"))
  else if env.pathPrefix ≠ "" ∧ r.path ≠ env.pathPrefix ∧
      ¬ (env.pathPrefix ++ "/").toList <+: r.path.toList then
    (s, .error { status := 404, error := some "Unknown administration path" })
  else
    let s := { s with sessions := s.unexpired now }
    (s, admitRequest env r (s.object? (r.cookie.getD "")))

/-- `begin_login` and `begin_additional_login`. -/
def beginFlow (task : ℕ) (kind : FlowKind) (i : ℕ) (session : AdminSession) (secrets : Secrets)
    (now : Time) : Result :=
  if kind = .original ∧ env.config.account.sender = "" then
    s.reply task (.valueError "No legacy sender is configured")
  else if kind = .additional ∧ s.additional.isNone then
    s.reply task (.valueError "Additional sending account is unavailable")
  else
    let flow := beginLogin secrets.first secrets.second secrets.third now
    let pending : Pending := ⟨s.history.begun.length, flow⟩
    let begun : Begun := ⟨i, kind, flow, now⟩
    let s := { s with
      objects := s.objects.set i { session with flow := some pending, flowKind := kind }
      history := { s.history with begun := s.history.begun ++ [begun] } }
    s.reply task .ok

/-- The answer to a request whose call has ended, with the status it waits with. -/
def answer (task : ℕ) (result : Except Reply Unit) : Result :=
  match s.requests.lookup task, result with
  | some (.call status), .ok () => s.reply task { status := status }
  | _, .ok () => s.reply task .ok
  | _, .error r => s.reply task r

def answerTokens : Option Oauth.Output → Result
  | some (.login task (.ok _)) => s.answer task (.ok ())
  | some (.login task (.error e)) => s.answer task (.error (.raised e))
  | some (.disconnected task (.ok _)) => s.answer task (.ok ())
  | some (.disconnected task (.error e)) => s.answer task (.error (.raised e))
  | _ => (s, none)

def answerSender : Option Additional.Output → Result
  | some (.tokens output) => s.answerTokens (some output)
  | some (.chosen task (.ok _)) | some (.written task (.ok _)) => s.answer task (.ok ())
  | some (.chosen task (.error (.valueError message)))
  | some (.written task (.error (.valueError message))) =>
    s.answer task (.error (.valueError message))
  | some (.chosen task (.error _)) | some (.written task (.error _)) =>
    s.answer task (.error .internal)
  | none => (s, none)

/-- A step of a manager with the answer that it gives. A login of the additional
account goes on in the additional sender. -/
def call (kind : FlowKind) (event : Oauth.Event) : Option Result :=
  match kind, s.additional with
  | .original, _ =>
    (s.tokens.perform env.lib env.email env.original event).map fun (tokens, output) ↦
      { s with tokens := { tokens with clock := event.reading.getD s.tokens.clock } }.answerTokens
        output
  | .additional, some a =>
    (a.perform env.lib env.email env.config env.additionalSecret (.tokens event)).map
      fun (a, output) ↦ { s with additional := some a }.answerSender output
  | .additional, none => none

/-- `_finish` up to the wait of `complete_login` for its lock. -/
def finish (task : ℕ) (i : ℕ) (session : AdminSession) (response : List (String × String))
    (status : ℕ) (now : Time) : Option Result :=
  match session.flow with
  | none =>
    some (s.reply task (.valueError "Start a new Microsoft login in this browser session"))
  | some pending =>
    let completion : Completion :=
      ⟨task, i, session.flowKind, pending, response, now, s.history.begun.length⟩
    let s := { s with
      objects := s.objects.set i { session with flow := none }
      history := { s.history with completions := s.history.completions ++ [completion] } }
    (s.wait task (.call status)).1.call env session.flowKind
      (.completeLogin task pending.flow response now)

def duplicateFree (items : List (String × String)) : Bool := (items.map (·.1)).Nodup

/-- `callback` after the middleware. -/
def callback (task : ℕ) (r : Request) (i : ℕ) (session : AdminSession) (now : Time) :
    Option Result :=
  if session.flowKind = .additional ∧ s.additional.isNone then some (s.reply task .internal)
  else if (env.account session.flowKind).redirectUri ≠
      env.config.web.baseUrl ++ "/oauth/callback" then
    some (s.reply task (.valueError "This callback is not the configured redirect URI"))
  else if duplicateFree r.query = false then
    some (s.reply task (.valueError "Duplicate OAuth callback parameters"))
  else s.finish env task i session r.query 303 now

/-- The parameters of the redirect URL that was pasted for `complete_login`. -/
def redirectItems (session : AdminSession) (payload : Value) :
    Except Reply (List (String × String)) :=
  match payload with
  | .object fields =>
    match (fields.lookup "redirect_url").getD (.string "") with
    | .string url =>
      if url.length > 24000 then .error (.valueError "Invalid redirect URL")
      else match env.urls.urlsplit url with
        | none => .error { status := 400 }
        | some parsed =>
          if session.flowKind = .additional ∧ s.additional.isNone then .error .internal
          else match env.urls.urlsplit (env.account session.flowKind).redirectUri with
            | none => .error { status := 400 }
            | some expected =>
              if (parsed.scheme, parsed.netloc, parsed.path) ≠
                  (expected.scheme, expected.netloc, expected.path) then
                .error (.valueError
                  "Paste the complete final URL from the configured Microsoft redirect page")
              else
                let items := env.urls.parseQsl parsed.query
                if duplicateFree items = false then
                  .error (.valueError "Duplicate OAuth callback parameters")
                else .ok items
    | _ => .error (.valueError "Invalid redirect URL")
  | _ => .error .internal

/-- `complete_login` from its body. -/
def completeLogin (task : ℕ) (i : ℕ) (session : AdminSession) (payload : Value) (now : Time) :
    Option Result :=
  match s.redirectItems env session payload with
  | .error r => some (s.reply task r)
  | .ok items => s.finish env task i session items 200 now

/-- `control` from its check of `paused`. -/
def controlPaused (task : ℕ) (payload : Fields) : Result :=
  match payload.lookup "paused" with
  | none => s.reply task .ok
  | some (.bool paused) => s.wait task (.setting (.paused paused) false .done)
  | some _ => s.reply task (.valueError "paused must be a boolean")

/-- The rate that `set_rate` accepts. -/
def rate? : PyFloat → Option ℚ
  | .num x => match x with
    | some (some q) => if Allowed (.rate q) then some q else none
    | _ => none
  | .nan => none

def control (task : ℕ) (payload : Value) : Result :=
  match payload with
  | .object fields =>
    match fields.lookup "rate" with
    | none => s.controlPaused task fields
    | some (.bool _) => s.reply task (.valueError "Invalid rate")
    | some value =>
      match value.float env.lib with
      | .error name => s.reply task (if name = "ValueError" then { status := 400 } else .internal)
      | .ok x =>
        match rate? x with
        | none => s.reply task (.valueError "Rate must be between 0.01 and 1000 messages/second")
        | some q => s.wait task (.setting (.rate q) false (.paused fields))
  | _ => s.reply task .internal

/-- A session for an administrator whose password was verified. -/
def createSession (task : ℕ) (secrets : Secrets) (now : Time) : Result :=
  let sessions := if 64 ≤ s.sessions.length then s.sessions.tail else s.sessions
  let session : AdminSession := 
    { csrf := secrets.second, expires := now + env.config.web.sessionSeconds }
  let entry := (secrets.first, s.objects.length)
  let sessions := if (sessions.lookup secrets.first).isSome then
      sessions.map (fun e ↦ if e.1 = secrets.first then entry else e)
    else sessions ++ [entry]
  { s with objects := s.objects ++ [session], sessions := sessions }.reply task .ok

/-- The handler of a request that only reads. The identity provider sends the
browser to the callback. -/
def handleRead (task : ℕ) (r : Request) (session : Option (ℕ × AdminSession)) (now : Time) :
    ReadRoute → Option Result
  | .callback =>
    match session with
    | some (i, session) => s.callback env task r i session now
    | none => some (s.reply task .internal)
  | .redirectIndex => some (s.reply task { status := 308 })
  | _ => some (s.reply task .ok)

def handlePost (task : ℕ) (r : Request) (session : Option (ℕ × AdminSession)) (now : Time)
    (secrets : Secrets) : PostRoute → Result
  | .login =>
    let throttled := throttle env.urls env.config s.attempts r now
    let s := { s with attempts := throttled.1 }
    match throttled.2 with
    | some r => s.reply task r
    | none => s.wait task (.loginBody now)
  | .logout =>
    { s with sessions := s.sessions.filter (·.1 ≠ r.cookie.getD "") }.reply task .ok
  | .action id verb => s.wait task (.actionBody id verb)
  | .control => s.wait task .controlBody
  | .beginLogin =>
    match session with
    | some (i, session) => s.beginFlow env task .original i session secrets now
    | none => s.reply task .internal
  | .beginAdditionalLogin =>
    match session with
    | some (i, session) => s.beginFlow env task .additional i session secrets now
    | none => s.reply task .internal
  | .completeLogin =>
    match session with
    | some (i, _) => s.wait task (.completeBody i)
    | none => s.reply task .internal
  | .disconnect =>
    if env.config.account.sender = "" then
      s.reply task (.valueError "No legacy sender is configured")
    else s.wait task (.setting (.paused true) false .disconnect)
  | .chooseAdditionalSender =>
    if s.additional.isNone then
      s.reply task (.valueError "Additional sending account is unavailable")
    else s.wait task .chooseBody
  | .disconnectAdditional =>
    if s.additional.isNone then
      s.reply task (.valueError "Additional sending account is unavailable")
    else s.wait task (.lock .additional)

/-- A new request, up to the first wait of its handler. -/
def receive (r : Request) (now : Time) (secrets : Secrets) : Option Result :=
  let task := s.arrived
  let admitted := { s with arrived := s.arrived + 1 }.boundary env r now
  match admitted.2 with
  | .error reply => some (admitted.1.reply task reply)
  | .ok session =>
    match resolve env.pathPrefix r.method r.path with
    | none =>
      let status := if known env.pathPrefix r.path then 405 else 404
      some (admitted.1.reply task { status := status })
    | some (.read route) => admitted.1.handleRead env task r session now route
    | some (.post route) => some (admitted.1.handlePost env task r session now secrets route)

/-- The handlers that wait for their body. -/
def receiveBody (task : ℕ) (payload : Value) (now : Time) : Wait → Option Result
  | .loginBody start =>
    match payload with
    | .object fields =>
      match (fields.lookup "password").getD (.string "") with
      | .string _ => some (s.wait task (.loginPassword start))
      | _ => some (s.reply task (.valueError "Password must be a string"))
    | _ => some (s.reply task .internal)
  | .actionBody id verb =>
    match payload with
    | .object fields =>
      let acknowledge := (fields.lookup "acknowledge_duplicate") matches some (.bool true)
      some (s.wait task (.action id verb acknowledge))
    | _ => some (s.reply task .internal)
  | .controlBody => some (s.control env task payload)
  | .completeBody i =>
    (s.objects[i]?).bind fun session ↦ s.completeLogin env task i session payload now
  | .chooseBody =>
    match payload, s.additional with
    | .object fields, some a =>
      let mode := (fields.lookup "mode").getD .null
      let customSender := (fields.lookup "custom_sender").getD (.string "")
      (a.perform env.lib env.email env.config env.additionalSecret
        (.choose task mode customSender)).map fun (a, output) ↦
          ({ s with additional := some a }.wait task (.call 200)).1.answerSender output
    | _, _ => some (s.reply task .internal)
  | _ => none

/-- The database job that a request waits for. An action that the store refuses
is rolled back. -/
def runJob (task : ℕ) (clock : RetryClock) : Wait → Option Result
  | .action id verb acknowledgeDuplicate =>
    match s.gateway.step (.delivery (.action id verb acknowledgeDuplicate clock)) with
    | some g => some ({ s with gateway := g }.reply task .ok)
    | none => some (s.reply task { status := 400 })
  | .setting setting false next =>
    (s.gateway.step (.delivery (.set setting))).map fun g ↦
      { s with gateway := g }.wait task (.setting setting true next)
  | _ => none

/-- A request goes on when its setting is stored. -/
def resume (task : ℕ) : Wait → Option Result
  | .setting setting true next =>
    (s.gateway.step (.delivery (.setResume setting))).map fun g ↦
      let s := { s with gateway := g }
      match next with
      | .done => s.reply task .ok
      | .paused payload => s.controlPaused task payload
      | .disconnect => s.wait task (.lock .original)
  | _ => none

def manager? : FlowKind → Option Oauth.Session
  | .original => some s.tokens
  | .additional => s.additional.map (·.tokens)

/-- The code that a step sends to the identity provider. -/
def exchange? (kind : FlowKind) : Oauth.Event → Option Exchange
  | .enter login =>
    match exchangeData (match kind with
      | .original => env.original
      | .additional => Additional.setup env.lib env.config env.additionalSecret)
        login.flow login.code with
    | .ok data => some ⟨login.task, kind, data⟩
    | .error _ => none
  | _ => none

/-- Logins begin in `finish`, and a disconnection in the request that waits for
the lock. -/
def mayCall (kind : FlowKind) : Oauth.Event → Bool
  | .completeLogin .. => false
  | .disconnect task =>
    match s.requests.lookup task with
    | some (.lock k) => k = kind
    | _ => false
  | _ => true

def beforeCall (kind : FlowKind) (event : Oauth.Event) : AdminUI :=
  match event with
  | .disconnect task => (s.wait task (.call 200)).1
  | event => { s with history := { s.history with
      exchanges := s.history.exchanges ++ (exchange? env kind event).toList } }

/-- A step of a manager, in the task that has its lock or takes it. -/
def manage (kind : FlowKind) (event : Oauth.Event) : Option Result :=
  if s.mayCall kind event then (s.beforeCall env kind event).call env kind event else none

/-- An operator's command, which reaches the gateway through these pages only. -/
def operated : Action → Bool
  | .delivery (.set _) | .delivery (.setResume _) | .delivery (.setDrop _)
  | .delivery (.action ..) => true
  | _ => false

def perform : Event → Option Result
  | .request r now secrets => if secrets.Drawn then s.receive env r now secrets else none
  | .body task payload now =>
    (s.requests.lookup task).bind fun w ↦
      match payload with
      | .ok payload => s.receiveBody env task payload now w
      | .error r =>
        match w with
        | .loginBody _ | .actionBody _ _ | .controlBody | .completeBody _ | .chooseBody =>
          some (s.reply task r)
        | _ => none
  | .password task verified secrets =>
    match s.requests.lookup task with
    | some (.loginPassword now) =>
      if verified = false then
        some (s.reply task { status := 401, error := some "Invalid administration password" })
      else if secrets.Drawn then some (s.createSession env task secrets now)
      else none
    | _ => none
  | .job task clock => (s.requests.lookup task).bind (s.runJob task clock)
  | .fault task =>
    match s.requests.lookup task with
    | some (.action ..) | some (.setting _ false _) => some (s.reply task .internal)
    | _ => none
  | .resume task => (s.requests.lookup task).bind (s.resume task)
  | .tokens kind event => s.manage env kind event
  | .written task choice write =>
    s.additional.bind fun a ↦
      (a.perform env.lib env.email env.config env.additionalSecret
        (.written task choice write)).map
          fun (a, output) ↦ { s with additional := some a }.answerSender output
  | .gateway action =>
    if operated action then none
    else (s.gateway.step action).map (fun g ↦ ({ s with gateway := g }, none))

def step (event : Event) : Option AdminUI := (s.perform env event).map (·.1)

/-- The pages of a process that has just started. -/
def opened (gateway : Gateway) (vault : Record)
    (additional : Option (Record × Option Additional.Choice)) :
    AdminUI where
  gateway := gateway
  tokens := .opened env.original vault
  additional := additional.map fun stored ↦
    .opened env.lib env.email env.config env.additionalSecret stored.1 stored.2

end AdminUI

end NoreplyGateway.Web
