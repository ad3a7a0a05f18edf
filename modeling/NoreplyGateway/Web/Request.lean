import NoreplyGateway.Upstream.Backend

namespace NoreplyGateway.Web

open Upstream

structure Url where
  scheme : String
  netloc : String
  path : String
  query : String

/-- What the gateway asks the library about URLs and addresses. `urlsplit` and
`ip_address` may raise a ValueError. -/
structure UrlLibrary where
  urlsplit : String → Option Url
  parseQsl : String → List (String × String)
  ipAddress : String → Option String

inductive Method
  | get
  | head
  | post
  | other (name : String)
  deriving DecidableEq

def Method.reads (m : Method) : Bool := m = .get ∨ m = .head

/-- A request as aiohttp hands it to the middleware. `forwarded` are the
X-Forwarded-For field lines. -/
structure Request where
  method : Method
  host : String
  path : String
  remote : Option String := none
  forwarded : List String := []
  cookie : Option String := none
  origin : Option String := none
  contentType : String := "application/octet-stream"
  csrf : Option String := none
  query : List (String × String) := []

/-- The status of an answer, its error text unless it is that of an exception of
the library, and its Retry-After header. -/
structure Reply where
  status : ℕ
  error : Option String := none
  retryAfter : Option ℤ := none
  deriving DecidableEq

def Reply.ok : Reply := { status := 200 }

def Reply.valueError (message : String) : Reply := { status := 400, error := some message }

def Reply.internal : Reply where
  status := 500
  error := some "Administrative operation failed; check local service health"

/-- What the middleware makes of an exception of an account operation. -/
def Reply.raised : DeliveryError → Reply
  | .authenticationRequired message | .additionalAuthenticationRequired message =>
    .valueError message
  | .retryable message _ _ => { status := 503, error := some message }
  | _ => .internal

inductive ReadRoute
  | index
  | redirectIndex
  | script
  | style
  | sessionInfo
  | stats
  | messages
  | exportBody (id : String)
  | callback
  | live
  | ready
  deriving DecidableEq

inductive PostRoute
  | login
  | logout
  | action (id verb : String)
  | control
  | beginLogin
  | completeLogin
  | disconnect
  | beginAdditionalLogin
  | chooseAdditionalSender
  | disconnectAdditional
  deriving DecidableEq

inductive Route
  | read (route : ReadRoute)
  | post (route : PostRoute)
  deriving DecidableEq

/-- What `{id}` matches in a route. -/
def placeholder (segment : String) : Bool :=
  segment ≠ "" ∧ segment.toList.all (fun c ↦ c ≠ '{' ∧ c ≠ '}')

def readRoute : List String → Option ReadRoute
  | ["", ""] => some .index
  | [] => some .redirectIndex
  | ["", "app.js"] => some .script
  | ["", "style.css"] => some .style
  | ["", "api", "session"] => some .sessionInfo
  | ["", "api", "stats"] => some .stats
  | ["", "api", "messages"] => some .messages
  | ["", "api", "messages", id, "eml"] => if placeholder id then some (.exportBody id) else none
  | ["", "oauth", "callback"] => some .callback
  | ["", "health", "live"] => some .live
  | ["", "health", "ready"] => some .ready
  | _ => none

def postRoute : List String → Option PostRoute
  | ["", "api", "login"] => some .login
  | ["", "api", "logout"] => some .logout
  | ["", "api", "messages", id, verb] =>
    if placeholder id ∧ placeholder verb then some (.action id verb) else none
  | ["", "api", "control"] => some .control
  | ["", "api", "account", "login"] => some .beginLogin
  | ["", "api", "account", "complete"] => some .completeLogin
  | ["", "api", "account", "disconnect"] => some .disconnect
  | ["", "api", "additional", "login"] => some .beginAdditionalLogin
  | ["", "api", "additional", "sender"] => some .chooseAdditionalSender
  | ["", "api", "additional", "disconnect"] => some .disconnectAdditional
  | _ => none

/-- The segments of a path behind the prefix of the administration pages. -/
def segments (base path : String) : Option (List String) :=
  if base.toList <+: path.toList then
    match path.toList.drop base.length with
    | [] => if base = "" then none else some []
    | rest => some ((rest.splitOn '/').map String.ofList)
  else none

def resolve (base : String) (method : Method) (path : String) : Option Route :=
  (segments base path).bind fun l ↦
    match method with
    | .get | .head => (readRoute l).map .read
    | .post => (postRoute l).map .post
    | .other _ => none

/-- Another method is registered for the path. -/
def known (base path : String) : Bool :=
  (resolve base .get path).isSome ∨ (resolve base .post path).isSome

end NoreplyGateway.Web
