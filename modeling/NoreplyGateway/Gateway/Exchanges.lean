import NoreplyGateway.Gateway.Backoff
import NoreplyGateway.Oauth.Endings

namespace NoreplyGateway

open Machine Store Upstream

namespace Gateway

variable (lib : Library) (email : EmailPackage)

/-- A call of `MicrosoftBackend.send`: the step of the token manager that ends
`get_token`, what the manager holds when the response is there, and how the POST
ends. -/
structure Call where
  setup : Oauth.Setup
  manager : Oauth.Session
  event : Oauth.Event
  after : Oauth.Session
  token : Except DeliveryError String
  ends : manager.perform lib email setup event = some (after, some (.token token))
  tokens : Tokens
  now : Time
  post : PostResult

/-- A call of `AdditionalSender.send`. -/
inductive Exchange
  | legacy (kind : BackendKind) (call : Call lib email)
  | disconnected
  | additional (call : Call lib email)

variable {lib email}

def Call.result (kind : BackendKind) (call : Call lib email) : Except DeliveryError Unit :=
  (send lib kind call.token call.tokens call.now call.post).1

/-- The additional sender gives authentication failures a class of their own. -/
def forAdditional : Except DeliveryError Unit → Except DeliveryError Unit
  | .error (.authenticationRequired message) => .error (.additionalAuthenticationRequired message)
  | result => result

def Exchange.result : Exchange lib email → Except DeliveryError Unit
  | .legacy kind call => call.result kind
  | .disconnected => .error (.additionalAuthenticationRequired
      "Additional Microsoft account is not connected")
  | .additional call => forAdditional (call.result .graph)

/-- The message is put off for an infinite time by the response to it. -/
def Exchange.Endless : Exchange lib email → Prop
  | .legacy kind call => (∃ token, call.token = .ok token) ∧
      ∃ response, call.post = .answered response ∧ Upstream.Endless lib kind response
  | _ => False

def endsSend : Action → Bool
  | .delivery (.worker _ (.outcome ..)) => true
  | _ => false

variable (lib email) in
/-- A step of the gateway in which every end of `send` comes from an exchange. -/
inductive Event
  | attempt (index : ℕ) (exchange : Exchange lib email) (jitter : ℚ) (now : Time)
  | other (action : Action) (h : endsSend action = false)

def Event.action : Event lib email → Action
  | .attempt index exchange jitter now =>
    .delivery (.worker index (.outcome exchange.result jitter now))
  | .other action _ => action

end Gateway

end NoreplyGateway
