import NoreplyGateway.PosixPath
import NoreplyGateway.PyFloat

namespace NoreplyGateway

abbrev Octets := List UInt8

/-- The octets of ASCII text. -/
def ascii (s : String) : Octets := s.toList.map (fun c ↦ UInt8.ofNat c.toNat)

/-- Seconds, as `time.time()` gives them. -/
abbrev Time := ℚ

inductive BackendKind
  | ews
  | graph
  deriving DecidableEq

structure SMTPConfig where
  host : String := "127.0.0.1"
  port : ℕ := 1025
  hostname : String := "noreply-gateway.local"
  allowedNetworks : List String := ["127.0.0.0/8", "::1/128"]
  maxConnections : ℕ := 128
  maxMessageBytes : ℕ := 2000000
  maxRecipients : ℕ := 500
  maxHeaderBytes : ℕ := 131072
  maxBufferBytes : ℕ := 64 * 1024 * 1024
  commandTimeout : ℚ := 60
  dataTimeout : ℚ := 120
  tlsCert : String := ""
  tlsKey : String := ""

structure WebConfig where
  host : String := "127.0.0.1"
  port : ℕ := 8080
  baseUrl : String := "http://127.0.0.1:8080"
  sessionSeconds : ℕ := 28800
  trustedProxyIps : List String := []

inductive RecipientPolicy
  | davmailUnion
  | envelopeStrict
  deriving DecidableEq

structure AccountConfig where
  sender : String := ""
  loginUsername : String := ""
  backend : BackendKind := .ews
  tenantId : String := "common"
  clientId : String := "facd6cff-a294-4415-b59f-c5b01937d7bd"
  redirectUri : String := "https://login.microsoftonline.com/common/oauth2/nativeclient"
  ewsUrl : String := "https://outlook.office365.com/EWS/Exchange.asmx"
  saveInSent : Bool := true
  clientSecretEnv : String := ""
  natMarker : String := "_NAT_"
  recipientPolicy : RecipientPolicy := .davmailUnion
  allowedRecipientDomains : List String := []
  sendShared : Bool := false

namespace AccountConfig

def username (a : AccountConfig) : String :=
  if a.loginUsername = "" then a.sender else a.loginUsername

def scope (a : AccountConfig) : String :=
  if a.backend = .graph ∧ a.sendShared = true then
    "openid profile offline_access User.Read Mail.Send Mail.Send.Shared"
  else
    "openid profile offline_access " ++ (if a.backend = .graph then
      "https://graph.microsoft.com/Mail.Send"
    else "https://outlook.office365.com/EWS.AccessAsUser.All")

end AccountConfig

/-- Settings of the additional account that replace those of the first one when
they are given. -/
structure AdditionalConfig where
  tenantId : String := ""
  clientId : String := ""
  redirectUri : String := ""
  clientSecretEnv : String := ""

structure QueueConfig where
  maxMessages : ℕ := 100000
  maxBytes : ℕ := 5 * 1024 ^ 3
  minFreeBytes : ℕ := 256 * 1024 ^ 2
  batchSize : ℕ := 128
  batchSeconds : ℚ := 1 / 200
  pendingSubmissions : ℕ := 1024
  historyDays : ℕ := 7

structure DeliveryConfig where
  workers : ℕ := 4
  messagesPerSecond : ℚ := 1 / 2
  recipientLimit24h : ℕ := 10000
  maxAttempts : ℕ := 20
  maxAgeHours : ℚ := 72
  requestTimeout : ℚ := 60
  connectTimeout : ℚ := 10
  retryBaseSeconds : ℚ := 15
  retryMaxSeconds : ℚ := 3600
  shutdownSeconds : ℚ := 70

structure Config where
  dataDir : PosixPath := PosixPath.parse "./state".toList
  smtp : SMTPConfig := {}
  web : WebConfig := {}
  account : AccountConfig := {}
  additional : AdditionalConfig := {}
  queue : QueueConfig := {}
  delivery : DeliveryConfig := {}

/-- `str.casefold` on the ASCII text of a mailbox address. -/
def casefold (s : String) : String := String.ofList (s.toList.map Char.toLower)

end NoreplyGateway
