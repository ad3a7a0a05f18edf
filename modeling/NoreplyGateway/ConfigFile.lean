import NoreplyGateway.ConfigChecks
import NoreplyGateway.TomlDocument

namespace NoreplyGateway

open Outcome Toml

def BackendKind.text : BackendKind → String
  | .ews => "ews"
  | .graph => "graph"

def RecipientPolicy.text : RecipientPolicy → String
  | .davmailUnion => "davmail_union"
  | .envelopeStrict => "envelope_strict"

section Writing

/-! `asdict`, with the fields in the order of their declaration. -/

def SMTPConfig.asdict (c : SMTPConfig) : Entries :=
  [("host", .text c.host), ("port", .number c.port), ("hostname", .text c.hostname),
    ("allowed_networks", .texts c.allowedNetworks), ("max_connections", .number c.maxConnections),
    ("max_message_bytes", .number c.maxMessageBytes), ("max_recipients", .number c.maxRecipients),
    ("max_header_bytes", .number c.maxHeaderBytes), ("max_buffer_bytes", .number c.maxBufferBytes),
    ("command_timeout", .rate c.commandTimeout), ("data_timeout", .rate c.dataTimeout),
    ("tls_cert", .text c.tlsCert), ("tls_key", .text c.tlsKey)]

def WebConfig.asdict (c : WebConfig) : Entries :=
  [("host", .text c.host), ("port", .number c.port), ("base_url", .text c.baseUrl),
    ("session_seconds", .number c.sessionSeconds), ("trusted_proxy_ips", .texts c.trustedProxyIps)]

def AccountConfig.asdict (c : AccountConfig) : Entries :=
  [("sender", .text c.sender), ("login_username", .text c.loginUsername),
    ("backend", .text c.backend.text), ("tenant_id", .text c.tenantId),
    ("client_id", .text c.clientId), ("redirect_uri", .text c.redirectUri),
    ("ews_url", .text c.ewsUrl), ("save_in_sent", .flag c.saveInSent),
    ("client_secret_env", .text c.clientSecretEnv), ("nat_marker", .text c.natMarker),
    ("recipient_policy", .text c.recipientPolicy.text),
    ("allowed_recipient_domains", .texts c.allowedRecipientDomains),
    ("send_shared", .flag c.sendShared)]

def AdditionalConfig.asdict (c : AdditionalConfig) : Entries :=
  [("tenant_id", .text c.tenantId), ("client_id", .text c.clientId),
    ("redirect_uri", .text c.redirectUri), ("client_secret_env", .text c.clientSecretEnv)]

def QueueConfig.asdict (c : QueueConfig) : Entries :=
  [("max_messages", .number c.maxMessages), ("max_bytes", .number c.maxBytes),
    ("min_free_bytes", .number c.minFreeBytes), ("batch_size", .number c.batchSize),
    ("batch_seconds", .rate c.batchSeconds), ("pending_submissions", .number c.pendingSubmissions),
    ("history_days", .number c.historyDays)]

def DeliveryConfig.asdict (c : DeliveryConfig) : Entries :=
  [("workers", .number c.workers), ("messages_per_second", .rate c.messagesPerSecond),
    ("recipient_limit_24h", .number c.recipientLimit24h), ("max_attempts", .number c.maxAttempts),
    ("max_age_hours", .rate c.maxAgeHours), ("request_timeout", .rate c.requestTimeout),
    ("connect_timeout", .rate c.connectTimeout),
    ("retry_base_seconds", .rate c.retryBaseSeconds),
    ("retry_max_seconds", .rate c.retryMaxSeconds), ("shutdown_seconds", .rate c.shutdownSeconds)]

namespace Config

variable (config : Config)

def sections : List (String × Entries) :=
  [("smtp", config.smtp.asdict), ("web", config.web.asdict), ("account", config.account.asdict),
    ("additional", config.additional.asdict), ("queue", config.queue.asdict),
    ("delivery", config.delivery.asdict)]

def headLines : List Line :=
  [.comment "# SMTP has no AUTH. Restrict trusted clients with CIDRs AND a firewall.".toList,
    .comment "# The WebUI password is separate. Never put Microsoft tokens in this file.".toList,
    .entry "data_dir" (.text (String.ofList config.dataDir.str)), .blank]

def lines : List Line := config.headLines ++ config.sections.flatMap sectionLines

/-- `config_text` -/
def text (repr : ℚ → List Char) : Except String (List Char) := render repr config.lines

/-- Every value that is written. -/
def values : List Json.Value :=
  .text (String.ofList config.dataDir.str) :: config.sections.flatMap (fun s ↦ s.2.map Prod.snd)

end Config

end Writing

section Reading

/-- A value that does not have the declared type of its field. -/
def wrongType : String := "TypeError"

def asText : Value → Except String String
  | .string s => .ok s
  | _ => .error wrongType

def asNatural (negative : String) : Value → Except String ℕ
  | .integer n => if n < 0 then .error negative else .ok n.toNat
  | _ => .error wrongType

def asRate : Value → Except String ℚ
  | .float (.num (some (some q))) => .ok q
  | .float _ => .error "Rates and timeouts must be finite and positive"
  | .integer n => .ok n
  | _ => .error wrongType

def asFlag : Value → Except String Bool
  | .boolean b => .ok b
  | _ => .error wrongType

def asTexts : Value → Except String (List String)
  | .array l => l.mapM asText
  | _ => .error wrongType

def asBackend : Value → Except String BackendKind
  | .string "ews" => .ok .ews
  | .string "graph" => .ok .graph
  | _ => .error "account.backend must be ews or graph"

def asPolicy : Value → Except String RecipientPolicy
  | .string "davmail_union" => .ok .davmailUnion
  | .string "envelope_strict" => .ok .envelopeStrict
  | _ => .error "Invalid recipient_policy"

/-- A field of `cls(**table)`, which has its default where the table does not
have the key. -/
def field {α : Type} (read : Value → Except String α) (table : List (String × Value)) (key : String)
    (default : α) : Except String α :=
  match table.lookup key with
  | none => .ok default
  | some v => read v

def badCount : String := "Capacity and count values must be positive"

def badPort : String := "Ports must be in 1..65535"

def badQuota : String := "Quota/minimum free space cannot be negative"

def SMTPConfig.ofTable (t : List (String × Value)) : Except String SMTPConfig := do
  let d : SMTPConfig := {}
  .ok {
    host := ← field asText t "host" d.host
    port := ← field (asNatural badPort) t "port" d.port
    hostname := ← field asText t "hostname" d.hostname
    allowedNetworks := ← field asTexts t "allowed_networks" d.allowedNetworks
    maxConnections := ← field (asNatural badCount) t "max_connections" d.maxConnections
    maxMessageBytes := ← field (asNatural badCount) t "max_message_bytes" d.maxMessageBytes
    maxRecipients := ← field (asNatural badCount) t "max_recipients" d.maxRecipients
    maxHeaderBytes := ← field (asNatural badCount) t "max_header_bytes" d.maxHeaderBytes
    maxBufferBytes := ← field (asNatural badCount) t "max_buffer_bytes" d.maxBufferBytes
    commandTimeout := ← field asRate t "command_timeout" d.commandTimeout
    dataTimeout := ← field asRate t "data_timeout" d.dataTimeout
    tlsCert := ← field asText t "tls_cert" d.tlsCert
    tlsKey := ← field asText t "tls_key" d.tlsKey }

def WebConfig.ofTable (t : List (String × Value)) : Except String WebConfig := do
  let d : WebConfig := {}
  .ok {
    host := ← field asText t "host" d.host
    port := ← field (asNatural badPort) t "port" d.port
    baseUrl := ← field asText t "base_url" d.baseUrl
    sessionSeconds := ← field (asNatural badCount) t "session_seconds" d.sessionSeconds
    trustedProxyIps := ← field asTexts t "trusted_proxy_ips" d.trustedProxyIps }

def AccountConfig.ofTable (t : List (String × Value)) : Except String AccountConfig := do
  let d : AccountConfig := {}
  .ok {
    sender := ← field asText t "sender" d.sender
    loginUsername := ← field asText t "login_username" d.loginUsername
    backend := ← field asBackend t "backend" d.backend
    tenantId := ← field asText t "tenant_id" d.tenantId
    clientId := ← field asText t "client_id" d.clientId
    redirectUri := ← field asText t "redirect_uri" d.redirectUri
    ewsUrl := ← field asText t "ews_url" d.ewsUrl
    saveInSent := ← field asFlag t "save_in_sent" d.saveInSent
    clientSecretEnv := ← field asText t "client_secret_env" d.clientSecretEnv
    natMarker := ← field asText t "nat_marker" d.natMarker
    recipientPolicy := ← field asPolicy t "recipient_policy" d.recipientPolicy
    allowedRecipientDomains :=
      ← field asTexts t "allowed_recipient_domains" d.allowedRecipientDomains
    sendShared := ← field asFlag t "send_shared" d.sendShared }

def AdditionalConfig.ofTable (t : List (String × Value)) : Except String AdditionalConfig := do
  let d : AdditionalConfig := {}
  .ok {
    tenantId := ← field asText t "tenant_id" d.tenantId
    clientId := ← field asText t "client_id" d.clientId
    redirectUri := ← field asText t "redirect_uri" d.redirectUri
    clientSecretEnv := ← field asText t "client_secret_env" d.clientSecretEnv }

def QueueConfig.ofTable (t : List (String × Value)) : Except String QueueConfig := do
  let d : QueueConfig := {}
  .ok {
    maxMessages := ← field (asNatural badCount) t "max_messages" d.maxMessages
    maxBytes := ← field (asNatural badCount) t "max_bytes" d.maxBytes
    minFreeBytes := ← field (asNatural badQuota) t "min_free_bytes" d.minFreeBytes
    batchSize := ← field (asNatural badCount) t "batch_size" d.batchSize
    batchSeconds := ← field asRate t "batch_seconds" d.batchSeconds
    pendingSubmissions := ← field (asNatural badCount) t "pending_submissions" d.pendingSubmissions
    historyDays := ← field (asNatural badCount) t "history_days" d.historyDays }

def DeliveryConfig.ofTable (t : List (String × Value)) : Except String DeliveryConfig := do
  let d : DeliveryConfig := {}
  .ok {
    workers := ← field (asNatural badCount) t "workers" d.workers
    messagesPerSecond := ← field asRate t "messages_per_second" d.messagesPerSecond
    recipientLimit24h := ← field (asNatural badQuota) t "recipient_limit_24h" d.recipientLimit24h
    maxAttempts := ← field (asNatural badCount) t "max_attempts" d.maxAttempts
    maxAgeHours := ← field asRate t "max_age_hours" d.maxAgeHours
    requestTimeout := ← field asRate t "request_timeout" d.requestTimeout
    connectTimeout := ← field asRate t "connect_timeout" d.connectTimeout
    retryBaseSeconds := ← field asRate t "retry_base_seconds" d.retryBaseSeconds
    retryMaxSeconds := ← field asRate t "retry_max_seconds" d.retryMaxSeconds
    shutdownSeconds := ← field asRate t "shutdown_seconds" d.shutdownSeconds }

/-- `", ".join(sorted(unknown))` -/
def listed (unknown : List String) : String :=
  ", ".intercalate (unknown.mergeSort (· ≤ ·))

/-- A table of the document, whose keys are those of the class. -/
def Toml.Document.section (doc : Document) (name : String) (known : Entries) :
    Except String (List (String × Value)) :=
  match doc.tables.lookup name with
  | some table =>
    let unknown := (table.map Prod.fst).filter (· ∉ known.map Prod.fst)
    if unknown = [] then .ok table
    else .error ("Unknown [" ++ name ++ "] keys: " ++ listed unknown)
  | none => if name ∈ doc.root.map Prod.fst then .error wrongType else .ok []

def topLevel : List String :=
  ["data_dir", "smtp", "web", "account", "additional", "queue", "delivery"]

/-- The path for the text of the file: a home directory is expanded, and what is
then relative is resolved. -/
def ConfigLibrary.locate (lib : ConfigLibrary) (path : PosixPath) : PosixPath :=
  let path := if ¬path.IsAbsolute ∧ (path.parts.head?.any (·.head? = some '~')) then
    lib.expandUser path else path
  if path.IsAbsolute then path else lib.resolve path

def Toml.Document.dataDir (lib : ConfigLibrary) (doc : Document) : Except String PosixPath :=
  if "data_dir" ∈ doc.tables.map Prod.fst then .error wrongType
  else (field asText doc.root "data_dir" "./state").map
    (fun text ↦ lib.locate (PosixPath.parse text.toList))

/-- `load_config` of the text of a file. -/
def loadConfig (lib : ConfigLibrary) (text : List Char) : Except String Config := do
  let raw ← loads lib.float text
  let unknown := (raw.root.map Prod.fst ++ raw.tables.map Prod.fst).filter (· ∉ topLevel)
  if unknown ≠ [] then .error ("Unknown configuration keys: " ++ listed unknown)
  let dataDir ← raw.dataDir lib
  let d : Config := {}
  let smtp ← SMTPConfig.ofTable (← raw.section "smtp" d.smtp.asdict)
  let web ← WebConfig.ofTable (← raw.section "web" d.web.asdict)
  let account ← AccountConfig.ofTable (← raw.section "account" d.account.asdict)
  let additional ← AdditionalConfig.ofTable (← raw.section "additional" d.additional.asdict)
  let queue ← QueueConfig.ofTable (← raw.section "queue" d.queue.asdict)
  let delivery ← DeliveryConfig.ofTable (← raw.section "delivery" d.delivery.asdict)
  Config.validateAll lib { dataDir, smtp, web, account, additional, queue, delivery }

end Reading

end NoreplyGateway
