import NoreplyGateway.Message
import NoreplyGateway.Outcome

/-! The checks of `Config.validate` on the account, the names and the limits. -/

namespace NoreplyGateway

open Outcome

def require (p : Prop) [Decidable p] (message : String) : Except String Unit :=
  if p then .ok () else .error message

@[simp] theorem require_eq_ok {p : Prop} [Decidable p] {message : String} {u : Unit} :
    require p message = .ok u ↔ p := by
  unfold require
  split_ifs with h <;> simp [h]

/-- Letters, digits, dots and hyphens, and at least one of them. -/
def plainName (s : String) : Bool :=
  s ≠ "" ∧ s.toList.all (fun c ↦ c.isAlphanum ∨ c = '.' ∨ c = '-')

/-- The shape of an application UUID. -/
def uuidText (s : String) : Bool :=
  s.length = 36 ∧ s.toList.all
    (fun c ↦ c.isDigit ∨ 'a' ≤ c ∧ c ≤ 'f' ∨ 'A' ≤ c ∧ c ≤ 'F' ∨ c = '-')

namespace Config

variable (config : Config)

/-- The capacities and counts that have to be positive. -/
def counts : List ℕ := [config.smtp.maxConnections, config.smtp.maxMessageBytes,
  config.smtp.maxRecipients, config.smtp.maxHeaderBytes, config.smtp.maxBufferBytes,
  config.queue.maxMessages, config.queue.maxBytes, config.queue.batchSize,
  config.queue.pendingSubmissions, config.queue.historyDays, config.delivery.workers,
  config.delivery.maxAttempts, config.web.sessionSeconds]

def rates : List ℚ := [config.smtp.commandTimeout, config.smtp.dataTimeout,
  config.queue.batchSeconds, config.delivery.messagesPerSecond, config.delivery.maxAgeHours,
  config.delivery.requestTimeout, config.delivery.connectTimeout,
  config.delivery.retryBaseSeconds, config.delivery.retryMaxSeconds,
  config.delivery.shutdownSeconds]

def validateAccount (email : EmailPackage) : Except String Unit := do
  if config.account.sender ≠ "" then
    let _ ← mailbox email config.account.sender false
    let _ ← mailbox email config.account.username false
  else require (config.account.loginUsername = "") "account.login_username requires account.sender"
  require (config.account.sendShared = true → config.account.backend = .graph)
    "account.send_shared must be a boolean and requires Graph"
  require (config.account.natMarker ≠ "" ∧
    config.account.natMarker.toList.all (fun c ↦ c ≠ '\r' ∧ c ≠ '\n' ∧ c.toNat ≠ 0))
    "Invalid NAT marker"

def validateIdentifiers : Except String Unit := do
  require (plainName config.smtp.hostname) "Invalid SMTP hostname"
  require (plainName config.account.tenantId) "Invalid tenant_id"
  require (uuidText config.account.clientId) "client_id must be an application UUID"
  require (config.additional.tenantId ≠ "" → plainName config.additional.tenantId)
    "additional.tenant_id is invalid"
  require (config.additional.clientId ≠ "" → uuidText config.additional.clientId)
    "additional.client_id must be an application UUID"

def validateDomains : Except String Unit :=
  config.account.allowedRecipientDomains.forM
    (fun domain ↦ require (plainName domain) "Recipient domains must be plain DNS names")

def validateNames : Except String Unit := do
  config.validateIdentifiers
  config.validateDomains

def validateLimits : Except String Unit := do
  config.counts.forM (fun n ↦ require (0 < n) "Capacity and count values must be positive")
  config.rates.forM (fun q ↦ require (0 < q) "Rates and timeouts must be finite and positive")
  require (config.delivery.workers ≤ 4)
    "This single-mailbox gateway allows at most four upstream workers"
  require (config.account.backend = .graph →
      config.account.saveInSent = true ∧ config.smtp.maxMessageBytes ≤ 2500000)
    "Graph MIME mode requires save_in_sent=true and max_message_bytes<=2500000"

def validate (email : EmailPackage) : Except String Unit := do
  config.validateAccount email
  config.validateNames
  config.validateLimits

variable {config} {email : EmailPackage}

theorem limits_of_validate (h : config.validate email = .ok ()) :
    (∀ n ∈ config.counts, 0 < n) ∧ (∀ q ∈ config.rates, 0 < q) ∧ config.delivery.workers ≤ 4 := by
  simp only [validate, validateLimits, do_eq_ok, forM_eq_ok, require_eq_ok] at h
  obtain ⟨-, -, -, -, -, hcounts, -, hrates, -, hworkers, -⟩ := h
  exact ⟨hcounts, hrates, hworkers⟩

end Config

end NoreplyGateway
