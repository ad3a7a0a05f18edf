import NoreplyGateway.Oauth.Session

namespace NoreplyGateway.Additional

open Oauth Upstream

inductive Mode
  | default
  | custom
  deriving DecidableEq

/-- The sender that the administrator has chosen for the account of this user
name. The program keeps an empty record where there is none. -/
structure Choice where
  username : String
  mode : Mode
  customSender : String
  deriving DecidableEq

/-- What a call of `AdditionalSender` raises. -/
inductive CallError
  | valueError (message : String)
  | other (name : String)

/-- The additional sender, the choice stored in the vault, and the writes of
choices that are still going on. -/
structure Sender where
  tokens : Session := {}
  choice : Option Choice := none
  stored : Option Choice := none
  writes : List (ℕ × Option Choice) := []

inductive Event
  | tokens (event : Oauth.Event)
  | choose (task : ℕ) (mode customSender : Value)
  | written (task : ℕ) (choice : Option Choice) (write : Write)
  | restart

/-- The end of a call: of a login or a disconnection with the choice cleared,
or of a choice. A login or disconnection that fails ends with its own output. -/
inductive Output
  | tokens (output : Oauth.Output)
  | chosen (task : ℕ) (result : Except CallError Unit)
  | written (task : ℕ) (result : Except CallError Unit)

/-- The account of the additional sender, before and after it became independent
of the first account. -/
def legacyAccount (config : Config) : AccountConfig :=
  let replace (value fallback : String) := if value = "" then fallback else value
  { config.account with
    backend := .graph
    sendShared := true
    saveInSent := true
    tenantId := replace config.additional.tenantId config.account.tenantId
    clientId := replace config.additional.clientId config.account.clientId
    redirectUri := replace config.additional.redirectUri config.account.redirectUri
    clientSecretEnv := replace config.additional.clientSecretEnv config.account.clientSecretEnv }

def account (config : Config) : AccountConfig :=
  { legacyAccount config with sender := "", loginUsername := "" }

variable (lib : Library) (email : EmailPackage) (config : Config) (secret : Option String)

def setup : Setup where
  account := account config
  fingerprint := accountFingerprint lib (account config)
  allowAnyUsername := true
  secret := secret

namespace Sender

/-- The record that the constructor reads, with its fingerprint brought up to
date. -/
def migrated (record : Record) : Record :=
  let legacy := accountFingerprint lib (legacyAccount config)
  let fingerprint := accountFingerprint lib (account config)
  if record.fingerprint = some legacy ∧ legacy ≠ fingerprint then
    { record with fingerprint := some fingerprint }
  else record

/-- The stored choice, if it is one for the account of this record. -/
def accepted (record : Record) (choice : Option Choice) : Option Choice :=
  choice.filter fun c ↦
    some c.username = record.username ∧
      (c.mode = .custom → (mailbox email c.customSender false).isOk)

/-- `AdditionalSender.__init__`. -/
def opened (record : Record) (stored : Option Choice) : Sender :=
  let tokens := Session.opened (setup lib config secret) (migrated lib config record)
  { tokens := tokens, choice := accepted email tokens.manager.record stored, stored := stored }

variable (s : Sender)

def record : Record := s.tokens.manager.record

def credentialPresent : Bool := (s.record.refreshToken.getD .null).truthy

/-- `status()["needs_login"]`. -/
def needsLogin : Bool :=
  s.tokens.manager.needsLogin || (s.record.refreshToken.getD .null matches .null)

def defaultSender : String :=
  if s.credentialPresent then s.record.defaultSender.getD "" else ""

/-- `self.choice = {}` and the write that follows. -/
def clear (task : ℕ) : Sender :=
  { s with choice := none, writes := s.writes ++ [(task, none)] }

/-- `choose` up to its write. -/
def choose (mode customSender : Value) : Except CallError Choice :=
  if s.defaultSender = "" then .error (.valueError "Connect a Microsoft account first")
  else
    let address : Except CallError (Mode × String) := match mode with
      | .string "default" => .ok (.default, s.defaultSender)
      | .string "custom" =>
        match customSender with
        | .string text =>
          match mailbox email text false with
          | .ok address => .ok (.custom, address)
          | .error message => .error (.valueError message)
        | _ => .error (.other "TypeError")
      | .array _ | .object _ => .error (.other "TypeError")
      | _ => .error (.valueError "Choose the default or a custom address")
    match address with
    | .error e => .error e
    | .ok (mode, address) =>
      if casefold address = casefold config.account.sender then
        .error (.valueError "The original gateway address already uses the existing connection")
      else match s.record.username with
        | none => .error (.other "KeyError")
        | some username =>
          .ok ⟨username, mode, if mode = .custom then address else ""⟩

/-- One step of a task between two of its waits. A completed login or
disconnection clears the choice before it waits again. -/
def perform : Event → Option (Sender × Option Output)
  | .tokens event =>
    (s.tokens.perform lib email (setup lib config secret) event).map fun (tokens, output) ↦
      let tokens := { tokens with clock := event.reading.getD s.tokens.clock }
      match output with
      | some (.login task (.ok _)) => ({ s with tokens := tokens }.clear task, none)
      | some (.disconnected task (.ok _)) => ({ s with tokens := tokens }.clear task, none)
      | output => ({ s with tokens := tokens }, output.map .tokens)
  | .choose task mode customSender =>
    match s.choose email config mode customSender with
    | .error e => some (s, some (.chosen task (.error e)))
    | .ok choice =>
      some ({ s with choice := some choice, writes := s.writes ++ [(task, some choice)] }, none)
  | .written task choice write =>
    if (task, choice) ∈ s.writes then
      let rest := s.writes.erase (task, choice)
      match write with
      | .done => some ({ s with stored := choice, writes := rest }, some (.written task (.ok ())))
      | .failed replaced =>
        some ({ s with stored := if replaced then choice else s.stored, writes := rest },
          some (.written task (.error (.other "OSError"))))
    else none
  | .restart => some (opened lib email config secret s.tokens.vault s.stored, none)

def step (event : Event) : Option Sender :=
  (s.perform lib email config secret event).map (·.1)

end Sender

end NoreplyGateway.Additional
