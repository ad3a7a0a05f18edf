import NoreplyGateway.ConfigRoundtrip
import NoreplyGateway.Migration
import NoreplyGateway.Oauth.Tokens
import NoreplyGateway.Vault

namespace NoreplyGateway

open AtomicFiles JavaProperties JsonText Machine Outcome
open Upstream (Value)

namespace Migration

/-- The characters that `str.strip` removes. -/
def isSpace (c : ℕ) : Bool :=
  (9 ≤ c ∧ c ≤ 13) ∨ (28 ≤ c ∧ c ≤ 32) ∨ c = 133 ∨ c = 160 ∨ c = 5760 ∨
    (8192 ≤ c ∧ c ≤ 8202) ∨ c = 8232 ∨ c = 8233 ∨ c = 8239 ∨ c = 8287 ∨ c = 12288

def strip (text : Text) : Text := (text.dropWhile isSpace).rdropWhile isSpace

def ofString (s : String) : Text := s.toList.map Char.toNat

/-- The text without lone surrogates, for which there are no characters. -/
def toString? (text : Text) : Except String String :=
  if text.all Toml.isScalar then .ok (String.ofList (text.map Char.ofNat))
  else .error "Unsupported text"

def Properties.get (properties : Properties) (key : String) : Text :=
  (properties.lookup (ofString key)).getD []

/-- `int` of a text, with underscores between digits. -/
def int (text : Text) : Except String ℕ :=
  let digits := (strip text).map Char.ofNat
  let digits := if digits.head? = some '+' then digits.tail else digits
  match Toml.digitRun Char.isDigit digits with
  | (run, []) =>
    if run = [] ∨ Toml.maxDigits < run.length then .error "invalid literal for int() with base 10"
    else .ok (Nat.ofDigitChars 10 run 0)
  | _ => .error "invalid literal for int() with base 10"

/-- A property that replaces a setting unless it is blank. -/
def replaced (properties : Properties) (key old : String) : Except String String :=
  if strip (properties.get key) = [] then .ok old else toString? (strip (properties.get key))

def replacedPort (properties : Properties) (old : ℕ) : Except String ℕ :=
  if strip (properties.get "davmail.smtpPort") = [] then .ok old
  else int (properties.get "davmail.smtpPort")

/-- `apply_davmail`. A port that is negative is refused here, not by the checks. -/
def applyDavmail (config : Config) (properties : Properties) : Except String Config := do
  let sender ← toString? (strip (properties.get "davmail.smtpEmbeddedUsername"))
  require (sender ≠ "") "DavMail properties have no smtpEmbeddedUsername"
  let tenantId ← replaced properties "davmail.oauth.tenantId" config.account.tenantId
  let clientId ← replaced properties "davmail.oauth.clientId" config.account.clientId
  let redirectUri ← replaced properties "davmail.oauth.redirectUri" config.account.redirectUri
  let ewsUrl ← replaced properties "davmail.url" config.account.ewsUrl
  let port ← replacedPort properties config.smtp.port
  let save := ((properties.lookup (ofString "davmail.smtpSaveInSent")).getD (ofString "true")).map
    fun c ↦ (Char.ofNat c).toLower
  .ok { config with
    smtp := { config.smtp with port := port }
    account := { config.account with
      sender := sender
      backend := .ews
      tenantId := tenantId
      clientId := clientId
      redirectUri := redirectUri
      ewsUrl := ewsUrl
      saveInSent := save = "true".toList } }

/-- What `base64.b64decode` and the decoding leave of the property. -/
def decodeToken (text : Text) : Except String String :=
  match (Base64.decode (text.map Char.ofNat)).bind decodeText with
  | some token => .ok token
  | none => .error "Refresh token is not in the legacy DavMail patch's base64 format"

def importedRecord (lib : Upstream.Library) (config : Config) (properties : Properties) :
    Except String (List (String × Value)) := do
  require (config.account.backend = .ews)
    "Legacy DavMail token import is EWS-only; use a fresh Graph login"
  let value := properties.get ("davmail.oauth." ++ casefold config.account.username ++
    ".refreshToken")
  require (value ≠ []) "No refresh token property for the configured sending account"
  let token ← decodeToken value
  require (token ≠ "" ∧ token.toList.all (fun c ↦ 32 < c.toNat ∧ c.toNat ≠ 127))
    "Invalid decoded refresh token"
  .ok [("fingerprint", .string (Oauth.accountFingerprint lib config.account)),
    ("mode", .string "legacy_v1"), ("username", .string config.account.username),
    ("refresh_token", .string token), ("last_refresh", .null)]

end Migration

namespace Initialize

open Migration

/-- The options of `init`, with the paths as they are resolved. -/
structure Args where
  dataDir : PosixPath
  absolute : dataDir.IsAbsolute
  properties : Option Properties := none
  importToken : Bool := false
  sender : Option String := none
  backend : Option BackendKind := none
  tenantId : Option String := none
  clientId : Option String := none
  redirectUri : Option String := none

/-- The defaults, or what the DavMail properties make of them. -/
def Args.base (args : Args) : Except String Config :=
  match args.properties with
  | some properties => applyDavmail { dataDir := args.dataDir } properties
  | none =>
    if args.sender = none ∧ args.backend = none then
      .ok { dataDir := args.dataDir, account := { backend := .graph } }
    else .ok { dataDir := args.dataDir }

/-- The configuration of the options, before it is checked. -/
def Args.config (args : Args) : Except String Config := do
  let config ← args.base
  .ok { config with account := { config.account with
    sender := args.sender.getD config.account.sender
    backend := args.backend.getD config.account.backend
    tenantId := args.tenantId.getD config.account.tenantId
    clientId := args.clientId.getD config.account.clientId
    redirectUri := args.redirectUri.getD config.account.redirectUri } }

/-- What the library and the operating system give: random octets, and the password
that is asked for. -/
structure Environment where
  config : ConfigLibrary
  upstream : Upstream.Library
  fernet : Fernet
  scrypt : Octets → Octets → Octets
  password : Except String String
  salt : Octets
  key : Octets
  adminRandom : Octets
  accountRandom : Octets

/-- The values of a new data directory. -/
structure State where
  config : Config
  admin : Value
  account : Option (List (String × Value))

variable (env : Environment) (args : Args)

def accountRecord (config : Config) : Except String (Option (List (String × Value))) :=
  if args.importToken then
    match args.properties with
    | none => .error "--import-token requires --from-davmail"
    | some properties => (importedRecord env.upstream config properties).map some
  else .ok none

/-- `initialize` up to its first write. -/
def prepare (configExists keyExists queueExists : Bool) : Except String State := do
  require (configExists = false)
    "Configuration already exists; initialization does not overwrite it"
  let config ← args.config
  let config ← config.validateAll env.config
  let account ← accountRecord env args config
  let password ← env.password
  let admin ← hashPassword env.scrypt password env.salt
  require (keyExists = false ∧ queueExists = false)
    "State directory is already initialized; use a new directory"
  .ok ⟨config, admin, account⟩

def Environment.vault : Vault := ⟨env.fernet, env.key⟩

/-- The writes before that of the configuration. -/
def State.records (state : State) : List (FileName × Octets) :=
  [(.key, env.key), (.record "admin", env.vault.sealed env.adminRandom state.admin)] ++
    (state.account.map (fun record ↦
      (.record "account", env.vault.sealed env.accountRandom (.object record)))).toList

/-- All the writes, in their order, when the configuration has a text. -/
def State.writes (state : State) (text : List Char) : List (FileName × Octets) :=
  state.records env ++ [(.config, encodeText (String.ofList text))]

section Prepared

variable {env args} {config : Config} {state : State} {password : String}
  {configExists keyExists queueExists : Bool} {properties : Properties}
  {record : List (String × Value)} {text : List Char}

theorem applyDavmail_dataDir {config' : Config} (h : applyDavmail config properties = .ok config') :
    config'.dataDir = config.dataDir := by
  simp only [applyDavmail, do_eq_ok] at h
  obtain ⟨_, -, _, -, _, -, _, -, _, -, _, -, _, -, hconfig⟩ := h
  rw [← Except.ok.inj hconfig]

theorem config_dataDir (h : args.config = .ok config) : config.dataDir = args.dataDir := by
  simp only [Args.config, do_eq_ok] at h
  obtain ⟨base, hbase, hconfig⟩ := h
  have hdir : base.dataDir = args.dataDir := by
    unfold Args.base at hbase
    split at hbase
    · exact applyDavmail_dataDir hbase
    · split at hbase
      · rw [← Except.ok.inj hbase]
      · rw [← Except.ok.inj hbase]
  rw [← Except.ok.inj hconfig]
  exact hdir

theorem importedRecord_wellFormed {lib : Upstream.Library}
    (h : importedRecord lib config properties = .ok record) : WellFormed (.object record) := by
  simp only [importedRecord, do_eq_ok] at h
  obtain ⟨_, -, _, -, _, -, _, -, hrecord⟩ := h
  obtain rfl := Except.ok.inj hrecord
  rw [WellFormed]
  exact ⟨by simp, trivial, trivial, trivial, trivial, trivial, trivial⟩

/-- What is known of the values when the first write begins. -/
structure Prepared (env : Environment) (state : State) (password : String) : Prop where
  valid : state.config.validateAll env.config = .ok state.config
  absolute : state.config.dataDir.IsAbsolute
  admin : hashPassword env.scrypt password env.salt = .ok state.admin
  account : ∀ record, state.account = some record → WellFormed (.object record)

theorem prepared (hpassword : env.password = .ok password)
    (h : prepare env args configExists keyExists queueExists = .ok state) :
    Prepared env state password := by
  simp only [prepare, do_eq_ok, hpassword] at h
  obtain ⟨_, -, config, hconfig, config', hvalid, account, haccount, _, hentered, admin, hadmin,
    _, -, hstate⟩ := h
  obtain rfl := Except.ok.inj hentered
  obtain rfl := Except.ok.inj hstate
  refine ⟨validateAll_idempotent hvalid, ?_, hadmin, ?_⟩
  · obtain ⟨rfl, -⟩ := normalized_of_validateAll hvalid
    have hdir : config.dataDir = args.dataDir := config_dataDir hconfig
    have habs : config.dataDir.IsAbsolute := hdir ▸ args.absolute
    exact habs
  · intro record hrecord
    obtain rfl : account = some record := hrecord
    unfold accountRecord at haccount
    split at haccount
    · split at haccount
      · cases haccount
      · obtain ⟨record', himported, heq⟩ := map_eq_ok.mp haccount
        exact Option.some.inj heq ▸ importedRecord_wellFormed himported
    · cases haccount

end Prepared

section Commit

variable {δ : Type} [DecidableEq δ] {dataDir parent : δ} {env args} {state : State}
  {password : String} {configExists keyExists queueExists : Bool} {text : List Char}
  {files : Files FileName Octets} {s' : Script FileName Octets}
  {l : List (Move FileName Octets)} {content : Octets}

def sampleEnvironment : Environment where
  config := Config.sampleLibrary
  upstream :=
    { float := fun _ ↦ none
      timestamp := fun _ ↦ none
      loads := fun _ ↦ .error .valueError
      str := fun _ ↦ .error .valueError
      fromstring := fun _ ↦ none
      sha256 := fun text ↦ text }
  fernet := plainFernet
  scrypt password salt := password ++ salt
  password := .ok "a long password"
  salt := []
  key := List.replicate 32 65
  adminRandom := []
  accountRandom := []

end Commit

end Initialize

end NoreplyGateway
