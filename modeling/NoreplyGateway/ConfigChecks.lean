import NoreplyGateway.UrlSplit
import NoreplyGateway.Validation

namespace NoreplyGateway

open Outcome

/-- What the configuration asks of the library: addresses, the network location
of a URL, the text of a float, and paths. A path is resolved against the
directory of the file. -/
structure ConfigLibrary where
  email : EmailPackage
  ipNetwork : String → Except String ℕ
  ipAddress : String → Except String Unit
  netlocAllowed : List Char → Bool
  repr : ℚ → List Char
  float : List Char → PyFloat
  expandUser : PosixPath → PosixPath
  resolve : PosixPath → PosixPath

/-- `rstrip("/")` -/
def stripSlashes (text : List Char) : List Char := text.rdropWhile (· = '/')

/-- `(?:/[A-Za-z0-9_-]+)+` -/
def simplePath (path : List Char) : Bool :=
  path.head? = some '/' ∧ (path.tail.splitOn '/').all
    (fun part ↦ part ≠ [] ∧ part.all (fun c ↦ c.isAlphanum ∨ c = '_' ∨ c = '-'))

def isLoopback (host : List Char) : Bool :=
  host = ['l', 'o', 'c', 'a', 'l', 'h', 'o', 's', 't'] ∨
    host = ['1', '2', '7', '.', '0', '.', '0', '.', '1'] ∨ host = [':', ':', '1']

def http : List Char := ['h', 't', 't', 'p']

def https : List Char := ['h', 't', 't', 'p', 's']

/-- The part of a URL is there and not empty. -/
def given (part : Option (List Char)) : Prop := ∃ text ∈ part, text ≠ []

instance (part : Option (List Char)) : Decidable (given part) :=
  inferInstanceAs (Decidable (∃ text ∈ part, text ≠ []))

namespace ConfigLibrary

variable (lib : ConfigLibrary)

def urlsplit (url : List Char) : Except String SplitUrl :=
  match SplitUrl.urlsplit lib.netlocAllowed url with
  | some u => .ok u
  | none => .error "Invalid network location"

/-- A callback of the sign-in. The one of the additional account may not carry a
password. -/
def checkCallback (url : String) (refusePassword : Bool) (invalid remote : String) :
    Except String Unit := do
  let redirect ← lib.urlsplit url.toList
  require ((redirect.scheme = https ∨ redirect.scheme = http) ∧ redirect.hostname ≠ none ∧
    redirect.query = [] ∧ redirect.fragment = [] ∧ ¬given redirect.username ∧
    ¬(refusePassword = true ∧ given redirect.password)) invalid
  require (redirect.scheme = http → redirect.hostname.any isLoopback = true) remote

def checkBase (url : List Char) : Except String Unit := do
  let base ← lib.urlsplit url
  let path := stripSlashes base.path
  require ((base.scheme = http ∨ base.scheme = https) ∧ base.hostname ≠ none ∧ base.query = [] ∧
    base.fragment = [] ∧ ¬given base.username ∧ ¬given base.password ∧
    ¬['/', '/'] <:+ base.path ∧ (path = [] ∨ simplePath path = true))
    "web.base_url must be an HTTP(S) URL with an optional simple path prefix"
  require (base.scheme = http → base.hostname.any isLoopback = true)
    "Remote WebUI requires HTTPS through a reverse proxy"

end ConfigLibrary

namespace Config

variable (lib : ConfigLibrary) (config : Config)

def validateNetworks : Except String Unit := do
  let networks ← config.smtp.allowedNetworks.mapM lib.ipNetwork
  require (networks ≠ [] ∧ ∀ prefixlen ∈ networks, prefixlen ≠ 0)
    "Explicit, non-world SMTP client CIDRs are required"

def validatePorts : Except String Unit :=
  [config.smtp.port, config.web.port].forM
    (fun port ↦ require (1 ≤ port ∧ port ≤ 65535) "Ports must be in 1..65535")

def validateTls : Except String Unit :=
  require (config.smtp.tlsCert = "" ↔ config.smtp.tlsKey = "")
    "Supply both SMTP TLS certificate and key"

def validateEndpoint : Except String Unit := do
  let endpoint ← lib.urlsplit config.account.ewsUrl.toList
  require (endpoint.scheme = https ∧ endpoint.hostname ≠ none ∧ endpoint.username = none)
    "The EWS endpoint must be HTTPS without embedded credentials"

def validateBase : Except String Unit := lib.checkBase config.web.baseUrl.toList

def validateProxies : Except String Unit := config.web.trustedProxyIps.forM lib.ipAddress

def validateRedirects : Except String Unit := do
  lib.checkCallback config.account.redirectUri false "Invalid OAuth redirect URI"
    "Plain HTTP OAuth callbacks must be loopback"
  if config.additional.redirectUri ≠ "" then
    lib.checkCallback config.additional.redirectUri true
      "Invalid additional OAuth redirect URI"
      "Plain HTTP additional OAuth callbacks must be loopback"

def normalized : Config :=
  { config with web := { config.web with
    baseUrl := String.ofList (stripSlashes config.web.baseUrl.toList) } }

/-- `Config.validate`, with the configuration as it leaves it. A value that is
not of its declared type, or a negative count, does not exist here. -/
def validateAll : Except String Config := do
  config.validateAccount lib.email
  config.validateIdentifiers
  config.validateNetworks lib
  config.validateDomains
  config.validatePorts
  config.validateLimits
  config.validateTls
  config.validateEndpoint lib
  config.validateBase lib
  config.validateProxies lib
  config.validateRedirects lib
  .ok config.normalized

end Config

section Normalisation

variable {lib : ConfigLibrary} {config config' : Config} {url : List Char} {u : SplitUrl}

theorem urlsplit_eq_ok : lib.urlsplit url = .ok u ↔
    SplitUrl.urlsplit lib.netlocAllowed url = some u := by
  unfold ConfigLibrary.urlsplit
  cases SplitUrl.urlsplit lib.netlocAllowed url <;> simp

theorem netloc_ne_nil (h : u.hostname ≠ none) : u.netloc ≠ [] := by
  intro hnil
  apply h
  simp [SplitUrl.hostname, SplitUrl.hostinfo, hnil, PyText.partition]

theorem stripSlashes_of_getLast? (h : url.getLast? ≠ some '/') : stripSlashes url = url := by
  rw [stripSlashes, List.rdropWhile_eq_self_iff]
  intro hne hlast
  apply h
  rw [List.getLast?_eq_some_getLast hne]
  exact congrArg some (of_decide_eq_true hlast)

theorem stripSlashes_concat (url : List Char) : stripSlashes (url ++ ['/']) = stripSlashes url :=
  List.rdropWhile_concat_pos _ _ _ (by decide)

theorem stripSlashes_stripSlashes (url : List Char) :
    stripSlashes (stripSlashes url) = stripSlashes url := List.rdropWhile_idempotent _ _

/-- An accepted base URL is still accepted when its last slash is gone. -/
theorem checkBase_stripSlashes (h : lib.checkBase url = .ok ()) :
    lib.checkBase (stripSlashes url) = .ok () := by
  simp only [ConfigLibrary.checkBase, do_eq_ok, require_eq_ok, urlsplit_eq_ok] at h ⊢
  obtain ⟨base, hbase, _, ⟨hscheme, hhost, hquery, hfragment, huser, hpassword, hslashes, hpath⟩,
    hlocal⟩ := h
  by_cases hlast : url.getLast? = some '/'
  · obtain ⟨front, rfl⟩ := List.getLast?_eq_some_iff.mp hlast
    obtain ⟨path, hp, hfront⟩ :=
      SplitUrl.urlsplit_slash hbase (netloc_ne_nil hhost) hquery hfragment
    have hpathlast : path.getLast? ≠ some '/' := by
      intro hend
      obtain ⟨path', rfl⟩ := List.getLast?_eq_some_iff.mp hend
      exact hslashes ⟨path', by rw [hp]; simp⟩
    have hfrontlast : front.getLast? ≠ some '/' := by
      intro hend
      obtain ⟨front', rfl⟩ := List.getLast?_eq_some_iff.mp hend
      obtain ⟨path', hp', -⟩ :=
        SplitUrl.urlsplit_slash hfront (netloc_ne_nil hhost) hquery hfragment
      have hp' : path = path' ++ ['/'] := hp'
      rw [hp'] at hpathlast
      exact hpathlast (by simp)
    rw [hp, stripSlashes_concat, stripSlashes_of_getLast? hpathlast] at hpath
    rw [stripSlashes_concat, stripSlashes_of_getLast? hfrontlast]
    refine ⟨_, hfront, (), ⟨hscheme, hhost, hquery, hfragment, huser, hpassword, ?_, ?_⟩, hlocal⟩
    · rintro ⟨path', hsuffix⟩
      have hsuffix : path' ++ ['/', '/'] = path := hsuffix
      refine hpathlast ?_
      rw [← hsuffix]
      simp
    · rw [stripSlashes_of_getLast? hpathlast]
      exact hpath
  · rw [stripSlashes_of_getLast? hlast]
    exact ⟨base, hbase, (), ⟨hscheme, hhost, hquery, hfragment, huser, hpassword, hslashes, hpath⟩,
      hlocal⟩

theorem normalized_of_validateAll (h : config.validateAll lib = .ok config') :
    config' = config.normalized ∧ config.validateBase lib = .ok () := by
  simp only [Config.validateAll, do_eq_ok] at h
  obtain ⟨_, -, _, -, _, -, _, -, _, -, _, -, _, -, _, -, _, hbase, _, -, _, -, hconfig⟩ := h
  exact ⟨(Except.ok.inj hconfig).symm, hbase⟩

theorem normalized_normalized (config : Config) : config.normalized.normalized = config.normalized := by
  simp only [Config.normalized, String.toList_ofList, stripSlashes_stripSlashes]

/-- What the checks leave passes them unchanged. -/
theorem validateAll_idempotent (h : config.validateAll lib = .ok config') :
    config'.validateAll lib = .ok config' := by
  obtain ⟨rfl, hbase⟩ := normalized_of_validateAll h
  have hbase' : config.normalized.validateBase lib = .ok () := by
    have hstrip := checkBase_stripSlashes hbase
    rw [Config.validateBase, Config.normalized, String.toList_ofList]
    exact hstrip
  simp only [Config.validateAll, do_eq_ok] at h ⊢
  obtain ⟨_, haccount, _, hids, _, hnetworks, _, hdomains, _, hports, _, hlimits, _, htls, _,
    hendpoint, _, -, _, hproxies, _, hredirects, -⟩ := h
  -- The base URL is the only setting that the two configurations do not share.
  exact ⟨_, haccount, _, hids, _, hnetworks, _, hdomains, _, hports, _, hlimits, _, htls, _,
    hendpoint, _, hbase', _, hproxies, _, hredirects, congrArg _ (normalized_normalized config)⟩

/-- The checks of the account, the names and the limits are among them. -/
theorem validate_of_validateAll (h : config.validateAll lib = .ok config') :
    config.validate lib.email = .ok () := by
  simp only [Config.validateAll, Config.validate, Config.validateNames, do_eq_ok] at h ⊢
  obtain ⟨_, haccount, _, hids, _, -, _, hdomains, _, -, _, hlimits, -⟩ := h
  exact ⟨(), haccount, (), ⟨(), hids, hdomains⟩, hlimits⟩

end Normalisation

end NoreplyGateway
