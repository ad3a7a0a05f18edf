import NoreplyGateway.JsonText
import NoreplyGateway.Oauth.Persistence
import NoreplyGateway.Oauth.Turns

namespace NoreplyGateway

/-- The account that a credential is for, as far as the configuration names it. -/
structure Identity where
  sender : String
  username : String
  backend : BackendKind
  tenantId : String
  clientId : String
  redirectUri : String
  sendShared : Bool
  deriving DecidableEq

def AccountConfig.identity (a : AccountConfig) : Identity where
  sender := casefold a.sender
  username := casefold a.username
  backend := a.backend
  tenantId := a.tenantId
  clientId := a.clientId
  redirectUri := a.redirectUri
  sendShared := a.sendShared

namespace Oauth

open Machine Upstream

/-- The text that `account_fingerprint` hashes. -/
def fingerprintText (a : AccountConfig) : String :=
  let values := [casefold a.sender, casefold a.username, backendName a.backend, a.tenantId,
    a.clientId, a.redirectUri]
  Json.dumps (if a.sendShared then values ++ ["Mail.Send.Shared"] else values)

/-- The setup that a process makes of its configuration. -/
def Setup.of (lib : Library) (account : AccountConfig) (allowAnyUsername : Bool)
    (secret : Option String) : Setup where
  account := account
  fingerprint := accountFingerprint lib account
  allowAnyUsername := allowAnyUsername
  secret := secret

/-- The process that uses a stored record. The program does not keep the last two
fields: the accounts whose logins began the chains of the records in memory and in
the vault. -/
structure Deployed where
  setup : Setup
  session : Session
  memory : Option AccountConfig
  disk : Option AccountConfig

/-- A step of the manager, or the end of the process and the start of the next one
with a configuration of its own. -/
inductive Turnover
  | event (e : Event)
  | boot (account : AccountConfig) (allowAnyUsername : Bool) (secret : Option String)

/-- The vault holds the record of the manager after this step. -/
def Event.persists : Event → Bool
  | .saved .done _ | .saved (.failed true) _ => true
  | _ => false

variable (lib : Library) (email : EmailPackage)

def Deployed.boot (account : AccountConfig) (allowAnyUsername : Bool) (secret : Option String)
    (vault : Record) (disk : Option AccountConfig) : Deployed where
  setup := .of lib account allowAnyUsername secret
  session := .opened (.of lib account allowAnyUsername secret) vault
  memory := disk
  disk := disk

def Deployed.step (w : Deployed) : Turnover → Option Deployed
  | .event e =>
    (w.session.step lib email w.setup e).map fun s ↦
      { w with
        session := s
        memory := if s.chains = w.session.chains then w.memory else some w.setup.account
        disk := if e.persists then w.memory else w.disk }
  | .boot account allowAnyUsername secret =>
    some (.boot lib account allowAnyUsername secret w.session.vault w.disk)

variable {lib email}

theorem accountFingerprint_eq (a : AccountConfig) :
    accountFingerprint lib a = lib.sha256 (fingerprintText a) := rfl

theorem backendName_injective : Function.Injective backendName := by
  intro a b h
  cases a <;> cases b <;> first | rfl | simp [backendName] at h

/-- Accounts are fingerprinted from the same text exactly if they are the same. -/
theorem fingerprintText_iff {a b : AccountConfig} :
    fingerprintText a = fingerprintText b ↔ a.identity = b.identity := by
  constructor
  · intro h
    have hvalues := JsonText.dumps_strings_injective h
    have hshared : a.sendShared = b.sendShared := by
      have hlength := congrArg List.length hvalues
      cases ha : a.sendShared <;> cases hb : b.sendShared <;> simp [ha, hb] at hlength ⊢
    have hsix : [casefold a.sender, casefold a.username, backendName a.backend, a.tenantId,
        a.clientId, a.redirectUri] = [casefold b.sender, casefold b.username,
        backendName b.backend, b.tenantId, b.clientId, b.redirectUri] := by
      rw [hshared] at hvalues
      cases hb : b.sendShared with
      | false =>
        rw [hb] at hvalues
        exact hvalues
      | true =>
        rw [hb] at hvalues
        exact List.append_cancel_right hvalues
    simp only [List.cons.injEq, and_true] at hsix
    obtain ⟨hsender, husername, hbackend, htenant, hclient, hredirect⟩ := hsix
    simp only [AccountConfig.identity, hsender, husername, backendName_injective hbackend, htenant,
      hclient, hredirect, hshared]
  · intro h
    simp only [AccountConfig.identity, Identity.mk.injEq] at h
    obtain ⟨hsender, husername, hbackend, htenant, hclient, hredirect, hshared⟩ := h
    simp only [fingerprintText, hsender, husername, hbackend, htenant, hclient, hredirect, hshared]

section Step

variable {setup : Setup} {s t : Session} {e : Event} {out : Option Output}

theorem saveResult_record {record record' : Record} {result : Fields}
    {mode username sender token : String} {now : Time}
    (h : saveResult setup record result mode username sender now = .ok (token, record')) :
    record'.fingerprint = some setup.fingerprint := by
  unfold saveResult at h
  split at h
  · cases h
  · dsimp only at h
    split at h <;> cases h
    rfl

theorem not_empty_of_fingerprint {record : Record} {fingerprint : String}
    (h : record.fingerprint = some fingerprint) : record.isEmpty = false := by
  simp [Record.isEmpty, h]

theorem getToken_record {m : TokenManager} {now : Time} {result : String ⊕ Fields}
    (h : getToken setup m now = .ok result) : m.record.isEmpty = false ∧
      ∀ data, result = .inr data → refreshData setup m.record = .ok data := by
  unfold getToken at h
  split at h
  · cases h
  next hlogin =>
    have hpresent : m.record.isEmpty = false := by
      rw [not_or, Bool.not_eq_false] at hlogin
      cases htoken : m.record.refreshToken with
      | none => simp [htoken, Value.truthy] at hlogin
      | some token => simp [Record.isEmpty, htoken]
    refine ⟨hpresent, ?_⟩
    rintro data rfl
    split at h
    · cases h
    · cases hdata : refreshData setup m.record with
      | error e => simp [hdata, Except.map] at h
      | ok data' => simpa [hdata, Except.map] using h

/-- What a step does to the record in memory and to the one in the vault. -/
inductive RecordStep (setup : Setup) (s : Session) (e : Event) (t : Session) : Prop
  | kept (hr : t.manager.record = s.manager.record) (hv : t.vault = s.vault ∨ t.vault = {})
      (hc : t.chains = s.chains) (hp : e.persists = false)
      (hrefresh : ∀ mode data, t.holder = some (.refreshing mode data) →
        s.holder = t.holder ∨ ∃ now, getToken setup s.manager now = .ok (.inr data))
      (hsave : ∀ caller result token, t.holder = some (.saving caller result token) →
        s.holder = t.holder)
  | renewed {mode token : String} {data result : Fields}
      (hh : s.holder = some (.refreshing mode data))
      (hf : t.manager.record.fingerprint = some setup.fingerprint) (hv : t.vault = s.vault)
      (hc : t.chains = s.chains) (hp : e.persists = false)
      (hh' : t.holder = some (.saving .refresh result token))
  | login {caller : Caller} {result : Fields} {token : String}
      (hf : t.manager.record.fingerprint = some setup.fingerprint) (hv : t.vault = s.vault)
      (hc : t.chains = s.chains + 1) (hp : e.persists = false)
      (hh' : t.holder = some (.saving caller result token))
  | written (hr : t.manager.record = s.manager.record) (hv : t.vault = s.manager.record)
      (hc : t.chains = s.chains) (hp : e.persists = true) (hh : t.holder = none)
      (hs : ∃ caller result token, s.holder = some (.saving caller result token))
  | dropped (hr : t.manager.record = {}) (hv : t.vault = {}) (hc : t.chains = s.chains)
      (hp : e.persists = false) (hh : t.holder = none)

theorem Event.persists_of_authorizes (h : e.authorizes = true) : e.persists = false := by
  cases e <;> first | rfl | cases h

theorem Turn.recordStep (h : Turn lib setup s e t out) : RecordStep setup s e t := by
  cases h with
  | refused | cached | asked | accepted =>
    exact .kept rfl (.inl rfl) rfl rfl (fun _ _ _ ↦ .inl rfl) (fun _ _ _ _ ↦ rfl)
  | rejected hh => exact .kept rfl (.inl rfl) rfl rfl (fun _ _ _ ↦ .inl rfl) (fun _ _ _ _ ↦ rfl)
  | @refreshing now data hh hg =>
    refine .kept rfl (.inl rfl) rfl rfl (fun mode data' hholder ↦ .inr ⟨now, ?_⟩) (by simp)
    cases hholder
    exact hg
  | @unread _ _ _ _ error | @unusable _ _ _ _ _ error =>
    obtain ⟨needsLogin, lastError, hm⟩ := refreshFailed_frame s.manager error
    refine .kept ?_ (.inl rfl) rfl rfl (by simp) (by simp)
    simp only [hm]
  | refreshRead hh hr hs => exact .renewed hh (saveResult_record hs) rfl rfl rfl rfl
  | @authorizing _ holder _ _ he hh hh' =>
    refine .kept rfl (.inl rfl) rfl (Event.persists_of_authorizes he) ?_ ?_
    · intro mode data hholder
      cases hh' _ hholder
    · intro caller result token hholder
      cases hh' _ hholder
  | loginRead he hh hs =>
    exact .login (saveResult_record hs) rfl rfl (Event.persists_of_authorizes he) rfl
  | @unsaved caller result token replaced now hh =>
    cases replaced with
    | false => exact .kept rfl (.inl rfl) rfl rfl (by simp) (by simp)
    | true => exact .written rfl rfl rfl rfl rfl ⟨_, _, _, hh⟩
  | uninstalled hh | renewed hh | loggedIn hh => exact .written rfl rfl rfl rfl rfl ⟨_, _, _, hh⟩
  | disconnecting => exact .kept rfl (.inl rfl) rfl rfl (by simp) (by simp)
  | @undisconnected _ replaced _ hh =>
    cases replaced with
    | false => exact .kept rfl (.inl rfl) rfl rfl (by simp) (by simp)
    | true => exact .kept rfl (.inr rfl) rfl rfl (by simp) (by simp)
  | disconnected => exact .dropped rfl rfl rfl rfl rfl

end Step

/-- Every record is for the account whose login began its chain, and the one in
memory is for the account of the process. -/
structure Owned (lib : Library) (used : Set AccountConfig) (w : Deployed) : Prop where
  setup : w.setup.fingerprint = accountFingerprint lib w.setup.account
  account : w.setup.account ∈ used
  memory : w.session.manager.record.isEmpty = false → ∃ a ∈ w.memory, a ∈ used ∧
    w.session.manager.record.fingerprint = some (accountFingerprint lib a) ∧
    accountFingerprint lib a = w.setup.fingerprint
  disk : w.session.vault.isEmpty = false → ∃ a ∈ w.disk, a ∈ used ∧
    w.session.vault.fingerprint = some (accountFingerprint lib a)
  refreshing : ∀ mode data, w.session.holder = some (.refreshing mode data) →
    w.session.manager.record.isEmpty = false ∧
      refreshData w.setup w.session.manager.record = .ok data
  saving : ∀ caller result token, w.session.holder = some (.saving caller result token) →
    w.session.manager.record.isEmpty = false

variable {used : Set AccountConfig} {w w' : Deployed} {e : Event}

theorem Owned.event (hw : Owned lib used w) (h : w.step lib email (.event e) = some w') :
    Owned lib used w' := by
  obtain ⟨t, hstep, rfl⟩ := Option.map_eq_some_iff.mp h
  obtain ⟨u, out, -, hturn, rfl⟩ := turn_of_step hstep
  cases hturn.recordStep with
  | kept hr hv hc hp hrefresh hsave =>
    refine ⟨hw.setup, hw.account, ?_, ?_, ?_, ?_⟩
    · simp only [hr, hc, if_true]
      exact hw.memory
    · simp only [hp, Bool.false_eq_true, if_false]
      rcases hv with hv | hv
      · rw [hv]
        exact hw.disk
      · rw [hv]
        exact fun hpresent ↦ by cases hpresent
    · intro mode data hholder
      simp only [hr]
      rcases hrefresh mode data hholder with hold | ⟨now, hget⟩
      · exact hw.refreshing mode data (hold.trans hholder)
      · exact ⟨(getToken_record hget).1, (getToken_record hget).2 data rfl⟩
    · intro caller result token hholder
      simp only [hr]
      exact hw.saving caller result token ((hsave caller result token hholder).trans hholder)
  | @renewed mode token data result hh hf hv hc hp hh' =>
    obtain ⟨a, ha, hused, -, hfp⟩ := hw.memory (hw.refreshing mode data hh).1
    refine ⟨hw.setup, hw.account, fun _ ↦ ⟨a, ?_, hused, ?_, hfp⟩, ?_, ?_, ?_⟩
    · simp only [hc, if_true]
      exact ha
    · rw [hfp]
      exact hf
    · simp only [hp, Bool.false_eq_true, if_false, hv]
      exact hw.disk
    · simp [hh']
    · exact fun _ _ _ _ ↦ not_empty_of_fingerprint hf
  | login hf hv hc hp hh' =>
    refine ⟨hw.setup, hw.account, fun _ ↦ ⟨w.setup.account, ?_, hw.account, ?_, hw.setup.symm⟩,
      ?_, ?_, ?_⟩
    · simp only [hc]
      rw [if_neg (by omega)]
      rfl
    · rw [← hw.setup]
      exact hf
    · simp only [hp, Bool.false_eq_true, if_false, hv]
      exact hw.disk
    · simp [hh']
    · exact fun _ _ _ _ ↦ not_empty_of_fingerprint hf
  | written hr hv hc hp hh hs =>
    refine ⟨hw.setup, hw.account, ?_, ?_, by simp [hh], by simp [hh]⟩
    · simp only [hr, hc, if_true]
      exact hw.memory
    · simp only [hp, if_true, hv]
      intro hpresent
      obtain ⟨a, ha, hused, hfp, -⟩ := hw.memory hpresent
      exact ⟨a, ha, hused, hfp⟩
  | dropped hr hv hc hp hh =>
    refine ⟨hw.setup, hw.account, ?_, ?_, by simp [hh], by simp [hh]⟩
    · simp only [hr]
      exact fun hpresent ↦ by cases hpresent
    · simp only [hv]
      exact fun hpresent ↦ by cases hpresent

theorem Owned.boot {account : AccountConfig} {allowAnyUsername : Bool} {secret : Option String}
    {vault : Record} {disk : Option AccountConfig} (ha : account ∈ used)
    (hdisk : vault.isEmpty = false → ∃ a ∈ disk, a ∈ used ∧
      vault.fingerprint = some (accountFingerprint lib a)) :
    Owned lib used (.boot lib account allowAnyUsername secret vault disk) := by
  have hvault :
      (Session.opened (.of lib account allowAnyUsername secret) vault).vault = vault := by
    unfold Session.opened
    split_ifs <;> rfl
  have hholder :
      (Session.opened (.of lib account allowAnyUsername secret) vault).holder = none := by
    unfold Session.opened
    split_ifs <;> rfl
  refine ⟨rfl, ha, ?_, ?_, ?_, ?_⟩
  · simp only [Deployed.boot, Session.opened]
    split_ifs with hchanged
    · exact fun hpresent ↦ by cases hpresent
    · intro hpresent
      obtain ⟨a, hmem, hused, hfp⟩ := hdisk hpresent
      refine ⟨a, hmem, hused, hfp, ?_⟩
      rw [not_and_not_right] at hchanged
      exact Option.some.inj (hfp.symm.trans (hchanged hpresent))
  · simp only [Deployed.boot, hvault]
    exact hdisk
  · simp [Deployed.boot, hholder]
  · simp [Deployed.boot, hholder]

theorem Owned.step {event : Turnover} (hw : Owned lib used w)
    (hused : ∀ a any secret, event = .boot a any secret → a ∈ used)
    (h : w.step lib email event = some w') : Owned lib used w' := by
  cases event with
  | event e => exact hw.event h
  | boot account allowAnyUsername secret =>
    cases h
    exact .boot (hused _ _ _ rfl) hw.disk

theorem Turn.present {setup : Setup} {s t : Session} {out : Option Output} {token : String}
    (h : Turn lib setup s e t out) (hout : out = some (.token (.ok token)))
    (hs : ∀ caller result token, s.holder = some (.saving caller result token) →
      s.manager.record.isEmpty = false) : s.manager.record.isEmpty = false := by
  cases h with
  | cached hh hg => exact (getToken_record hg).1
  | asked ho => exact absurd hout (ho _)
  | authorizing he hh hh' hp ho => exact absurd hout (ho _)
  | @unsaved caller => cases caller <;> cases hout
  | @uninstalled caller => cases caller <;> cases hout
  | renewed hh => exact hs _ _ _ hh
  | _ => cases hout

theorem present_of_returned {token : String} (hw : Owned lib used w)
    (h : w.session.returned lib email w.setup e = some token) :
    w.session.manager.record.isEmpty = false := by
  unfold Session.returned at h
  cases hperform : w.session.perform lib email w.setup e with
  | none => simp [hperform] at h
  | some result =>
    have hturn := turn_of_perform hperform
    rw [hperform] at h
    split at h
    · next hout => exact hturn.present hout hw.saving
    · cases h

/-- No two of these accounts are fingerprinted alike unless they are the same. -/
def Distinguishes (lib : Library) (used : Set AccountConfig) : Prop :=
  ∀ a ∈ used, ∀ b ∈ used, lib.sha256 (fingerprintText a) = lib.sha256 (fingerprintText b) →
    fingerprintText a = fingerprintText b

theorem Distinguishes.identity {a b : AccountConfig} (h : Distinguishes lib used) (ha : a ∈ used)
    (hb : b ∈ used) (he : accountFingerprint lib a = accountFingerprint lib b) :
    a.identity = b.identity := fingerprintText_iff.mp (h a ha b hb he)

theorem opened_record_iff {setup : Setup} {vault : Record} :
    (Session.opened setup vault).manager.record = vault ↔
      (vault.isEmpty = false → vault.fingerprint = some setup.fingerprint) := by
  unfold Session.opened
  split_ifs with h
  · refine iff_of_false (fun he ↦ ?_) (fun hf ↦ h.2 (hf h.1))
    have hempty := h.1
    rw [← he] at hempty
    cases hempty
  · rw [not_and_not_right] at h
    exact iff_of_true rfl h

/-- Over any sequence of processes on one vault, each with a configuration of its own
and ended at any point, a refresh credential is sent, and an access token returned, only
for the account whose login began the chain; and a process keeps the stored record
exactly if it is for the same account. -/
theorem credentials_isolated {account : AccountConfig} {allowAnyUsername : Bool}
    {secret : Option String} {l : List Turnover}
    (hl : Runs (Deployed.step lib email)
      (.boot lib account allowAnyUsername secret {} none) l w)
    (haccount : account ∈ used) (hused : ∀ a any secret, .boot a any secret ∈ l → a ∈ used)
    (hsha : Distinguishes lib used) :
    (∀ mode data, w.session.holder = some (.refreshing mode data) →
      refreshData w.setup w.session.manager.record = .ok data ∧
        ∃ a ∈ w.memory, a.identity = w.setup.account.identity) ∧
    (∀ e token, w.session.returned lib email w.setup e = some token →
      ∃ a ∈ w.memory, a.identity = w.setup.account.identity) ∧
    ∀ b ∈ used, ∀ any secret,
      (Deployed.boot lib b any secret w.session.vault w.disk).session.manager.record =
        w.session.vault ↔
      (w.session.vault.isEmpty = false → ∃ a ∈ w.disk, a.identity = b.identity) := by
  have hw : Owned lib used w := by
    refine hl.trace_invariant (P := fun k v ↦ (∀ a any secret, .boot a any secret ∈ k → a ∈ used) →
      Owned lib used v) ?_ ?_ hused
    · exact fun _ ↦ .boot haccount fun hpresent ↦ by cases hpresent
    · intro k u event v _ ih hstep hk
      refine (ih fun a any secret hmem ↦ hk a any secret (List.mem_append_left _ hmem)).step ?_ hstep
      rintro a any secret rfl
      exact hk a any secret (by simp)
  have howner : w.session.manager.record.isEmpty = false →
      ∃ a ∈ w.memory, a.identity = w.setup.account.identity := by
    intro hpresent
    obtain ⟨a, hmem, ha, -, hfp⟩ := hw.memory hpresent
    exact ⟨a, hmem, hsha.identity ha hw.account (hfp.trans hw.setup)⟩
  refine ⟨fun mode data hholder ↦ ?_, fun e token hreturned ↦ ?_, fun b hb any secret ↦ ?_⟩
  · obtain ⟨hpresent, hdata⟩ := hw.refreshing mode data hholder
    exact ⟨hdata, howner hpresent⟩
  · exact howner (present_of_returned hw hreturned)
  · rw [Deployed.boot, opened_record_iff]
    refine imp_congr_right fun hpresent ↦ ?_
    obtain ⟨a, hmem, ha, hfp⟩ := hw.disk hpresent
    rw [hfp, Option.some.injEq]
    constructor
    · exact fun he ↦ ⟨a, hmem, hsha.identity ha hb he⟩
    · rintro ⟨a', hmem', hidentity⟩
      obtain rfl : a = a' := Option.some.inj (hmem.symm.trans hmem')
      exact congrArg lib.sha256 (fingerprintText_iff.mpr hidentity)

/-- An account signs in, and the next process refreshes its token. -/
def restartedLogin : List Turnover :=
  [.event (.completeLogin 1 secondLogin.flow [("state", "state"), ("code", "code")] 10),
    .event (.enter secondLogin), .event (.exchanged (.answered ⟨200, none, [loginBody]⟩)),
    .event (.verified (.ok [("nonce", .string "nonce"),
      ("preferred_username", .string "second@example.com")]) 10),
    .event (.profiled (.answered ⟨200, none, [profileBody]⟩) 10), .event (.saved .done 11),
    .boot sampleSetup.account true none, .event (.getToken 20),
    .event (.refreshed (.answered ⟨200, none, [refreshBody]⟩) 20)]

theorem credentials_isolated_sample : ∃ w token,
    Runs (Deployed.step sampleLibrary sampleEmail)
      (.boot sampleLibrary sampleSetup.account true none {} none) restartedLogin w ∧
    w.session.returned sampleLibrary sampleEmail w.setup (.saved .done 20) = some token ∧
    ∃ a ∈ w.memory, a.identity = w.setup.account.identity := by
  have hrun : (run (Deployed.step sampleLibrary sampleEmail) restartedLogin
      (.boot sampleLibrary sampleSetup.account true none {} none)).any (fun w ↦
        (w.session.returned sampleLibrary sampleEmail w.setup (.saved .done 20)).isSome) := by
    decide +kernel
  obtain ⟨w, hw, hreturned⟩ := (Option.any_eq_true ..).mp hrun
  obtain ⟨token, htoken⟩ := Option.isSome_iff_exists.mp hreturned
  have hused : ∀ a any secret, .boot a any secret ∈ restartedLogin →
      a ∈ ({sampleSetup.account} : Set AccountConfig) := by
    intro a any secret hmem
    simp only [restartedLogin, List.mem_cons, Turnover.boot.injEq, reduceCtorEq, List.not_mem_nil,
      or_false, false_or] at hmem
    exact hmem.1
  have haccount : sampleSetup.account ∈ ({sampleSetup.account} : Set AccountConfig) := rfl
  have hisolated := credentials_isolated hw haccount hused fun _ _ _ _ ↦ id
  exact ⟨w, token, hw, htoken, hisolated.2.1 _ token htoken⟩

end Oauth

end NoreplyGateway
