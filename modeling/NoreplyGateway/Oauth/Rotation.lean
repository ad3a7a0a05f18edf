import NoreplyGateway.History
import NoreplyGateway.Oauth.Turns
import NoreplyGateway.Oauth.Endings
import NoreplyGateway.Oauth.Persistence

namespace NoreplyGateway.Oauth

open Machine Upstream

/-- An access token of a refresh, until it is rejected, cleared or replaced by a
login, or a caller comes within a minute of its expiry. -/
structure Grant where
  token : String
  expiry : PyFloat
  ended : Bool := false

/-- Where an access token comes from. A refresh has a record. -/
inductive Origin
  | login (token : String)
  | refresh (token : String) (record : Record)

/-- What happened to the refresh tokens of a manager. -/
structure Rotation where
  inFlight : ℕ := 0
  /-- The refresh token that was received last, or installed by a login. -/
  latest : Value := .null
  /-- The refresh tokens before it. -/
  replaced : List Value := []
  /-- A response was rejected as a whole, and no login followed. -/
  barred : Bool := false
  /-- The token and the record of the last refresh whose response was accepted. -/
  drawn : Option (String × Record) := none
  written : List Record := []
  origin : Option Origin := none
  grant : Option Grant := none

namespace Rotation

/-- The issued refresh tokens are distinct. -/
def Distinct (r : Rotation) : Prop := (r.latest :: r.replaced).Nodup

def receive (r : Rotation) (result : Fields) : Rotation :=
  let refreshToken := (result.lookup "refresh_token").getD .null
  if refreshToken.truthy then { r with latest := refreshToken, replaced := r.latest :: r.replaced }
  else r

/-- The grant ends if it meets the condition. -/
def finish (r : Rotation) (condition : Grant → Bool) : Rotation :=
  { r with grant := r.grant.map fun grant ↦ { grant with ended := grant.ended || condition grant } }

/-- The end of `_save_result` in a refresh. -/
def renew (r : Rotation) (lib : Library) (result : Fields) (token : String) (now : Time) :
    Rotation :=
  let r := { r with origin := r.drawn.map fun drawn ↦ .refresh drawn.1 drawn.2 }
  match ((result.lookup "expires_in").getD (.number "3600")).float lib with
  | .error _ => r
  | .ok lifetime =>
    let bounded := PyFloat.min (PyFloat.max lifetime (1 : ℚ)) (86400 : ℚ)
    { r with grant := some { token := token, expiry := PyFloat.add now bounded } }

/-- A response of the token endpoint to a refresh. -/
def respond (r : Rotation) (lib : Library) (post : PostResult) (t : Session) : Rotation :=
  match readJson lib post with
  | .error (.authenticationRequired _) => { r with barred := true }
  | .error _ => r
  | .ok result =>
    match t.holder with
    | some (.saving _ _ token) => { r.receive result with drawn := some (token, t.manager.record) }
    | _ => { r.receive result with barred := true }

def note (lib : Library) (r : Rotation) (s : Session) (e : Event) (t : Session) : Rotation :=
  match e with
  | .getToken now =>
    let r := r.finish fun grant ↦ !PyFloat.lt (now + 60 : ℚ) grant.expiry
    if t.holder.isSome then { r with inFlight := r.inFlight + 1 } else r
  | .refreshed post _ => { r with inFlight := r.inFlight - 1 }.respond lib post t
  | .enter _ | .exchanged _ | .verified .. | .profiled .. =>
    match t.holder with
    | some (.saving _ result _) => r.receive result
    | _ => r
  | .saved .done now =>
    match s.holder with
    | some (.saving .refresh result token) =>
      { r with written := t.vault :: r.written }.renew lib result token now
    | some (.saving (.login ..) _ token) =>
      { r.finish fun _ ↦ true with origin := some (.login token), barred := false }
    | _ => r
  | .rejected token => r.finish fun grant ↦ grant.token = token
  | .disconnectWritten .done _ => r.finish fun _ ↦ true
  | _ => r

/-- At the start of the process the refresh token is the stored one. -/
def opened (s : Session) : Rotation := { latest := s.manager.record.refreshToken.getD .null }

end Rotation

variable {lib : Library} {email : EmailPackage} {setup : Setup} {s t : Session} {e : Event}
  {out : Option Output} {r : Rotation} {token : String} {now : Time}

/-- The request of a refresh is in flight. -/
def Phase.asks : Phase → Bool
  | .refreshing .. => true
  | _ => false

def Record.renewable (record : Record) : Bool := (record.refreshToken.getD .null).truthy

section Save

variable {record record' : Record} {result : Fields} {mode username address : String}

theorem bearerToken_ne (h : bearerToken result = some token) : token ≠ "" := by
  unfold bearerToken at h
  split at h
  · split_ifs at h with hbearer
    cases h
    exact hbearer.1
  · cases h

theorem saveResult_saved
    (h : saveResult setup record result mode username address now = .ok (token, record')) :
    token ≠ "" ∧ record'.renewable = true ∧
      record'.refreshToken = (result.lookup "refresh_token").orElse fun _ ↦ record.refreshToken := by
  unfold saveResult at h
  split at h
  · cases h
  next hbearer =>
    dsimp only at h
    split at h
    · cases h
    next hnone =>
      cases h
      exact ⟨bearerToken_ne hbearer, Bool.not_eq_false _ ▸ hnone, rfl⟩

end Save

theorem addClientSecret_lookup {data data' : Fields} {key : String} {v : Value}
    (h : addClientSecret setup data = .ok data') (hv : data.lookup key = some v) :
    data'.lookup key = some v := by
  unfold addClientSecret at h
  split at h
  · cases h
    exact hv
  · dsimp only at h
    split at h
    · cases h
    · cases h
      rw [List.lookup_append, hv]
      rfl

/-- A refresh is requested with the refresh token of the record. -/
theorem getToken_asks {m : TokenManager} {data : Fields}
    (h : getToken setup m now = .ok (.inr data)) : m.needsLogin = false ∧
      m.record.renewable = true ∧
      data.lookup "refresh_token" = some (m.record.refreshToken.getD .null) := by
  unfold getToken at h
  by_cases hrefused : m.needsLogin = true ∨ (m.record.refreshToken.getD .null).truthy = false
  · rw [if_pos hrefused] at h
    cases h
  rw [if_neg hrefused] at h
  rw [not_or, Bool.not_eq_true, Bool.not_eq_false] at hrefused
  refine ⟨hrefused.1, hrefused.2, ?_⟩
  by_cases hcached : m.accessToken ≠ "" ∧ PyFloat.lt (now + 60 : ℚ) m.expires = true
  · rw [if_pos hcached] at h
    cases h
  rw [if_neg hcached] at h
  cases hdata : refreshData setup m.record with
  | error => simp [hdata, Except.map] at h
  | ok data' =>
    simp only [hdata, Except.map, Except.ok.injEq, Sum.inr.injEq] at h
    subst h
    refine addClientSecret_lookup hdata ?_
    split_ifs <;> rfl

namespace Rotation

theorem receive_eq (r : Rotation) (result : Fields) : ∃ latest replaced,
    r.receive result = { r with latest := latest, replaced := replaced } := by
  unfold receive
  dsimp only
  split_ifs <;> exact ⟨_, _, rfl⟩

/-- The refresh token of a saved record is the latest. -/
theorem receive_saved {record record' : Record} {result : Fields}
    {mode username address : String}
    (h : saveResult setup record result mode username address now = .ok (token, record'))
    (hr : result.lookup "refresh_token" = none → record.renewable = true →
      record.refreshToken = some r.latest) :
    record'.refreshToken = some (r.receive result).latest := by
  obtain ⟨-, hrenewable, hsaved⟩ := saveResult_saved h
  unfold Record.renewable at hrenewable
  rw [hsaved] at hrenewable ⊢
  cases hlookup : result.lookup "refresh_token" with
  | none =>
    rw [hlookup] at hrenewable
    have hkept : r.receive result = r := by simp [receive, hlookup, Value.truthy]
    rw [hkept]
    exact hr hlookup hrenewable
  | some v =>
    rw [hlookup] at hrenewable
    have htruthy : v.truthy = true := hrenewable
    simp [receive, hlookup, htruthy]

section Note

theorem note_authorizing (he : e.authorizes = true) (hh : ∀ p ∈ t.holder, p.authorizing = true) :
    r.note lib s e t = r := by
  have hkept : (match t.holder with
      | some (.saving _ result _) => r.receive result
      | _ => r) = r := by
    split
    next hholder => cases hh _ hholder
    · rfl
  cases e with
  | enter | exchanged | verified | profiled => exact hkept
  | _ => cases he

theorem note_loginRead {caller : Caller} {result : Fields} (he : e.authorizes = true)
    (hh : t.holder = some (.saving caller result token)) :
    r.note lib s e t = r.receive result := by
  cases e with
  | enter | exchanged | verified | profiled => simp [note, hh]
  | _ => cases he

theorem note_refreshRead {post : PostResult} {result : Fields} {caller : Caller}
    (hr : readJson lib post = .ok result) (hh : t.holder = some (.saving caller result token)) :
    r.note lib s (.refreshed post now) t = { r.receive result with
      inFlight := r.inFlight - 1
      drawn := some (token, t.manager.record) } := by
  obtain ⟨latest, replaced, hreceive⟩ := receive_eq r result
  unfold receive at hreceive ⊢
  simp only [note, respond, hr, hh, receive]
  split_ifs <;> rfl

end Note

/-- What the task that has the lock relies on. -/
def Backs (r : Rotation) (m : TokenManager) : Phase → Prop
  | .refreshing .. => m.needsLogin = false ∧ m.record.renewable = true
  | .saving .. => m.record.refreshToken = some r.latest
  | .profiling _ result _ => Renewable result
  | _ => True

/-- The invariant of the refresh requests. -/
structure Requests (r : Rotation) (s : Session) : Prop where
  inFlight : r.inFlight = if s.holder.any Phase.asks then 1 else 0
  barred : r.barred = true → s.manager.needsLogin = true
  latest : s.manager.needsLogin = false → s.manager.record.renewable = true →
    s.manager.record.refreshToken = some r.latest
  holder : ∀ p ∈ s.holder, r.Backs s.manager p

theorem Requests.idle (hh : s.holder = none) (hin : r.inFlight = 0)
    (hb : r.barred = true → s.manager.needsLogin = true)
    (hl : s.manager.needsLogin = false → s.manager.record.renewable = true →
      s.manager.record.refreshToken = some r.latest) : r.Requests s := by
  refine ⟨by rw [hh, hin]; rfl, hb, hl, ?_⟩
  intro p hp
  rw [hh] at hp
  cases hp

theorem Requests.none_of (h : r.Requests s) (hh : ∀ p ∈ s.holder, p.asks = false) :
    r.inFlight = 0 := by
  rw [h.inFlight, if_neg]
  rw [Option.any_eq_true]
  rintro ⟨p, hp, hasks⟩
  rw [hh p hp] at hasks
  cases hasks

theorem asks_of_authorizing {p : Phase} (h : p.authorizing = true) : p.asks = false := by
  cases p with
  | exchanging | verifying | profiling => rfl
  | _ => cases h

theorem Requests.step (h : r.Requests s) (hturn : Turn lib setup s e t out) :
    (r.note lib s e t).Requests t := by
  have hone : r.inFlight - 1 = 0 := by
    rw [h.inFlight]
    split_ifs <;> rfl
  cases hturn with
  | refused hh | cached hh =>
    have hnone : r.inFlight = 0 := h.none_of (by simp [hh])
    simp only [note, hh]
    exact .idle hh hnone h.barred h.latest
  | refreshing hh hg =>
    have hnone : r.inFlight = 0 := h.none_of (by simp [hh])
    obtain ⟨hlogin, hrenewable, -⟩ := getToken_asks hg
    refine ⟨by simp [note, finish, hnone, Phase.asks], h.barred, h.latest, ?_⟩
    intro p hp
    obtain rfl := Option.some.inj hp
    exact ⟨hlogin, hrenewable⟩
  | unread hh hr =>
    simp only [note, respond, hr]
    obtain ⟨message, rfl⟩ | ⟨message, rfl⟩ | ⟨name, rfl⟩ := readJson_error hr
    · refine .idle rfl hone (fun _ ↦ rfl) (fun hlogin ↦ ?_)
      cases hlogin
    · exact .idle rfl hone h.barred h.latest
    · exact .idle rfl hone h.barred h.latest
  | @unusable _ _ result _ _ _ hh hr hs =>
    obtain ⟨message, rfl⟩ := saveResult_error hs
    obtain ⟨latest, replaced, hreceive⟩ :=
      receive_eq { r with inFlight := r.inFlight - 1 } result
    simp only [note, respond, hr, hreceive]
    refine .idle rfl hone (fun _ ↦ rfl) (fun hlogin ↦ ?_)
    cases hlogin
  | @refreshRead mode token data result post now record hh hr hs =>
    obtain ⟨hlogin, hrenewable⟩ := h.holder _ hh
    have hlatest : record.refreshToken = some (r.receive result).latest :=
      receive_saved hs fun _ _ ↦ h.latest hlogin hrenewable
    obtain ⟨latest, replaced, hreceive⟩ := receive_eq r result
    rw [note_refreshRead hr rfl]
    refine ⟨by simp [hone, Phase.asks], ?_, fun _ _ ↦ hlatest, ?_⟩
    · rw [hreceive]
      exact h.barred
    · intro p hp
      obtain rfl := Option.some.inj hp
      exact hlatest
  | asked => exact ⟨h.inFlight, h.barred, h.latest, h.holder⟩
  | @authorizing _ holder _ _ he hh hh' hp =>
    have hnone : r.inFlight = 0 := h.none_of fun p hp ↦ asks_of_authorizing (hh p hp)
    have hany : holder.any Phase.asks = false := by
      rw [Option.any_eq_false]
      exact fun p hp ↦ by simp [asks_of_authorizing (hh' p hp)]
    rw [note_authorizing he hh']
    refine ⟨by simp [hnone, hany], h.barred, h.latest, ?_⟩
    intro p hmem
    cases p with
    | exchanging | verifying => trivial
    | profiling login result claims => exact hp login result claims hmem
    | _ => cases hh' _ hmem
  | @loginRead _ login result username address token now record he hh hs ht =>
    have hnone : r.inFlight = 0 := h.none_of fun p hp ↦ asks_of_authorizing (hh p hp)
    have hgiven : Renewable result := ht.elim id fun ⟨_, hp⟩ ↦ h.holder _ hp
    have hlatest : record.refreshToken = some (r.receive result).latest := by
      refine receive_saved hs fun hmissing ↦ ?_
      rw [Renewable, hmissing] at hgiven
      cases hgiven
    obtain ⟨latest, replaced, hreceive⟩ := receive_eq r result
    rw [note_loginRead he rfl]
    refine ⟨?_, ?_, fun _ _ ↦ hlatest, ?_⟩
    · rw [hreceive]
      simp [hnone, Phase.asks]
    · rw [hreceive]
      exact h.barred
    · intro p hp
      obtain rfl := Option.some.inj hp
      exact hlatest
  | unsaved hh => exact .idle rfl (h.none_of (by simp [hh, Phase.asks])) h.barred h.latest
  | @uninstalled caller _ _ _ _ hh hl =>
    have hnone : r.inFlight = 0 := h.none_of (by simp [hh, Phase.asks])
    cases caller with
    | refresh =>
      simp only [note, hh, renew, hl]
      exact .idle rfl hnone h.barred h.latest
    | login =>
      simp only [note, hh, finish]
      refine .idle rfl hnone (fun hb ↦ ?_) h.latest
      cases hb
  | renewed hh hl =>
    simp only [note, hh, renew, hl]
    exact .idle rfl (h.none_of (by simp [hh, Phase.asks])) h.barred h.latest
  | loggedIn hh =>
    have hnone : r.inFlight = 0 := h.none_of (by simp [hh, Phase.asks])
    have hlatest := h.holder _ hh
    simp only [note, hh, finish]
    refine .idle rfl hnone (fun hb ↦ ?_) (fun _ _ ↦ hlatest)
    cases hb
  | @rejected token hh =>
    have hnone : r.inFlight = 0 := h.none_of (by simp [hh])
    have hcases := rejectedToken_cases lib s.manager.toTokens token
    generalize rejectedToken lib s.manager.toTokens token = rejected at hcases
    obtain ⟨error, m⟩ := rejected
    cases hcases with
    | older | known | counted => exact .idle hh hnone h.barred h.latest
    | forced =>
      refine .idle hh hnone (fun _ ↦ rfl) (fun hlogin ↦ ?_)
      cases hlogin
  | accepted => exact ⟨h.inFlight, h.barred, h.latest, fun p hp ↦ by cases p <;> exact h.holder _ hp⟩
  | disconnecting hh =>
    have hnone : r.inFlight = 0 := h.none_of (by simp [hh])
    refine ⟨hnone, h.barred, h.latest, ?_⟩
    intro p hp
    obtain rfl := Option.some.inj hp
    trivial
  | undisconnected hh => exact .idle rfl (h.none_of (by simp [hh, Phase.asks])) h.barred h.latest
  | disconnected hh =>
    refine .idle rfl (h.none_of (by simp [hh, Phase.asks])) (fun _ ↦ rfl) (fun hlogin ↦ ?_)
    cases hlogin

/-- The token was installed by a login, or by a refresh whose record was written. -/
def Yields (r : Rotation) (token : String) : Prop :=
  r.origin = some (.login token) ∨ ∃ record ∈ r.written, r.origin = some (.refresh token record)

/-- The invariant of the access tokens. -/
structure Provenance (r : Rotation) (s : Session) : Prop where
  drawn : ∀ result token, s.holder = some (.saving .refresh result token) →
    r.drawn = some (token, s.manager.record)
  origin : s.manager.accessToken = "" ∨ r.Yields s.manager.accessToken

theorem Provenance.idle (hh : s.holder = none)
    (ho : s.manager.accessToken = "" ∨ r.Yields s.manager.accessToken) : r.Provenance s := by
  refine ⟨fun result token hp ↦ ?_, ho⟩
  rw [hh] at hp
  cases hp

/-- A refresh that was written gives its token. -/
theorem Provenance.renew (h : r.Provenance s) {result : Fields}
    (hh : s.holder = some (.saving .refresh result token)) (now : Time) :
    ({ r with written := s.manager.record :: r.written }.renew lib result token now).Yields
      token := by
  have hdrawn := h.drawn result token hh
  refine .inr ⟨s.manager.record, ?_⟩
  unfold Rotation.renew
  dsimp only
  split <;> exact ⟨List.mem_cons_self, by rw [hdrawn]; rfl⟩

theorem Provenance.step (h : r.Provenance s) (hturn : Turn lib setup s e t out) :
    (r.note lib s e t).Provenance t := by
  cases hturn with
  | refused hh | cached hh =>
    simp only [note, hh]
    exact .idle hh h.origin
  | refreshing hh =>
    refine ⟨fun result token hp ↦ ?_, h.origin⟩
    cases hp
  | unread hh hr =>
    simp only [note, respond, hr]
    obtain ⟨message, rfl⟩ | ⟨message, rfl⟩ | ⟨name, rfl⟩ := readJson_error hr
    all_goals exact .idle rfl h.origin
  | @unusable _ _ result _ _ _ hh hr hs =>
    obtain ⟨message, rfl⟩ := saveResult_error hs
    obtain ⟨latest, replaced, hreceive⟩ :=
      receive_eq { r with inFlight := r.inFlight - 1 } result
    simp only [note, respond, hr, hreceive]
    exact .idle rfl h.origin
  | @refreshRead mode token data result post now record hh hr hs =>
    obtain ⟨latest, replaced, hreceive⟩ := receive_eq r result
    rw [note_refreshRead hr rfl, hreceive]
    refine ⟨fun result' token' hp ↦ ?_, h.origin⟩
    obtain ⟨-, -, rfl⟩ := Phase.saving.inj (Option.some.inj hp)
    rfl
  | asked => exact ⟨h.drawn, h.origin⟩
  | authorizing he hh hh' =>
    rw [note_authorizing he hh']
    refine ⟨fun result token hp ↦ ?_, h.origin⟩
    cases hh' _ hp
  | @loginRead _ login result username address token now record he =>
    obtain ⟨latest, replaced, hreceive⟩ := receive_eq r result
    rw [note_loginRead he rfl, hreceive]
    refine ⟨fun result' token' hp ↦ ?_, h.origin⟩
    cases hp
  | unsaved => exact .idle rfl h.origin
  | @uninstalled caller _ _ _ now hh hl =>
    cases caller with
    | refresh =>
      simp only [note, hh]
      exact .idle rfl (.inr (h.renew hh now))
    | login =>
      simp only [note, hh]
      exact .idle rfl (.inr (.inl rfl))
  | @renewed _ _ now _ hh =>
    simp only [note, hh]
    exact .idle rfl (.inr (h.renew hh now))
  | loggedIn hh =>
    simp only [note, hh]
    exact .idle rfl (.inr (.inl rfl))
  | @rejected token hh =>
    have hcases := rejectedToken_cases lib s.manager.toTokens token
    generalize rejectedToken lib s.manager.toTokens token = rejected at hcases
    obtain ⟨error, m⟩ := rejected
    cases hcases with
    | older => exact .idle hh h.origin
    | known | counted | forced => exact .idle hh (.inl rfl)
  | accepted => exact ⟨h.drawn, h.origin⟩
  | disconnecting =>
    refine ⟨fun result token hp ↦ ?_, h.origin⟩
    cases hp
  | undisconnected => exact .idle rfl h.origin
  | disconnected => exact .idle rfl (.inl rfl)

/-- The invariant of the grant: while it lasts, its token is the installed one. -/
structure Lasts (r : Rotation) (s : Session) : Prop where
  grant : ∀ grant ∈ r.grant, grant.ended = false → grant.token ≠ "" ∧
    s.manager.accessToken = grant.token ∧ s.manager.expires = grant.expiry
  renewing : ∀ p ∈ s.holder, p.renews = true → ∀ grant ∈ r.grant, grant.ended = true
  saving : ∀ caller result token, s.holder = some (.saving caller result token) → token ≠ ""

theorem mem_finish {condition : Grant → Bool} {grant : Grant}
    (h : grant ∈ (r.finish condition).grant) (hlasts : grant.ended = false) :
    grant ∈ r.grant ∧ condition grant = false := by
  obtain ⟨old, hold, rfl⟩ := Option.map_eq_some_iff.mp h
  obtain ⟨hended, hcondition⟩ := Bool.or_eq_false_iff.mp hlasts
  have hsame : { old with ended := old.ended || condition old } = old := by
    rw [hended, hcondition]
    exact congrArg (Grant.mk old.token old.expiry) hended.symm
  rw [hsame]
  exact ⟨hold, hcondition⟩

theorem Lasts.idle (hh : s.holder = none)
    (hg : ∀ grant ∈ r.grant, grant.ended = false → grant.token ≠ "" ∧
      s.manager.accessToken = grant.token ∧ s.manager.expires = grant.expiry) : r.Lasts s := by
  refine ⟨hg, ?_, ?_⟩
  · intro p hp
    rw [hh] at hp
    cases hp
  · intro caller result token hp
    rw [hh] at hp
    cases hp

/-- A caller that asks for a refresh finds that the grant has ended. -/
theorem Lasts.asked (h : r.Lasts s) {data : Fields}
    (hg : getToken setup s.manager now = .ok (.inr data)) : ∀ grant ∈
      (r.finish fun grant ↦ !PyFloat.lt (now + 60 : ℚ) grant.expiry).grant, grant.ended = true := by
  intro grant hgrant
  by_contra hlasts
  rw [Bool.not_eq_true] at hlasts
  obtain ⟨hold, hlater⟩ := mem_finish hgrant hlasts
  obtain ⟨hne, htoken, hexpires⟩ := h.grant grant hold hlasts
  obtain ⟨hcached, -⟩ | ⟨-, hempty | hspent⟩ := getToken_cases hg
  · cases hcached
  · exact hne (htoken.symm.trans hempty)
  · rw [hexpires] at hspent
    rw [hspent] at hlater
    cases hlater

theorem Lasts.step (h : r.Lasts s) (hturn : Turn lib setup s e t out) :
    (r.note lib s e t).Lasts t := by
  have hfinished : ∀ condition : Grant → Bool, ∀ grant ∈ (r.finish condition).grant,
      grant.ended = false → grant.token ≠ "" ∧ s.manager.accessToken = grant.token ∧
        s.manager.expires = grant.expiry :=
    fun _ grant hgrant hlasts ↦ h.grant grant (mem_finish hgrant hlasts).1 hlasts
  cases hturn with
  | refused hh | cached hh =>
    simp only [note, hh]
    exact .idle hh (hfinished _)
  | refreshing hh hg =>
    have hended := h.asked hg
    refine ⟨fun grant hgrant hlasts ↦ ?_, fun _ _ _ ↦ hended, fun caller result token hp ↦ ?_⟩
    · rw [hended grant hgrant] at hlasts
      cases hlasts
    · cases hp
  | @unread _ _ _ _ error hh hr =>
    obtain ⟨needsLogin, lastError, hm⟩ := refreshFailed_frame s.manager error
    simp only [note, respond, hr, hm]
    obtain ⟨message, rfl⟩ | ⟨message, rfl⟩ | ⟨name, rfl⟩ := readJson_error hr
    all_goals exact .idle rfl h.grant
  | @unusable _ _ result _ _ error hh hr hs =>
    obtain ⟨needsLogin, lastError, hm⟩ := refreshFailed_frame s.manager error
    obtain ⟨latest, replaced, hreceive⟩ :=
      receive_eq { r with inFlight := r.inFlight - 1 } result
    simp only [note, respond, hr, hm, hreceive]
    exact .idle rfl h.grant
  | @refreshRead mode token data result post now record hh hr hs =>
    obtain ⟨latest, replaced, hreceive⟩ := receive_eq r result
    rw [note_refreshRead hr rfl, hreceive]
    refine ⟨h.grant, fun _ _ _ ↦ h.renewing _ hh rfl, fun caller result' token' hp ↦ ?_⟩
    obtain ⟨-, -, rfl⟩ := Phase.saving.inj (Option.some.inj hp)
    exact (saveResult_saved hs).1
  | asked => exact ⟨h.grant, h.renewing, h.saving⟩
  | authorizing he hh hh' =>
    rw [note_authorizing he hh']
    refine ⟨h.grant, fun p hp hrenews ↦ ?_, fun caller result token hp ↦ ?_⟩
    · have hauthorizing := hh' p hp
      cases p <;> simp [Phase.renews, Phase.authorizing] at hrenews hauthorizing
    · cases hh' _ hp
  | @loginRead _ login result username address token now record he hh hs =>
    obtain ⟨latest, replaced, hreceive⟩ := receive_eq r result
    rw [note_loginRead he rfl, hreceive]
    refine ⟨h.grant, fun p hp hrenews ↦ ?_, fun caller result' token' hp ↦ ?_⟩
    · obtain rfl := Option.some.inj hp
      cases hrenews
    · obtain ⟨-, -, rfl⟩ := Phase.saving.inj (Option.some.inj hp)
      exact (saveResult_saved hs).1
  | unsaved => exact .idle rfl h.grant
  | @uninstalled caller _ _ _ now hh hl =>
    cases caller with
    | refresh =>
      simp only [note, hh, renew, hl]
      refine .idle rfl fun grant hgrant hlasts ↦ ?_
      rw [h.renewing _ hh rfl grant hgrant] at hlasts
      cases hlasts
    | login =>
      simp only [note, hh]
      refine .idle rfl fun grant hgrant hlasts ↦ ?_
      cases (mem_finish hgrant hlasts).2
  | renewed hh hl =>
    have hne := h.saving _ _ _ hh
    simp only [note, hh, renew, hl]
    refine .idle rfl fun grant hgrant _ ↦ ?_
    obtain rfl := Option.some.inj hgrant
    exact ⟨hne, rfl, rfl⟩
  | loggedIn hh =>
    simp only [note, hh]
    refine .idle rfl fun grant hgrant hlasts ↦ ?_
    cases (mem_finish hgrant hlasts).2
  | @rejected token hh =>
    have hcleared : s.manager.accessToken = "" ∨ s.manager.accessToken = token →
        ∀ grant ∈ (r.finish fun grant ↦ grant.token = token).grant, grant.ended = false → False := by
      intro hcurrent grant hgrant hlasts
      obtain ⟨hold, hother⟩ := mem_finish hgrant hlasts
      obtain ⟨hne, htoken, -⟩ := h.grant grant hold hlasts
      obtain hempty | hrejected := hcurrent
      · exact hne (htoken.symm.trans hempty)
      · exact of_decide_eq_false hother (htoken.symm.trans hrejected)
    have hcases := rejectedToken_cases lib s.manager.toTokens token
    generalize rejectedToken lib s.manager.toTokens token = rejected at hcases
    obtain ⟨error, m⟩ := rejected
    cases hcases with
    | older => exact .idle hh (hfinished _)
    | known hcurrent | counted hcurrent | forced hcurrent =>
      exact .idle hh fun grant hgrant hlasts ↦ (hcleared hcurrent grant hgrant hlasts).elim
  | accepted => exact ⟨h.grant, h.renewing, h.saving⟩
  | disconnecting =>
    refine ⟨h.grant, fun p hp hrenews ↦ ?_, fun caller result token hp ↦ ?_⟩
    · obtain rfl := Option.some.inj hp
      cases hrenews
    · cases hp
  | undisconnected => exact .idle rfl h.grant
  | disconnected =>
    refine .idle rfl fun grant hgrant hlasts ↦ ?_
    cases (mem_finish hgrant hlasts).2

/-- A token that `get_token` returns has its record written before. -/
theorem Provenance.returned (h : r.Provenance s)
    (hturn : Turn lib setup s e t (some (.token (.ok token)))) : (r.note lib s e t).Yields token := by
  obtain ⟨now, rfl, rfl, hh, hg⟩ | ⟨now, result, rfl, hh, hvault⟩ := hturn.returned
  · obtain ⟨hcached, hne, -⟩ | ⟨⟨data, hdata⟩, -⟩ := getToken_cases hg
    · obtain rfl := Sum.inl.inj hcached
      simp only [note, hh]
      exact h.origin.resolve_left hne
    · cases hdata
  · have hyields : ({ r with written := s.manager.record :: r.written }.renew lib result token
        now).Yields token := h.renew hh now
    simp only [note, hh, hvault]
    exact hyields

variable (lib email setup) in
/-- A session with what happened to its refresh tokens. -/
abbrev stepRotation : Session × Rotation → Event → Option (Session × Rotation) :=
  observe (Session.step lib email setup) (note lib)

variable {vault : Record} {events : List Event} {w w' : Session × Rotation}

theorem observed (hw : w.2.Requests w.1 ∧ w.2.Provenance w.1 ∧ w.2.Lasts w.1)
    (h : stepRotation lib email setup w e = some w') :
    w'.2.Requests w'.1 ∧ w'.2.Provenance w'.1 ∧ w'.2.Lasts w'.1 := by
  obtain ⟨hrequests, hprovenance, hlasts⟩ := hw
  obtain ⟨hstep, hnote⟩ := observe_eq_some.mp h
  obtain ⟨t, out, -, hturn, ht⟩ := turn_of_step hstep
  have hrequests := hrequests.step hturn
  have hprovenance := hprovenance.step hturn
  have hlasts := hlasts.step hturn
  rw [hnote, ht]
  exact ⟨⟨hrequests.inFlight, hrequests.barred, hrequests.latest, hrequests.holder⟩,
    ⟨hprovenance.drawn, hprovenance.origin⟩, ⟨hlasts.grant, hlasts.renewing, hlasts.saving⟩⟩

theorem opened_holds (vault : Record) :
    let s : Session := .opened setup vault
    (opened s).Requests s ∧ (opened s).Provenance s ∧ (opened s).Lasts s := by
  intro s
  have hidle : s.holder = none := by
    simp only [s, Session.opened]
    split_ifs <;> rfl
  have hempty : s.manager.accessToken = "" := by
    simp only [s, Session.opened]
    split_ifs <;> rfl
  refine ⟨.idle hidle rfl (fun hb ↦ ?_) (fun _ hrenewable ↦ ?_), .idle hidle (.inl hempty),
    .idle hidle (fun grant hgrant ↦ ?_)⟩
  · cases hb
  · unfold Record.renewable at hrenewable
    cases hrecord : s.manager.record.refreshToken with
    | none =>
      rw [hrecord] at hrenewable
      cases hrenewable
    | some v => simp [opened, hrecord]
  · cases hgrant

/-- At most one refresh is in flight. It carries the latest refresh token, never
one that was replaced, and follows no response that was rejected as a whole. It
is requested once the token of the last refresh has ended. A token is returned
after the record of its refresh was written. -/
theorem refresh_rotation {s : Session} {r : Rotation} (h : Runs (stepRotation lib email setup)
      (.opened setup vault, opened (.opened setup vault)) events (s, r)) :
    r.inFlight ≤ 1 ∧
    (∀ now t out mode data, s.perform lib email setup (.getToken now) = some (t, out) →
      t.holder = some (.refreshing mode data) →
      r.inFlight = 0 ∧ r.barred = false ∧ data.lookup "refresh_token" = some r.latest ∧
      (r.Distinct → ∀ v ∈ r.replaced, data.lookup "refresh_token" ≠ some v) ∧
      ∀ grant ∈ (r.note lib s (.getToken now) t).grant, grant.ended = true) ∧
    ∀ e t token, s.perform lib email setup e = some (t, some (.token (.ok token))) →
      (r.note lib s e t).Yields token := by
  obtain ⟨hrequests, hprovenance, hlasts⟩ :=
    h.invariant (P := fun w ↦ w.2.Requests w.1 ∧ w.2.Provenance w.1 ∧ w.2.Lasts w.1)
      (fun _ _ _ hu ha ↦ observed hu ha) (opened_holds vault)
  refine ⟨?_, ?_, fun e t token hp ↦ hprovenance.returned (turn_of_perform hp)⟩
  · rw [hrequests.inFlight]
    split_ifs
    · exact le_rfl
    · exact Nat.zero_le 1
  · intro now t out mode data hp hh
    have hturn := turn_of_perform hp
    cases hturn with
    | refused hnone | cached hnone =>
      rw [hnone] at hh
      cases hh
    | authorizing he | loginRead he => cases he
    | refreshing hnone hg =>
      obtain ⟨-, rfl⟩ := Phase.refreshing.inj (Option.some.inj hh)
      obtain ⟨hlogin, hrenewable, hdata⟩ := getToken_asks hg
      rw [hrequests.latest hlogin hrenewable] at hdata
      refine ⟨hrequests.none_of (by simp [hnone]), ?_, hdata, ?_, hlasts.asked hg⟩
      · by_contra hbarred
        rw [Bool.not_eq_false] at hbarred
        rw [hrequests.barred hbarred] at hlogin
        cases hlogin
      · rintro hdistinct v hv hsame
        obtain rfl := Option.some.inj (hdata.symm.trans hsame)
        exact (List.nodup_cons.mp hdistinct).1 hv

/-- A refresh that is saved. -/
def renewal : List Event := refreshRun ++ [.saved .done 0]

theorem refresh_rotation_sample : ∃ s r t out mode data,
    Runs (stepRotation sampleLibrary sampleEmail sampleSetup)
      (.opened sampleSetup firstRecord, opened (.opened sampleSetup firstRecord)) renewal (s, r) ∧
    s.perform sampleLibrary sampleEmail sampleSetup (.getToken 3600) = some (t, out) ∧
    t.holder = some (.refreshing mode data) ∧
    data.lookup "refresh_token" = some r.latest ∧
    ∀ v ∈ r.replaced, data.lookup "refresh_token" ≠ some v := by
  have hrun : (run (stepRotation sampleLibrary sampleEmail sampleSetup) renewal
      (.opened sampleSetup firstRecord, opened (.opened sampleSetup firstRecord))).any (fun w ↦
        ((w.2.latest :: w.2.replaced).map Value.string?).Nodup ∧
        (w.1.perform sampleLibrary sampleEmail sampleSetup (.getToken 3600)).any
          (·.1.holder.any Phase.asks)) := by decide +kernel
  obtain ⟨⟨s, r⟩, hs, hrest⟩ := (Option.any_eq_true ..).mp hrun
  obtain ⟨hnodup, hperform⟩ := of_decide_eq_true hrest
  obtain ⟨⟨t, out⟩, hperform, hasks⟩ := (Option.any_eq_true ..).mp hperform
  obtain ⟨phase, hphase, hasks⟩ := (Option.any_eq_true ..).mp hasks
  cases phase with
  | refreshing mode data =>
    obtain ⟨-, -, hdata, hreplaced, -⟩ :=
      (refresh_rotation hs).2.1 3600 t out mode data hperform hphase
    exact ⟨s, r, t, out, mode, data, hs, hperform, hphase, hdata,
      hreplaced (List.Nodup.of_map _ hnodup)⟩
  | _ => cases hasks

def longBody : Octets :=
  ascii "\x7b\"access_token\":\"A1\",\"refresh_token\":\"R1\",\"expires_in\":90000\x7d"

def longResult : Fields :=
  [("access_token", .string "A1"), ("refresh_token", .string "R1"), ("expires_in", .number "90000")]

/-- A library that knows one JSON text and its number. -/
def longLibrary : Library where
  float text := if text = "90000" then some (90000 : ℚ) else none
  timestamp _ := none
  loads content := if content = longBody then .ok (.object longResult) else .error .valueError
  str _ := .ok ""
  fromstring _ := none
  sha256 text := text

/-- A token with a lifetime of twenty-five hours is refreshed after a day. -/
theorem refresh_before_expiry : ∃ s t out,
    Runs (Session.step longLibrary sampleEmail sampleSetup) (.opened sampleSetup firstRecord)
      [.getToken 0, .refreshed (.answered ⟨200, none, [longBody]⟩) 0, .saved .done 0] s ∧
    readJson longLibrary (.answered ⟨200, none, [longBody]⟩) = .ok longResult ∧
    (longResult.lookup "expires_in").map (Value.float longLibrary) = some (.ok (90000 : ℚ)) ∧
    s.manager.accessToken = "A1" ∧
    s.perform longLibrary sampleEmail sampleSetup (.getToken 86341) = some (t, out) ∧
    t.holder.any Phase.asks = true ∧ (86341 : ℚ) + 60 < 0 + 90000 := by
  have hrun : (run (Session.step longLibrary sampleEmail sampleSetup)
      [.getToken 0, .refreshed (.answered ⟨200, none, [longBody]⟩) 0, .saved .done 0]
      (.opened sampleSetup firstRecord)).any (fun s ↦ s.manager.accessToken = "A1" ∧
        (s.perform longLibrary sampleEmail sampleSetup (.getToken 86341)).any
          (·.1.holder.any Phase.asks)) := by decide +kernel
  have hread : readLimited 1048576 [longBody] = some longBody := by decide +kernel
  obtain ⟨s, hs, hrest⟩ := (Option.any_eq_true ..).mp hrun
  obtain ⟨htoken, hperform⟩ := of_decide_eq_true hrest
  obtain ⟨⟨t, out⟩, hperform, hasks⟩ := (Option.any_eq_true ..).mp hperform
  refine ⟨s, t, out, hs, ?_, rfl, htoken, hperform, hasks, by norm_num⟩
  simp [readJson, hread, longLibrary, longResult]

end Rotation

end NoreplyGateway.Oauth
