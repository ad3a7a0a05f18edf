import NoreplyGateway.Oauth.Session

namespace NoreplyGateway.Oauth

open Upstream

/-- Between the lock and the save of a login. -/
def Phase.authorizing : Phase → Bool
  | .exchanging .. | .verifying .. | .profiling .. => true
  | _ => false

/-- Part of a refresh. -/
def Phase.renews : Phase → Bool
  | .refreshing .. | .saving .refresh .. => true
  | _ => false

def Event.authorizes : Event → Bool
  | .enter _ | .exchanged _ | .verified .. | .profiled .. => true
  | _ => false

/-- A token response with a refresh token. -/
def Renewable (result : Fields) : Prop :=
  ((result.lookup "refresh_token").getD .null).truthy = true

/-- What a caller of `_save_result` returns when it raises. -/
def Caller.failed : Caller → DeliveryError → Output
  | .refresh, e => .token (.error e)
  | .login l _, e => .login l.task (.error e)

section

variable (lib : Library) (setup : Setup)

/-- What a step of a task does, and when. -/
inductive Turn (s : Session) : Event → Session → Option Output → Prop
  | refused {now : Time} {e : DeliveryError} (hh : s.holder = none)
      (hg : getToken setup s.manager now = .error e) :
      Turn s (.getToken now) s (some (.token (.error e)))
  | cached {now : Time} {token : String} (hh : s.holder = none)
      (hg : getToken setup s.manager now = .ok (.inl token)) :
      Turn s (.getToken now) s (some (.token (.ok token)))
  | refreshing {now : Time} {data : Fields} (hh : s.holder = none)
      (hg : getToken setup s.manager now = .ok (.inr data)) :
      Turn s (.getToken now)
        { s with holder := some (.refreshing (s.manager.record.mode.getD "v2") data) } none
  | unread {mode : String} {data : Fields} {post : PostResult} {now : Time} {e : DeliveryError}
      (hh : s.holder = some (.refreshing mode data)) (hr : readJson lib post = .error e) :
      Turn s (.refreshed post now) { s with manager := refreshFailed s.manager e, holder := none }
        (some (.token (.error e)))
  | unusable {mode : String} {data result : Fields} {post : PostResult} {now : Time}
      {e : DeliveryError} (hh : s.holder = some (.refreshing mode data))
      (hr : readJson lib post = .ok result)
      (hs : saveResult setup s.manager.record result mode "" "" now = .error e) :
      Turn s (.refreshed post now) { s with manager := refreshFailed s.manager e, holder := none }
        (some (.token (.error e)))
  | refreshRead {mode token : String} {data result : Fields} {post : PostResult} {now : Time}
      {record : Record} (hh : s.holder = some (.refreshing mode data))
      (hr : readJson lib post = .ok result)
      (hs : saveResult setup s.manager.record result mode "" "" now = .ok (token, record)) :
      Turn s (.refreshed post now) { s with
        manager := { s.manager with record := record }
        holder := some (.saving .refresh result token) } none
  | asked {task : ℕ} {flow : LoginFlow} {response : List (String × String)} {now : Time}
      {waiting : List Login} {out : Option Output} (ho : ∀ r, out ≠ some (.token r)) :
      Turn s (.completeLogin task flow response now) { s with waiting := waiting } out
  | authorizing {e : Event} {holder : Option Phase} {waiting : List Login} {out : Option Output}
      (he : e.authorizes = true) (hh : ∀ p ∈ s.holder, p.authorizing = true)
      (hh' : ∀ p ∈ holder, p.authorizing = true)
      (hp : ∀ login result claims, holder = some (.profiling login result claims) →
        Renewable result) (ho : ∀ r, out ≠ some (.token r)) :
      Turn s e { s with holder := holder, waiting := waiting } out
  | loginRead {e : Event} {login : Login} {result : Fields} {username address token : String}
      {now : Time} {record : Record} (he : e.authorizes = true)
      (hh : ∀ p ∈ s.holder, p.authorizing = true)
      (hs : saveResult setup s.manager.record result "v2" username address now =
        .ok (token, record))
      (ht : Renewable result ∨ ∃ claims, s.holder = some (.profiling login result claims)) :
      Turn s e { s with
        manager := { s.manager with record := record }
        holder := some (.saving (.login login address) result token)
        recordChain := s.chains + 1
        chains := s.chains + 1 } none
  | unsaved {caller : Caller} {result : Fields} {token : String} {replaced : Bool} {now : Time}
      (hh : s.holder = some (.saving caller result token)) :
      Turn s (.saved (.failed replaced) now)
        { s with vault := if replaced then s.manager.record else s.vault, holder := none }
        (some (caller.failed
          (.retryable "Cannot persist renewed account credentials" (30 : ℚ) true)))
  | uninstalled {caller : Caller} {result : Fields} {token name : String} {now : Time}
      (hh : s.holder = some (.saving caller result token))
      (hl : ((result.lookup "expires_in").getD (.number "3600")).float lib = .error name) :
      Turn s (.saved .done now) { s with
        vault := s.manager.record
        manager := { s.manager with accessToken := token }
        tokenChain := s.recordChain
        holder := none } (some (caller.failed (.unexpected name)))
  | renewed {result : Fields} {token : String} {now : Time} {lifetime : PyFloat}
      (hh : s.holder = some (.saving .refresh result token))
      (hl : ((result.lookup "expires_in").getD (.number "3600")).float lib = .ok lifetime) :
      Turn s (.saved .done now) { s with
        vault := s.manager.record
        manager := { s.manager with
          accessToken := token
          expires := PyFloat.add now (PyFloat.min (PyFloat.max lifetime (1 : ℚ)) (86400 : ℚ)) }
        tokenChain := s.recordChain
        holder := none } (some (.token (.ok token)))
  | loggedIn {login : Login} {address : String} {result : Fields} {token : String} {now : Time}
      {lifetime : PyFloat} (hh : s.holder = some (.saving (.login login address) result token))
      (hl : ((result.lookup "expires_in").getD (.number "3600")).float lib = .ok lifetime) :
      Turn s (.saved .done now) { s with
        vault := s.manager.record
        manager := loggedIn { s.manager with
          accessToken := token
          expires := PyFloat.add now (PyFloat.min (PyFloat.max lifetime (1 : ℚ)) (86400 : ℚ)) }
        tokenChain := s.recordChain
        holder := none } (some (.login login.task (.ok address)))
  | rejected {token : String} (hh : s.holder = none) :
      Turn s (.rejected token) { s with manager := { s.manager with
        toTokens := (rejectedToken lib s.manager.toTokens token).2 } }
        (some (.rejected (rejectedToken lib s.manager.toTokens token).1))
  | accepted : Turn s .accepted
      { s with manager := { s.manager with toTokens := acceptedToken s.manager.toTokens } } none
  | disconnecting {task : ℕ} (hh : s.holder = none) :
      Turn s (.disconnect task) { s with holder := some (.disconnecting task) } none
  | undisconnected {task : ℕ} {replaced : Bool} {now : Time}
      (hh : s.holder = some (.disconnecting task)) :
      Turn s (.disconnectWritten (.failed replaced) now)
        { s with vault := if replaced then {} else s.vault, holder := none }
        (some (.disconnected task (.error (.unexpected "OSError"))))
  | disconnected {task : ℕ} {now : Time} (hh : s.holder = some (.disconnecting task)) :
      Turn s (.disconnectWritten .done now)
        { s with vault := {}, manager := disconnected s.manager, holder := none }
        (some (.disconnected task (.ok ())))

end

/-- The ways through `rejected_token`. -/
inductive Rejection (lib : Library) (m : Tokens) (token : String) : DeliveryError → Tokens → Prop
  | older (h : m.accessToken ≠ "") (hne : m.accessToken ≠ token) :
      Rejection lib m token (.retryable "An older access token was rejected" (3 : ℚ) true) m
  | known (h : m.accessToken = "" ∨ m.accessToken = token)
      (hd : lib.sha256 token = m.rejectedDigest) (hr : m.rejections ≤ 1) :
      Rejection lib m token (.retryable "Microsoft requested a fresh access token" (3 : ℚ) true)
        { m with accessToken := "", expires := (0 : ℚ) }
  | counted (h : m.accessToken = "" ∨ m.accessToken = token)
      (hd : lib.sha256 token ≠ m.rejectedDigest) (hr : m.rejections = 0) :
      Rejection lib m token (.retryable "Microsoft requested a fresh access token" (3 : ℚ) true)
        { m with
          accessToken := ""
          expires := (0 : ℚ)
          rejections := 1
          rejectedDigest := lib.sha256 token }
  | forced {n : ℕ} {message : String} (h : m.accessToken = "" ∨ m.accessToken = token)
      (hd : lib.sha256 token = m.rejectedDigest ∧ n = m.rejections ∨
        lib.sha256 token ≠ m.rejectedDigest ∧ n = m.rejections + 1) (hn : 1 < n) :
      Rejection lib m token (.authenticationRequired message)
        { m with
          accessToken := ""
          expires := (0 : ℚ)
          rejections := n
          rejectedDigest := lib.sha256 token
          needsLogin := true
          lastError := message }

theorem rejectedToken_cases (lib : Library) (m : Tokens) (token : String) :
    Rejection lib m token (rejectedToken lib m token).1 (rejectedToken lib m token).2 := by
  by_cases hold : m.accessToken ≠ "" ∧ m.accessToken ≠ token
  · simp only [rejectedToken, if_pos hold]
    exact .older hold.1 hold.2
  have hcurrent : m.accessToken = "" ∨ m.accessToken = token := by
    by_contra hne
    exact hold (not_or.mp hne)
  by_cases hdigest : lib.sha256 token = m.rejectedDigest
  · by_cases hmany : 1 < m.rejections
    · simpa [rejectedToken, hold, hdigest, hmany] using
        Rejection.forced hcurrent (.inl ⟨hdigest, rfl⟩) hmany
    · simpa [rejectedToken, hold, hdigest, hmany] using
        Rejection.known hcurrent hdigest (by omega)
  · by_cases hmany : 0 < m.rejections
    · have hmore : 1 < m.rejections + 1 := by omega
      simpa [rejectedToken, hold, hdigest, hmany] using
        Rejection.forced hcurrent (.inr ⟨hdigest, rfl⟩) hmore
    · have hzero : m.rejections = 0 := by omega
      simpa [rejectedToken, hold, hdigest, hzero] using
        Rejection.counted hcurrent hdigest hzero

variable {lib : Library} {email : EmailPackage} {setup : Setup} {s t : Session} {e : Event}
  {out : Option Output}

theorem fail_login (s : Session) (login : Login) (error : DeliveryError) :
    s.fail (some login) error = ({ s with holder := none },
      some (.login login.task (.error error))) := rfl

theorem fail_refresh (s : Session) (error : DeliveryError) :
    s.fail none error = ({ s with manager := refreshFailed s.manager error, holder := none },
      some (.token (.error error))) := rfl

theorem refreshFailed_frame (m : TokenManager) (error : DeliveryError) :
    ∃ needsLogin lastError,
      refreshFailed m error = { m with needsLogin := needsLogin, lastError := lastError } := by
  cases error <;> exact ⟨_, _, rfl⟩

theorem not_token_login {task : ℕ} {result : Except DeliveryError String}
    (r : Except DeliveryError String) : some (Output.login task result) ≠ some (.token r) := by
  simp

section Save

variable {login : Login} {result : Fields} {mode username address : String} {now : Time}

theorem save_refresh (h : s.save setup .refresh result mode username address now = .ok t) :
    ∃ token record, saveResult setup s.manager.record result mode username address now =
        .ok (token, record) ∧
      t = { s with
        manager := { s.manager with record := record }
        holder := some (.saving .refresh result token) } := by
  unfold Session.save at h
  cases hr : saveResult setup s.manager.record result mode username address now with
  | error e => simp [hr, Except.map] at h
  | ok saved =>
    simp only [hr, Except.map, Except.ok.injEq] at h
    exact ⟨saved.1, saved.2, rfl, h.symm⟩

theorem save_login {address' : String}
    (h : s.save setup (.login login address') result mode username address now = .ok t) :
    ∃ token record, saveResult setup s.manager.record result mode username address now =
        .ok (token, record) ∧
      t = { s with
        manager := { s.manager with record := record }
        holder := some (.saving (.login login address') result token)
        recordChain := s.chains + 1
        chains := s.chains + 1 } := by
  unfold Session.save at h
  cases hr : saveResult setup s.manager.record result mode username address now with
  | error e => simp [hr, Except.map] at h
  | ok saved =>
    simp only [hr, Except.map, Except.ok.injEq] at h
    exact ⟨saved.1, saved.2, rfl, h.symm⟩

theorem save_eq_error {caller : Caller} {error : DeliveryError}
    (h : s.save setup caller result mode username address now = .error error) :
    saveResult setup s.manager.record result mode username address now = .error error := by
  unfold Session.save at h
  cases hr : saveResult setup s.manager.record result mode username address now with
  | error e => simpa [hr, Except.map] using h
  | ok saved => simp [hr, Except.map] at h

theorem saveLogin_turn (he : e.authorizes = true) (hh : ∀ p ∈ s.holder, p.authorizing = true)
    (claims : Fields)
    (ht : Renewable result ∨ ∃ claims, s.holder = some (.profiling login result claims)) :
    Turn lib setup s e (s.saveLogin setup login result claims address now).1
      (s.saveLogin setup login result claims address now).2 := by
  unfold Session.saveLogin
  dsimp only
  cases hs : s.save setup (.login login address) result "v2"
      (((claimedUsername claims).string?).getD "") address now with
  | error error =>
    exact .authorizing he hh (by simp) (by simp) not_token_login
  | ok u =>
    obtain ⟨token, record, hsave, rfl⟩ := save_login hs
    exact .loginRead he hh hsave ht

theorem identify_turn (he : e.authorizes = true) (hh : ∀ p ∈ s.holder, p.authorizing = true)
    (claims : Fields) : Turn lib setup s e (s.identify setup login result claims now).1
      (s.identify setup login result claims now).2 := by
  unfold Session.identify
  split_ifs with ht hany
  · exact .authorizing he hh (by simp) (by simp) not_token_login
  · have hrenewable : Renewable result := by simpa [Renewable] using ht
    split
    · exact .authorizing he hh (by simp) (by simp) not_token_login
    · refine .authorizing he hh (by simp [Phase.authorizing]) ?_ (by simp)
      intro login' result' claims' hp
      cases hp
      exact hrenewable
    · exact .authorizing he hh (by simp) (by simp) not_token_login
  · exact saveLogin_turn he hh claims (.inl (by simpa [Renewable] using ht))

end Save

theorem install_error {m : TokenManager} {result : Fields} {token : String} {now : Time}
    {e : DeliveryError} (h : (install lib m result token now).2 = .error e) :
    ∃ name, ((result.lookup "expires_in").getD (.number "3600")).float lib = .error name ∧
      e = .unexpected name ∧ (install lib m result token now).1 = { m with accessToken := token } := by
  unfold install at h ⊢
  dsimp only at h ⊢
  split at h
  next name hname =>
    cases h
    rw [hname]
    exact ⟨name, rfl, rfl, rfl⟩
  · cases h

theorem install_ok {m : TokenManager} {result : Fields} {token : String} {now : Time}
    (h : (install lib m result token now).2 = .ok ()) :
    ∃ lifetime, ((result.lookup "expires_in").getD (.number "3600")).float lib = .ok lifetime ∧
      (install lib m result token now).1 = { m with
        accessToken := token
        expires := PyFloat.add now (PyFloat.min (PyFloat.max lifetime (1 : ℚ)) (86400 : ℚ)) } := by
  unfold install at h ⊢
  dsimp only at h ⊢
  split at h
  · cases h
  next lifetime hlifetime =>
    rw [hlifetime]
    exact ⟨lifetime, rfl, rfl⟩

theorem persisted_turn {caller : Caller} {result : Fields} {token : String} {write : Write}
    {now : Time} (hh : s.holder = some (.saving caller result token)) :
    Turn lib setup s (.saved write now) (s.persisted lib caller result token write now).1
      (s.persisted lib caller result token write now).2 := by
  cases write with
  | failed replaced =>
    have hturn : Turn lib setup s (.saved (.failed replaced) now)
        { s with vault := if replaced then s.manager.record else s.vault, holder := none }
        (some (caller.failed
          (.retryable "Cannot persist renewed account credentials" (30 : ℚ) true))) := .unsaved hh
    cases caller <;> cases replaced <;> exact hturn
  | done =>
    unfold Session.persisted
    dsimp only
    cases hi : (install lib s.manager result token now).2 with
    | error e =>
      obtain ⟨name, hl, rfl, hm⟩ := install_error hi
      have hturn : Turn lib setup s (.saved .done now) { s with
          vault := s.manager.record
          manager := { s.manager with accessToken := token }
          tokenChain := s.recordChain
          holder := none } (some (caller.failed (.unexpected name))) := .uninstalled hh hl
      rw [hm]
      cases caller <;> exact hturn
    | ok =>
      obtain ⟨lifetime, hl, hm⟩ := install_ok hi
      rw [hm]
      cases caller with
      | refresh => exact .renewed hh hl
      | login login address => exact .loggedIn hh hl

/-- Every step of the token manager is one of these. -/
theorem turn_of_perform (h : s.perform lib email setup e = some (t, out)) :
    Turn lib setup s e t out := by
  cases e with
  | getToken now =>
    simp only [Session.perform] at h
    split_ifs at h with hholder
    rw [Option.isSome_iff_ne_none, ne_eq, not_not] at hholder
    split at h
    next hg =>
      cases h
      exact .refused hholder hg
    next hg =>
      cases h
      exact .cached hholder hg
    next hg =>
      cases h
      exact .refreshing hholder hg
  | refreshed post now =>
    simp only [Session.perform] at h
    split at h
    next mode data hholder =>
      split at h
      next hr =>
        cases h
        exact .unread hholder hr
      next result hr =>
        split at h
        next hs =>
          cases h
          exact .unusable hholder hr (save_eq_error hs)
        next hs =>
          cases h
          obtain ⟨token, record, hsave, rfl⟩ := save_refresh hs
          exact .refreshRead hholder hr hsave
    · cases h
  | completeLogin task flow response now =>
    simp only [Session.perform] at h
    split at h <;> cases h
    · exact .asked not_token_login
    · exact .asked (by simp)
  | enter login =>
    simp only [Session.perform] at h
    split_ifs at h with hholder
    have hnone : s.holder = none := by simpa using (not_or.mp hholder).1
    have hh : ∀ p ∈ s.holder, p.authorizing = true := by simp [hnone]
    split at h
    · cases h
      exact .authorizing rfl hh (by simp) (by simp) not_token_login
    · cases h
      exact .authorizing rfl hh (by simp [Phase.authorizing]) (by simp) (by simp)
  | exchanged post =>
    simp only [Session.perform] at h
    split at h
    next login data hholder =>
      have hh : ∀ p ∈ s.holder, p.authorizing = true := by simp [hholder, Phase.authorizing]
      split at h
      · cases h
        exact .authorizing rfl hh (by simp) (by simp) not_token_login
      · cases h
        exact .authorizing rfl hh (by simp [Phase.authorizing]) (by simp) (by simp)
    · cases h
  | verified claims now =>
    simp only [Session.perform] at h
    split at h
    next login result hholder =>
      have hh : ∀ p ∈ s.holder, p.authorizing = true := by simp [hholder, Phase.authorizing]
      split at h
      · cases h
        exact .authorizing rfl hh (by simp) (by simp) not_token_login
      next claims _ =>
        obtain ⟨rfl, rfl⟩ := Prod.mk.inj (Option.some.inj h)
        exact identify_turn rfl hh claims
    · cases h
  | profiled post now =>
    simp only [Session.perform] at h
    split at h
    next login result claims hholder =>
      have hh : ∀ p ∈ s.holder, p.authorizing = true := by simp [hholder, Phase.authorizing]
      split at h
      · cases h
        exact .authorizing rfl hh (by simp) (by simp) not_token_login
      next address _ =>
        obtain ⟨rfl, rfl⟩ := Prod.mk.inj (Option.some.inj h)
        exact saveLogin_turn rfl hh claims (.inr ⟨claims, hholder⟩)
    · cases h
  | saved write now =>
    simp only [Session.perform] at h
    split at h
    next hholder =>
      obtain ⟨rfl, rfl⟩ := Prod.mk.inj (Option.some.inj h)
      exact persisted_turn hholder
    · cases h
  | rejected token =>
    simp only [Session.perform] at h
    split_ifs at h with hholder
    rw [Option.isSome_iff_ne_none, ne_eq, not_not] at hholder
    cases h
    exact .rejected hholder
  | accepted =>
    cases h
    exact .accepted
  | disconnect task =>
    simp only [Session.perform] at h
    split_ifs at h with hholder
    rw [Option.isSome_iff_ne_none, ne_eq, not_not] at hholder
    cases h
    exact .disconnecting hholder
  | disconnectWritten write now =>
    simp only [Session.perform] at h
    split at h
    next hholder =>
      split at h
      · cases h
        exact .undisconnected hholder
      · cases h
        exact .disconnected hholder
    · cases h

/-- A token comes from the cache or from a refresh that was saved. -/
theorem Turn.returned {token : String} (h : Turn lib setup s e t (some (.token (.ok token)))) :
    (∃ now, e = .getToken now ∧ t = s ∧ s.holder = none ∧
      getToken setup s.manager now = .ok (.inl token)) ∨
    ∃ now result, e = .saved .done now ∧ s.holder = some (.saving .refresh result token) ∧
      t.vault = s.manager.record := by
  generalize hout : some (Output.token (.ok token)) = out at h
  cases h with
  | cached hh hg =>
    cases hout
    exact .inl ⟨_, rfl, rfl, hh, hg⟩
  | renewed hh =>
    cases hout
    exact .inr ⟨_, _, rfl, hh, rfl⟩
  | @unsaved caller | @uninstalled caller => cases caller <;> cases hout
  | asked ho | authorizing _ _ _ _ ho => exact absurd hout.symm (ho _)
  | _ => cases hout

theorem turn_of_step (h : s.step lib email setup e = some t) : ∃ u out,
    s.perform lib email setup e = some (u, out) ∧ Turn lib setup s e u out ∧
      t = { u with clock := e.reading.getD s.clock } := by
  obtain ⟨⟨u, out⟩, hp, rfl⟩ := Option.map_eq_some_iff.mp h
  exact ⟨u, out, hp, turn_of_perform hp, rfl⟩

end NoreplyGateway.Oauth
