import NoreplyGateway.Oauth.Session

namespace NoreplyGateway.Oauth

open Machine Upstream

/-- `get_token` would not return the access token, now or at a later time. -/
def Session.Spent (s : Session) (now : Time) : Prop :=
  s.manager.accessToken = "" ∨ PyFloat.lt (now + 60 : ℚ) s.manager.expires = false

/-- The record in memory is the stored one, and the access token belongs to it. -/
def Session.Matches (s : Session) : Prop :=
  s.manager.record = s.vault ∧ s.tokenChain = s.recordChain

/-- The write of a record that is newer than the access token, if the step is
the end of one. -/
def Session.unpersisted (s : Session) : Event → Bool
  | .saved (.failed _) _ => (s.holder matches some (.saving (.login ..) ..))
  | .disconnectWritten (.failed true) _ => true
  | _ => false

/-- The clock does not run backwards, and a write fails only when no access
token is left that could still be returned. -/
def Session.Careful (s : Session) (e : Event) : Prop :=
  ∀ now ∈ e.reading, s.clock ≤ now ∧ (s.unpersisted e = true → s.Spent now)

/-- The invariant: the credentials match or the token is spent. While a record
is being saved they need not match, but a refresh began with a spent token. -/
def Session.Consistent (s : Session) : Prop :=
  match s.holder with
  | some (.saving (.login ..) ..) => True
  | some (.saving .refresh ..) | some (.refreshing ..) => s.Spent s.clock
  | _ => s.Matches ∨ s.Spent s.clock

/-- The two sessions have the same credentials. -/
structure SameCredentials (s t : Session) : Prop where
  record : t.manager.record = s.manager.record
  vault : t.vault = s.vault
  accessToken : t.manager.accessToken = s.manager.accessToken
  expires : t.manager.expires = s.manager.expires
  recordChain : t.recordChain = s.recordChain
  tokenChain : t.tokenChain = s.tokenChain

variable {lib : Library} {email : EmailPackage} {setup : Setup} {s t u : Session} {e : Event}
  {now later : Time}

instance : Decidable (s.Spent now) := by unfold Session.Spent; infer_instance

instance : Decidable (s.Careful e) := by unfold Session.Careful; infer_instance

theorem SameCredentials.refl : SameCredentials s s := ⟨rfl, rfl, rfl, rfl, rfl, rfl⟩

theorem SameCredentials.spent (h : SameCredentials s t) (hs : s.Spent now) : t.Spent now := by
  unfold Session.Spent
  rw [h.accessToken, h.expires]
  exact hs

theorem SameCredentials.matches (h : SameCredentials s t) (hs : s.Matches) : t.Matches :=
  ⟨by rw [h.record, h.vault, hs.1], by rw [h.tokenChain, h.recordChain, hs.2]⟩

theorem Session.Spent.mono (h : s.Spent now) (hle : now ≤ later) : s.Spent later := by
  refine h.imp_right (fun hlt ↦ ?_)
  generalize s.manager.expires = expires at hlt ⊢
  cases expires with
  | nan => rfl
  | num x =>
    simp only [PyFloat.lt, decide_eq_false_iff_not, not_lt] at hlt ⊢
    refine hlt.trans ?_
    norm_cast
    linarith

theorem SameCredentials.trans (h : SameCredentials s t) (h' : SameCredentials t u) :
    SameCredentials s u :=
  ⟨h'.record.trans h.record, h'.vault.trans h.vault, h'.accessToken.trans h.accessToken,
    h'.expires.trans h.expires, h'.recordChain.trans h.recordChain,
    h'.tokenChain.trans h.tokenChain⟩

/-- What a step leaves behind when it ends the task that has the lock without a
token. -/
structure Released (s t : Session) : Prop extends SameCredentials s t where
  holder : t.holder = none

theorem fail_released (s : Session) (caller : Option Login) (error : DeliveryError) :
    Released s (s.fail caller error).1 := by
  cases caller with
  | none => cases error <;> exact ⟨⟨rfl, rfl, rfl, rfl, rfl, rfl⟩, rfl⟩
  | some login => exact ⟨⟨rfl, rfl, rfl, rfl, rfl, rfl⟩, rfl⟩

theorem fail_returns (caller : Option Login) (error : DeliveryError) (token : String) :
    (s.fail caller error).2 ≠ some (.token (.ok token)) := by
  cases caller <;> simp [Session.fail]

/-- The task goes on with a save, which keeps the access token. -/
structure Saving (caller : Caller) (s t : Session) : Prop where
  holder : ∃ result token, t.holder = some (.saving caller result token)
  accessToken : t.manager.accessToken = s.manager.accessToken
  expires : t.manager.expires = s.manager.expires

theorem save_saving {caller : Caller} {result : Fields} {mode username defaultSender : String}
    (h : s.save setup caller result mode username defaultSender now = .ok t) :
    Saving caller s t := by
  unfold Session.save at h
  cases hr : saveResult setup s.manager.record result mode username defaultSender now with
  | error e => simp [hr, Except.map] at h
  | ok saved =>
    simp only [hr, Except.map, Except.ok.injEq] at h
    subst h
    exact ⟨⟨_, _, rfl⟩, rfl, rfl⟩

theorem saveLogin_cases (login : Login) (result claims : Fields) (address : String) (now : Time) :
    Released s (s.saveLogin setup login result claims address now).1 ∨
      Saving (.login login address) s (s.saveLogin setup login result claims address now).1 := by
  unfold Session.saveLogin
  dsimp only
  split
  · next hs => exact .inr (save_saving hs)
  · exact .inl (fail_released _ _ _)

theorem saveLogin_returns (login : Login) (result claims : Fields) (address token : String)
    (now : Time) :
    (s.saveLogin setup login result claims address now).2 ≠ some (.token (.ok token)) := by
  unfold Session.saveLogin
  dsimp only
  split
  · simp
  · exact fail_returns _ _ _

theorem identify_cases (login : Login) (result claims : Fields) (now : Time) :
    Released s (s.identify setup login result claims now).1 ∨
    (∃ address, Saving (.login login address) s (s.identify setup login result claims now).1) ∨
    SameCredentials s (s.identify setup login result claims now).1 ∧
      (s.identify setup login result claims now).1.holder =
        some (.profiling login result claims) := by
  unfold Session.identify
  split_ifs
  · exact .inl (fail_released _ _ _)
  · split
    · exact .inl (fail_released _ _ _)
    · exact .inr (.inr ⟨⟨rfl, rfl, rfl, rfl, rfl, rfl⟩, rfl⟩)
    · exact .inl (fail_released _ _ _)
  · exact (saveLogin_cases ..).imp_right (fun h ↦ .inl ⟨_, h⟩)

theorem identify_returns (login : Login) (result claims : Fields) (token : String) (now : Time) :
    (s.identify setup login result claims now).2 ≠ some (.token (.ok token)) := by
  unfold Session.identify
  split_ifs
  · exact fail_returns _ _ _
  · split
    · exact fail_returns _ _ _
    · simp
    · exact fail_returns _ _ _
  · exact saveLogin_returns _ _ _ _ _ _

theorem install_record (lib : Library) (m : TokenManager) (result : Fields) (token : String) (now : Time) :
    (install lib m result token now).1.record = m.record := by
  unfold install
  dsimp only
  split <;> rfl

theorem finish_credentials (s : Session) (caller : Caller) : Released s (s.finish caller).1 := by
  cases caller <;> exact ⟨⟨rfl, rfl, rfl, rfl, rfl, rfl⟩, rfl⟩

/-- A save that persisted its record leaves credentials that match. -/
theorem persisted_done (lib : Library) (s : Session) (caller : Caller) (result : Fields) (token : String) (now : Time) :
    (s.persisted lib caller result token .done now).1.Matches ∧
      (s.persisted lib caller result token .done now).1.holder = none := by
  have hrecord := install_record lib s.manager result token now
  unfold Session.persisted
  dsimp only
  generalize install lib s.manager result token now = installed at hrecord ⊢
  obtain ⟨m, outcome⟩ := installed
  have hmatches : ({ s with
      vault := s.manager.record, manager := m, tokenChain := s.recordChain } : Session).Matches :=
    ⟨hrecord, rfl⟩
  cases outcome with
  | error e =>
    have hreleased := fail_released { s with
      vault := s.manager.record, manager := m, tokenChain := s.recordChain } caller.task? e
    exact ⟨hreleased.matches hmatches, hreleased.holder⟩
  | ok =>
    have hreleased := finish_credentials { s with
      vault := s.manager.record, manager := m, tokenChain := s.recordChain } caller
    exact ⟨hreleased.matches hmatches, hreleased.holder⟩

theorem finish_returns {caller : Caller} {token : String}
    (h : (s.finish caller).2 = some (.token (.ok token))) :
    (s.finish caller).1.manager.accessToken = token := by
  cases caller with
  | refresh => exact Except.ok.inj (Output.token.inj (Option.some.inj h))
  | login => simp [Session.finish] at h

theorem persisted_returns {caller : Caller} {result : Fields} {token token' : String}
    {write : Write}
    (h : (s.persisted lib caller result token write now).2 = some (.token (.ok token'))) :
    write = .done ∧ (s.persisted lib caller result token write now).1.manager.accessToken = token' := by
  unfold Session.persisted at h ⊢
  cases write with
  | failed replaced => exact absurd h (fail_returns _ _ _)
  | done =>
    refine ⟨rfl, ?_⟩
    dsimp only at h ⊢
    cases hinstall : (install lib s.manager result token now).2 with
    | error e =>
      rw [hinstall] at h
      exact absurd h (fail_returns _ _ _)
    | ok =>
      rw [hinstall] at h
      exact finish_returns h

/-- A save that failed leaves the access token as it was. -/
theorem persisted_failed (lib : Library) (caller : Caller) (result : Fields) (token : String)
    (now : Time) (replaced : Bool) (hs : s.Spent later) :
    (s.persisted lib caller result token (.failed replaced) now).1.Spent later ∧
      (s.persisted lib caller result token (.failed replaced) now).1.holder = none := by
  have hreleased := fail_released
    (if replaced then { s with vault := s.manager.record } else s) caller.task?
    (.retryable "Cannot persist renewed account credentials" (30 : ℚ) true)
  refine ⟨hreleased.spent ?_, hreleased.holder⟩
  split_ifs
  · exact hs
  · exact hs

theorem Released.consistent (h : Released s t) (hs : s.Matches ∨ s.Spent now) :
    ({ t with clock := now } : Session).Consistent := by
  unfold Session.Consistent
  rw [h.holder]
  exact hs.imp (fun hm ↦ h.matches hm) (fun hs ↦ h.spent hs)

theorem Saving.consistent {caller : Caller} (h : Saving caller s t)
    (hs : caller = .refresh → s.Spent now) : ({ t with clock := now } : Session).Consistent := by
  obtain ⟨result, token, hholder⟩ := h.holder
  unfold Session.Consistent
  rw [hholder]
  cases caller with
  | refresh =>
    have hspent := hs rfl
    unfold Session.Spent at hspent ⊢
    rwa [h.accessToken, h.expires]
  | login => trivial

/-- A step that keeps the credentials and the task that has the lock. -/
theorem Session.Consistent.frame (hs : s.Consistent) (h : SameCredentials s t)
    (hh : t.holder = s.holder) (hle : s.clock ≤ now) :
    ({ t with clock := now } : Session).Consistent := by
  unfold Session.Consistent at hs ⊢
  rw [hh]
  split at hs
  · trivial
  · exact h.spent (hs.mono hle)
  · exact h.spent (hs.mono hle)
  · exact hs.imp (fun hm ↦ h.matches hm) (fun hs ↦ h.spent (hs.mono hle))

/-- Outside of a save and a refresh the credentials match or the token is spent. -/
theorem Session.Consistent.loose (hs : s.Consistent) (hle : s.clock ≤ now)
    (hh : ∀ caller result token, s.holder ≠ some (.saving caller result token))
    (hr : ∀ mode data, s.holder ≠ some (.refreshing mode data)) : s.Matches ∨ s.Spent now := by
  unfold Session.Consistent at hs
  split at hs
  · next hholder => exact absurd hholder (hh _ _ _)
  · next hholder => exact absurd hholder (hh _ _ _)
  · next hholder => exact absurd hholder (hr _ _)
  · exact hs.imp_right (fun hs ↦ hs.mono hle)

theorem getToken_cases {m : TokenManager} {result : String ⊕ Fields}
    (h : getToken setup m now = .ok result) :
    (result = .inl m.accessToken ∧ m.accessToken ≠ "" ∧ PyFloat.lt (now + 60 : ℚ) m.expires = true) ∨
    (∃ data, result = .inr data) ∧
      (m.accessToken = "" ∨ PyFloat.lt (now + 60 : ℚ) m.expires = false) := by
  unfold getToken at h
  by_cases h₁ : m.needsLogin = true ∨ (m.record.refreshToken.getD .null).truthy = false
  · rw [if_pos h₁] at h
    cases h
  rw [if_neg h₁] at h
  by_cases h₂ : m.accessToken ≠ "" ∧ PyFloat.lt (now + 60 : ℚ) m.expires = true
  · rw [if_pos h₂] at h
    cases h
    exact .inl ⟨rfl, h₂⟩
  · rw [if_neg h₂] at h
    rw [not_and_or, not_not, Bool.not_eq_true] at h₂
    cases hdata : refreshData setup m.record with
    | error e => simp [hdata, Except.map] at h
    | ok data =>
      simp only [hdata, Except.map, Except.ok.injEq] at h
      exact .inr ⟨⟨data, h.symm⟩, h₂⟩

theorem rejected_spent (lib : Library) (tokens : Tokens) (token : String) :
    (rejectedToken lib tokens token).2 = tokens ∨
      (rejectedToken lib tokens token).2.accessToken = "" := by
  unfold rejectedToken
  dsimp only
  split_ifs <;> first | exact .inl rfl | exact .inr rfl

theorem Session.Consistent.step (hs : s.Consistent) (hc : s.Careful e)
    (h : s.step lib email setup e = some t) : t.Consistent := by
  obtain ⟨u, hp, rfl⟩ := Option.map_eq_some_iff.mp h
  cases e with
  | getToken now =>
    obtain ⟨hle, -⟩ := hc now rfl
    simp only [perform] at hp
    split_ifs at hp with hholder
    rw [Bool.not_eq_true, Option.isSome_eq_false_iff, Option.isNone_iff_eq_none] at hholder
    split at hp
    · cases hp
      exact hs.frame .refl rfl hle
    · cases hp
      exact hs.frame .refl rfl hle
    · next hdata =>
      cases hp
      obtain ⟨hcached, -⟩ | ⟨-, hspent⟩ := getToken_cases hdata
      · cases hcached
      · exact hspent
  | refreshed post now =>
    obtain ⟨hle, -⟩ := hc now rfl
    simp only [perform] at hp
    split at hp
    · next hholder =>
      have hspent : s.Spent now := by
        unfold Session.Consistent at hs
        rw [hholder] at hs
        exact hs.mono hle
      split at hp
      · obtain rfl := Option.some.inj hp
        exact (fail_released _ _ _).consistent (.inr hspent)
      · split at hp
        · obtain rfl := Option.some.inj hp
          exact (fail_released _ _ _).consistent (.inr hspent)
        · next hsave =>
          cases hp
          exact (save_saving hsave).consistent (fun _ ↦ hspent)
    · cases hp
  | completeLogin task flow response now =>
    obtain ⟨hle, -⟩ := hc now rfl
    simp only [perform] at hp
    split at hp <;> cases hp <;> exact hs.frame ⟨rfl, rfl, rfl, rfl, rfl, rfl⟩ rfl hle
  | enter login =>
    simp only [perform] at hp
    split_ifs at hp with hfree
    rw [not_or, Bool.not_eq_true, Option.isSome_eq_false_iff, Option.isNone_iff_eq_none] at hfree
    have hloose := hs.loose le_rfl (by simp [hfree.1]) (by simp [hfree.1])
    split at hp
    · obtain rfl := Option.some.inj hp
      exact (fail_released _ _ _).consistent hloose
    · cases hp
      exact hloose
  | exchanged post =>
    simp only [perform] at hp
    split at hp
    · next hholder =>
      have hloose := hs.loose le_rfl (by simp [hholder]) (by simp [hholder])
      split at hp
      · obtain rfl := Option.some.inj hp
        exact (fail_released _ _ _).consistent hloose
      · cases hp
        exact hloose
    · cases hp
  | verified claims now =>
    obtain ⟨hle, -⟩ := hc now rfl
    simp only [perform] at hp
    split at hp
    · next login result hholder =>
      have hloose := hs.loose hle (by simp [hholder]) (by simp [hholder])
      split at hp
      · obtain rfl := Option.some.inj hp
        exact (fail_released _ _ _).consistent hloose
      · next claims _ =>
        obtain rfl := Option.some.inj hp
        rcases identify_cases login result claims now with hr | ⟨address, hr⟩ | ⟨hr, hh⟩
        · exact hr.consistent hloose
        · exact hr.consistent (fun he ↦ by cases he)
        · unfold Session.Consistent
          rw [hh]
          exact hloose.imp (fun hm ↦ hr.matches hm) (fun hs ↦ hr.spent hs)
    · cases hp
  | profiled post now =>
    obtain ⟨hle, -⟩ := hc now rfl
    simp only [perform] at hp
    split at hp
    · next login result claims hholder =>
      have hloose := hs.loose hle (by simp [hholder]) (by simp [hholder])
      split at hp
      · obtain rfl := Option.some.inj hp
        exact (fail_released _ _ _).consistent hloose
      · next address _ =>
        obtain rfl := Option.some.inj hp
        rcases saveLogin_cases login result claims address now with hr | hr
        · exact hr.consistent hloose
        · exact hr.consistent (fun he ↦ by cases he)
    · cases hp
  | saved write now =>
    obtain ⟨hle, hspent⟩ := hc now rfl
    simp only [perform] at hp
    split at hp
    · next caller result token hholder =>
      obtain rfl := Option.some.inj hp
      cases write with
      | done =>
        obtain ⟨hm, hh⟩ := persisted_done lib s caller result token now
        unfold Session.Consistent
        rw [hh]
        exact .inl hm
      | failed replaced =>
        have hspent : s.Spent now := by
          cases caller with
          | refresh =>
            unfold Session.Consistent at hs
            rw [hholder] at hs
            exact hs.mono hle
          | login => exact hspent (by simp [Session.unpersisted, hholder])
        obtain ⟨hs, hh⟩ := persisted_failed lib caller result token now replaced hspent
        unfold Session.Consistent
        rw [hh]
        exact .inr hs
    · cases hp
  | rejected token =>
    simp only [perform] at hp
    split_ifs at hp with hfree
    rw [Bool.not_eq_true, Option.isSome_eq_false_iff, Option.isNone_iff_eq_none] at hfree
    have hloose := hs.loose le_rfl (by simp [hfree]) (by simp [hfree])
    cases hp
    unfold Session.Consistent
    rw [hfree]
    rcases rejected_spent lib s.manager.toTokens token with hkept | hempty
    · rw [hkept]
      exact hloose
    · exact .inr (.inl hempty)
  | accepted =>
    cases hp
    exact hs.frame ⟨rfl, rfl, rfl, rfl, rfl, rfl⟩ rfl le_rfl
  | disconnect task =>
    simp only [perform] at hp
    split_ifs at hp with hfree
    rw [Bool.not_eq_true, Option.isSome_eq_false_iff, Option.isNone_iff_eq_none] at hfree
    have hloose := hs.loose le_rfl (by simp [hfree]) (by simp [hfree])
    cases hp
    exact hloose
  | disconnectWritten write now =>
    obtain ⟨hle, hspent⟩ := hc now rfl
    simp only [perform] at hp
    split at hp
    · next hholder =>
      have hloose := hs.loose hle (by simp [hholder]) (by simp [hholder])
      split at hp
      · next replaced =>
        cases hp
        cases replaced with
        | false => exact hloose
        | true => exact .inr (hspent rfl)
      · cases hp
        exact .inr (.inl rfl)
    · cases hp

theorem matches_of_returned {token : String} (hs : s.Consistent) (hc : s.Careful e)
    (ht : s.step lib email setup e = some t) (hr : s.returned lib email setup e = some token) :
    t.Matches ∧ t.manager.accessToken = token := by
  obtain ⟨u, hp, rfl⟩ := Option.map_eq_some_iff.mp ht
  have hout : u.2 = some (.token (.ok token)) := by
    unfold Session.returned at hr
    rw [hp] at hr
    split at hr
    · next hu =>
      obtain rfl := Option.some.inj hr
      exact hu
    · cases hr
  cases e with
  | getToken now =>
    obtain ⟨hle, -⟩ := hc now rfl
    simp only [Session.perform] at hp
    split_ifs at hp with hfree
    rw [Bool.not_eq_true, Option.isSome_eq_false_iff, Option.isNone_iff_eq_none] at hfree
    split at hp
    · cases hp
      cases hout
    · next token' hget =>
      cases hp
      cases hout
      obtain ⟨hcached, hne, hlt⟩ | ⟨⟨data, hdata⟩, -⟩ := getToken_cases hget
      · cases hcached
        rcases hs.loose hle (by simp [hfree]) (by simp [hfree]) with hm | hspent | hspent
        · exact ⟨hm, rfl⟩
        · exact absurd hspent hne
        · cases hlt.symm.trans hspent
      · cases hdata
    · cases hp
      cases hout
  | saved write now =>
    simp only [Session.perform] at hp
    split at hp
    · next caller result token' hholder =>
      cases hp
      obtain ⟨rfl, htoken⟩ := persisted_returns hout
      exact ⟨(persisted_done lib s caller result token' now).1, htoken⟩
    · cases hp
  | refreshed post now =>
    simp only [Session.perform] at hp
    split at hp
    · split at hp
      · cases hp
        exact absurd hout (fail_returns _ _ _)
      · split at hp <;> cases hp
        · exact absurd hout (fail_returns _ _ _)
        · cases hout
    · cases hp
  | completeLogin task flow response now =>
    simp only [Session.perform] at hp
    split at hp <;> cases hp <;> cases hout
  | enter login =>
    simp only [Session.perform] at hp
    split_ifs at hp
    split at hp <;> cases hp
    · exact absurd hout (fail_returns _ _ _)
    · cases hout
  | exchanged post =>
    simp only [Session.perform] at hp
    split at hp
    · split at hp <;> cases hp
      · exact absurd hout (fail_returns _ _ _)
      · cases hout
    · cases hp
  | verified claims now =>
    simp only [Session.perform] at hp
    split at hp
    · split at hp <;> cases hp
      · exact absurd hout (fail_returns _ _ _)
      · exact absurd hout (identify_returns _ _ _ _ _)
    · cases hp
  | profiled post now =>
    simp only [Session.perform] at hp
    split at hp
    · split at hp <;> cases hp
      · exact absurd hout (fail_returns _ _ _)
      · exact absurd hout (saveLogin_returns _ _ _ _ _ _)
    · cases hp
  | rejected token' =>
    simp only [Session.perform] at hp
    split_ifs at hp
    cases hp
    cases hout
  | accepted =>
    cases hp
    cases hout
  | disconnect task =>
    simp only [Session.perform] at hp
    split_ifs at hp
    cases hp
    cases hout
  | disconnectWritten write now =>
    simp only [Session.perform] at hp
    split at hp
    · split at hp <;> cases hp <;> cases hout
    · cases hp

theorem opened_consistent (vault : Record) : (Session.opened setup vault).Consistent := by
  unfold Session.opened
  split_ifs <;> exact .inr (.inl rfl)

/-- If writes fail only when no access token is left that could still be
returned, a token is returned only under the record that is stored, and it
belongs to the chain of this record. -/
theorem tokens_match_record {vault : Record} {events : List Event} {token : String}
    (hs : Runs (Session.step lib email setup) (.opened setup vault) events s)
    (hc : Throughout (Session.step lib email setup) Session.Careful (.opened setup vault) events)
    (he : s.Careful e) (ht : s.step lib email setup e = some t)
    (hr : s.returned lib email setup e = some token) :
    t.manager.record = t.vault ∧ t.tokenChain = t.recordChain ∧ t.manager.accessToken = token := by
  have hconsistent : s.Consistent := hs.invariant_of_throughout (P := Session.Consistent)
    (fun _ _ _ hu hc ha ↦ hu.step hc ha) hc (opened_consistent vault)
  obtain ⟨⟨hpersisted, hchain⟩, htoken⟩ := matches_of_returned hconsistent he ht hr
  exact ⟨hpersisted, hchain, htoken⟩

def refreshBody : Octets :=
  ascii "\x7b\"access_token\":\"A1\",\"refresh_token\":\"R1\",\"token_type\":\"Bearer\"\x7d"

def loginBody : Octets :=
  ascii "\x7b\"access_token\":\"A2\",\"refresh_token\":\"R2\",\"token_type\":\"Bearer\"\x7d"

def profileBody : Octets := ascii "\x7b\"mail\":\"second@example.com\"\x7d"

/-- A library that knows three JSON texts and one number. -/
def sampleLibrary : Library where
  float text := if text = "3600" then some (3600 : ℚ) else none
  timestamp _ := none
  loads content :=
    if content = refreshBody then .ok (.object [("access_token", .string "A1"),
      ("refresh_token", .string "R1"), ("token_type", .string "Bearer")])
    else if content = loginBody then .ok (.object [("access_token", .string "A2"),
      ("refresh_token", .string "R2"), ("token_type", .string "Bearer")])
    else if content = profileBody then .ok (.object [("mail", .string "second@example.com")])
    else .error .valueError
  str value := match value with
    | .string text => .ok text
    | _ => .error (.other "TypeError")
  fromstring _ := none
  sha256 text := text

/-- An email package that knows two addresses. -/
def sampleEmail : EmailPackage where
  address text := if text = "second@example.com" then some ⟨"second", "example.com", text⟩
    else if text = "first@example.com" then some ⟨"first", "example.com", text⟩ else none
  fromHeader _ := none

/-- The manager of the additional account. -/
def sampleSetup : Setup where
  account := { backend := .graph, sendShared := true }
  fingerprint := "F"
  allowAnyUsername := true
  secret := none

def firstRecord : Record where
  fingerprint := some "F"
  mode := some "v2"
  username := some "first@example.com"
  defaultSender := some "first@example.com"
  refreshToken := some (.string "R0")
  lastRefresh := some 0

/-- The first account's token is refreshed. -/
def refreshRun : List Event :=
  [.getToken 0, .refreshed (.answered ⟨200, none, [refreshBody]⟩) 0]

theorem tokens_match_record_sample : ∃ s t token,
    Runs (Session.step sampleLibrary sampleEmail sampleSetup) (.opened sampleSetup firstRecord)
      refreshRun s ∧
    s.step sampleLibrary sampleEmail sampleSetup (.saved .done 0) = some t ∧
    s.returned sampleLibrary sampleEmail sampleSetup (.saved .done 0) = some token ∧
    t.manager.record = t.vault ∧ t.tokenChain = t.recordChain := by
  have hrun : (run (Session.step sampleLibrary sampleEmail sampleSetup) refreshRun
      (.opened sampleSetup firstRecord)).any (fun s ↦
        s.Careful (.saved .done 0) ∧
        (s.step sampleLibrary sampleEmail sampleSetup (.saved .done 0)).isSome ∧
        (s.returned sampleLibrary sampleEmail sampleSetup (.saved .done 0)).isSome) := by
    decide +kernel
  have hc : Throughout (Session.step sampleLibrary sampleEmail sampleSetup) Session.Careful
      (.opened sampleSetup firstRecord) refreshRun := by decide +kernel
  obtain ⟨s, hs, hrest⟩ := (Option.any_eq_true ..).mp hrun
  obtain ⟨he, ht, hr⟩ := of_decide_eq_true hrest
  obtain ⟨t, ht⟩ := Option.isSome_iff_exists.mp ht
  obtain ⟨token, hr⟩ := Option.isSome_iff_exists.mp hr
  have hmatches := tokens_match_record hs hc he ht hr
  exact ⟨s, t, token, hs, ht, hr, hmatches.1, hmatches.2.1⟩

def secondLogin : Login := ⟨1, ⟨"state", "nonce", "verifier", 600⟩, "code"⟩

/-- Then another account signs in, and its record cannot be written. -/
def unpersistedLogin : List Event :=
  refreshRun ++ [.saved .done 0,
    .completeLogin 1 secondLogin.flow [("state", "state"), ("code", "code")] 10,
    .enter secondLogin, .exchanged (.answered ⟨200, none, [loginBody]⟩),
    .verified (.ok [("nonce", .string "nonce"),
      ("preferred_username", .string "second@example.com")]) 10,
    .profiled (.answered ⟨200, none, [profileBody]⟩) 10, .saved (.failed false) 11]

theorem token_of_previous_account : ∃ s t,
    Runs (Session.step sampleLibrary sampleEmail sampleSetup) (.opened sampleSetup firstRecord)
      unpersistedLogin s ∧
    s.step sampleLibrary sampleEmail sampleSetup (.getToken 12) = some t ∧
    s.returned sampleLibrary sampleEmail sampleSetup (.getToken 12) = some "A1" ∧
    t.manager.record ≠ t.vault ∧ t.tokenChain ≠ t.recordChain := by
  have hrun : (run (Session.step sampleLibrary sampleEmail sampleSetup) unpersistedLogin
      (.opened sampleSetup firstRecord)).any (fun s ↦
        s.returned sampleLibrary sampleEmail sampleSetup (.getToken 12) = some "A1" ∧
        (s.step sampleLibrary sampleEmail sampleSetup (.getToken 12)).any (fun t ↦
          t.manager.record.username ≠ t.vault.username ∧ t.tokenChain ≠ t.recordChain)) := by
    decide +kernel
  obtain ⟨s, hs, hrest⟩ := (Option.any_eq_true ..).mp hrun
  obtain ⟨hr, ht⟩ := of_decide_eq_true hrest
  obtain ⟨t, ht, hne⟩ := (Option.any_eq_true ..).mp ht
  obtain ⟨hrecord, hchain⟩ := of_decide_eq_true hne
  exact ⟨s, t, hs, ht, hr, fun he ↦ hrecord (congrArg Record.username he), hchain⟩

end NoreplyGateway.Oauth
