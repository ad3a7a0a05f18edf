import NoreplyGateway.Additional.Sender
import NoreplyGateway.Oauth.Persistence

namespace NoreplyGateway.Additional

open Machine Oauth Upstream

/-- A login that is saved while a choice is in force is one of the account that
the choice was made for, or a new login is necessary. -/
def Sender.Undisturbed (lib : Library) (email : EmailPackage) (s : Sender) : Event → Prop
  | .tokens (.profiled post _) =>
    match s.tokens.holder, s.choice with
    | some (.profiling _ result claims), some c =>
      (profileAddress lib email post).isOk → (bearerToken result).isSome →
        s.tokens.manager.needsLogin = true ∨
          ((claimedUsername claims).string?).getD "" ∈ ["", c.username]
    | _, _ => True
  | _ => True

instance (lib : Library) (email : EmailPackage) (s : Sender) (e : Event) :
    Decidable (s.Undisturbed lib email e) := by
  unfold Sender.Undisturbed
  split
  · split <;> infer_instance
  · infer_instance

/-- The choice is for the account that is signed in, or nothing can be sent
before a new login. -/
def Sender.Bound (s : Sender) : Prop :=
  ∀ c, s.choice = some c →
    s.record.username = some c.username ∨ s.tokens.manager.needsLogin = true

/-- The manager keeps its user name, and a new login stays necessary. -/
structure Keeps (m m' : TokenManager) : Prop where
  username : ∀ name, m.record.username = some name → m'.record.username = some name
  needsLogin : m.needsLogin = true → m'.needsLogin = true

/-- The call has ended a login or a disconnection. -/
def completes : Oauth.Output → Bool
  | .login _ (.ok _) | .disconnected _ (.ok _) => true
  | _ => false

variable {lib : Library} {email : EmailPackage} {config : Config} {secret : Option String}
  {s t : Sender} {e : Event}

section Tokens

variable {setup : Setup} {session : Session} {event : Oauth.Event} {now : Time}
  {r : Session × Option Oauth.Output}

theorem Keeps.refl (m : TokenManager) : Keeps m m := ⟨fun _ h ↦ h, fun h ↦ h⟩

theorem fail_keeps (session : Session) (caller : Option Login) (error : DeliveryError) :
    Keeps session.manager (session.fail caller error).1.manager := by
  cases caller with
  | none => cases error <;> exact ⟨fun _ h ↦ h, fun h ↦ by first | exact h | rfl⟩
  | some login => exact .refl _

theorem install_keeps (lib : Library) (m : TokenManager) (result : Fields) (token : String) (now : Time) :
    Keeps m (install lib m result token now).1 := by
  unfold install
  dsimp only
  split <;> exact ⟨fun _ h ↦ h, fun h ↦ h⟩

theorem rejected_keeps (m : TokenManager) (token : String) :
    Keeps m { m with toTokens := (rejectedToken lib m.toTokens token).2 } := by
  refine ⟨fun _ h ↦ h, fun h ↦ ?_⟩
  unfold rejectedToken
  dsimp only
  split_ifs <;> first | exact h | rfl

theorem saveResult_username {record : Record} {result : Fields} {mode username address : String}
    {saved : String × Record}
    (h : saveResult setup record result mode username address now = .ok saved) :
    saved.2.username =
      some (if username = "" then record.username.getD setup.account.username else username) := by
  unfold saveResult at h
  split at h
  · cases h
  · dsimp only at h
    split_ifs at h
    all_goals first | cases h; done | skip
    all_goals
      cases h
      simp_all

theorem refresh_keeps {result : Fields} {mode : String} {u : Session}
    (h : session.save setup .refresh result mode "" "" now = .ok u) :
    Keeps session.manager u.manager := by
  unfold Session.save at h
  cases hr : saveResult setup session.manager.record result mode "" "" now with
  | error e => simp [hr, Except.map] at h
  | ok saved =>
    simp only [hr, Except.map, Except.ok.injEq] at h
    subst h
    refine ⟨fun name hname ↦ ?_, fun h ↦ h⟩
    have husername := saveResult_username hr
    rw [if_pos rfl, hname] at husername
    exact husername

/-- A step of the token manager ends a login or a disconnection, or keeps what
the choice rests on, or saves the record of a login. -/
theorem perform_cases (hany : setup.allowAnyUsername = true)
    (h : session.perform lib email setup event = some r) :
    (∃ output, r.2 = some output ∧ completes output = true) ∨
    Keeps session.manager r.1.manager ∨
    ∃ post now login result claims address saved, event = .profiled post now ∧
      session.holder = some (.profiling login result claims) ∧
      profileAddress lib email post = .ok address ∧
      saveResult setup session.manager.record result "v2"
        (((claimedUsername claims).string?).getD "") address now = .ok saved ∧
      r.1.manager = { session.manager with record := saved.2 } := by
  cases event with
  | getToken now =>
    simp only [Session.perform] at h
    split_ifs at h
    split at h <;> cases h <;> exact .inr (.inl (.refl _))
  | refreshed post now =>
    simp only [Session.perform] at h
    split at h
    · split at h
      · obtain rfl := Option.some.inj h
        exact .inr (.inl (fail_keeps _ _ _))
      · split at h
        · obtain rfl := Option.some.inj h
          exact .inr (.inl (fail_keeps _ _ _))
        · next hsave =>
          cases h
          exact .inr (.inl (refresh_keeps hsave))
    · cases h
  | completeLogin task flow response now =>
    simp only [Session.perform] at h
    split at h <;> cases h <;> exact .inr (.inl (.refl _))
  | enter login =>
    simp only [Session.perform] at h
    split_ifs at h
    split at h <;> cases h <;> exact .inr (.inl (.refl _))
  | exchanged post =>
    simp only [Session.perform] at h
    split at h
    · split at h <;> cases h <;> exact .inr (.inl (.refl _))
    · cases h
  | verified claims now =>
    simp only [Session.perform] at h
    split at h
    · split at h
      · cases h
        exact .inr (.inl (.refl _))
      · obtain rfl := Option.some.inj h
        unfold Session.identify
        refine .inr (.inl ?_)
        split_ifs
        · exact .refl _
        · split <;> exact .refl _
    · cases h
  | profiled post now =>
    simp only [Session.perform] at h
    split at h
    · next login result claims hholder =>
      split at h
      · cases h
        exact .inr (.inl (.refl _))
      · next address haddress =>
        obtain rfl := Option.some.inj h
        simp only [Session.saveLogin, Session.save]
        cases hsave : saveResult setup session.manager.record result "v2"
          (((claimedUsername claims).string?).getD "") address now with
        | error e => exact .inr (.inl (.refl _))
        | ok saved => exact .inr (.inr ⟨_, _, _, _, _, _, _, rfl, hholder, haddress, hsave, rfl⟩)
    · cases h
  | saved write now =>
    simp only [Session.perform] at h
    split at h
    · next caller result token hholder =>
      obtain rfl := Option.some.inj h
      unfold Session.persisted
      cases write with
      | failed replaced =>
        refine .inr (.inl ?_)
        dsimp only
        split_ifs
        · exact fail_keeps { session with vault := session.manager.record } _ _
        · exact fail_keeps _ _ _
      | done =>
        have hinstall := install_keeps lib session.manager result token now
        dsimp only
        split
        · next e _ =>
          refine .inr (.inl ?_)
          have hfail := fail_keeps { session with
            vault := session.manager.record
            manager := (install lib session.manager result token now).1
            tokenChain := session.recordChain } caller.task? e
          exact ⟨fun name h ↦ hfail.username name (hinstall.username name h),
            fun h ↦ hfail.needsLogin (hinstall.needsLogin h)⟩
        · cases caller with
          | refresh => exact .inr (.inl hinstall)
          | login => exact .inl ⟨_, rfl, rfl⟩
    · cases h
  | rejected token =>
    simp only [Session.perform] at h
    split_ifs at h
    cases h
    exact .inr (.inl (rejected_keeps _ _))
  | accepted =>
    cases h
    exact .inr (.inl ⟨fun _ h ↦ h, fun h ↦ h⟩)
  | disconnect task =>
    simp only [Session.perform] at h
    split_ifs at h
    cases h
    exact .inr (.inl (.refl _))
  | disconnectWritten write now =>
    simp only [Session.perform] at h
    split at h
    · split at h
      · cases h
        exact .inr (.inl (.refl _))
      · cases h
        exact .inl ⟨_, rfl, rfl⟩
    · cases h

end Tokens

theorem accepted_username {record : Record} {choice : Option Choice} {c : Choice}
    (h : Sender.accepted email record choice = some c) :
    choice = some c ∧ record.username = some c.username := by
  obtain ⟨hc, haccepted⟩ := Option.filter_eq_some_iff.mp h
  exact ⟨hc, ((of_decide_eq_true haccepted).1).symm⟩

theorem choose_username {mode customSender : Value} {c : Choice}
    (h : s.choose email config mode customSender = .ok c) :
    s.record.username = some c.username := by
  unfold Sender.choose at h
  split at h
  · cases h
  · dsimp only at h
    split at h
    · cases h
    · next address _ =>
      by_cases hgateway : casefold address = casefold config.account.sender
      · rw [if_pos hgateway] at h
        cases h
      · rw [if_neg hgateway] at h
        split at h
        · cases h
        · next username husername =>
          cases h
          exact husername

theorem opened_bound (record : Record) (stored : Option Choice) :
    (Sender.opened lib email config secret record stored).Bound :=
  fun _ hc ↦ .inl (accepted_username hc).2

theorem Sender.Bound.tokens {tokens : Session} (hs : s.Bound)
    (h : Keeps s.tokens.manager tokens.manager) : Sender.Bound { s with tokens := tokens } :=
  fun c hc ↦ (hs c hc).imp (h.username c.username) h.needsLogin

/-- The record of a login replaces the old one before it is written. -/
theorem Sender.Bound.saved {tokens : Session} {post : PostResult} {now now' : Time} {login : Login}
    {result claims : Fields} {address : String} {saved : String × Record} (hs : s.Bound)
    (hu : s.Undisturbed lib email (.tokens (.profiled post now)))
    (hholder : s.tokens.holder = some (.profiling login result claims))
    (haddress : profileAddress lib email post = .ok address)
    (hsave : saveResult (setup lib config secret) s.tokens.manager.record result "v2"
      (((claimedUsername claims).string?).getD "") address now' = .ok saved)
    (hmanager : tokens.manager = { s.tokens.manager with record := saved.2 }) :
    Sender.Bound { s with tokens := tokens } := by
  intro c hc
  have husername := saveResult_username hsave
  have hbearer : (bearerToken result).isSome := by
    cases hb : bearerToken result with
    | none => simp [saveResult, hb, authenticationRequired] at hsave
    | some => rfl
  simp only [Sender.Undisturbed, hholder, (show s.choice = some c from hc), haddress,
    Except.isOk, Except.toBool, hbearer, forall_const] at hu
  simp only [Sender.record, hmanager]
  rcases hu with hlogin | hclaimed
  · exact .inr hlogin
  · rw [husername]
    rcases List.mem_cons.mp hclaimed with hempty | hsame
    · rw [if_pos hempty]
      refine (hs c hc).imp_left (fun hrecord ↦ ?_)
      rw [show s.tokens.manager.record.username = some c.username from hrecord, Option.getD_some]
    · obtain hsame := List.mem_singleton.mp hsame
      split_ifs with hempty
      · refine (hs c hc).imp_left (fun hrecord ↦ ?_)
        rw [show s.tokens.manager.record.username = some c.username from hrecord, Option.getD_some]
      · exact .inl (congrArg some hsame)

theorem Sender.Bound.step (hs : s.Bound) (hu : s.Undisturbed lib email e)
    (h : s.step lib email config secret e = some t) : t.Bound := by
  obtain ⟨⟨u, output⟩, hp, rfl⟩ := Option.map_eq_some_iff.mp h
  cases e with
  | tokens event =>
    obtain ⟨⟨tokens, output'⟩, hr, hu'⟩ := Option.map_eq_some_iff.mp hp
    have hcases := perform_cases rfl hr
    dsimp only at hu' hcases
    split at hu'
    · cases hu'
      exact fun _ hc ↦ nomatch hc
    · cases hu'
      exact fun _ hc ↦ nomatch hc
    · next hlogin hdisconnected =>
      cases hu'
      rcases hcases with ⟨out, rfl, hcompletes⟩ | hkeeps |
        ⟨post, now, login, result, claims, address, saved, rfl, hholder, haddress, hsave, hm⟩
      · cases out with
        | login task result =>
          cases result with
          | ok => exact absurd rfl (hlogin _ _)
          | error => cases hcompletes
        | disconnected task result =>
          cases result with
          | ok => exact absurd rfl (hdisconnected _ _)
          | error => cases hcompletes
        | token => cases hcompletes
        | rejected => cases hcompletes
      · exact hs.tokens hkeeps
      · exact hs.saved hu hholder haddress hsave hm
  | choose task mode customSender =>
    simp only [Sender.perform] at hp
    split at hp
    · cases hp
      exact hs
    · next choice hchoice =>
      cases hp
      intro c hc
      obtain rfl := Option.some.inj hc
      exact .inl (choose_username hchoice)
  | written task choice write =>
    simp only [Sender.perform] at hp
    split_ifs at hp
    split at hp <;> cases hp <;> exact hs
  | restart =>
    cases hp
    exact opened_bound _ _

/-- The administrator has made this choice in one of the actions. -/
def Made (lib : Library) (email : EmailPackage) (config : Config) (secret : Option String)
    (s : Sender) (events : List Event) (c : Choice) : Prop :=
  ∃ k task mode customSender k' u, events = k ++ .choose task mode customSender :: k' ∧
    Runs (Sender.step lib email config secret) s k u ∧
    u.choose email config mode customSender = .ok c

theorem Made.append {events : List Event} {c : Choice} (h : Made lib email config secret s events c)
    (e : Event) : Made lib email config secret s (events ++ [e]) c := by
  obtain ⟨k, task, mode, customSender, k', u, rfl, hu, hc⟩ := h
  exact ⟨k, task, mode, customSender, k' ++ [e], u, by simp, hu, hc⟩

end NoreplyGateway.Additional
