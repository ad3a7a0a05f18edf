import NoreplyGateway.Web.Changes
import NoreplyGateway.Web.Limits

namespace NoreplyGateway.Web

open Machine Oauth Upstream

open AdminUI

/-- A wait of the sign-in handler. -/
def Wait.signsIn : Wait → Bool
  | .loginBody _ | .loginPassword _ => true
  | _ => false

/-- The step leaves the sign-ins alone, except that it may end one. -/
structure Plain (s t : AdminUI) : Prop where
  attempts : t.attempts = s.attempts
  arrived : t.arrived = s.arrived
  waits : ∀ task w, w.signsIn = true → (task, w) ∈ t.requests → (task, w) ∈ s.requests

variable {env : Environment} {s t u : AdminUI} {r : Result} {task : ℕ} {e : Event}

theorem Plain.refl (s : AdminUI) : Plain s s := ⟨rfl, rfl, fun _ _ _ h ↦ h⟩

/-- Other parts of the state do not matter. -/
theorem Plain.of_eq {s' : AdminUI} (h : Plain s' t) (ha : s'.attempts = s.attempts)
    (hn : s'.arrived = s.arrived) (hr : s'.requests = s.requests) : Plain s t :=
  ⟨h.attempts.trans ha, h.arrived.trans hn, fun task w hw hmem ↦ hr ▸ h.waits task w hw hmem⟩

theorem Plain.trans (h : Plain s t) (h' : Plain t u) : Plain s u :=
  ⟨h'.attempts.trans h.attempts, h'.arrived.trans h.arrived,
    fun task w hw hmem ↦ h.waits task w hw (h'.waits task w hw hmem)⟩

theorem reply_plain (s : AdminUI) (task : ℕ) (reply : Reply) : Plain s (s.reply task reply).1 :=
  ⟨rfl, rfl, fun _ _ _ h ↦ List.mem_of_mem_filter h⟩

theorem wait_plain (s : AdminUI) (task : ℕ) {w : Wait} (hw : w.signsIn = false) :
    Plain s (s.wait task w).1 := by
  refine ⟨rfl, rfl, fun task' w' hw' hmem ↦ ?_⟩
  obtain ⟨hmem, -⟩ | ⟨-, rfl⟩ := wait_requests hmem
  · exact hmem
  · rw [hw] at hw'
    cases hw'

theorem answerTokens_plain (s : AdminUI) (output : Option Oauth.Output) :
    Plain s (s.answerTokens output).1 := by
  rcases answerTokens_eq s output with h | ⟨task, reply, h⟩ <;> rw [h]
  · exact .refl _
  · exact reply_plain _ _ _

theorem answerSender_plain (s : AdminUI) (output : Option Additional.Output) :
    Plain s (s.answerSender output).1 := by
  rcases answerSender_eq s output with h | ⟨task, reply, h⟩ <;> rw [h]
  · exact .refl _
  · exact reply_plain _ _ _

theorem call_plain {kind : FlowKind} {event : Oauth.Event} (h : s.call env kind event = some r) :
    Plain s r.1 := by
  unfold AdminUI.call at h
  split at h
  · obtain ⟨⟨tokens, output⟩, -, rfl⟩ := Option.map_eq_some_iff.mp h
    exact (answerTokens_plain _ _).of_eq rfl rfl rfl
  · obtain ⟨⟨a, output⟩, -, rfl⟩ := Option.map_eq_some_iff.mp h
    exact (answerSender_plain _ _).of_eq rfl rfl rfl
  · cases h

theorem finish_plain {i : ℕ} {session : AdminSession} {response : List (String × String)}
    {status : ℕ} {now : Time} (h : s.finish env task i session response status now = some r) :
    Plain s r.1 := by
  unfold AdminUI.finish at h
  split at h
  · obtain rfl := Option.some.inj h
    exact reply_plain _ _ _
  · exact ((wait_plain _ _ rfl).trans (call_plain h)).of_eq rfl rfl rfl

theorem controlPaused_plain {payload : Fields} : Plain s (s.controlPaused task payload).1 := by
  unfold controlPaused
  split
  · exact reply_plain _ _ _
  · exact wait_plain _ _ rfl
  · exact reply_plain _ _ _

theorem control_plain {payload : Value} : Plain s (s.control env task payload).1 := by
  unfold AdminUI.control
  split
  · split
    · exact controlPaused_plain
    · exact reply_plain _ _ _
    · split
      · exact reply_plain _ _ _
      · split
        · exact reply_plain _ _ _
        · exact wait_plain _ _ rfl
  · exact reply_plain _ _ _

theorem handleRead_plain {req : Request} {session : Option (ℕ × AdminSession)} {now : Time}
    {route : ReadRoute} (h : s.handleRead env task req session now route = some r) :
    Plain s r.1 := by
  unfold handleRead at h
  split at h
  · split at h
    · unfold AdminUI.callback at h
      split_ifs at h
      · obtain rfl := Option.some.inj h
        exact reply_plain _ _ _
      · obtain rfl := Option.some.inj h
        exact reply_plain _ _ _
      · obtain rfl := Option.some.inj h
        exact reply_plain _ _ _
      · exact finish_plain h
    · obtain rfl := Option.some.inj h
      exact reply_plain _ _ _
  · obtain rfl := Option.some.inj h
    exact reply_plain _ _ _
  · obtain rfl := Option.some.inj h
    exact reply_plain _ _ _

theorem beginFlow_plain {kind : FlowKind} {i : ℕ} {session : AdminSession} {secrets : Secrets}
    {now : Time} : Plain s (s.beginFlow env task kind i session secrets now).1 := by
  unfold beginFlow
  split_ifs
  · exact reply_plain _ _ _
  · exact reply_plain _ _ _
  · exact (reply_plain _ _ _).of_eq rfl rfl rfl

theorem handlePost_plain {req : Request} {session : Option (ℕ × AdminSession)} {now : Time}
    {secrets : Secrets} {route : PostRoute} (hroute : route ≠ .login) :
    Plain s (s.handlePost env task req session now secrets route).1 := by
  cases route with
  | login => exact absurd rfl hroute
  | logout => exact (reply_plain _ _ _).of_eq rfl rfl rfl
  | action | control => exact wait_plain _ _ rfl
  | beginLogin | beginAdditionalLogin =>
    simp only [handlePost]
    split
    · exact beginFlow_plain
    · exact reply_plain _ _ _
  | completeLogin =>
    simp only [handlePost]
    split
    · exact wait_plain _ _ rfl
    · exact reply_plain _ _ _
  | disconnect | chooseAdditionalSender | disconnectAdditional =>
    simp only [handlePost]
    split_ifs
    · exact reply_plain _ _ _
    · exact wait_plain _ _ rfl

theorem receiveBody_plain {payload : Value} {now : Time} {w : Wait}
    (h : s.receiveBody env task payload now w = some r) :
    Plain s r.1 ∨ ∃ start, w = .loginBody start ∧ r = s.wait task (.loginPassword start) := by
  cases w with
  | loginBody start =>
    simp only [receiveBody] at h
    split at h
    · split at h <;> cases h
      · exact .inr ⟨start, rfl, rfl⟩
      · exact .inl (reply_plain _ _ _)
    · cases h
      exact .inl (reply_plain _ _ _)
  | actionBody id verb =>
    simp only [receiveBody] at h
    split at h <;> cases h
    · exact .inl (wait_plain _ _ rfl)
    · exact .inl (reply_plain _ _ _)
  | controlBody =>
    obtain rfl := Option.some.inj h
    exact .inl control_plain
  | completeBody i =>
    obtain ⟨session, -, hcomplete⟩ := Option.bind_eq_some_iff.mp h
    unfold AdminUI.completeLogin at hcomplete
    split at hcomplete
    · obtain rfl := Option.some.inj hcomplete
      exact .inl (reply_plain _ _ _)
    · exact .inl (finish_plain hcomplete)
  | chooseBody =>
    simp only [receiveBody] at h
    split at h
    · obtain ⟨⟨a, output⟩, -, rfl⟩ := Option.map_eq_some_iff.mp h
      exact .inl (((wait_plain _ task (w := .call 200) rfl).trans
        (answerSender_plain _ _)).of_eq rfl rfl rfl)
    · obtain rfl := Option.some.inj h
      exact .inl (reply_plain _ _ _)
  | loginPassword | action | setting | lock | call => cases h

theorem runJob_plain {clock : Store.RetryClock} {w : Wait} (h : s.runJob task clock w = some r) :
    Plain s r.1 := by
  unfold runJob at h
  split at h
  · split at h <;> cases h
    · exact (reply_plain _ _ _).of_eq rfl rfl rfl
    · exact reply_plain _ _ _
  · obtain ⟨g, -, rfl⟩ := Option.map_eq_some_iff.mp h
    exact (wait_plain _ _ rfl).of_eq rfl rfl rfl
  · cases h

theorem resume_plain {w : Wait} (h : s.resume task w = some r) : Plain s r.1 := by
  unfold AdminUI.resume at h
  split at h
  · obtain ⟨g, -, rfl⟩ := Option.map_eq_some_iff.mp h
    dsimp only
    split
    · exact (reply_plain _ _ _).of_eq rfl rfl rfl
    · exact controlPaused_plain.of_eq rfl rfl rfl
    · exact (wait_plain _ _ rfl).of_eq rfl rfl rfl
  · cases h

theorem manage_plain {kind : FlowKind} {event : Oauth.Event} (h : s.manage env kind event = some r) :
    Plain s r.1 := by
  unfold manage at h
  split_ifs at h
  have hbefore : Plain s (s.beforeCall env kind event) := by
    unfold beforeCall
    split
    · exact wait_plain _ _ rfl
    · exact (Plain.refl _).of_eq rfl rfl rfl
  exact hbefore.trans (call_plain h)

/-- The request reaches the sign-in handler. -/
def Reaches (env : Environment) (s : AdminUI) (req : Request) (now : Time) : Prop :=
  (∃ session, (s.boundary env req now).2 = .ok session) ∧
    resolve env.pathPrefix req.method req.path = some (.post .login)

/-- What a step does to the sign-ins. -/
inductive SignIn (env : Environment) (s : AdminUI) : Event → AdminUI → Option (ℕ × Reply) → Prop
  | other {e : Event} {t : AdminUI} {out : Option (ℕ × Reply)}
      (he : ∀ req now secrets, e ≠ .request req now secrets)
      (hp : ∀ task verified secrets, e ≠ .password task verified secrets) (h : Plain s t) :
      SignIn env s e t out
  | elsewhere {req : Request} {now : Time} {secrets : Secrets} {t : AdminUI}
      {out : Option (ℕ × Reply)} (hr : ¬Reaches env s req now)
      (h : Plain { s with arrived := s.arrived + 1 } t) :
      SignIn env s (.request req now secrets) t out
  | throttled {req : Request} {now : Time} {secrets : Secrets} {sessions : List (String × ℕ)}
      {reply : Reply} (hr : Reaches env s req now)
      (hl : (throttle env.urls env.config s.attempts req now).2 = some reply) :
      SignIn env s (.request req now secrets) ({ s with
        arrived := s.arrived + 1
        sessions := sessions
        attempts := (throttle env.urls env.config s.attempts req now).1 }.reply s.arrived reply).1
        (some (s.arrived, reply))
  | admitted {req : Request} {now : Time} {secrets : Secrets} {sessions : List (String × ℕ)}
      (hr : Reaches env s req now)
      (hl : (throttle env.urls env.config s.attempts req now).2 = none) :
      SignIn env s (.request req now secrets) ({ s with
        arrived := s.arrived + 1
        sessions := sessions
        attempts := (throttle env.urls env.config s.attempts req now).1 }.wait s.arrived
          (.loginBody now)).1 none
  | submitted {task : ℕ} {payload : Except Reply Value} {now start : Time}
      (hw : s.requests.lookup task = some (.loginBody start)) :
      SignIn env s (.body task payload now) (s.wait task (.loginPassword start)).1 none
  | verified {task : ℕ} {verified : Bool} {secrets : Secrets} {start : Time} {t : AdminUI}
      {out : Option (ℕ × Reply)} (hw : s.requests.lookup task = some (.loginPassword start))
      (h : Plain s t) (hdone : ∀ w, (task, w) ∉ t.requests) :
      SignIn env s (.password task verified secrets) t out

theorem boundary_eq (env : Environment) (s : AdminUI) (req : Request) (now : Time) :
    ∃ sessions, ({ s with arrived := s.arrived + 1 }.boundary env req now).1 =
      { s with arrived := s.arrived + 1, sessions := sessions } := by
  rcases boundary_sessions env { s with arrived := s.arrived + 1 } req now with hb | hb
  · exact ⟨s.sessions, hb⟩
  · exact ⟨s.unexpired now, hb⟩

theorem receive_signIn {req : Request} {now : Time} {secrets : Secrets}
    (h : s.receive env req now secrets = some r) :
    SignIn env s (.request req now secrets) r.1 r.2 := by
  obtain ⟨sessions, hb⟩ := boundary_eq env s req now
  have hsame : ({ s with arrived := s.arrived + 1 }.boundary env req now).2 =
      (s.boundary env req now).2 := by
    unfold boundary
    split_ifs
    · rfl
    · rfl
    · rfl
  unfold receive at h
  dsimp only at h
  rw [hb, hsame] at h
  cases hsession : (s.boundary env req now).2 with
  | error reply =>
    rw [hsession] at h
    obtain rfl := Option.some.inj h
    refine .elsewhere ?_ ((reply_plain _ _ _).of_eq rfl rfl rfl)
    rintro ⟨⟨session, hok⟩, -⟩
    rw [hsession] at hok
    cases hok
  | ok session =>
    rw [hsession] at h
    dsimp only at h
    cases hroute : resolve env.pathPrefix req.method req.path with
    | none =>
      rw [hroute] at h
      obtain rfl := Option.some.inj h
      refine .elsewhere ?_ ((reply_plain _ _ _).of_eq rfl rfl rfl)
      rintro ⟨-, hlogin⟩
      rw [hroute] at hlogin
      cases hlogin
    | some route =>
      rw [hroute] at h
      cases route with
      | read route =>
        refine .elsewhere ?_ ((handleRead_plain h).of_eq rfl rfl rfl)
        rintro ⟨-, hlogin⟩
        rw [hroute] at hlogin
        cases hlogin
      | post route =>
        obtain rfl := Option.some.inj h
        by_cases hlogin : route = .login
        · subst hlogin
          have hr : Reaches env s req now := ⟨⟨session, hsession⟩, hroute⟩
          simp only [handlePost]
          cases hl : (throttle env.urls env.config s.attempts req now).2 with
          | none => exact .admitted hr hl
          | some reply => exact .throttled hr hl
        · refine .elsewhere ?_ ((handlePost_plain hlogin).of_eq rfl rfl rfl)
          rintro ⟨-, hroute'⟩
          rw [hroute] at hroute'
          cases hroute'
          exact hlogin rfl

theorem signIn_of_perform (h : s.perform env e = some r) : SignIn env s e r.1 r.2 := by
  cases e with
  | request req now secrets =>
    simp only [AdminUI.perform] at h
    split_ifs at h
    exact receive_signIn h
  | body task payload now =>
    obtain ⟨w, hw, h⟩ := Option.bind_eq_some_iff.mp h
    split at h
    · obtain hplain | ⟨start, rfl, rfl⟩ := receiveBody_plain h
      · exact .other (by simp) (by simp) hplain
      · exact .submitted hw
    · split at h <;> cases h <;> exact .other (by simp) (by simp) (reply_plain _ _ _)
  | password task verified secrets =>
    simp only [AdminUI.perform] at h
    split at h
    · next hw =>
      split_ifs at h <;> cases h
      · exact .verified hw (reply_plain _ _ _) (fun w hmem ↦ (reply_requests hmem).2 rfl)
      · exact .verified hw ((reply_plain _ _ _).of_eq rfl rfl rfl)
          (fun w hmem ↦ (reply_requests hmem).2 rfl)
    · cases h
  | job task clock =>
    obtain ⟨w, -, h⟩ := Option.bind_eq_some_iff.mp h
    exact .other (by simp) (by simp) (runJob_plain h)
  | fault task =>
    simp only [AdminUI.perform] at h
    split at h <;> cases h <;> exact .other (by simp) (by simp) (reply_plain _ _ _)
  | resume task =>
    obtain ⟨w, -, h⟩ := Option.bind_eq_some_iff.mp h
    exact .other (by simp) (by simp) (resume_plain h)
  | tokens kind event => exact .other (by simp) (by simp) (manage_plain h)
  | written task choice write =>
    obtain ⟨a, -, h⟩ := Option.bind_eq_some_iff.mp h
    obtain ⟨⟨a', output⟩, -, rfl⟩ := Option.map_eq_some_iff.mp h
    exact .other (by simp) (by simp) ((answerSender_plain _ _).of_eq rfl rfl rfl)
  | gateway action =>
    simp only [AdminUI.perform] at h
    split_ifs at h
    obtain ⟨g, -, rfl⟩ := Option.map_eq_some_iff.mp h
    exact .other (by simp) (by simp) ⟨rfl, rfl, fun _ _ _ h ↦ h⟩

end NoreplyGateway.Web
