import NoreplyGateway.Assoc
import NoreplyGateway.Oauth.Persistence
import NoreplyGateway.Web.Changes

namespace NoreplyGateway.Web

open Assoc Machine Oauth Upstream

/-- The request has passed the check for a session. -/
def Wait.guarded : Wait → Bool
  | .loginBody _ | .loginPassword _ => false
  | _ => true

namespace AdminUI

/-- The task may still change the gateway or an account. -/
def Acts (s : AdminUI) (task : ℕ) : Prop :=
  (∃ w, (task, w) ∈ s.requests ∧ w.guarded = true) ∨ s.tokens.Serves task ∨
    ∃ a, s.additional = some a ∧ (a.tokens.Serves task ∨ ∃ choice, (task, choice) ∈ a.writes)

/-- What a request must not change without authority. The last reading of the
clock is not kept by the program. -/
def components (s : AdminUI) : Gateway × Oauth.Session × Option Additional.Sender :=
  (s.gateway, { s.tokens with clock := 0 },
    s.additional.map fun a ↦ { a with tokens := { a.tokens with clock := 0 } })

/-- The step changes nothing that needs authority, and gives none. -/
structure Quiet (s t : AdminUI) : Prop where
  components : t.components = s.components
  acts : ∀ task, t.Acts task → s.Acts task

/-- The step gives authority to this task at most. -/
def Confined (task : ℕ) (s t : AdminUI) : Prop := ∀ task', t.Acts task' → s.Acts task' ∨ task' = task

end AdminUI

open AdminUI

variable {env : Environment} {s t u : AdminUI} {r : Result} {task : ℕ}

theorem AdminUI.Quiet.confined (h : s.Quiet t) : Confined task s t := fun _ ha ↦ .inl (h.acts _ ha)

theorem acts_of_requests (ht : t.tokens = s.tokens) (ha : t.additional = s.additional)
    {P : ℕ → Prop} (hr : ∀ task w, (task, w) ∈ t.requests →
      (task, w) ∈ s.requests ∨ w.guarded = false ∨ P task) (h : t.Acts task) : s.Acts task ∨ P task := by
  obtain ⟨w, hw, hguarded⟩ | h | ⟨a, h, hacts⟩ := h
  · rcases hr task w hw with hw | hopen | hP
    · exact .inl (.inl ⟨w, hw, hguarded⟩)
    · cases hopen.symm.trans hguarded
    · exact .inr hP
  · exact .inl (.inr (.inl (ht ▸ h)))
  · exact .inl (.inr (.inr ⟨a, ha ▸ h, hacts⟩))

theorem quiet_of_requests (hg : t.gateway = s.gateway) (ht : t.tokens = s.tokens)
    (ha : t.additional = s.additional)
    (hr : ∀ task w, (task, w) ∈ t.requests → (task, w) ∈ s.requests ∨ w.guarded = false) :
    s.Quiet t := by
  refine ⟨by rw [components, components, hg, ht, ha], fun task hacts ↦ ?_⟩
  refine (acts_of_requests (P := fun _ ↦ False) ht ha (fun task w hw ↦ ?_) hacts).resolve_right id
  exact (hr task w hw).imp_right .inl

theorem confined_of_requests (ht : t.tokens = s.tokens) (ha : t.additional = s.additional)
    (hr : ∀ task' w, (task', w) ∈ t.requests → (task', w) ∈ s.requests ∨ task' = task) :
    Confined task s t :=
  fun _ hacts ↦ acts_of_requests (P := (· = task)) ht ha
    (fun task w hw ↦ (hr task w hw).imp_right .inr) hacts

theorem reply_quiet (s : AdminUI) (task : ℕ) (reply : Reply) : s.Quiet (s.reply task reply).1 :=
  quiet_of_requests rfl rfl rfl (fun _ _ h ↦ .inl (reply_requests h).1)

theorem wait_confined (s : AdminUI) (task : ℕ) (w : Wait) : Confined task s (s.wait task w).1 :=
  confined_of_requests rfl rfl (fun _ _ h ↦ (wait_requests h).imp (·.1) (·.1))

/-- The login handlers wait without authority. -/
theorem wait_quiet (s : AdminUI) (task : ℕ) {w : Wait} (hw : w.guarded = false) :
    s.Quiet (s.wait task w).1 := by
  refine quiet_of_requests rfl rfl rfl (fun task' w' h ↦ ?_)
  rcases wait_requests h with ⟨hmem, -⟩ | ⟨-, rfl⟩
  · exact .inl hmem
  · exact .inr hw

theorem answerTokens_quiet (s : AdminUI) (output : Option Oauth.Output) :
    s.Quiet (s.answerTokens output).1 := by
  rcases answerTokens_eq s output with h | ⟨task, reply, h⟩ <;> rw [h]
  · exact ⟨rfl, fun _ h ↦ h⟩
  · exact reply_quiet _ _ _

theorem answerSender_quiet (s : AdminUI) (output : Option Additional.Output) :
    s.Quiet (s.answerSender output).1 := by
  rcases answerSender_eq s output with h | ⟨task, reply, h⟩ <;> rw [h]
  · exact ⟨rfl, fun _ h ↦ h⟩
  · exact reply_quiet _ _ _

/-- The task that begins a call of a manager with the step. -/
def begins : Oauth.Event → Option ℕ
  | .completeLogin task .. | .disconnect task => some task
  | _ => none

theorem serves_of_continues {session : Oauth.Session} {event : Oauth.Event}
    {r : Oauth.Session × Option Oauth.Output} (h : Continues session event r)
    (hs : r.1.Serves task) : session.Serves task ∨ begins event = some task := by
  obtain ⟨login, hl, rfl⟩ | hd := hs
  · rcases h.logins login hl with hl | ⟨response, now, rfl, -⟩
    · exact .inl (.inl ⟨login, hl, rfl⟩)
    · exact .inr rfl
  · rcases h.disconnecting task hd with hd | rfl
    · exact .inl (.inr hd)
    · exact .inr rfl

theorem call_acts {kind : FlowKind} {event : Oauth.Event} (h : s.call env kind event = some r)
    (hacts : r.1.Acts task) : s.Acts task ∨ begins event = some task := by
  unfold AdminUI.call at h
  split at h
  · obtain ⟨⟨tokens, output⟩, hp, rfl⟩ := Option.map_eq_some_iff.mp h
    have hc := continues_of_perform hp
    obtain ⟨w, hw, hguarded⟩ | hserves | hadditional := (answerTokens_quiet _ _).acts task hacts
    · exact .inl (.inl ⟨w, hw, hguarded⟩)
    · exact (serves_of_continues hc hserves).imp_left (fun h ↦ .inr (.inl h))
    · exact .inl (.inr (.inr hadditional))
  · next a ha =>
    obtain ⟨⟨a', output⟩, hp, rfl⟩ := Option.map_eq_some_iff.mp h
    obtain ⟨⟨tokens, output'⟩, hr, ha'⟩ := Option.map_eq_some_iff.mp hp
    have hc := continues_of_perform hr
    have hserves (h : tokens.Serves task) : s.Acts task ∨ begins event = some task :=
      (serves_of_continues hc h).imp_left (fun h ↦ .inr (.inr ⟨a, ha, .inl h⟩))
    have hcleared (task' : ℕ) (out : Oauth.Output) (ho : output' = some out)
        (he : out.ended = some task') {choice : Option Additional.Choice}
        (hmem : (task, choice) ∈ a.writes ++ [(task', none)]) :
        s.Acts task ∨ begins event = some task := by
      rcases List.mem_append.mp hmem with hmem | hmem
      · exact .inl (.inr (.inr ⟨a, ha, .inr ⟨choice, hmem⟩⟩))
      · obtain ⟨rfl, -⟩ := Prod.mk.inj (List.mem_singleton.mp hmem)
        rcases hc.output out task ho he with h | ⟨flow, response, now, rfl⟩
        · exact .inl (.inr (.inr ⟨a, ha, .inl h⟩))
        · exact .inr rfl
    obtain ⟨w, hw, hguarded⟩ | h | ⟨b, hb, hcalls⟩ := (answerSender_quiet _ _).acts task hacts
    · exact .inl (.inl ⟨w, hw, hguarded⟩)
    · exact .inl (.inr (.inl h))
    · obtain rfl := Option.some.inj hb
      dsimp only at ha'
      split at ha' <;> cases ha'
      · rcases hcalls with h | ⟨choice, hmem⟩
        · exact hserves h
        · exact hcleared _ _ rfl rfl hmem
      · rcases hcalls with h | ⟨choice, hmem⟩
        · exact hserves h
        · exact hcleared _ _ rfl rfl hmem
      · rcases hcalls with h | ⟨choice, hmem⟩
        · exact hserves h
        · exact .inl (.inr (.inr ⟨a, ha, .inr ⟨choice, hmem⟩⟩))
  · cases h

theorem AdminUI.Quiet.trans (h : s.Quiet t) (h' : t.Quiet u) : s.Quiet u :=
  ⟨h'.components.trans h.components, fun task ha ↦ h.acts task (h'.acts task ha)⟩

theorem AdminUI.Quiet.trans_confined (h : s.Quiet t) (h' : Confined task t u) : Confined task s u :=
  fun task' ha ↦ (h' task' ha).imp_left (h.acts task')

theorem Confined.trans_quiet (h : Confined task s t) (h' : t.Quiet u) : Confined task s u :=
  fun task' ha ↦ h task' (h'.acts task' ha)

/-- A login whose response fails the first checks leaves the manager alone. -/
theorem call_rejected {kind : FlowKind} {flow : LoginFlow} {response : List (String × String)}
    {now : Time} {e : DeliveryError} {w : Wait} (hc : checkResponse flow response now = .error e)
    (h : (s.wait task w).1.call env kind (.completeLogin task flow response now) = some r) :
    s.Quiet r.1 := by
  have hrequests {t : AdminUI} (reply : Reply) (ht : t.requests = (s.wait task w).1.requests)
      {task' : ℕ} {w' : Wait} (hmem : (task', w') ∈ (t.reply task reply).1.requests) :
      (task', w') ∈ s.requests := by
    obtain ⟨hmem, hne⟩ := reply_requests hmem
    rcases wait_requests (ht ▸ hmem) with ⟨hmem, -⟩ | ⟨he, -⟩
    · exact hmem
    · exact absurd he hne
  unfold AdminUI.call at h
  split at h
  · simp only [Session.perform, hc, Option.map_some, answerTokens, Option.some.injEq] at h
    obtain ⟨reply, hreply⟩ := answer_eq_reply { (s.wait task w).1 with
      tokens := { s.tokens with clock := now } } task (.error (.raised e))
    subst h
    refine ⟨congrArg (fun r ↦ r.1.components) hreply, fun task' hacts ↦ ?_⟩
    replace hacts := (congrArg (fun r : Result ↦ r.1.Acts task') hreply).mp hacts
    obtain ⟨w', hmem, hguarded⟩ | hacts := hacts
    · exact .inl ⟨w', hrequests reply rfl hmem, hguarded⟩
    · exact .inr hacts
  · next a ha =>
    simp only [Additional.Sender.perform, Session.perform, hc, Option.map_some, answerSender,
      answerTokens, Option.some.injEq] at h
    obtain ⟨reply, hreply⟩ := answer_eq_reply { (s.wait task w).1 with
      additional := some { a with tokens := { a.tokens with clock := now } } } task
        (.error (.raised e))
    subst h
    have ha : s.additional = some a := ha
    refine ⟨?_, fun task' hacts ↦ ?_⟩
    · refine (congrArg (fun r ↦ r.1.components) hreply).trans ?_
      simp [AdminUI.components, AdminUI.reply, AdminUI.wait, ha]
    · replace hacts := (congrArg (fun r : Result ↦ r.1.Acts task') hreply).mp hacts
      obtain ⟨w', hmem, hguarded⟩ | hacts | ⟨b, hb, hacts⟩ := hacts
      · exact .inl ⟨w', hrequests reply rfl hmem, hguarded⟩
      · exact .inr (.inl hacts)
      · obtain rfl := Option.some.inj hb
        exact .inr (.inr ⟨a, ha, hacts⟩)
  · cases h

theorem state_of_checkResponse {flow : LoginFlow} {response : List (String × String)} {now : Time}
    {code : String} (h : checkResponse flow response now = .ok code) :
    now ≤ flow.expires ∧ (response.lookup "state").getD "" = flow.state := by
  unfold checkResponse at h
  split_ifs at h with hexpired
  · cases h
  · refine ⟨not_lt.mp hexpired, ?_⟩
    split at h
    · cases h
    · cases h
    · next hequal =>
      unfold compareDigest at hequal
      split_ifs at hequal
      exact of_decide_eq_true (Except.ok.inj hequal)

/-- A response is taken up only with the state of the flow that is pending. -/
theorem finish_cases {i : ℕ} {session : AdminSession} {response : List (String × String)}
    {status : ℕ} {now : Time} (h : s.finish env task i session response status now = some r) :
    s.Quiet r.1 ∨ Confined task s r.1 ∧ ∃ pending, session.flow = some pending ∧
      (response.lookup "state").getD "" = pending.flow.state := by
  unfold finish at h
  split at h
  · obtain rfl := Option.some.inj h
    exact .inl (reply_quiet _ _ _)
  · next pending hflow =>
    dsimp only at h
    cases hcheck : checkResponse pending.flow response now with
    | error e =>
      have hquiet := call_rejected hcheck h
      exact .inl ⟨hquiet.components, hquiet.acts⟩
    | ok code =>
      refine .inr ⟨fun task' hacts ↦ ?_, pending, hflow, (state_of_checkResponse hcheck).2⟩
      rcases call_acts h hacts with hacts | hbegins
      · exact wait_confined _ task _ task' hacts
      · exact .inr (Option.some.inj hbegins).symm

theorem finish_confined {i : ℕ} {session : AdminSession} {response : List (String × String)}
    {status : ℕ} {now : Time} (h : s.finish env task i session response status now = some r) :
    Confined task s r.1 := (finish_cases h).elim (·.confined) (·.1)

/-- The middleware admits the request with this session. -/
structure Admitted (s : AdminUI) (r : Request) (now : Time) (i : ℕ) (session : AdminSession) :
    Prop where
  entry : (r.cookie.getD "", i) ∈ s.sessions
  object : s.objects[i]? = some session
  unexpired : now < session.expires

theorem admitted_of_object? {req : Request} {now : Time} {i : ℕ} {session : AdminSession}
    (h : ({ s with sessions := s.unexpired now } : AdminUI).object? (req.cookie.getD "") =
      some (i, session)) : Admitted s req now i session := by
  obtain ⟨hentry, hobject⟩ := object?_eq_some h
  obtain ⟨hentry, hexpires⟩ := List.mem_filter.mp hentry
  refine ⟨hentry, hobject, ?_⟩
  rw [show s.objects[i]? = some session from hobject] at hexpires
  exact of_decide_eq_true hexpires

theorem boundary_quiet (env : Environment) (s : AdminUI) (req : Request) (now : Time) :
    s.Quiet (s.boundary env req now).1 := by
  rcases boundary_sessions env s req now with h | h <;> rw [h] <;>
    exact ⟨rfl, fun _ h ↦ h⟩

/-- A request that can change something carries the text that its session was
given against forged requests. -/
def Genuine (env : Environment) (r : Request) (session : AdminSession) : Prop :=
  r.method.reads = false ∧ r.origin = some env.origin ∧ r.contentType = "application/json" ∧
    r.csrf.getD "" = session.csrf

theorem boundary_admits {req : Request} {now : Time} {session : Option (ℕ × AdminSession)}
    (h : (s.boundary env req now).2 = .ok session) :
    (∀ i ses, session = some (i, ses) → Admitted s req now i ses) ∧
    (req.method.reads = false → req.path = env.pathPrefix ++ "/api/login" ∨
      ∃ i ses, session = some (i, ses) ∧ Genuine env req ses) := by
  unfold boundary at h
  split_ifs at h
  dsimp only at h
  unfold admitRequest at h
  split_ifs at h with hpublic hreads horigin hcontent hlogin
  · cases h
    refine ⟨fun i ses hses ↦ admitted_of_object? hses, fun hwrites ↦ ?_⟩
    cases hreads.symm.trans hwrites
  · cases h
    exact ⟨fun i ses hses ↦ admitted_of_object? hses, fun _ ↦ .inl hlogin⟩
  · split at h
    · cases h
    · next i ses hses =>
      split at h
      · next hequal =>
        cases h
        unfold compareDigest at hequal
        split_ifs at hequal
        refine ⟨?_, fun hwrites ↦ .inr ⟨i, ses, rfl, hwrites, not_not.mp horigin,
          not_not.mp hcontent, of_decide_eq_true (Except.ok.inj hequal)⟩⟩
        rintro _ _ ⟨⟩
        exact admitted_of_object? hses
      · cases h
      · cases h

theorem beginFlow_confined {kind : FlowKind} {i : ℕ} {session : AdminSession} {secrets : Secrets}
    {now : Time} : Confined task s (s.beginFlow env task kind i session secrets now).1 := by
  unfold beginFlow
  split_ifs
  · exact (reply_quiet _ _ _).confined
  · exact (reply_quiet _ _ _).confined
  · exact confined_of_requests rfl rfl (fun _ _ h ↦ .inl (reply_requests h).1)

theorem handlePost_confined {req : Request} {session : Option (ℕ × AdminSession)} {now : Time}
    {secrets : Secrets} {route : PostRoute} :
    Confined task s (s.handlePost env task req session now secrets route).1 := by
  cases route with
  | login =>
    have hquiet : s.Quiet { s with attempts := (throttle env.urls env.config s.attempts req now).1 } :=
      ⟨rfl, fun _ h ↦ h⟩
    unfold handlePost
    dsimp only
    split
    · exact (hquiet.trans (reply_quiet _ _ _)).confined
    · exact hquiet.trans_confined (wait_confined _ _ _)
  | logout =>
    have hquiet : s.Quiet { s with
        sessions := s.sessions.filter (·.1 ≠ req.cookie.getD "") } := ⟨rfl, fun _ h ↦ h⟩
    exact (hquiet.trans (reply_quiet _ _ _)).confined
  | action id verb => exact wait_confined _ _ _
  | control => exact wait_confined _ _ _
  | beginLogin =>
    unfold handlePost
    dsimp only
    split
    · exact beginFlow_confined
    · exact (reply_quiet _ _ _).confined
  | beginAdditionalLogin =>
    unfold handlePost
    dsimp only
    split
    · exact beginFlow_confined
    · exact (reply_quiet _ _ _).confined
  | completeLogin =>
    unfold handlePost
    dsimp only
    split
    · exact wait_confined _ _ _
    · exact (reply_quiet _ _ _).confined
  | disconnect =>
    unfold handlePost
    dsimp only
    split_ifs
    · exact (reply_quiet _ _ _).confined
    · exact wait_confined _ _ _
  | chooseAdditionalSender =>
    unfold handlePost
    dsimp only
    split_ifs
    · exact (reply_quiet _ _ _).confined
    · exact wait_confined _ _ _
  | disconnectAdditional =>
    unfold handlePost
    dsimp only
    split_ifs
    · exact (reply_quiet _ _ _).confined
    · exact wait_confined _ _ _

/-- A sign-in needs no session. -/
theorem handlePost_login_quiet {req : Request} {session : Option (ℕ × AdminSession)} {now : Time}
    {secrets : Secrets} : s.Quiet (s.handlePost env task req session now secrets .login).1 := by
  have hquiet : s.Quiet { s with attempts := (throttle env.urls env.config s.attempts req now).1 } :=
    ⟨rfl, fun _ h ↦ h⟩
  unfold handlePost
  dsimp only
  split
  · exact hquiet.trans (reply_quiet _ _ _)
  · exact hquiet.trans (wait_quiet _ _ rfl)

/-- The request is the callback, with the state of the flow that is pending. -/
def ReturnsFlow (env : Environment) (r : Request) (session : AdminSession) : Prop :=
  r.method.reads = true ∧ resolve env.pathPrefix r.method r.path = some (.read .callback) ∧
    ∃ pending, session.flow = some pending ∧ (r.query.lookup "state").getD "" = pending.flow.state

theorem handleRead_cases {req : Request} {session : Option (ℕ × AdminSession)} {now : Time}
    {route : ReadRoute} (h : s.handleRead env task req session now route = some r) :
    s.Quiet r.1 ∨ Confined task s r.1 ∧ route = .callback ∧ ∃ i ses pending, session = some (i, ses) ∧
      ses.flow = some pending ∧ (req.query.lookup "state").getD "" = pending.flow.state := by
  unfold handleRead at h
  split at h
  · split at h
    · next i ses =>
      unfold callback at h
      split_ifs at h
      · obtain rfl := Option.some.inj h
        exact .inl (reply_quiet _ _ _)
      · obtain rfl := Option.some.inj h
        exact .inl (reply_quiet _ _ _)
      · obtain rfl := Option.some.inj h
        exact .inl (reply_quiet _ _ _)
      · rcases finish_cases h with hquiet | ⟨hconfined, pending, hflow, hstate⟩
        · exact .inl hquiet
        · exact .inr ⟨hconfined, rfl, i, ses, pending, rfl, hflow, hstate⟩
    · obtain rfl := Option.some.inj h
      exact .inl (reply_quiet _ _ _)
  · obtain rfl := Option.some.inj h
    exact .inl (reply_quiet _ _ _)
  · obtain rfl := Option.some.inj h
    exact .inl (reply_quiet _ _ _)

theorem segments_append (base : String) (rest : List Char) (h : rest ≠ []) :
    segments base (base ++ String.ofList rest) = some ((rest.splitOn '/').map String.ofList) := by
  unfold segments
  rw [if_pos (by simp)]
  rw [String.toList_append, String.toList_ofList, ← String.length_toList, List.drop_left]
  cases rest with
  | nil => exact absurd rfl h
  | cons => rfl

theorem resolve_login (base : String) :
    resolve base .post (base ++ "/api/login") = some (.post .login) := by
  have hsegments := segments_append base "/api/login".toList (by decide)
  rw [String.ofList_toList] at hsegments
  unfold resolve
  rw [hsegments]
  decide +kernel

theorem reads_of_resolve {base path : String} {method : Method} {route : ReadRoute}
    (h : resolve base method path = some (.read route)) : method.reads = true := by
  unfold resolve at h
  obtain ⟨l, -, hl⟩ := Option.bind_eq_some_iff.mp h
  cases method with
  | get => rfl
  | head => rfl
  | post => simp at hl
  | other => cases hl

theorem post_of_resolve {base path : String} {method : Method} {route : PostRoute}
    (h : resolve base method path = some (.post route)) : method = .post := by
  unfold resolve at h
  obtain ⟨l, -, hl⟩ := Option.bind_eq_some_iff.mp h
  cases method with
  | get => simp at hl
  | head => simp at hl
  | post => rfl
  | other => cases hl

/-- The request may change the gateway or an account. -/
def Authorized (env : Environment) (s : AdminUI) (r : Request) (now : Time) : Prop :=
  ∃ i session, Admitted s r now i session ∧ (Genuine env r session ∨ ReturnsFlow env r session)

theorem receive_cases {req : Request} {now : Time} {secrets : Secrets}
    (h : s.receive env req now secrets = some r) :
    s.Quiet r.1 ∨ Authorized env s req now ∧ Confined s.arrived s r.1 := by
  have hboundary : s.Quiet ({ s with arrived := s.arrived + 1 }.boundary env req now).1 := by
    obtain ⟨hcomponents, hacts⟩ := boundary_quiet env
      { s with arrived := s.arrived + 1 } req now
    exact ⟨hcomponents, hacts⟩
  unfold receive at h
  dsimp only at h
  split at h
  · obtain rfl := Option.some.inj h
    exact .inl (hboundary.trans (reply_quiet _ _ _))
  · next session hsession =>
    obtain ⟨hadmitted, hgenuine⟩ := boundary_admits hsession
    split at h
    · obtain rfl := Option.some.inj h
      exact .inl (hboundary.trans (reply_quiet _ _ _))
    · next route hroute =>
      rcases handleRead_cases h with hquiet | ⟨hconfined, rfl, i, ses, pending, rfl, hflow, hstate⟩
      · exact .inl (hboundary.trans hquiet)
      · obtain ⟨hentry, hobject, hunexpired⟩ := hadmitted i ses rfl
        exact .inr ⟨⟨i, ses, ⟨hentry, hobject, hunexpired⟩,
          .inr ⟨reads_of_resolve hroute, hroute, pending, hflow, hstate⟩⟩,
          hboundary.trans_confined hconfined⟩
    · next route hroute =>
      obtain rfl := Option.some.inj h
      have hpost := post_of_resolve hroute
      rcases hgenuine (by rw [hpost]; rfl) with hlogin | ⟨i, ses, rfl, hcsrf⟩
      · rw [hlogin, hpost, resolve_login] at hroute
        cases hroute
        exact .inl (hboundary.trans handlePost_login_quiet)
      · obtain ⟨hentry, hobject, hunexpired⟩ := hadmitted i ses rfl
        exact .inr ⟨⟨i, ses, ⟨hentry, hobject, hunexpired⟩, .inl hcsrf⟩,
          hboundary.trans_confined handlePost_confined⟩

theorem choose_writes {a a' : Additional.Sender} {mode customSender : Value}
    {output : Option Additional.Output}
    (h : a.perform env.lib env.email env.config env.additionalSecret
      (.choose task mode customSender) = some (a', output)) :
    a'.tokens = a.tokens ∧ ∀ x ∈ a'.writes, x ∈ a.writes ∨ x.1 = task := by
  simp only [Additional.Sender.perform] at h
  split at h
  · cases h
    exact ⟨rfl, fun _ hx ↦ .inl hx⟩
  · cases h
    refine ⟨rfl, fun x hx ↦ (List.mem_append.mp hx).imp_right (fun hx ↦ ?_)⟩
    rw [List.mem_singleton.mp hx]

theorem written_writes {a a' : Additional.Sender} {choice : Option Additional.Choice} {write : Write}
    {output : Option Additional.Output}
    (h : a.perform env.lib env.email env.config env.additionalSecret
      (.written task choice write) = some (a', output)) :
    (task, choice) ∈ a.writes ∧ a'.tokens = a.tokens ∧ ∀ x ∈ a'.writes, x ∈ a.writes := by
  simp only [Additional.Sender.perform] at h
  split_ifs at h with hmem
  split at h <;> cases h <;> exact ⟨hmem, rfl, fun _ hx ↦ List.mem_of_mem_erase hx⟩

theorem controlPaused_confined (s : AdminUI) (task : ℕ) (payload : Fields) :
    Confined task s (s.controlPaused task payload).1 := by
  unfold controlPaused
  split
  · exact (reply_quiet _ _ _).confined
  · exact wait_confined _ _ _
  · exact (reply_quiet _ _ _).confined

theorem receiveBody_confined {payload : Value} {now : Time} {w : Wait}
    (h : s.receiveBody env task payload now w = some r) : Confined task s r.1 := by
  cases w with
  | loginBody start =>
    simp only [receiveBody] at h
    split at h
    · split at h <;> cases h
      · exact wait_confined _ _ _
      · exact (reply_quiet _ _ _).confined
    · cases h
      exact (reply_quiet _ _ _).confined
  | actionBody id verb =>
    simp only [receiveBody] at h
    split at h <;> cases h
    · exact wait_confined _ _ _
    · exact (reply_quiet _ _ _).confined
  | controlBody =>
    obtain rfl := Option.some.inj h
    unfold AdminUI.control
    split
    · split
      · exact controlPaused_confined _ _ _
      · exact (reply_quiet _ _ _).confined
      · split
        · exact (reply_quiet _ _ _).confined
        · split
          · exact (reply_quiet _ _ _).confined
          · exact wait_confined _ _ _
    · exact (reply_quiet _ _ _).confined
  | completeBody i =>
    obtain ⟨session, -, hcomplete⟩ := Option.bind_eq_some_iff.mp h
    unfold AdminUI.completeLogin at hcomplete
    split at hcomplete
    · obtain rfl := Option.some.inj hcomplete
      exact (reply_quiet _ _ _).confined
    · exact finish_confined hcomplete
  | chooseBody =>
    simp only [receiveBody] at h
    split at h
    · next a ha =>
      obtain ⟨⟨a', output⟩, hchoose, rfl⟩ := Option.map_eq_some_iff.mp h
      obtain ⟨htokens, hwrites⟩ := choose_writes hchoose
      intro task' hacts
      obtain ⟨w, hmem, hguarded⟩ | hserves | ⟨b, hb, hcalls⟩ :=
        (answerSender_quiet _ _).acts task' hacts
      · exact (wait_requests hmem).imp (fun h ↦ .inl ⟨w, h.1, hguarded⟩) (fun h ↦ h.1)
      · exact .inl (.inr (.inl hserves))
      · obtain rfl := Option.some.inj hb
        rcases hcalls with hserves | ⟨choice, hmem⟩
        · exact .inl (.inr (.inr ⟨a, ha, .inl (htokens ▸ hserves)⟩))
        · exact (hwrites _ hmem).imp_left (fun h ↦ .inr (.inr ⟨a, ha, .inr ⟨choice, h⟩⟩))
    · obtain rfl := Option.some.inj h
      exact (reply_quiet _ _ _).confined
  | loginPassword | action | setting | lock | call => cases h

/-- The body of a sign-in gives no authority. -/
theorem receiveBody_quiet {payload : Value} {now : Time} {w : Wait} (hw : w.guarded = false)
    (h : s.receiveBody env task payload now w = some r) : s.Quiet r.1 := by
  cases w with
  | loginBody start =>
    simp only [receiveBody] at h
    split at h
    · split at h <;> cases h
      · exact wait_quiet _ _ rfl
      · exact reply_quiet _ _ _
    · cases h
      exact reply_quiet _ _ _
  | loginPassword => cases h
  | actionBody | controlBody | completeBody | chooseBody | action | setting | lock | call => cases hw

theorem runJob_confined {clock : Store.RetryClock} {w : Wait}
    (h : s.runJob task clock w = some r) : Confined task s r.1 ∧ w.guarded = true := by
  unfold runJob at h
  split at h
  · split at h <;> cases h
    · exact ⟨confined_of_requests rfl rfl (fun _ _ h ↦ .inl (reply_requests h).1), rfl⟩
    · exact ⟨(reply_quiet _ _ _).confined, rfl⟩
  · obtain ⟨g, -, rfl⟩ := Option.map_eq_some_iff.mp h
    exact ⟨confined_of_requests rfl rfl (fun _ _ h ↦ (wait_requests h).imp (·.1) (·.1)), rfl⟩
  · cases h

theorem resume_confined {w : Wait} (h : s.resume task w = some r) :
    Confined task s r.1 ∧ w.guarded = true := by
  unfold resume at h
  split at h
  · obtain ⟨g, -, rfl⟩ := Option.map_eq_some_iff.mp h
    refine ⟨?_, rfl⟩
    dsimp only
    split
    · exact confined_of_requests rfl rfl (fun _ _ h ↦ .inl (reply_requests h).1)
    · next payload =>
      have hconfined := controlPaused_confined { s with gateway := g } task payload
      exact fun task' hacts ↦ hconfined task' hacts
    · exact confined_of_requests rfl rfl (fun _ _ h ↦ (wait_requests h).imp (·.1) (·.1))
  · cases h

/-- The request that a step belongs to. -/
def Event.author (s : AdminUI) : Event → Option ℕ
  | .request .. => some s.arrived
  | .body task .. | .password task .. | .job task _ | .fault task | .resume task
  | .written task .. => some task
  | .tokens kind event => (s.manager? kind).bind (·.author event)
  | .gateway _ => none

/-- A step belongs to a call that the manager has, unless it begins the call. -/
theorem serves_of_holder {session : Oauth.Session} (ha : (match session.holder with
      | some (.disconnecting task) => some task
      | holder => (holder.bind Phase.login?).map (·.task)) = some task) : session.Serves task := by
  split at ha
  · next hd => exact .inr (Option.some.inj ha ▸ hd)
  · obtain ⟨login, hl, rfl⟩ := Option.map_eq_some_iff.mp ha
    exact .inl ⟨login, mem_logins.mpr (.inr (Option.bind_eq_some_iff.mp hl)), rfl⟩

theorem serves_of_author {session : Oauth.Session} {event : Oauth.Event} {lib : Upstream.Library}
    {email : EmailPackage} {setup : Setup} {res : Oauth.Session × Option Oauth.Output}
    (h : session.perform lib email setup event = some res) (ha : session.author event = some task) :
    session.Serves task ∨ begins event = some task := by
  cases event with
  | completeLogin | disconnect => exact .inr ha
  | enter login =>
    obtain rfl := Option.some.inj ha
    simp only [Session.perform] at h
    split_ifs at h with hfree
    rw [not_or, not_not] at hfree
    exact .inl (.inl ⟨login, mem_logins.mpr (.inl hfree.2), rfl⟩)
  | exchanged | verified | profiled | saved | disconnectWritten => exact .inl (serves_of_holder ha)
  | getToken | refreshed | rejected | accepted => cases ha

theorem call_author (task : ℕ) {kind : FlowKind} {event : Oauth.Event} (h : s.call env kind event = some r)
    (ha : Event.author s (.tokens kind event) = some task) :
    s.Acts task ∨ begins event = some task := by
  unfold AdminUI.call at h
  obtain ⟨session, hsession, ha⟩ := Option.bind_eq_some_iff.mp ha
  split at h
  · obtain ⟨res, hp, -⟩ := Option.map_eq_some_iff.mp h
    obtain rfl := Option.some.inj hsession
    exact (serves_of_author hp ha).imp_left (fun h ↦ .inr (.inl h))
  · next a hadditional =>
    obtain ⟨⟨a', output⟩, hp, -⟩ := Option.map_eq_some_iff.mp h
    obtain ⟨res, hp, -⟩ := Option.map_eq_some_iff.mp hp
    obtain ⟨b, hb, rfl⟩ := Option.map_eq_some_iff.mp hsession
    obtain rfl := Option.some.inj (hb.symm.trans hadditional)
    exact (serves_of_author hp ha).imp_left (fun h ↦ .inr (.inr ⟨b, hadditional, .inl h⟩))
  · cases h

/-- A manager's step gives no authority, and belongs to a request that has it. -/
theorem manage_cases {kind : FlowKind} {event : Oauth.Event} (h : s.manage env kind event = some r) :
    (∀ task, r.1.Acts task → s.Acts task) ∧
      ∀ task, Event.author s (.tokens kind event) = some task → s.Acts task := by
  unfold manage at h
  split_ifs at h with hmay
  have hbegins (task : ℕ) (hb : begins event = some task) : s.Acts task := by
    cases event with
    | completeLogin => cases hmay
    | disconnect task' =>
      obtain rfl := Option.some.inj hb
      unfold mayCall at hmay
      dsimp only at hmay
      split at hmay
      · next k hk => exact .inl ⟨_, mem_of_lookup hk, rfl⟩
      · cases hmay
    | getToken | refreshed | enter | exchanged | verified | profiled | saved | rejected | accepted
    | disconnectWritten => cases hb
  refine ⟨fun task hacts ↦ ?_, fun task ha ↦ ?_⟩
  · rcases call_acts h hacts with hacts | hb
    · cases event with
      | disconnect task' =>
        rcases wait_confined _ _ _ task hacts with hacts | rfl
        · exact hacts
        · exact hbegins _ rfl
      | completeLogin | getToken | refreshed | enter | exchanged | verified | profiled | saved
      | rejected | accepted | disconnectWritten => exact hacts
    · exact hbegins task hb
  · have hacts := call_author task h
    cases event with
    | disconnect task' =>
      obtain ⟨session, -, ha⟩ := Option.bind_eq_some_iff.mp ha
      exact hbegins task ha
    | completeLogin => cases hmay
    | getToken | refreshed | enter | exchanged | verified | profiled | saved | rejected | accepted
    | disconnectWritten => exact (hacts ha).elim id (hbegins task)

/-- A step without an author gives no authority; every other step changes nothing,
or belongs to a request that has authority, or is the arrival of one. -/
theorem step_cases {e : Event} (h : s.perform env e = some r) :
    (e.author s = none ∧ ∀ task, r.1.Acts task → s.Acts task) ∨ s.Quiet r.1 ∨
    (∃ task, e.author s = some task ∧ s.Acts task ∧ Confined task s r.1) ∨
    ∃ req now secrets, e = .request req now secrets ∧ Authorized env s req now ∧
      Confined s.arrived s r.1 := by
  cases e with
  | request req now secrets =>
    simp only [AdminUI.perform] at h
    split_ifs at h
    rcases receive_cases h with hquiet | ⟨hauthorized, hconfined⟩
    · exact .inr (.inl hquiet)
    · exact .inr (.inr (.inr ⟨req, now, secrets, rfl, hauthorized, hconfined⟩))
  | body task payload now =>
    obtain ⟨w, hw, h⟩ := Option.bind_eq_some_iff.mp h
    by_cases hguarded : w.guarded = true
    · refine .inr (.inr (.inl ⟨task, rfl, .inl ⟨w, mem_of_lookup hw, hguarded⟩, ?_⟩))
      split at h
      · exact receiveBody_confined h
      · split at h <;> cases h <;> exact (reply_quiet _ _ _).confined
    · rw [Bool.not_eq_true] at hguarded
      refine .inr (.inl ?_)
      split at h
      · exact receiveBody_quiet hguarded h
      · split at h <;> cases h <;> exact reply_quiet _ _ _
  | password task verified secrets =>
    refine .inr (.inl ?_)
    simp only [AdminUI.perform] at h
    split at h
    · split_ifs at h <;> cases h
      · exact reply_quiet _ _ _
      · unfold createSession
        exact quiet_of_requests rfl rfl rfl (fun _ _ h ↦ .inl (reply_requests h).1)
    · cases h
  | job task clock =>
    obtain ⟨w, hw, h⟩ := Option.bind_eq_some_iff.mp h
    obtain ⟨hconfined, hguarded⟩ := runJob_confined h
    exact .inr (.inr (.inl ⟨task, rfl, .inl ⟨w, mem_of_lookup hw, hguarded⟩, hconfined⟩))
  | fault task =>
    refine .inr (.inl ?_)
    simp only [AdminUI.perform] at h
    split at h <;> cases h <;> exact reply_quiet _ _ _
  | resume task =>
    obtain ⟨w, hw, h⟩ := Option.bind_eq_some_iff.mp h
    obtain ⟨hconfined, hguarded⟩ := resume_confined h
    exact .inr (.inr (.inl ⟨task, rfl, .inl ⟨w, mem_of_lookup hw, hguarded⟩, hconfined⟩))
  | tokens kind event =>
    obtain ⟨hkept, hauthor⟩ := manage_cases h
    cases ha : Event.author s (.tokens kind event) with
    | none => exact .inl ⟨rfl, hkept⟩
    | some task =>
      exact .inr (.inr (.inl ⟨task, rfl, hauthor task ha, fun task' h ↦ .inl (hkept task' h)⟩))
  | written task choice write =>
    obtain ⟨a, ha, h⟩ := Option.bind_eq_some_iff.mp h
    obtain ⟨⟨a', output⟩, hwritten, rfl⟩ := Option.map_eq_some_iff.mp h
    obtain ⟨hmem, htokens, hwrites⟩ := written_writes hwritten
    refine .inr (.inr (.inl ⟨task, rfl, .inr (.inr ⟨a, ha, .inr ⟨choice, hmem⟩⟩), ?_⟩))
    intro task' hacts
    obtain ⟨w, hmem, hguarded⟩ | hserves | ⟨b, hb, hcalls⟩ :=
      (answerSender_quiet _ _).acts task' hacts
    · exact .inl (.inl ⟨w, hmem, hguarded⟩)
    · exact .inl (.inr (.inl hserves))
    · obtain rfl := Option.some.inj hb
      rcases hcalls with hserves | ⟨choice', hmem'⟩
      · exact .inl (.inr (.inr ⟨a, ha, .inl (htokens ▸ hserves)⟩))
      · exact .inl (.inr (.inr ⟨a, ha, .inr ⟨choice', hwrites _ hmem'⟩⟩))
  | gateway action =>
    simp only [AdminUI.perform] at h
    split_ifs at h
    obtain ⟨g, -, rfl⟩ := Option.map_eq_some_iff.mp h
    exact .inl ⟨rfl, fun _ h ↦ h⟩

/-- No text that authorises a request is empty, so that a request without it is
not taken for one that carries it. -/
structure AdminUI.Secret (s : AdminUI) : Prop where
  cookies : ∀ x ∈ s.sessions, x.1 ≠ ""
  csrf : ∀ session ∈ s.objects, session.csrf ≠ ""
  states : ∀ session ∈ s.objects, ∀ pending, session.flow = some pending → pending.flow.state ≠ ""

/-- The session was made in a sign-in whose password was verified. -/
def SignedIn (env : Environment) (s : AdminUI) (events : List Event) (entry : String × ℕ) : Prop :=
  ∃ k task secrets k' u now, events = k ++ .password task true secrets :: k' ∧
    Runs (AdminUI.step env) s k u ∧ u.requests.lookup task = some (.loginPassword now) ∧
    entry = (secrets.first, u.objects.length)

/-- The request of this task has shown its authority on its arrival: it carries
the cookie of a session that a sign-in made and that has neither expired nor been
removed, and the text of this session against forged requests, or it is the
callback with the state of the flow that is pending in this session. -/
structure Authority (env : Environment) (s : AdminUI) (events : List Event) (u : AdminUI)
    (req : Request) (now : Time) : Prop where
  session : ∃ cookie i session, req.cookie = some cookie ∧ (cookie, i) ∈ u.sessions ∧
    SignedIn env s events (cookie, i) ∧ u.objects[i]? = some session ∧ now < session.expires ∧
    (req.method ∉ [.get, .head] ∧ req.contentType = "application/json" ∧
        req.origin = some env.origin ∧ req.csrf = some session.csrf ∨
      req.method ∈ [.get, .head] ∧
        resolve env.pathPrefix req.method req.path = some (.read .callback) ∧
        ∃ pending, session.flow = some pending ∧
          req.query.lookup "state" = some pending.flow.state)

theorem SignedIn.append {events : List Event} {entry : String × ℕ}
    (h : SignedIn env s events entry) (e : Event) : SignedIn env s (events ++ [e]) entry := by
  obtain ⟨k, task, secrets, k', u, now, rfl, hu⟩ := h
  exact ⟨k, task, secrets, k' ++ [e], u, now, by simp, hu⟩

theorem secret_of_objects {sessions : List (String × ℕ)} (h : s.Secret)
    (hsub : ∀ x ∈ sessions, x ∈ s.sessions) : ({ s with sessions := sessions } : AdminUI).Secret :=
  ⟨fun x hx ↦ h.cookies x (hsub x hx), h.csrf, h.states⟩

theorem change_secret {e : Event} (h : s.Secret) (hchange : Change env s e t) : t.Secret := by
  have hset {i : ℕ} {session session' : AdminSession} (hobject : s.objects[i]? = some session)
      (ho : t.objects = s.objects.set i session') (hsub : t.sessions.Sublist s.sessions)
      (hcsrf : session'.csrf = session.csrf)
      (hstate : ∀ pending, session'.flow = some pending → pending.flow.state ≠ "") : t.Secret := by
    refine ⟨fun x hx ↦ h.cookies x (hsub.subset hx), fun x hx ↦ ?_, fun x hx ↦ ?_⟩
    · rcases List.mem_or_eq_of_mem_set (ho ▸ hx) with hx | rfl
      · exact h.csrf x hx
      · rw [hcsrf]
        exact h.csrf session (List.mem_of_getElem? hobject)
    · rcases List.mem_or_eq_of_mem_set (ho ▸ hx) with hx | rfl
      · exact h.states x hx
      · exact hstate
  cases hchange with
  | kept hk =>
    exact ⟨fun x hx ↦ h.cookies x (hk.sessions.subset hx), hk.objects ▸ h.csrf, hk.objects ▸ h.states⟩
  | awaits task i ha hk =>
    have ho : t.objects = s.objects := hk.objects
    exact ⟨fun x hx ↦ h.cookies x (hk.sessions.subset hx), ho ▸ h.csrf, ho ▸ h.states⟩
  | created task secrets now he hc =>
    refine ⟨fun x hx ↦ ?_, fun x hx ↦ ?_, fun x hx ↦ ?_⟩
    · rcases hc.sessions x hx with hx | rfl
      · exact h.cookies x hx
      · exact hc.drawn.1
    · rcases List.mem_append.mp (hc.objects ▸ hx) with hx | hx
      · exact h.csrf x hx
      · rw [List.mem_singleton.mp hx]
        exact hc.drawn.2.1
    · rcases List.mem_append.mp (hc.objects ▸ hx) with hx | hx
      · exact h.states x hx
      · rw [List.mem_singleton.mp hx]
        rintro _ ⟨⟩
  | begun req now secrets kind i session he hb =>
    refine hset hb.object hb.objects hb.sessions rfl ?_
    rintro _ ⟨⟩
    exact hb.drawn.1
  | finished c session ha hf =>
    refine hset hf.object hf.objects hf.sessions rfl ?_
    rintro _ ⟨⟩
  | managed kind event he hm =>
    exact ⟨fun x hx ↦ h.cookies x (hm.sessions.subset hx), hm.objects ▸ h.csrf, hm.objects ▸ h.states⟩

/-- The table holds at most 64 sessions, each from a sign-in. -/
structure Guarded (env : Environment) (s : AdminUI) (events : List Event) (u : AdminUI) : Prop where
  secret : u.Secret
  signedIn : ∀ x ∈ u.sessions, SignedIn env s events x
  length : u.sessions.length ≤ 64

theorem Guarded.change {events : List Event} {e : Event} (h : Guarded env s events u)
    (hu : ∀ task secrets, e = .password task true secrets → Runs (AdminUI.step env) s events u)
    (hchange : Change env u e t) : Guarded env s (events ++ [e]) t := by
  have hsub (hsessions : t.sessions.Sublist u.sessions) : Guarded env s (events ++ [e]) t :=
    ⟨change_secret h.secret hchange, fun x hx ↦ (h.signedIn x (hsessions.subset hx)).append e,
      hsessions.length_le.trans h.length⟩
  cases hchange with
  | kept hk => exact hsub hk.sessions
  | awaits task i ha hk => exact hsub hk.sessions
  | created task secrets now he hc =>
    refine ⟨change_secret h.secret (.created task secrets now he hc), fun x hx ↦ ?_, ?_⟩
    · rcases hc.sessions x hx with hx | rfl
      · exact (h.signedIn x hx).append e
      · exact ⟨events, task, secrets, [], u, now, by rw [he], hu task secrets he, hc.password, rfl⟩
    · exact hc.length.trans (max_le h.length le_rfl)
  | begun req now secrets kind i session he hb => exact hsub hb.sessions
  | finished c session ha hf => exact hsub hf.sessions
  | managed kind event he hm => exact hsub hm.sessions

theorem Guarded.step {events : List Event} {e : Event} (h : Guarded env s events u)
    (hu : Runs (AdminUI.step env) s events u) (ht : u.step env e = some t) :
    Guarded env s (events ++ [e]) t := by
  obtain ⟨r, hp, rfl⟩ := Option.map_eq_some_iff.mp ht
  rcases change_of_perform hp with ⟨-, hchange⟩ | ⟨req, now, secrets, sessions, rfl, hsub, hchange⟩
  · exact h.change (fun _ _ _ ↦ hu) hchange
  · have hentered : Guarded env s events { u with arrived := u.arrived + 1, sessions := sessions } :=
      ⟨⟨fun x hx ↦ h.secret.cookies x (hsub.subset hx), h.secret.csrf, h.secret.states⟩,
        fun x hx ↦ h.signedIn x (hsub.subset hx), hsub.length_le.trans h.length⟩
    exact hentered.change (by simp) hchange

theorem opened_guarded (g : Gateway) (vault : Record)
    (additional : Option (Record × Option Additional.Choice)) :
    Guarded env s [] (.opened env g vault additional) :=
  ⟨⟨by simp [AdminUI.opened], by simp [AdminUI.opened], by simp [AdminUI.opened]⟩,
    by simp [AdminUI.opened], by simp [AdminUI.opened]⟩

theorem opened_logins (setup : Setup) (vault : Record) (task : ℕ) :
    ¬ (Session.opened setup vault).Serves task := by
  unfold Session.opened
  rintro (⟨login, hl, -⟩ | hd)
  · split_ifs at hl <;> simp [Session.logins] at hl
  · split_ifs at hd

theorem opened_acts (g : Gateway) (vault : Record)
    (additional : Option (Record × Option Additional.Choice)) (task : ℕ) :
    ¬ (AdminUI.opened env g vault additional).Acts task := by
  rintro (⟨w, hw, -⟩ | hserves | ⟨a, ha, hserves | ⟨choice, hmem⟩⟩)
  · cases hw
  · exact opened_logins _ _ _ hserves
  · obtain ⟨stored, -, rfl⟩ := Option.map_eq_some_iff.mp ha
    exact opened_logins _ _ _ hserves
  · obtain ⟨stored, -, rfl⟩ := Option.map_eq_some_iff.mp ha
    cases hmem

/-- The request of the task has arrived, with authority. -/
def AuthorizedIn (env : Environment) (s : AdminUI) (events : List Event) (task : ℕ) : Prop :=
  ∃ k req now secrets k' u, events = k ++ .request req now secrets :: k' ∧
    Runs (AdminUI.step env) s k u ∧ u.arrived = task ∧ Authority env s k u req now

theorem AuthorizedIn.append {events : List Event} (h : AuthorizedIn env s events task) (e : Event) :
    AuthorizedIn env s (events ++ [e]) task := by
  obtain ⟨k, req, now, secrets, k', u, rfl, hu⟩ := h
  exact ⟨k, req, now, secrets, k' ++ [e], u, by simp, hu⟩

theorem eq_some_of_getD {o : Option String} {text : String} (h : o.getD "" = text) (hne : text ≠ "") :
    o = some text := by
  cases o with
  | none => exact absurd h.symm hne
  | some x => exact congrArg some h

theorem Method.reads_iff {m : Method} : m.reads = true ↔ m ∈ [Method.get, Method.head] := by
  simp [Method.reads]

theorem authority_of_authorized {events : List Event} {req : Request} {now : Time}
    (hg : Guarded env s events u) (h : Authorized env u req now) : Authority env s events u req now := by
  obtain ⟨i, session, ⟨hentry, hobject, hunexpired⟩, hproof⟩ := h
  have hmem := List.mem_of_getElem? hobject
  refine ⟨_, i, session, eq_some_of_getD rfl (hg.secret.cookies _ hentry), hentry,
    hg.signedIn _ hentry, hobject, hunexpired, ?_⟩
  rcases hproof with ⟨hwrites, horigin, hcontent, hcsrf⟩ | ⟨hreads, hroute, pending, hflow, hstate⟩
  · refine .inl ⟨fun hm ↦ ?_, hcontent, horigin,
      eq_some_of_getD hcsrf (hg.secret.csrf session hmem)⟩
    cases (Method.reads_iff.mpr hm).symm.trans hwrites
  · exact .inr ⟨Method.reads_iff.mp hreads, hroute, pending, hflow,
      eq_some_of_getD hstate (hg.secret.states session hmem pending hflow)⟩

/-- A task that may change something was authorised on its arrival. -/
theorem authorized_of_acts {events : List Event} (hstart : ∀ task, ¬ s.Acts task)
    (hguarded : Guarded env s [] s) (hs : Runs (AdminUI.step env) s events u) :
    Guarded env s events u ∧ ∀ task, u.Acts task → AuthorizedIn env s events task := by
  refine Runs.trace_invariant (P := fun k v ↦ Guarded env s k v ∧
    ∀ task, v.Acts task → AuthorizedIn env s k task) ?_ ?_ hs
  · exact ⟨hguarded, fun task h ↦ absurd h (hstart task)⟩
  · intro k v e w hv ⟨hg, hauthorized⟩ hw
    refine ⟨hg.step hv hw, fun task hacts ↦ ?_⟩
    obtain ⟨r, hp, rfl⟩ := Option.map_eq_some_iff.mp hw
    have hkept (h : v.Acts task) : AuthorizedIn env s (k ++ [e]) task := (hauthorized task h).append e
    rcases step_cases hp with ⟨-, hless⟩ | hquiet | ⟨task', -, hacts', hconfined⟩ |
      ⟨req, now, secrets, rfl, ha, hconfined⟩
    · exact hkept (hless task hacts)
    · exact hkept (hquiet.acts task hacts)
    · rcases hconfined task hacts with h | rfl
      · exact hkept h
      · exact hkept hacts'
    · rcases hconfined task hacts with h | rfl
      · exact hkept h
      · exact ⟨k, req, now, secrets, [], v, rfl, hv, rfl, authority_of_authorized hg ha⟩

/-- There are never more than 64 sessions, and a step of a request that changes
the store, the dispatcher or an account is one of a request that showed its
authority on its arrival. -/
theorem authority_of_change {g : Gateway} {vault : Record}
    {additional : Option (Record × Option Additional.Choice)} {events : List Event}
    (hs : Runs (AdminUI.step env) (.opened env g vault additional) events s) :
    s.sessions.length ≤ 64 ∧ ∀ e t task, s.step env e = some t → e.author s = some task →
      t.components ≠ s.components →
      ∃ k req now secrets k' u, events ++ [e] = k ++ .request req now secrets :: k' ∧
        Runs (AdminUI.step env) (.opened env g vault additional) k u ∧ u.arrived = task ∧
        Authority env (.opened env g vault additional) k u req now := by
  obtain ⟨hg, hauthorized⟩ := authorized_of_acts (opened_acts g vault additional)
    (opened_guarded g vault additional) hs
  refine ⟨hg.length, fun e t task ht ha hne ↦ ?_⟩
  obtain ⟨r, hp, rfl⟩ := Option.map_eq_some_iff.mp ht
  rcases step_cases hp with ⟨hnone, -⟩ | hquiet | ⟨task', hauthor, hacts, -⟩ |
    ⟨req, now, secrets, rfl, hauth, -⟩
  · cases hnone.symm.trans ha
  · exact absurd hquiet.components hne
  · obtain rfl := Option.some.inj (hauthor.symm.trans ha)
    exact (hauthorized _ hacts).append e
  · exact ⟨events, req, now, secrets, [], s, rfl, hs, Option.some.inj ha,
      authority_of_authorized hg hauth⟩

/-- A gateway whose pages are served at the address of its configuration. -/
def sampleEnvironment : Environment where
  lib := sampleLibrary
  email := sampleEmail
  urls := {
    urlsplit := fun text ↦ if text = "http://127.0.0.1:8080" then
      some ⟨"http", "127.0.0.1:8080", "", ""⟩ else none
    parseQsl := fun _ ↦ []
    ipAddress := fun _ ↦ none }
  config := { account := { sender := "gateway@example.com" } }

def sampleSecrets : Secrets := ⟨"first", "second", "third"⟩

def samplePages : AdminUI :=
  .opened sampleEnvironment { store := { running := some sampleEnvironment.config } } {} none

def samplePost (path : String) (cookie csrf : Option String) : Request where
  method := .post
  host := "127.0.0.1:8080"
  path := path
  cookie := cookie
  origin := some "http://127.0.0.1:8080"
  contentType := "application/json"
  csrf := csrf

/-- An administrator signs in. -/
def signIn : List Event :=
  [.request (samplePost "/api/login" none none) 0 sampleSecrets,
    .body 0 (.ok (.object [("password", .string "correct horse battery")])) 0,
    .password 0 true ⟨"cookie", "token", "unused"⟩]

/-- The administrator pauses the delivery. -/
def pauseRun : List Event :=
  signIn ++ [.request (samplePost "/api/control" (some "cookie") (some "token")) 1 sampleSecrets,
    .body 1 (.ok (.object [("paused", .bool true)])) 1]

theorem authority_of_change_sample : ∃ s t k req now secrets k' u,
    Runs (AdminUI.step sampleEnvironment) samplePages pauseRun s ∧
    s.step sampleEnvironment (.job 1 ⟨1, 1, 1⟩) = some t ∧ t.components ≠ s.components ∧
    pauseRun ++ [.job 1 ⟨1, 1, 1⟩] = k ++ .request req now secrets :: k' ∧ u.arrived = 1 ∧
    Authority sampleEnvironment samplePages k u req now := by
  have hrun : (run (AdminUI.step sampleEnvironment) pauseRun samplePages).any (fun s ↦
      s.gateway.dispatcher.resuming = [] ∧
      (s.step sampleEnvironment (.job 1 ⟨1, 1, 1⟩)).any (fun t ↦
        t.gateway.dispatcher.resuming ≠ [])) := by decide +kernel
  obtain ⟨s, hs, hrest⟩ := (Option.any_eq_true ..).mp hrun
  obtain ⟨hbefore, ht⟩ := of_decide_eq_true hrest
  obtain ⟨t, ht, hafter⟩ := (Option.any_eq_true ..).mp ht
  have hne : t.components ≠ s.components := by
    intro he
    have hresuming := congrArg (fun c ↦ c.1.dispatcher.resuming) he
    exact of_decide_eq_true hafter (hresuming.trans hbefore)
  obtain ⟨k, req, now, secrets, k', u, hk, -, harrived, hauthority⟩ :=
    (authority_of_change hs).2 _ t 1 ht rfl hne
  exact ⟨s, t, k, req, now, secrets, k', u, hs, ht, hne, hk, harrived, hauthority⟩

end NoreplyGateway.Web
