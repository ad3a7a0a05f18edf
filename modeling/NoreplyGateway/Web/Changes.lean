import NoreplyGateway.Oauth.Calls
import NoreplyGateway.Web.Admin

namespace NoreplyGateway.Web

open Machine Oauth Upstream

namespace AdminUI

def waiting (s : AdminUI) (kind : FlowKind) : List Login := ((s.manager? kind).map (·.waiting)).getD []

def logins (s : AdminUI) (kind : FlowKind) : List Login := ((s.manager? kind).map (·.logins)).getD []

end AdminUI

open AdminUI

theorem reply_requests {s : AdminUI} {task task' : ℕ} {reply : Reply} {w : Wait}
    (h : (task', w) ∈ (s.reply task reply).1.requests) : (task', w) ∈ s.requests ∧ task' ≠ task := by
  obtain ⟨hmem, hne⟩ := List.mem_filter.mp h
  exact ⟨hmem, of_decide_eq_true hne⟩

theorem wait_requests {s : AdminUI} {task task' : ℕ} {w w' : Wait}
    (h : (task', w') ∈ (s.wait task w).1.requests) :
    (task', w') ∈ s.requests ∧ task' ≠ task ∨ task' = task ∧ w' = w := by
  rcases List.mem_append.mp h with h | h
  · obtain ⟨hmem, hne⟩ := List.mem_filter.mp h
    exact .inl ⟨hmem, of_decide_eq_true hne⟩
  · exact .inr (Prod.mk.inj (List.mem_singleton.mp h))

/-- No request arrives or begins to wait for the body of a completion, and no
session is added. -/
structure Frame (s t : AdminUI) : Prop where
  arrived : t.arrived = s.arrived
  sessions : t.sessions.Sublist s.sessions
  bodies : ∀ task i, (task, .completeBody i) ∈ t.requests → (task, .completeBody i) ∈ s.requests

/-- The managers have the same calls. -/
structure SameCalls (s t : AdminUI) : Prop where
  manager : ∀ kind, t.manager? kind = s.manager? kind

theorem waiting_of_manager {s : AdminUI} {kind : FlowKind} {session : Oauth.Session}
    (h : s.manager? kind = some session) :
    s.waiting kind = session.waiting ∧ s.logins kind = session.logins := by
  simp [AdminUI.waiting, AdminUI.logins, h]

theorem waiting_congr {s t : AdminUI} {kind : FlowKind} (h : t.manager? kind = s.manager? kind) :
    t.waiting kind = s.waiting kind ∧ t.logins kind = s.logins kind := by
  simp only [AdminUI.waiting, AdminUI.logins, h, and_self]

theorem SameCalls.waiting {s t : AdminUI} (h : SameCalls s t) (kind : FlowKind) :
    t.waiting kind = s.waiting kind := (waiting_congr (h.manager kind)).1

theorem SameCalls.logins {s t : AdminUI} (h : SameCalls s t) (kind : FlowKind) :
    t.logins kind = s.logins kind := (waiting_congr (h.manager kind)).2

/-- The step leaves the session objects, the flows and the calls as they are. -/
structure Kept (s t : AdminUI) : Prop extends Frame s t, SameCalls s t where
  objects : t.objects = s.objects
  history : t.history = s.history

/-- The task of a request that has just arrived. -/
def Arrives (s : AdminUI) (e : Event) (task : ℕ) : Prop :=
  (∃ req now secrets, e = .request req now secrets) ∧ s.arrived = task + 1

/-- A password was verified, and a session begins. -/
structure Created (env : Environment) (s t : AdminUI) (task : ℕ) (secrets : Secrets) (now : Time) :
    Prop extends SameCalls s t where
  password : s.requests.lookup task = some (.loginPassword now)
  drawn : secrets.Drawn
  arrived : t.arrived = s.arrived
  sessions : ∀ x ∈ t.sessions, x ∈ s.sessions ∨ x = (secrets.first, s.objects.length)
  length : t.sessions.length ≤ max s.sessions.length 64
  objects : t.objects = s.objects ++ [{
    csrf := secrets.second, expires := now + env.config.web.sessionSeconds }]
  history : t.history = s.history
  bodies : ∀ task i, (task, .completeBody i) ∈ t.requests → (task, .completeBody i) ∈ s.requests

/-- A session begins a flow. -/
structure Begins (s t : AdminUI) (kind : FlowKind) (i : ℕ) (session : AdminSession)
    (secrets : Secrets) (now : Time) : Prop extends Frame s t, SameCalls s t where
  object : s.objects[i]? = some session
  drawn : secrets.Drawn
  objects : t.objects = s.objects.set i { session with
    flow := some ⟨s.history.begun.length,
      beginLogin secrets.first secrets.second secrets.third now⟩
    flowKind := kind }
  history : t.history = { s.history with begun := s.history.begun ++
    [⟨i, kind, beginLogin secrets.first secrets.second secrets.third now, now⟩] }

/-- A request takes the flow of its session, and goes on if the response passes
the first checks. -/
structure Finishes (s t : AdminUI) (c : Completion) (session : AdminSession) : Prop
    extends Frame s t where
  object : s.objects[c.session]? = some session
  flow : session.flow = some c.pending
  kind : c.kind = session.flowKind
  begun : c.begun = s.history.begun.length
  objects : t.objects = s.objects.set c.session { session with flow := none }
  history : t.history = { s.history with completions := s.history.completions ++ [c] }
  others : ∀ kind, kind ≠ c.kind → t.waiting kind = s.waiting kind
  waiting : t.waiting c.kind = s.waiting c.kind ∨
    ∃ code, checkResponse c.pending.flow c.response c.now = .ok code ∧
      t.waiting c.kind = s.waiting c.kind ++ [⟨c.task, c.pending.flow, code⟩]
  logins : ∀ kind, ∀ login ∈ t.logins kind, login ∈ s.logins kind ∨
    kind = c.kind ∧ login.task = c.task ∧ login.flow = c.pending.flow
  settled : ∀ i, (c.task, .completeBody i) ∉ t.requests

/-- A manager's step. Only the one that enters with a code uses a flow. -/
structure Manages (env : Environment) (s t : AdminUI) (kind : FlowKind) (event : Oauth.Event) : Prop
    extends Frame s t where
  objects : t.objects = s.objects
  history : t.history = { s.history with
    exchanges := s.history.exchanges ++ (exchange? env kind event).toList }
  others : ∀ k, k ≠ kind → t.waiting k = s.waiting k
  waiting : t.waiting kind = s.waiting kind ∧ (∀ login, event ≠ .enter login) ∨
    ∃ login, event = .enter login ∧ login ∈ s.waiting kind ∧
      t.waiting kind = (s.waiting kind).erase login
  logins : ∀ k, ∀ login ∈ t.logins k, login ∈ s.logins k

/-- What a step does to the session objects, the flows and the calls. -/
inductive Change (env : Environment) (s : AdminUI) (e : Event) (t : AdminUI) : Prop
  | kept (h : Kept s t)
  | awaits (task i : ℕ) (ha : Arrives s e task) (h : Kept s { t with requests := [] })
      (bodies : ∀ task' i', (task', .completeBody i') ∈ t.requests →
        (task', .completeBody i') ∈ s.requests ∨ task' = task)
  | created (task : ℕ) (secrets : Secrets) (now : Time) (he : e = .password task true secrets)
      (h : Created env s t task secrets now)
  | begun (req : Request) (now : Time) (secrets : Secrets) (kind : FlowKind) (i : ℕ)
      (session : AdminSession) (he : e = .request req now secrets)
      (h : Begins s t kind i session secrets now)
  | finished (c : Completion) (session : AdminSession)
      (ha : Arrives s e c.task ∨ (c.task, .completeBody c.session) ∈ s.requests)
      (h : Finishes s t c session)
  | managed (kind : FlowKind) (event : Oauth.Event) (he : e = .tokens kind event)
      (h : Manages env s t kind event)

variable {env : Environment} {s t u : AdminUI} {r : Result} {task : ℕ} {e : Event}

theorem reply_kept (s : AdminUI) (task : ℕ) (reply : Reply) : Kept s (s.reply task reply).1 :=
  ⟨⟨rfl, .refl _, fun _ _ h ↦ List.mem_of_mem_filter h⟩, ⟨fun _ ↦ rfl⟩, rfl, rfl⟩

theorem wait_kept (s : AdminUI) (task : ℕ) {w : Wait} (hw : ∀ i, w ≠ .completeBody i) :
    Kept s (s.wait task w).1 := by
  refine ⟨⟨rfl, .refl _, fun task' i h ↦ ?_⟩, ⟨fun _ ↦ rfl⟩, rfl, rfl⟩
  rcases List.mem_append.mp h with h | h
  · exact List.mem_of_mem_filter h
  · exact absurd (Prod.mk.inj (List.mem_singleton.mp h)).2.symm (hw i)

theorem Kept.trans (h : Kept s t) (h' : Kept t u) : Kept s u :=
  ⟨⟨h'.arrived.trans h.arrived, h'.sessions.trans h.sessions,
      fun task i hu ↦ h.bodies task i (h'.bodies task i hu)⟩,
    ⟨fun k ↦ (h'.manager k).trans (h.manager k)⟩,
    h'.objects.trans h.objects, h'.history.trans h.history⟩

theorem answer_eq_reply (s : AdminUI) (task : ℕ) (result : Except Reply Unit) :
    ∃ reply, s.answer task result = s.reply task reply := by
  unfold AdminUI.answer
  split <;> exact ⟨_, rfl⟩

/-- An answer ends a request at most. -/
theorem answerTokens_eq (s : AdminUI) (output : Option Oauth.Output) :
    (s.answerTokens output).1 = s ∨ ∃ task reply, (s.answerTokens output).1 = (s.reply task reply).1 := by
  unfold answerTokens
  split
  all_goals first
    | exact .inl rfl
    | exact .inr ⟨_, (answer_eq_reply _ _ _).imp (fun _ h ↦ congrArg Prod.fst h)⟩

theorem answerSender_eq (s : AdminUI) (output : Option Additional.Output) :
    (s.answerSender output).1 = s ∨ ∃ task reply, (s.answerSender output).1 = (s.reply task reply).1 := by
  unfold answerSender
  split
  all_goals first
    | exact answerTokens_eq _ _
    | exact .inl rfl
    | exact .inr ⟨_, (answer_eq_reply _ _ _).imp (fun _ h ↦ congrArg Prod.fst h)⟩

theorem Kept.refl (s : AdminUI) : Kept s s :=
  ⟨⟨rfl, .refl _, fun _ _ h ↦ h⟩, ⟨fun _ ↦ rfl⟩, rfl, rfl⟩

theorem answerTokens_kept (s : AdminUI) (output : Option Oauth.Output) :
    Kept s (s.answerTokens output).1 := by
  rcases answerTokens_eq s output with h | ⟨task, reply, h⟩ <;> rw [h]
  · exact .refl _
  · exact reply_kept _ _ _

theorem answerSender_kept (s : AdminUI) (output : Option Additional.Output) :
    Kept s (s.answerSender output).1 := by
  rcases answerSender_eq s output with h | ⟨task, reply, h⟩ <;> rw [h]
  · exact .refl _
  · exact reply_kept _ _ _

/-- What a step of a manager does, for both kinds of account. -/
theorem call_cases {kind : FlowKind} {event : Oauth.Event} (h : s.call env kind event = some r) :
    ∃ session res setup, s.manager? kind = some session ∧
      Session.perform env.lib env.email setup session event = some res ∧
      r.1.manager? kind = some { res.1 with clock := event.reading.getD session.clock } ∧
      (∀ k, k ≠ kind → r.1.manager? k = s.manager? k) ∧
      Frame s r.1 ∧ r.1.objects = s.objects ∧ r.1.history = s.history := by
  unfold AdminUI.call at h
  split at h
  · obtain ⟨⟨tokens, output⟩, hp, rfl⟩ := Option.map_eq_some_iff.mp h
    obtain ⟨⟨ha, hs, hb⟩, ⟨hm⟩, ho, hh⟩ := answerTokens_kept { s with
      tokens := { tokens with clock := event.reading.getD s.tokens.clock } } output
    refine ⟨_, _, _, rfl, hp, hm _, fun k hk ↦ ?_, ⟨ha, hs, hb⟩, ho, hh⟩
    cases k with
    | original => exact absurd rfl hk
    | additional => exact hm _
  · next a hadditional =>
    obtain ⟨⟨a', output⟩, hp, rfl⟩ := Option.map_eq_some_iff.mp h
    obtain ⟨⟨tokens, output'⟩, hr, ha'⟩ := Option.map_eq_some_iff.mp hp
    obtain ⟨⟨ha, hs, hb⟩, ⟨hm⟩, ho, hh⟩ := answerSender_kept { s with
      additional := some a' } output
    have htokens : a'.tokens = { tokens with clock := event.reading.getD a.tokens.clock } := by
      dsimp only at ha'
      split at ha' <;> cases ha' <;> rfl
    refine ⟨a.tokens, (tokens, output'), _, ?_, hr, (hm _).trans (congrArg some htokens),
      fun k hk ↦ ?_, ⟨ha, hs, hb⟩, ho, hh⟩
    · simp [AdminUI.manager?, hadditional]
    · cases k with
      | original => exact hm _
      | additional => exact absurd rfl hk
  · cases h

/-- `_finish` answers, or takes the flow of the session. -/
theorem finish_change {i : ℕ} {session : AdminSession} {response : List (String × String)}
    {status : ℕ} {now : Time} (hobject : s.objects[i]? = some session)
    (ha : Arrives s e task ∨ (task, .completeBody i) ∈ s.requests)
    (h : s.finish env task i session response status now = some r) : Change env s e r.1 := by
  unfold AdminUI.finish at h
  split at h
  · obtain rfl := Option.some.inj h
    exact .kept (reply_kept _ _ _)
  · next pending hflow =>
    obtain ⟨manager, res, setup, hmanager, hp, hafter, hothers, hframe, ho, hh⟩ := call_cases h
    have hw : r.1.waiting session.flowKind = res.1.waiting := (waiting_of_manager hafter).1
    have hl : r.1.logins session.flowKind = res.1.logins := (waiting_of_manager hafter).2
    have hmanager : s.manager? session.flowKind = some manager := hmanager
    obtain ⟨hwaiting, hlogins⟩ := waiting_of_manager hmanager
    have hbodies (task' i' : ℕ) (hmem : (task', .completeBody i') ∈ r.1.requests) :
        (task', .completeBody i') ∈ s.requests ∧ task' ≠ task := by
      rcases List.mem_append.mp (hframe.bodies task' i' hmem) with hmem | hmem
      · obtain ⟨hmem, hne⟩ := List.mem_filter.mp hmem
        exact ⟨hmem, of_decide_eq_true hne⟩
      · cases (Prod.mk.inj (List.mem_singleton.mp hmem)).2
    refine .finished ⟨task, i, session.flowKind, pending, response, now, s.history.begun.length⟩
      session ha
      { arrived := hframe.arrived
        sessions := hframe.sessions
        bodies := fun task' i' hmem ↦ (hbodies task' i' hmem).1
        object := hobject
        flow := hflow
        kind := rfl
        begun := rfl
        objects := ho
        history := hh
        others := fun kind hkind ↦ (waiting_congr (hothers kind hkind)).1
        waiting := ?_
        logins := fun kind login hmem ↦ ?_
        settled := fun i' hmem ↦ (hbodies task i' hmem).2 rfl }
    · rw [hw, hwaiting]
      rcases waiting_of_perform hp with heq | ⟨_, ⟨⟩, _⟩ | ⟨task', flow, response', now', code, he, hcode, heq⟩
      · exact .inl heq
      · cases he
        exact .inr ⟨code, hcode, heq⟩
    · by_cases hkind : kind = session.flowKind
      · subst hkind
        rw [hl] at hmem
        rcases (continues_of_perform hp).logins login hmem with hmem | ⟨response', now', he, -⟩
        · exact .inl (hlogins ▸ hmem)
        · injection he with htask hflow'
          exact .inr ⟨rfl, htask.symm, hflow'.symm⟩
      · rw [(waiting_congr (hothers kind hkind)).2] at hmem
        exact .inl hmem

theorem completeLogin_change {i : ℕ} {session : AdminSession} {payload : Value} {now : Time}
    (hobject : s.objects[i]? = some session) (ha : (task, .completeBody i) ∈ s.requests)
    (h : s.completeLogin env task i session payload now = some r) : Change env s e r.1 := by
  unfold AdminUI.completeLogin at h
  split at h
  · obtain rfl := Option.some.inj h
    exact .kept (reply_kept _ _ _)
  · exact finish_change hobject (.inr ha) h

theorem controlPaused_kept {payload : Fields} : Kept s (s.controlPaused task payload).1 := by
  unfold controlPaused
  split
  · exact reply_kept _ _ _
  · exact wait_kept _ _ (by simp)
  · exact reply_kept _ _ _

theorem control_kept {payload : Value} : Kept s (s.control env task payload).1 := by
  unfold AdminUI.control
  split
  · split
    · exact controlPaused_kept
    · exact reply_kept _ _ _
    · split
      · exact reply_kept _ _ _
      · split
        · exact reply_kept _ _ _
        · exact wait_kept _ _ (by simp)
  · exact reply_kept _ _ _

/-- The additional sender takes a step of its own, apart from its manager. -/
theorem additional_kept {a a' : Additional.Sender} (ha : s.additional = some a)
    (ht : a'.tokens = a.tokens) : Kept s { s with additional := some a' } := by
  have hmanager (kind : FlowKind) :
      ({ s with additional := some a' } : AdminUI).manager? kind = s.manager? kind := by
    cases kind with
    | original => rfl
    | additional => simp [AdminUI.manager?, ha, ht]
  exact ⟨⟨rfl, .refl _, fun _ _ h ↦ h⟩, ⟨hmanager⟩, rfl, rfl⟩

theorem receiveBody_change {payload : Value} {now : Time} {w : Wait}
    (hw : s.requests.lookup task = some w) (h : s.receiveBody env task payload now w = some r) :
    Change env s e r.1 := by
  cases w with
  | loginBody start =>
    simp only [receiveBody] at h
    split at h
    · split at h <;> cases h
      · exact .kept (wait_kept _ _ (by simp))
      · exact .kept (reply_kept _ _ _)
    · cases h
      exact .kept (reply_kept _ _ _)
  | actionBody id verb =>
    simp only [receiveBody] at h
    split at h <;> cases h
    · exact .kept (wait_kept _ _ (by simp))
    · exact .kept (reply_kept _ _ _)
  | controlBody =>
    obtain rfl := Option.some.inj h
    exact .kept control_kept
  | completeBody i =>
    obtain ⟨session, hobject, hcomplete⟩ := Option.bind_eq_some_iff.mp h
    obtain ⟨l₁, l₂, hl, -⟩ := List.lookup_eq_some_iff.mp hw
    exact completeLogin_change hobject (by simp [hl]) hcomplete
  | chooseBody =>
    simp only [receiveBody] at h
    split at h
    · next a ha =>
      obtain ⟨⟨a', output⟩, hchoose, rfl⟩ := Option.map_eq_some_iff.mp h
      have htokens : a'.tokens = a.tokens := by
        simp only [Additional.Sender.perform] at hchoose
        split at hchoose <;> cases hchoose <;> rfl
      exact .kept (((additional_kept ha htokens).trans (wait_kept _ _ (by simp))).trans
        (answerSender_kept _ _))
    · obtain rfl := Option.some.inj h
      exact .kept (reply_kept _ _ _)
  | loginPassword | action | setting | lock | call => cases h

theorem gateway_kept (s : AdminUI) (g : Gateway) : Kept s { s with gateway := g } :=
  ⟨⟨rfl, .refl _, fun _ _ h ↦ h⟩, ⟨fun _ ↦ rfl⟩, rfl, rfl⟩

theorem runJob_kept {clock : Store.RetryClock} {w : Wait} (h : s.runJob task clock w = some r) :
    Kept s r.1 := by
  unfold runJob at h
  split at h
  · split at h <;> cases h
    · exact (gateway_kept s _).trans (reply_kept _ _ _)
    · exact reply_kept _ _ _
  · obtain ⟨g, -, rfl⟩ := Option.map_eq_some_iff.mp h
    exact (gateway_kept s g).trans (wait_kept _ _ (by simp))
  · cases h

theorem resume_kept {w : Wait} (h : s.resume task w = some r) : Kept s r.1 := by
  unfold resume at h
  split at h
  · obtain ⟨g, -, rfl⟩ := Option.map_eq_some_iff.mp h
    dsimp only
    split
    · exact (gateway_kept s g).trans (reply_kept _ _ _)
    · exact (gateway_kept s g).trans controlPaused_kept
    · exact (gateway_kept s g).trans (wait_kept _ _ (by simp))
  · cases h

/-- Before its call a step of a manager is recorded, if it sends a code. -/
theorem beforeCall_frame (env : Environment) (s : AdminUI) (kind : FlowKind) (event : Oauth.Event) :
    Frame s (s.beforeCall env kind event) ∧ SameCalls s (s.beforeCall env kind event) ∧
      (s.beforeCall env kind event).objects = s.objects ∧
      (s.beforeCall env kind event).history = { s.history with
        exchanges := s.history.exchanges ++ (exchange? env kind event).toList } := by
  cases event with
  | disconnect task =>
    obtain ⟨hframe, hcalls, hobjects, -⟩ := wait_kept s task (w := .call 200) (by simp)
    exact ⟨hframe, hcalls, hobjects, by simp [beforeCall, exchange?, AdminUI.wait]⟩
  | completeLogin | getToken | refreshed | enter | exchanged | verified | profiled | saved
  | rejected | accepted | disconnectWritten =>
    exact ⟨⟨rfl, .refl _, fun _ _ h ↦ h⟩, ⟨fun _ ↦ rfl⟩, rfl, rfl⟩

theorem manage_change {kind : FlowKind} {event : Oauth.Event} (he : e = .tokens kind event)
    (h : s.manage env kind event = some r) : Change env s e r.1 := by
  unfold manage at h
  split_ifs at h with hmay
  obtain ⟨⟨ha₀, hs₀, hb₀⟩, hcalls, ho₀, hh₀⟩ := beforeCall_frame env s kind event
  have hw₀ := hcalls.waiting
  have hl₀ := hcalls.logins
  obtain ⟨manager, res, setup, hmanager, hp, hafter, hothers, ⟨ha, hs, hb⟩, ho, hh⟩ := call_cases h
  have hw : r.1.waiting kind = res.1.waiting := (waiting_of_manager hafter).1
  have hl : r.1.logins kind = res.1.logins := (waiting_of_manager hafter).2
  obtain ⟨hwaiting, hlogins⟩ := waiting_of_manager hmanager
  have hno (task : ℕ) (flow : LoginFlow) (response : List (String × String)) (now : Time) :
      event ≠ .completeLogin task flow response now := by
    rintro rfl
    cases hmay
  refine .managed kind event he
    { arrived := ha.trans ha₀
      sessions := hs.trans hs₀
      bodies := fun task i hmem ↦ hb₀ task i (hb task i hmem)
      objects := ho.trans ho₀
      history := hh.trans hh₀
      others := fun k hk ↦ (waiting_congr (hothers k hk)).1.trans (hw₀ k)
      waiting := ?_
      logins := fun k login hmem ↦ ?_ }
  · rw [hw, ← hw₀, hwaiting]
    rcases waiting_of_perform hp with heq | ⟨login, rfl, hmem, heq⟩ | ⟨_, _, _, _, _, he', -, -⟩
    · by_cases hlogin : ∃ login, event = .enter login
      · obtain ⟨login, rfl⟩ := hlogin
        simp only [Session.perform] at hp
        split_ifs at hp with hfree
        rw [not_or, not_not] at hfree
        refine .inr ⟨login, rfl, hfree.2, ?_⟩
        split at hp <;> cases hp <;> rfl
      · exact .inl ⟨heq, fun login he ↦ hlogin ⟨login, he⟩⟩
    · exact .inr ⟨login, rfl, hmem, heq⟩
    · exact absurd he' (hno _ _ _ _)
  · by_cases hk : k = kind
    · subst hk
      rw [hl] at hmem
      rcases (continues_of_perform hp).logins login hmem with hmem | ⟨_, _, he', -⟩
      · rw [← hl₀, hlogins]
        exact hmem
      · exact absurd he' (hno _ _ _ _)
    · rw [(waiting_congr (hothers k hk)).2, hl₀] at hmem
      exact hmem

theorem createSession_created {secrets : Secrets} {now : Time}
    (hw : s.requests.lookup task = some (.loginPassword now)) (hdrawn : secrets.Drawn) :
    Created env s (s.createSession env task secrets now).1 task secrets now := by
  unfold createSession
  refine ⟨⟨fun _ ↦ rfl⟩, hw, hdrawn, rfl, ?_, ?_, rfl, rfl,
    fun _ _ h ↦ List.mem_of_mem_filter h⟩
  · dsimp only [AdminUI.reply]
    have hrest : ∀ x ∈ (if 64 ≤ s.sessions.length then s.sessions.tail else s.sessions),
        x ∈ s.sessions := by
      split_ifs
      · exact fun _ ↦ List.mem_of_mem_tail
      · exact fun _ ↦ id
    intro x hx
    split_ifs at hx with _ hknown hknown
    all_goals first
      | obtain ⟨y, hy, rfl⟩ := List.mem_map.mp hx
        split_ifs
        · exact .inr rfl
        · exact .inl (by first | exact List.mem_of_mem_tail hy | exact hy)
      | rcases List.mem_append.mp hx with hx | hx
        · exact .inl (by first | exact List.mem_of_mem_tail hx | exact hx)
        · exact .inr (List.mem_singleton.mp hx)
  · dsimp only [AdminUI.reply]
    split_ifs <;> simp <;> omega

theorem handleRead_change {req : Request} {session : Option (ℕ × AdminSession)} {now : Time}
    {route : ReadRoute} (ha : Arrives s e task)
    (hsession : ∀ i ses, session = some (i, ses) → s.objects[i]? = some ses)
    (h : s.handleRead env task req session now route = some r) : Change env s e r.1 := by
  unfold handleRead at h
  split at h
  · split at h
    · next i ses =>
      unfold AdminUI.callback at h
      split_ifs at h
      · obtain rfl := Option.some.inj h
        exact .kept (reply_kept _ _ _)
      · obtain rfl := Option.some.inj h
        exact .kept (reply_kept _ _ _)
      · obtain rfl := Option.some.inj h
        exact .kept (reply_kept _ _ _)
      · exact finish_change (hsession i ses rfl) (.inl ha) h
    · obtain rfl := Option.some.inj h
      exact .kept (reply_kept _ _ _)
  · obtain rfl := Option.some.inj h
    exact .kept (reply_kept _ _ _)
  · obtain rfl := Option.some.inj h
    exact .kept (reply_kept _ _ _)

theorem beginFlow_change {kind : FlowKind} {i : ℕ} {session : AdminSession} {secrets : Secrets}
    {now : Time} {req : Request} (he : e = .request req now secrets) (hdrawn : secrets.Drawn)
    (hobject : s.objects[i]? = some session) :
    Change env s e (s.beginFlow env task kind i session secrets now).1 := by
  unfold beginFlow
  split_ifs
  · exact .kept (reply_kept _ _ _)
  · exact .kept (reply_kept _ _ _)
  · exact .begun req now secrets kind i session he ⟨⟨rfl, .refl _,
      fun _ _ h ↦ List.mem_of_mem_filter h⟩, ⟨fun _ ↦ rfl⟩, hobject, hdrawn, rfl, rfl⟩

theorem handlePost_change {req : Request} {session : Option (ℕ × AdminSession)} {now : Time}
    {secrets : Secrets} {route : PostRoute} (he : e = .request req now secrets)
    (ha : Arrives s e task) (hdrawn : secrets.Drawn)
    (hsession : ∀ i ses, session = some (i, ses) → s.objects[i]? = some ses) :
    Change env s e (s.handlePost env task req session now secrets route).1 := by
  have hkept (attempts : Attempts) (sessions : List (String × ℕ))
      (hsub : sessions.Sublist s.sessions) :
      Kept s { s with attempts := attempts, sessions := sessions } :=
    ⟨⟨rfl, hsub, fun _ _ h ↦ h⟩, ⟨fun _ ↦ rfl⟩, rfl, rfl⟩
  cases route with
  | login =>
    have hattempts := hkept (throttle env.urls env.config s.attempts req now).1 s.sessions (.refl _)
    unfold handlePost
    dsimp only
    split
    · exact .kept (hattempts.trans (reply_kept _ _ _))
    · exact .kept (hattempts.trans (wait_kept _ _ (by simp)))
  | logout =>
    exact .kept ((hkept s.attempts (s.sessions.filter (·.1 ≠ req.cookie.getD ""))
      List.filter_sublist).trans (reply_kept _ _ _))
  | action id verb => exact .kept (wait_kept _ _ (by simp))
  | control => exact .kept (wait_kept _ _ (by simp))
  | beginLogin =>
    unfold handlePost
    dsimp only
    split
    · exact beginFlow_change he hdrawn (hsession _ _ rfl)
    · exact .kept (reply_kept _ _ _)
  | beginAdditionalLogin =>
    unfold handlePost
    dsimp only
    split
    · exact beginFlow_change he hdrawn (hsession _ _ rfl)
    · exact .kept (reply_kept _ _ _)
  | completeLogin =>
    unfold handlePost
    dsimp only
    split
    · next i _ =>
      refine .awaits task i ha ⟨⟨rfl, .refl _, by simp⟩, ⟨fun _ ↦ rfl⟩, rfl, rfl⟩
        (fun task' i' hmem ↦ ?_)
      rcases List.mem_append.mp hmem with hmem | hmem
      · exact .inl (List.mem_of_mem_filter hmem)
      · exact .inr (Prod.mk.inj (List.mem_singleton.mp hmem)).1
    · exact .kept (reply_kept _ _ _)
  | disconnect =>
    unfold handlePost
    dsimp only
    split_ifs
    · exact .kept (reply_kept _ _ _)
    · exact .kept (wait_kept _ _ (by simp))
  | chooseAdditionalSender =>
    unfold handlePost
    dsimp only
    split_ifs
    · exact .kept (reply_kept _ _ _)
    · exact .kept (wait_kept _ _ (by simp))
  | disconnectAdditional =>
    unfold handlePost
    dsimp only
    split_ifs
    · exact .kept (reply_kept _ _ _)
    · exact .kept (wait_kept _ _ (by simp))

theorem object?_eq_some {cookie : String} {i : ℕ} {session : AdminSession}
    (h : s.object? cookie = some (i, session)) :
    (cookie, i) ∈ s.sessions ∧ s.objects[i]? = some session := by
  obtain ⟨j, hj, hmap⟩ := Option.bind_eq_some_iff.mp h
  obtain ⟨session', hsession, he⟩ := Option.map_eq_some_iff.mp hmap
  obtain ⟨rfl, rfl⟩ := Prod.mk.inj he
  obtain ⟨l, k, hlk, -⟩ := List.lookup_eq_some_iff.mp hj
  exact ⟨by simp [hlk], hsession⟩

/-- The middleware changes the table of sessions at most. -/
theorem boundary_sessions (env : Environment) (s : AdminUI) (req : Request) (now : Time) :
    (s.boundary env req now).1 = s ∨
      (s.boundary env req now).1 = { s with sessions := s.unexpired now } := by
  unfold boundary
  split_ifs
  · exact .inl rfl
  · exact .inl rfl
  · exact .inr rfl

/-- The session of an admitted request is an object of the heap. -/
theorem boundary_object {req : Request} {now : Time} {session : Option (ℕ × AdminSession)}
    (h : (s.boundary env req now).2 = .ok session) :
    ∀ i ses, session = some (i, ses) → s.objects[i]? = some ses := by
  unfold boundary at h
  split_ifs at h
  dsimp only at h
  unfold admitRequest at h
  split_ifs at h
  · cases h
    exact fun i ses hses ↦ (object?_eq_some hses).2
  · cases h
    exact fun i ses hses ↦ (object?_eq_some hses).2
  · split at h
    · cases h
    · next hses =>
      split at h
      · cases h
        rintro _ _ ⟨⟩
        exact (object?_eq_some hses).2
      · cases h
      · cases h

theorem receive_change {req : Request} {now : Time} {secrets : Secrets} (hdrawn : secrets.Drawn)
    (h : s.receive env req now secrets = some r) :
    ∃ sessions : List (String × ℕ), sessions.Sublist s.sessions ∧
      Change env { s with arrived := s.arrived + 1, sessions := sessions }
        (.request req now secrets) r.1 := by
  have hsub : (s.unexpired now).Sublist s.sessions := List.filter_sublist
  unfold receive at h
  dsimp only at h
  have hboundary : ∃ sessions : List (String × ℕ), sessions.Sublist s.sessions ∧
      ({ s with arrived := s.arrived + 1 }.boundary env req now).1 =
        { s with arrived := s.arrived + 1, sessions := sessions } := by
    rcases boundary_sessions env { s with arrived := s.arrived + 1 } req now with hb | hb
    · exact ⟨s.sessions, .refl _, hb⟩
    · exact ⟨s.unexpired now, hsub, hb⟩
  obtain ⟨sessions, hsessions, hb⟩ := hboundary
  refine ⟨sessions, hsessions, ?_⟩
  have ha : Arrives { s with arrived := s.arrived + 1, sessions := sessions }
      (.request req now secrets) s.arrived := ⟨⟨_, _, _, rfl⟩, rfl⟩
  rw [hb] at h
  split at h
  · obtain rfl := Option.some.inj h
    exact .kept (reply_kept _ _ _)
  · next session hsession =>
    have hobject := boundary_object hsession
    split at h
    · obtain rfl := Option.some.inj h
      exact .kept (reply_kept _ _ _)
    · exact handleRead_change ha hobject h
    · obtain rfl := Option.some.inj h
      exact handlePost_change rfl ha hdrawn hobject

/-- Every step makes one of these changes. A request that arrives is counted and
meets the filter on the sessions first. -/
theorem change_of_perform (h : s.perform env e = some r) :
    (∀ task, ¬ Arrives s e task) ∧ Change env s e r.1 ∨ ∃ (req : Request) (now : Time) (secrets : Secrets)
      (sessions : List (String × ℕ)), e = .request req now secrets ∧ sessions.Sublist s.sessions ∧
        Change env { s with arrived := s.arrived + 1, sessions := sessions } e r.1 := by
  have hother (hne : ∀ req now secrets, e ≠ .request req now secrets) (task : ℕ) :
      ¬ Arrives s e task := by
    rintro ⟨⟨req, now, secrets, he⟩, -⟩
    exact hne req now secrets he
  cases e with
  | request req now secrets =>
    simp only [AdminUI.perform] at h
    split_ifs at h with hdrawn
    obtain ⟨sessions, hsub, hchange⟩ := receive_change hdrawn h
    exact .inr ⟨req, now, secrets, sessions, rfl, hsub, hchange⟩
  | body task payload now =>
    obtain ⟨w, hw, h⟩ := Option.bind_eq_some_iff.mp h
    refine .inl ⟨hother (by simp), ?_⟩
    split at h
    · exact receiveBody_change hw h
    · split at h <;> cases h <;> exact .kept (reply_kept _ _ _)
  | password task verified secrets =>
    refine .inl ⟨hother (by simp), ?_⟩
    simp only [AdminUI.perform] at h
    split at h
    · next now hw =>
      split_ifs at h with hverified hdrawn <;> cases h
      · exact .kept (reply_kept _ _ _)
      · rw [Bool.not_eq_false] at hverified
        exact .created task secrets now (by rw [hverified]) (createSession_created hw hdrawn)
    · cases h
  | job task clock =>
    obtain ⟨w, -, h⟩ := Option.bind_eq_some_iff.mp h
    exact .inl ⟨hother (by simp), .kept (runJob_kept h)⟩
  | fault task =>
    simp only [AdminUI.perform] at h
    split at h <;> cases h <;> exact .inl ⟨hother (by simp), .kept (reply_kept _ _ _)⟩
  | resume task =>
    obtain ⟨w, -, h⟩ := Option.bind_eq_some_iff.mp h
    exact .inl ⟨hother (by simp), .kept (resume_kept h)⟩
  | tokens kind event => exact .inl ⟨hother (by simp), manage_change rfl h⟩
  | written task choice write =>
    obtain ⟨a, ha, h⟩ := Option.bind_eq_some_iff.mp h
    obtain ⟨⟨a', output⟩, hwritten, rfl⟩ := Option.map_eq_some_iff.mp h
    have htokens : a'.tokens = a.tokens := by
      simp only [Additional.Sender.perform] at hwritten
      split_ifs at hwritten
      split at hwritten <;> cases hwritten <;> rfl
    exact .inl ⟨hother (by simp),
      .kept ((additional_kept ha htokens).trans (answerSender_kept _ _))⟩
  | gateway action =>
    simp only [AdminUI.perform] at h
    split_ifs at h
    obtain ⟨g, -, rfl⟩ := Option.map_eq_some_iff.mp h
    exact .inl ⟨hother (by simp), .kept (gateway_kept s g)⟩

end NoreplyGateway.Web
