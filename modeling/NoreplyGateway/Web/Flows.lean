import NoreplyGateway.Web.Authority

namespace NoreplyGateway.Web

open AdminUI Machine Oauth Upstream

/-- The flow was begun in this session and for this account, and at that time no
later flow had been begun in the session. -/
structure Latest (begun : List Begun) (session : ℕ) (kind : FlowKind) (p : Pending) : Prop where
  began : ∃ b, begun[p.number]? = some b ∧ b.session = session ∧ b.kind = kind ∧ b.flow = p.flow
  latest : ∀ m b, begun[m]? = some b → b.session = session → m ≤ p.number

/-- The request took up the flow with a response that passed the first checks. -/
structure Taken (completions : List Completion) (kind : FlowKind) (task : ℕ) (flow : LoginFlow)
    (c : Completion) : Prop where
  mem : c ∈ completions
  task : c.task = task
  kind : c.kind = kind
  flow : c.pending.flow = flow

/-- The invariant of the login flows: a flow is pending in one session or was
taken from it by one request, and a request that took a flow waits for its
manager, or has sent its code once. -/
structure FlowsSound (s : AdminUI) : Prop where
  bodies : ∀ task i, (task, .completeBody i) ∈ s.requests →
    task < s.arrived ∧ ∀ c ∈ s.history.completions, c.task ≠ task
  tasks : ∀ c ∈ s.history.completions, c.task < s.arrived
  distinct : (s.history.completions.map (·.task)).Nodup
  numbers : (s.history.completions.map (·.pending.number)).Nodup
  pending : ∀ i session p, s.objects[i]? = some session → session.flow = some p →
    Latest s.history.begun i session.flowKind p ∧
      ∀ c ∈ s.history.completions, c.pending.number ≠ p.number
  completed : ∀ c ∈ s.history.completions, c.begun ≤ s.history.begun.length ∧
    c.pending.number < c.begun ∧
    Latest (s.history.begun.take c.begun) c.session c.kind c.pending
  begun : ∀ b ∈ s.history.begun, b.flow.expires = b.began + 600 ∧ b.flow.state ≠ ""
  waiting : ∀ kind, ∀ login ∈ s.waiting kind, ∃ c, Taken s.history.completions kind login.task login.flow c ∧
    checkResponse c.pending.flow c.response c.now = .ok login.code
  logins : ∀ kind, ∀ login ∈ s.logins kind, ∃ c, Taken s.history.completions kind login.task login.flow c
  once : ∀ kind, ((s.waiting kind).map (·.task)).Nodup
  exchanges : (s.history.exchanges.map (·.task)).Nodup
  sent : ∀ x ∈ s.history.exchanges, ∃ c flow code, Taken s.history.completions x.kind x.task flow c ∧
    checkResponse c.pending.flow c.response c.now = .ok code ∧
    x.data.lookup "code_verifier" = some (.string flow.verifier)
  spent : ∀ x ∈ s.history.exchanges, ∀ kind, ∀ login ∈ s.waiting kind, login.task ≠ x.task

variable {env : Environment} {s t u : AdminUI} {task : ℕ} {e : Event}

theorem Taken.append {completions : List Completion} {kind : FlowKind} {flow : LoginFlow}
    {c : Completion} (h : Taken completions kind task flow c) (c' : Completion) :
    Taken (completions ++ [c']) kind task flow c :=
  ⟨List.mem_append_left _ h.mem, h.task, h.kind, h.flow⟩

theorem getElem?_concat_cases {α : Type} {l : List α} {a b : α} {m : ℕ}
    (h : (l ++ [a])[m]? = some b) : l[m]? = some b ∨ m = l.length ∧ b = a := by
  rw [List.getElem?_append] at h
  split_ifs at h
  · exact .inl h
  · rw [List.getElem?_singleton] at h
    split_ifs at h
    exact .inr ⟨by omega, (Option.some.inj h).symm⟩

theorem getElem?_concat_of_some {α : Type} {l : List α} {a b : α} {m : ℕ} (h : l[m]? = some b) :
    (l ++ [a])[m]? = some b := by
  rw [List.getElem?_append_left (List.getElem?_eq_some_iff.mp h).1]
  exact h

/-- A step that leaves flows and calls alone. -/
theorem FlowsSound.of_kept (hs : FlowsSound s) (ha : t.arrived = s.arrived)
    (ho : t.objects = s.objects) (hh : t.history = s.history) (hw : ∀ kind, t.waiting kind = s.waiting kind)
    (hl : ∀ kind, t.logins kind = s.logins kind)
    (hb : ∀ task i, (task, .completeBody i) ∈ t.requests →
      (task, .completeBody i) ∈ s.requests ∨
        task < s.arrived ∧ ∀ c ∈ s.history.completions, c.task ≠ task) : FlowsSound t where
  bodies task i hmem := by
    rw [ha, hh]
    exact (hb task i hmem).elim (hs.bodies task i) id
  tasks := by
    rw [ha, hh]
    exact hs.tasks
  distinct := hh ▸ hs.distinct
  numbers := hh ▸ hs.numbers
  pending := by
    rw [ho, hh]
    exact hs.pending
  completed := by
    rw [hh]
    exact hs.completed
  begun := hh ▸ hs.begun
  waiting kind := by
    rw [hw, hh]
    exact hs.waiting kind
  logins kind := by
    rw [hl, hh]
    exact hs.logins kind
  once kind := by
    rw [hw]
    exact hs.once kind
  exchanges := hh ▸ hs.exchanges
  sent := by
    rw [hh]
    exact hs.sent
  spent x hx kind login hmem := hs.spent x (hh ▸ hx) kind login (hw kind ▸ hmem)

theorem FlowsSound.created {secrets : Secrets} {now : Time} (hs : FlowsSound s)
    (h : Created env s t task secrets now) : FlowsSound t := by
  have hkept : FlowsSound { t with objects := s.objects } :=
    hs.of_kept h.arrived rfl h.history h.waiting h.logins (fun task i hmem ↦ .inl (h.bodies task i hmem))
  refine { hkept with
    waiting := hkept.waiting
    logins := hkept.logins
    once := hkept.once
    spent := hkept.spent
    pending := fun i session p hi hflow ↦ ?_ }
  rw [h.objects] at hi
  rcases getElem?_concat_cases hi with hi | ⟨-, rfl⟩
  · exact hkept.pending i session p hi hflow
  · cases hflow

theorem Latest.append {begun : List Begun} {i : ℕ} {kind : FlowKind} {p : Pending} {b : Begun}
    (h : Latest begun i kind p) (hb : b.session ≠ i) : Latest (begun ++ [b]) i kind p := by
  obtain ⟨⟨b', hb', hsession⟩, hlatest⟩ := h
  refine ⟨⟨b', getElem?_concat_of_some hb', hsession⟩, fun m b'' hm hi ↦ ?_⟩
  rcases getElem?_concat_cases hm with hm | ⟨-, rfl⟩
  · exact hlatest m b'' hm hi
  · exact absurd hi hb

/-- A session object is replaced; the others are as before. -/
theorem getElem?_set_cases {α : Type} {l : List α} {a b : α} {i j : ℕ} (h : (l.set i a)[j]? = some b) :
    j = i ∧ b = a ∨ j ≠ i ∧ l[j]? = some b := by
  rw [List.getElem?_set] at h
  split_ifs at h with hi
  · exact .inl ⟨hi.symm, (Option.some.inj h).symm⟩
  · exact .inr ⟨fun he ↦ hi he.symm, h⟩

theorem FlowsSound.begin {kind : FlowKind} {i : ℕ} {session : AdminSession} {secrets : Secrets}
    {now : Time} (hs : FlowsSound s) (h : Begins s t kind i session secrets now) : FlowsSound t := by
  have hcompletions : t.history.completions = s.history.completions := by rw [h.history]
  have hexchanges : t.history.exchanges = s.history.exchanges := by rw [h.history]
  have hbegun : t.history.begun = s.history.begun ++
      [⟨i, kind, beginLogin secrets.first secrets.second secrets.third now, now⟩] := by
    rw [h.history]
  refine
    { bodies := fun task i hmem ↦ ?_
      tasks := by
        rw [h.arrived, hcompletions]
        exact hs.tasks
      distinct := hcompletions ▸ hs.distinct
      numbers := hcompletions ▸ hs.numbers
      pending := fun j ses p hj hflow ↦ ?_
      completed := fun c hc ↦ ?_
      begun := fun b hb ↦ ?_
      waiting := fun kind ↦ by
        rw [h.waiting, hcompletions]
        exact hs.waiting kind
      logins := fun kind ↦ by
        rw [h.logins, hcompletions]
        exact hs.logins kind
      once := fun kind ↦ by
        rw [h.waiting]
        exact hs.once kind
      exchanges := hexchanges ▸ hs.exchanges
      sent := by
        rw [hexchanges, hcompletions]
        exact hs.sent
      spent := fun x hx kind login hmem ↦
        hs.spent x (hexchanges ▸ hx) kind login (h.waiting kind ▸ hmem) }
  · rw [h.arrived, hcompletions]
    exact hs.bodies task i (h.bodies task i hmem)
  · rw [hbegun, hcompletions]
    rw [h.objects] at hj
    rcases getElem?_set_cases hj with ⟨rfl, rfl⟩ | ⟨hne, hj⟩
    · obtain rfl := Option.some.inj hflow
      refine ⟨⟨⟨_, List.getElem?_concat_length, rfl, rfl, rfl⟩, fun m b hm hi ↦ ?_⟩, fun c hc ↦ ?_⟩
      · have hlt := (List.getElem?_eq_some_iff.mp hm).1
        rw [List.length_append, List.length_singleton] at hlt
        exact Nat.le_of_lt_succ hlt
      · obtain ⟨hle, hlt, -⟩ := hs.completed c hc
        exact (hlt.trans_le hle).ne
    · obtain ⟨hlatest, hfresh⟩ := hs.pending j ses p hj hflow
      exact ⟨hlatest.append (fun he ↦ hne he.symm), hfresh⟩
  · obtain ⟨hle, hlt, hlatest⟩ := hs.completed c (hcompletions ▸ hc)
    rw [hbegun, List.take_append_of_le_length hle]
    exact ⟨hle.trans (by simp), hlt, hlatest⟩
  · rw [hbegun] at hb
    rcases List.mem_append.mp hb with hb | hb
    · exact hs.begun b hb
    · rw [List.mem_singleton.mp hb]
      exact ⟨rfl, h.drawn.1⟩

/-- The request of a completion has taken no flow before. -/
theorem FlowsSound.finished {c : Completion} {session : AdminSession} (hs : FlowsSound s)
    (h : Finishes s t c session) (hfresh : c.task < s.arrived ∧
      ∀ c' ∈ s.history.completions, c'.task ≠ c.task) : FlowsSound t := by
  have hcompletions : t.history.completions = s.history.completions ++ [c] := by rw [h.history]
  have hexchanges : t.history.exchanges = s.history.exchanges := by rw [h.history]
  have hbegun : t.history.begun = s.history.begun := by rw [h.history]
  obtain ⟨hlatest, hnumber⟩ := hs.pending c.session session c.pending h.object h.flow
  have hnew (flow : LoginFlow) (hflow : flow = c.pending.flow) :
      Taken (s.history.completions ++ [c]) c.kind c.task flow c :=
    ⟨List.mem_append_right _ (List.mem_singleton.mpr rfl), rfl, rfl, hflow.symm⟩
  have hwaiting (kind : FlowKind) (login : Login) (hmem : login ∈ t.waiting kind) :
      login ∈ s.waiting kind ∨ kind = c.kind ∧ login.task = c.task ∧
        login.flow = c.pending.flow ∧
        checkResponse c.pending.flow c.response c.now = .ok login.code := by
    by_cases hkind : kind = c.kind
    · subst hkind
      rcases h.waiting with heq | ⟨code, hcheck, heq⟩ <;> rw [heq] at hmem
      · exact .inl hmem
      · rcases List.mem_append.mp hmem with hmem | hmem
        · exact .inl hmem
        · rw [List.mem_singleton.mp hmem]
          exact .inr ⟨rfl, rfl, rfl, hcheck⟩
    · exact .inl (h.others kind hkind ▸ hmem)
  have hold (kind : FlowKind) (login : Login) (hmem : login ∈ s.waiting kind) :
      login.task ≠ c.task := by
    obtain ⟨c', hc', -⟩ := hs.waiting kind login hmem
    exact fun he ↦ hfresh.2 c' hc'.mem (hc'.task.trans he)
  refine
    { bodies := fun task i hmem ↦ ?_
      tasks := ?_
      distinct := ?_
      numbers := ?_
      pending := fun j ses p hj hflow ↦ ?_
      completed := ?_
      begun := hbegun ▸ hs.begun
      waiting := fun kind login hmem ↦ ?_
      logins := fun kind login hmem ↦ ?_
      once := fun kind ↦ ?_
      exchanges := hexchanges ▸ hs.exchanges
      sent := fun x hx ↦ ?_
      spent := fun x hx kind login hmem ↦ ?_ }
  · obtain ⟨hlt, hne⟩ := hs.bodies task i (h.bodies task i hmem)
    rw [h.arrived, hcompletions]
    refine ⟨hlt, fun c' hc' ↦ ?_⟩
    rcases List.mem_append.mp hc' with hc' | hc'
    · exact hne c' hc'
    · rw [List.mem_singleton.mp hc']
      rintro rfl
      exact h.settled i hmem
  · rw [h.arrived, hcompletions]
    intro c' hc'
    rcases List.mem_append.mp hc' with hc' | hc'
    · exact hs.tasks c' hc'
    · rw [List.mem_singleton.mp hc']
      exact hfresh.1
  · rw [hcompletions, List.map_append, List.map_singleton, List.nodup_append_comm,
      List.singleton_append, List.nodup_cons]
    refine ⟨fun hmem ↦ ?_, hs.distinct⟩
    obtain ⟨c', hc', he⟩ := List.mem_map.mp hmem
    exact hfresh.2 c' hc' he
  · rw [hcompletions, List.map_append, List.map_singleton, List.nodup_append_comm,
      List.singleton_append, List.nodup_cons]
    refine ⟨fun hmem ↦ ?_, hs.numbers⟩
    obtain ⟨c', hc', he⟩ := List.mem_map.mp hmem
    exact hnumber c' hc' he
  · rw [h.objects] at hj
    rcases getElem?_set_cases hj with ⟨-, rfl⟩ | ⟨hne, hj⟩
    · cases hflow
    · rw [hbegun, hcompletions]
      obtain ⟨hlatest', hnumber'⟩ := hs.pending j ses p hj hflow
      refine ⟨hlatest', fun c' hc' ↦ ?_⟩
      rcases List.mem_append.mp hc' with hc' | hc'
      · exact hnumber' c' hc'
      · rw [List.mem_singleton.mp hc']
        intro he
        -- the two flows were begun in different sessions
        obtain ⟨b, hb, hi, -⟩ := hlatest.began
        obtain ⟨b', hb', hi', -⟩ := hlatest'.began
        rw [he] at hb
        obtain rfl := Option.some.inj (hb.symm.trans hb')
        exact hne (hi'.symm.trans hi)
  · rw [hcompletions, hbegun]
    intro c' hc'
    rcases List.mem_append.mp hc' with hc' | hc'
    · exact hs.completed c' hc'
    · rw [List.mem_singleton.mp hc', h.begun, List.take_length, h.kind]
      obtain ⟨b, hb, -⟩ := hlatest.began
      exact ⟨le_rfl, (List.getElem?_eq_some_iff.mp hb).1, hlatest⟩
  · rw [hcompletions]
    rcases hwaiting kind login hmem with hmem | ⟨rfl, htask, hflow, hcheck⟩
    · obtain ⟨c', hc', hcheck⟩ := hs.waiting kind login hmem
      exact ⟨c', hc'.append c, hcheck⟩
    · exact ⟨c, htask ▸ hnew _ hflow, hcheck⟩
  · rw [hcompletions]
    rcases h.logins kind login hmem with hmem | ⟨rfl, htask, hflow⟩
    · obtain ⟨c', hc'⟩ := hs.logins kind login hmem
      exact ⟨c', hc'.append c⟩
    · exact ⟨c, htask ▸ hnew _ hflow⟩
  · by_cases hkind : kind = c.kind
    · subst hkind
      rcases h.waiting with heq | ⟨code, -, heq⟩ <;> rw [heq]
      · exact hs.once _
      · rw [List.map_append, List.map_singleton, List.nodup_append_comm, List.singleton_append,
          List.nodup_cons]
        refine ⟨fun hmem ↦ ?_, hs.once _⟩
        obtain ⟨login, hmem, he⟩ := List.mem_map.mp hmem
        exact hold _ login hmem he
    · rw [h.others kind hkind]
      exact hs.once kind
  · rw [hcompletions]
    obtain ⟨c', flow, code, hc', hcheck, hverifier⟩ := hs.sent x (hexchanges ▸ hx)
    exact ⟨c', flow, code, hc'.append c, hcheck, hverifier⟩
  · rcases hwaiting kind login hmem with hmem | ⟨-, htask, -⟩
    · exact hs.spent x (hexchanges ▸ hx) kind login hmem
    · obtain ⟨c', _, _, hc', -⟩ := hs.sent x (hexchanges ▸ hx)
      exact fun he ↦ hfresh.2 c' hc'.mem (hc'.task.trans (he.symm.trans htask))

theorem exchange?_eq_some {kind : FlowKind} {event : Oauth.Event} {x : Exchange}
    (h : exchange? env kind event = some x) :
    ∃ login, event = .enter login ∧ x.task = login.task ∧ x.kind = kind ∧
      x.data.lookup "code_verifier" = some (.string login.flow.verifier) := by
  have hlookup {setup : Setup} {flow : LoginFlow} {code : String} {data : Fields}
      (h : exchangeData setup flow code = .ok data) :
      data.lookup "code_verifier" = some (.string flow.verifier) := by
    unfold exchangeData addClientSecret at h
    dsimp only at h
    split_ifs at h <;> cases h <;> rfl
  unfold exchange? at h
  split at h
  · next login =>
    split at h <;> cases h
    next hdata => exact ⟨login, rfl, rfl, rfl, hlookup hdata⟩
  · cases h

theorem FlowsSound.managed {kind : FlowKind} {event : Oauth.Event} (hs : FlowsSound s)
    (h : Manages env s t kind event) : FlowsSound t := by
  have hsub (k : FlowKind) (login : Login) (hmem : login ∈ t.waiting k) : login ∈ s.waiting k := by
    by_cases hk : k = kind
    · subst hk
      rcases h.waiting with ⟨heq, -⟩ | ⟨login', -, -, heq⟩ <;> rw [heq] at hmem
      · exact hmem
      · exact List.mem_of_mem_erase hmem
    · exact h.others k hk ▸ hmem
  have hcompletions : t.history.completions = s.history.completions := by rw [h.history]
  have hbegun : t.history.begun = s.history.begun := by rw [h.history]
  have hexchanges : t.history.exchanges =
      s.history.exchanges ++ (exchange? env kind event).toList := by rw [h.history]
  have hentered (x : Exchange) (hx : exchange? env kind event = some x) :
      ∃ login ∈ s.waiting kind, x.task = login.task ∧ x.kind = kind ∧
        x.data.lookup "code_verifier" = some (.string login.flow.verifier) ∧
        t.waiting kind = (s.waiting kind).erase login := by
    obtain ⟨login, rfl, htask, hkind, hdata⟩ := exchange?_eq_some hx
    rcases h.waiting with ⟨-, hno⟩ | ⟨login', he, hmem, heq⟩
    · exact absurd rfl (hno login)
    · cases he
      exact ⟨login, hmem, htask, hkind, hdata, heq⟩
  refine
    { bodies := fun task i hmem ↦ ?_
      tasks := by
        rw [h.arrived, hcompletions]
        exact hs.tasks
      distinct := hcompletions ▸ hs.distinct
      numbers := hcompletions ▸ hs.numbers
      pending := by
        rw [h.objects, hbegun, hcompletions]
        exact hs.pending
      completed := by
        rw [hcompletions, hbegun]
        exact hs.completed
      begun := hbegun ▸ hs.begun
      waiting := fun k login hmem ↦ by
        rw [hcompletions]
        exact hs.waiting k login (hsub k login hmem)
      logins := fun k login hmem ↦ by
        rw [hcompletions]
        exact hs.logins k login (h.logins k login hmem)
      once := fun k ↦ ?_
      exchanges := ?_
      sent := fun x hx ↦ ?_
      spent := fun x hx k login hmem ↦ ?_ }
  · rw [h.arrived, hcompletions]
    exact hs.bodies task i (h.bodies task i hmem)
  · by_cases hk : k = kind
    · subst hk
      rcases h.waiting with ⟨heq, -⟩ | ⟨login, -, -, heq⟩ <;> rw [heq]
      · exact hs.once k
      · exact (hs.once k).sublist (List.erase_sublist.map _)
    · rw [h.others k hk]
      exact hs.once k
  · rw [hexchanges]
    cases hx : exchange? env kind event with
    | none => simpa using hs.exchanges
    | some x =>
      obtain ⟨login, hmem, htask, -⟩ := hentered x hx
      rw [Option.toList_some, List.map_append, List.map_singleton, List.nodup_append_comm,
        List.singleton_append, List.nodup_cons]
      refine ⟨fun hsent ↦ ?_, hs.exchanges⟩
      obtain ⟨y, hy, he⟩ := List.mem_map.mp hsent
      exact hs.spent y hy kind login hmem (htask.symm.trans he.symm)
  · rw [hcompletions]
    rw [hexchanges] at hx
    rcases List.mem_append.mp hx with hx | hx
    · exact hs.sent x hx
    · obtain ⟨login, hmem, htask, rfl, hdata, -⟩ := hentered x (Option.mem_toList.mp hx)
      obtain ⟨c, hc, hcheck⟩ := hs.waiting x.kind login hmem
      exact ⟨c, login.flow, login.code, htask ▸ hc, hcheck, hdata⟩
  · rw [hexchanges] at hx
    rcases List.mem_append.mp hx with hx | hx
    · exact hs.spent x hx k login (hsub k login hmem)
    · obtain ⟨login', hmem', htask, -, -, heq⟩ := hentered x (Option.mem_toList.mp hx)
      rw [htask]
      intro he
      by_cases hk : k = kind
      · subst hk
        rw [heq] at hmem
        -- the call that has entered waits no longer, and no other call has its task
        have hne : login ≠ login' := by
          rintro rfl
          exact ((hs.once k).of_map _).not_mem_erase hmem
        exact hne (List.inj_on_of_nodup_map (hs.once k) (List.mem_of_mem_erase hmem) hmem' he)
      · obtain ⟨c, hc, -⟩ := hs.waiting k login (hsub k login hmem)
        obtain ⟨c', hc', -⟩ := hs.waiting kind login' hmem'
        have heq := List.inj_on_of_nodup_map hs.distinct hc.mem hc'.mem
          (hc.task.trans (he.trans hc'.task.symm))
        exact hk (hc.kind.symm.trans ((congrArg Completion.kind heq).trans hc'.kind))

theorem FlowsSound.change (hs : FlowsSound s) (h : Change env s e t)
    (hfresh : ∀ task, Arrives s e task → ∀ c ∈ s.history.completions, c.task ≠ task) :
    FlowsSound t := by
  cases h with
  | kept hk =>
    exact hs.of_kept hk.arrived hk.objects hk.history hk.waiting hk.logins
      (fun task i hmem ↦ .inl (hk.bodies task i hmem))
  | awaits task i ha hk hbodies =>
    have hlt : task < s.arrived := by
      rw [ha.2]
      exact Nat.lt_succ_self task
    refine hs.of_kept hk.arrived hk.objects hk.history hk.waiting hk.logins (fun task' i' hmem ↦ ?_)
    rcases hbodies task' i' hmem with hmem | rfl
    · exact .inl hmem
    · exact .inr ⟨hlt, hfresh _ ha⟩
  | created task secrets now he hc => exact hs.created hc
  | begun req now secrets kind i session he hb => exact hs.begin hb
  | finished c session ha hf =>
    refine hs.finished hf ?_
    rcases ha with ha | hmem
    · refine ⟨?_, hfresh _ ha⟩
      rw [ha.2]
      exact Nat.lt_succ_self _
    · exact hs.bodies _ _ hmem
  | managed kind event he hm => exact hs.managed hm

theorem FlowsSound.step (hs : FlowsSound s) (h : s.step env e = some t) : FlowsSound t := by
  obtain ⟨r, hp, rfl⟩ := Option.map_eq_some_iff.mp h
  rcases change_of_perform hp with ⟨hother, hchange⟩ | ⟨req, now, secrets, sessions, rfl, -, hchange⟩
  · exact hs.change hchange (fun task ha ↦ absurd ha (hother task))
  · refine FlowsSound.change ?_ hchange (fun task ha c hc he ↦ ?_)
    · exact { hs with
        bodies := fun task i hmem ↦ ((hs.bodies task i hmem).imp_left (fun h ↦ h.trans (Nat.lt_succ_self _)))
        tasks := fun c hc ↦ (hs.tasks c hc).trans (Nat.lt_succ_self _) }
    · have hlt := hs.tasks c hc
      have harrived : s.arrived = task := Nat.succ.inj ha.2
      omega

theorem opened_sound (g : Gateway) (vault : Record)
    (additional : Option (Record × Option Additional.Choice)) :
    FlowsSound (.opened env g vault additional) := by
  have hfree (setup : Setup) (record : Record) :
      (Session.opened setup record).waiting = [] ∧ (Session.opened setup record).logins = [] := by
    unfold Session.opened
    split_ifs <;> exact ⟨rfl, rfl⟩
  have hnone (kind : FlowKind) : (AdminUI.opened env g vault additional).waiting kind = [] ∧
      (AdminUI.opened env g vault additional).logins kind = [] := by
    cases kind with
    | original => exact hfree _ _
    | additional =>
      cases additional with
      | none => exact ⟨rfl, rfl⟩
      | some stored => exact hfree _ _
  refine ⟨?_, ?_, .nil, .nil, ?_, ?_, ?_, fun kind ↦ ?_, fun kind ↦ ?_, fun kind ↦ ?_, .nil, ?_, ?_⟩
  all_goals first
    | simp only [(hnone kind).1, List.not_mem_nil, List.map_nil, List.nodup_nil, false_implies, implies_true]
    | simp only [(hnone kind).2, List.not_mem_nil, false_implies, implies_true]
    | simp [AdminUI.opened]

theorem sound_of_runs {g : Gateway} {vault : Record}
    {additional : Option (Record × Option Additional.Choice)} {events : List Event}
    (hs : Runs (AdminUI.step env) (.opened env g vault additional) events s) : FlowsSound s :=
  hs.invariant (P := FlowsSound) (fun _ _ _ hu ha ↦ hu.step ha) (opened_sound g vault additional)

/-- The exchange uses a flow that the session of its request began for this
account, the latest one there when the request took it, not yet expired then and
with its state in the response. -/
structure Legitimate (h : History) (x : Exchange) (c : Completion) (b : Begun) : Prop where
  completion : c ∈ h.completions
  task : c.task = x.task
  begun : h.begun[c.pending.number]? = some b
  session : b.session = c.session
  kind : b.kind = x.kind
  before : c.pending.number < c.begun
  latest : ∀ m b', m < c.begun → h.begun[m]? = some b' → b'.session = b.session →
    m ≤ c.pending.number
  unexpired : c.now ≤ b.began + 600
  state : c.response.lookup "state" = some b.flow.state
  verifier : x.data.lookup "code_verifier" = some (.string b.flow.verifier)

theorem FlowsSound.legitimate {x : Exchange} (hs : FlowsSound s) (hx : x ∈ s.history.exchanges) :
    ∃ c b, Legitimate s.history x c b := by
  obtain ⟨c, flow, code, hc, hcheck, hverifier⟩ := hs.sent x hx
  obtain ⟨-, hlt, ⟨b, hb, hsession, hkind, hflow⟩, hlatest⟩ := hs.completed c hc.mem
  rw [List.getElem?_take_of_lt hlt] at hb
  obtain ⟨hexpires, hstate⟩ := hs.begun b (List.mem_of_getElem? hb)
  obtain ⟨hunexpired, hpresented⟩ := state_of_checkResponse hcheck
  rw [← hflow] at hunexpired hpresented
  refine ⟨c, b, ⟨hc.mem, hc.task, hb, hsession, hkind.trans hc.kind, hlt, fun m b' hm hb' hi ↦ ?_,
    hexpires ▸ hunexpired, eq_some_of_getD hpresented hstate, ?_⟩⟩
  · exact hlatest m b' ((List.getElem?_take_of_lt hm).trans hb') (hi.trans hsession)
  · rw [hflow, hc.flow]
    exact hverifier

theorem verifyClaims_nonce {lib : Upstream.Library} {setup : Setup} {nonce : String}
    {claims claims' : Fields} (h : verifyClaims lib setup nonce claims = .ok claims') :
    lib.str ((claims.lookup "nonce").getD .null) = .ok nonce := by
  unfold verifyClaims at h
  dsimp only at h
  split at h
  · cases h
  · next text htext =>
    split at h
    · next hequal =>
      unfold compareDigest at hequal
      split_ifs at hequal
      rw [htext, of_decide_eq_true (Except.ok.inj hequal)]
    · cases h

/-- The call goes on after the verification with the nonce of its flow only. -/
theorem nonce_of_verified {session : Oauth.Session} {lib : Upstream.Library} {email : EmailPackage}
    {setup : Setup} {res : Oauth.Session × Option Oauth.Output} {login : Login} {result : Fields}
    {claims : Except DeliveryError Fields} {now : Time}
    (hholder : session.holder = some (.verifying login result))
    (h : session.perform lib email setup (.verified claims now) = some res)
    (hgoes : res.1.holder ≠ none) :
    ∃ fields, claims = .ok fields ∧
      lib.str ((fields.lookup "nonce").getD .null) = .ok login.flow.nonce := by
  simp only [Session.perform, hholder] at h
  split at h
  · obtain rfl := Option.some.inj h
    exact absurd rfl hgoes
  · next hverified =>
    cases claims with
    | error e => cases hverified
    | ok fields => exact ⟨fields, rfl, verifyClaims_nonce hverified⟩

/-- Login flows are used once and are not confused. In every state, every code
was sent with a legitimate flow, no two exchanges used the same one, a flow that
a request took is pending nowhere, and a call goes on after the verification of
its token only if the token has the nonce of the flow that its request took. -/
theorem flows_single_use {g : Gateway} {vault : Record}
    {additional : Option (Record × Option Additional.Choice)} {events : List Event}
    (hs : Runs (AdminUI.step env) (.opened env g vault additional) events s) :
    (∀ x ∈ s.history.exchanges, ∃ c b, Legitimate s.history x c b) ∧
    s.history.exchanges.Pairwise (fun x y ↦ ∀ c ∈ s.history.completions,
      ∀ d ∈ s.history.completions, c.task = x.task → d.task = y.task →
        c.pending.number ≠ d.pending.number) ∧
    (s.history.completions.map (·.pending.number)).Nodup ∧
    (∀ c ∈ s.history.completions, ∀ session ∈ s.objects, ∀ pending,
      session.flow = some pending → pending.number ≠ c.pending.number) ∧
    ∀ kind session login result claims now t session', s.manager? kind = some session →
      session.holder = some (.verifying login result) →
      s.step env (.tokens kind (.verified claims now)) = some t → t.manager? kind = some session' →
      session'.holder ≠ none → ∃ c ∈ s.history.completions, c.task = login.task ∧ c.kind = kind ∧
        ∃ fields, claims = .ok fields ∧
          env.lib.str ((fields.lookup "nonce").getD .null) = .ok c.pending.flow.nonce := by
  have hsound := sound_of_runs hs
  refine ⟨fun x hx ↦ hsound.legitimate hx, ?_, hsound.numbers, ?_, ?_⟩
  · refine (List.pairwise_map.mp hsound.exchanges).imp (fun hne c hc d hd hcx hdy he ↦ hne ?_)
    have heq := List.inj_on_of_nodup_map hsound.numbers hc hd he
    exact hcx.symm.trans ((congrArg Completion.task heq).trans hdy)
  · intro c hc session hsession pending hflow he
    obtain ⟨i, hi⟩ := List.mem_iff_getElem?.mp hsession
    exact (hsound.pending i session pending hi hflow).2 c hc he.symm
  · intro kind session login result claims now t session' hmanager hholder ht hafter hgoes
    have hlogin : login ∈ s.logins kind := by
      rw [(waiting_of_manager hmanager).2]
      exact mem_logins.mpr (.inr ⟨_, hholder, rfl⟩)
    obtain ⟨c, hc⟩ := hsound.logins kind login hlogin
    obtain ⟨r, hp, rfl⟩ := Option.map_eq_some_iff.mp ht
    simp only [AdminUI.perform, manage, mayCall, if_true] at hp
    obtain ⟨session₁, res, setup, hmanager', hperform, hr, -⟩ := call_cases hp
    obtain rfl := Option.some.inj (hmanager'.symm.trans hmanager)
    obtain rfl := Option.some.inj (hafter.symm.trans hr)
    obtain ⟨fields, hclaims, hnonce⟩ := nonce_of_verified hholder hperform hgoes
    exact ⟨c, hc.mem, hc.task, hc.kind, fields, hclaims, hc.flow.symm ▸ hnonce⟩

/-- The identity provider sends the browser back to the gateway. -/
def callbackEnvironment : Environment :=
  { sampleEnvironment with config := { account := {
      sender := "gateway@example.com", redirectUri := "http://127.0.0.1:8080/oauth/callback" } } }

def callbackPages : AdminUI :=
  .opened callbackEnvironment {}
    { firstRecord with fingerprint := some callbackEnvironment.original.fingerprint } none

def sampleFlow : LoginFlow := ⟨"state", "nonce", "verifier", 600⟩

/-- A signed-in administrator begins a login. -/
def beginRun : List Event :=
  signIn ++ [.request (samplePost "/api/account/login" (some "cookie") (some "token")) 0
    ⟨"state", "nonce", "verifier"⟩]

/-- The browser returns from the identity provider. -/
def returned : Event :=
  .request { method := .get, host := "127.0.0.1:8080", path := "/oauth/callback"
             cookie := some "cookie", query := [("state", "state"), ("code", "code")] } 20
    sampleSecrets

def entered : Event := .tokens .original (.enter ⟨2, sampleFlow, "code"⟩)

theorem flows_single_use_sample : ∃ s x c b,
    Runs (AdminUI.step callbackEnvironment) callbackPages (beginRun ++ [returned, entered]) s ∧
    x ∈ s.history.exchanges ∧ Legitimate s.history x c b := by
  have hrun : (run (AdminUI.step callbackEnvironment) (beginRun ++ [returned, entered])
      callbackPages).any (fun s ↦ s.history.exchanges.length = 1) := by decide +kernel
  obtain ⟨s, hs, hlength⟩ := (Option.any_eq_true ..).mp hrun
  obtain ⟨x, hx⟩ := List.length_eq_one_iff.mp (of_decide_eq_true hlength)
  have hmem : x ∈ s.history.exchanges := by simp [hx]
  obtain ⟨c, b, hlegitimate⟩ := (flows_single_use hs).1 x hmem
  exact ⟨s, x, c, b, hs, hmem, hlegitimate⟩

/-- The manager is refreshing its token when the browser returns, and the refresh
ends late. -/
def lateRun : List Event :=
  beginRun ++ [.tokens .original (.getToken 10), returned,
    .tokens .original (.refreshed (.answered ⟨200, none, [refreshBody]⟩) 700),
    .tokens .original (.saved .done 700)]

theorem exchange_of_expired_flow : ∃ s t b,
    Runs (AdminUI.step callbackEnvironment) callbackPages lateRun s ∧
    s.step callbackEnvironment entered = some t ∧ s.history.exchanges = [] ∧
    t.history.exchanges ≠ [] ∧ t.history.begun = [b] ∧ b.began + 600 < s.tokens.clock := by
  have hrun : (run (AdminUI.step callbackEnvironment) lateRun callbackPages).any (fun s ↦
      s.history.exchanges.length = 0 ∧ (s.step callbackEnvironment entered).any (fun t ↦
        t.history.exchanges.length = 1 ∧ t.history.begun.length = 1 ∧
        t.history.begun.all (fun b ↦ b.began + 600 < s.tokens.clock))) := by decide +kernel
  obtain ⟨s, hs, hrest⟩ := (Option.any_eq_true ..).mp hrun
  obtain ⟨hnone, ht⟩ := of_decide_eq_true hrest
  obtain ⟨t, ht, hafter⟩ := (Option.any_eq_true ..).mp ht
  obtain ⟨hone, hbegun, hlate⟩ := of_decide_eq_true hafter
  obtain ⟨b, hb⟩ := List.length_eq_one_iff.mp hbegun
  refine ⟨s, t, b, hs, ht, List.length_eq_zero_iff.mp hnone, fun he ↦ ?_, hb, ?_⟩
  · simp [he] at hone
  · exact of_decide_eq_true (List.all_eq_true.mp hlate b (by simp [hb]))

end NoreplyGateway.Web
