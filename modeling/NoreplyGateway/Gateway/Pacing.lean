import NoreplyGateway.Gateway.Health
import NoreplyGateway.Gateway.Jobs
import NoreplyGateway.SlidingWindow
import NoreplyGateway.Validation

namespace NoreplyGateway

open Machine SlidingWindow

namespace Store

variable {s t : Session} {op : Op}

/-- The attempts that an operation can begin. -/
def Op.begins : Op → ℕ
  | .claim _ => 1
  | _ => 0

theorem attempts_length (h : s.step op = some t) :
    t.attempts.length ≤ s.attempts.length + op.begins := by
  cases transition_of_step h with
  | start => simp
  | claimed => simp [Op.begins]
  | finished => simp
  | _ => exact Nat.le_add_right _ _

/-- The stored rate is what the operator set last. -/
theorem rate_of_step (h : s.step op = some t) : t.db.settings.rate = s.db.settings.rate ∨
    ∃ q, op = .setSetting (.rate q) ∧ t.db.settings.rate = some q := by
  cases transition_of_step h with
  | inserted hr hi =>
    rw [hi.settings]
    exact .inl rfl
  | @finished _ status _ delay cooldown now => cases cooldown <;> exact .inl rfl
  | @setSetting _ setting _ =>
    cases setting with
    | paused b => exact .inl rfl
    | rate q => exact .inr ⟨q, rfl, rfl⟩
  | _ => exact .inl rfl

end Store

namespace Gateway

open Store

/-- The worker has its permit and has not used it yet. -/
def Worker.admitted : Worker → Bool
  | .claiming => true
  | _ => false

def admitted (g : Gateway) : ℕ := g.dispatcher.workers.countP Worker.admitted

/-- The attempts begun so far and those that a worker may begin at once. -/
def committed (g : Gateway) : ℕ := g.store.attempts.length + admitted g

variable {g g' : Gateway} {config : Config} {p p' : Worker} {a : Action}

theorem countP_set {α : Type*} {f : α → Bool} {l : List α} {i : ℕ} {x y : α} (h : l[i]? = some x) :
    (l.set i y).countP f + (f x).toNat = l.countP f + (f y).toNat := by
  obtain ⟨hi, rfl⟩ := List.getElem?_eq_some_iff.mp h
  have hold := (List.getElem_cons_eraseIdx_perm hi).countP_eq f
  have hnew := (List.set_perm_cons_eraseIdx hi y).countP_eq f
  rw [List.countP_cons] at hold hnew
  cases hx : f l[i] <;> cases hy : f y <;> simp [hx, hy] at hold hnew ⊢ <;> omega

/-- What a step does to the pace: it uses up what was admitted, or it grants a
permit, which admits a worker unless delivery stops. -/
inductive Paces (g : Gateway) (a : Action) (g' : Gateway) : Prop
  | kept (hc : committed g' ≤ committed g)
      (hn : g'.dispatcher.nextPermit = g.dispatcher.nextPermit)
  | permit {index : ℕ} {now instant : Time}
      (he : a = .delivery (.worker index (.permit now instant)))
      (hc : committed g' ≤ committed g + (!g.dispatcher.stopping).toNat)
      (hn : g'.dispatcher.nextPermit = instant + 1 / g.dispatcher.rate)

/-- The same for one worker. -/
inductive WorkerPaces (g : Gateway) (p : Worker) (a : WorkerAction) (g' : Gateway) (p' : Worker) :
    Prop
  | kept (hc : g'.store.attempts.length + p'.admitted.toNat ≤
        g.store.attempts.length + p.admitted.toNat)
      (hn : g'.dispatcher.nextPermit = g.dispatcher.nextPermit)
  | permit {now instant : Time} (he : a = .permit now instant)
      (hc : g'.store.attempts.length + p'.admitted.toNat ≤
        g.store.attempts.length + p.admitted.toNat + (!g.dispatcher.stopping).toNat)
      (hn : g'.dispatcher.nextPermit = instant + 1 / g.dispatcher.rate)

theorem worker_paces {action : WorkerAction} (h : workerStep g config p action = some (g', p')) :
    WorkerPaces g p action g' p' := by
  unfold workerStep at h
  split at h
  case h_1 | h_2 =>
    split_ifs at h <;> cases h <;> exact .kept le_rfl rfl
  case h_3 now instant =>
    dsimp only at h
    split_ifs at h with hstop
    · cases h
      exact .permit rfl (Nat.le_add_right _ _) rfl
    · simp only [not_or, Bool.not_eq_true] at hstop
      cases h
      refine .permit rfl ?_ rfl
      rw [hstop.1]
      exact le_rfl
  case h_4 =>
    obtain ⟨store, hstore, he⟩ := Option.map_eq_some_iff.mp h
    obtain ⟨rfl, rfl⟩ := Prod.mk.inj he
    have hlength := attempts_length hstore
    exact .kept hlength rfl
  case h_7 message result jitter now =>
    obtain ⟨rfl, rfl⟩ := Prod.mk.inj (Option.some.inj h)
    refine .kept ?_ rfl
    cases result with
    | ok => exact le_rfl
    | error e => cases e <;> exact le_rfl
  case h_8 =>
    obtain ⟨store, hstore, he⟩ := Option.map_eq_some_iff.mp h
    obtain ⟨rfl, rfl⟩ := Prod.mk.inj he
    have hlength := attempts_length hstore
    exact .kept hlength rfl
  case h_10 | h_12 =>
    split at h
    · next store hstore =>
      cases h
      have hlength := attempts_length hstore
      exact .kept hlength rfl
    · cases h
      exact .kept le_rfl rfl
  case h_13 =>
    cases h
    exact .kept (Nat.le_add_right _ _) rfl
  case h_19 =>
    obtain ⟨rfl, rfl⟩ := Prod.mk.inj (Option.some.inj h)
    cases p <;> exact .kept (by simp [Worker.admitted]) rfl
  case h_18 | h_20 => cases h
  all_goals
    cases h
    exact .kept le_rfl rfl

/-- The part of the dispatcher that the pace depends on is the same. -/
structure SamePace (g g' : Gateway) : Prop where
  rate : g'.dispatcher.rate = g.dispatcher.rate
  stopping : g'.dispatcher.stopping = g.dispatcher.stopping
  boot : g'.dispatcher.boot = g.dispatcher.boot
  resuming : g'.dispatcher.resuming = g.dispatcher.resuming

theorem worker_samePace {action : WorkerAction}
    (h : workerStep g config p action = some (g', p')) : SamePace g g' := by
  unfold workerStep at h
  split at h
  case h_1 | h_2 => split_ifs at h <;> cases h <;> exact ⟨rfl, rfl, rfl, rfl⟩
  case h_3 =>
    dsimp only at h
    split_ifs at h <;> cases h <;> exact ⟨rfl, rfl, rfl, rfl⟩
  case h_4 | h_8 =>
    obtain ⟨store, -, he⟩ := Option.map_eq_some_iff.mp h
    obtain ⟨rfl, rfl⟩ := Prod.mk.inj he
    exact ⟨rfl, rfl, rfl, rfl⟩
  case h_7 =>
    obtain ⟨rfl, rfl⟩ := Prod.mk.inj (Option.some.inj h)
    exact ⟨rfl, rfl, rfl, rfl⟩
  case h_10 | h_12 => split at h <;> cases h <;> exact ⟨rfl, rfl, rfl, rfl⟩
  case h_19 =>
    obtain ⟨rfl, rfl⟩ := Prod.mk.inj (Option.some.inj h)
    cases p <;> exact ⟨rfl, rfl, rfl, rfl⟩
  case h_18 | h_20 => cases h
  all_goals
    cases h
    exact ⟨rfl, rfl, rfl, rfl⟩

/-- Apart from the steps of the workers, only the start of the dispatcher touches
them. -/
theorem workers_kept {a : DeliveryAction} (h : deliveryStep g config a = some g') :
    (∃ index action, a = .worker index action) ∨ a = .boot ∨
      g'.dispatcher.workers = g.dispatcher.workers := by
  cases a with
  | worker index action => exact .inl ⟨index, action, rfl⟩
  | boot => exact .inr (.inl rfl)
  | shieldedJob id now =>
    simp only [deliveryStep] at h
    split_ifs at h
    split at h <;> cases h <;> exact .inr (.inr rfl)
  | housekeeping now scan =>
    simp only [deliveryStep] at h
    split at h
    · obtain ⟨store, -, rfl⟩ := Option.map_eq_some_iff.mp h
      exact .inr (.inr rfl)
    · cases h
  | action id verb acknowledgeDuplicate clock =>
    obtain ⟨store, -, rfl⟩ := Option.map_eq_some_iff.mp h
    exact .inr (.inr rfl)
  | set setting =>
    simp only [deliveryStep] at h
    split_ifs at h
    obtain ⟨store, -, rfl⟩ := Option.map_eq_some_iff.mp h
    exact .inr (.inr rfl)
  | setResume setting =>
    simp only [deliveryStep] at h
    split_ifs at h
    cases h
    cases setting <;> exact .inr (.inr rfl)
  | shieldedFault | setDrop =>
    simp only [deliveryStep] at h
    split_ifs at h
    cases h
    exact .inr (.inr rfl)
  | housekeepingCancel | stop =>
    cases h
    exact .inr (.inr rfl)
  | readSettings | tick | housekeepingFault | housekeepingRecover =>
    simp only [deliveryStep] at h
    split at h <;> cases h
    exact .inr (.inr rfl)

theorem Paces.of_worker {index : ℕ} {action : WorkerAction}
    (hp : g.dispatcher.workers[index]? = some p)
    (hw : g'.dispatcher.workers = g.dispatcher.workers) (h : WorkerPaces g p action g' p') :
    Paces g (.delivery (.worker index action)) { g' with dispatcher := { g'.dispatcher with
      workers := g'.dispatcher.workers.set index p' } } := by
  have hset := countP_set (f := Worker.admitted) (y := p') hp
  rw [← hw] at hset
  cases h with
  | kept hc hn =>
    refine .kept ?_ hn
    simp only [committed, admitted, ← hw]
    omega
  | permit he hc hn =>
    refine .permit (congrArg _ (congrArg _ he)) ?_ hn
    simp only [committed, admitted, ← hw]
    omega

theorem Paces.of_job {op : Op} (hs : g.store.step op = some g'.store) (hop : op.begins = 0)
    (hd : g'.dispatcher.workers = g.dispatcher.workers)
    (hn : g'.dispatcher.nextPermit = g.dispatcher.nextPermit) : Paces g a g' := by
  refine .kept ?_ hn
  have hlength := attempts_length hs
  rw [hop, Nat.add_zero] at hlength
  rw [committed, committed, admitted, admitted, hd]
  omega

theorem delivery_paces {a : DeliveryAction} (h : deliveryStep g config a = some g') :
    Paces g (.delivery a) g' := by
  cases a with
  | worker index action =>
    simp only [deliveryStep] at h
    split at h
    · cases h
    next p hp =>
      obtain ⟨⟨g₁, p'⟩, hstep, rfl⟩ := Option.map_eq_some_iff.mp h
      exact .of_worker hp (workerStep_frame hstep).1 (worker_paces hstep)
  | boot =>
    simp only [deliveryStep] at h
    split at h <;> cases h
    refine .kept ?_ rfl
    have hnone : (List.replicate config.delivery.workers Worker.ready).countP Worker.admitted = 0 :=
      List.countP_eq_zero.mpr fun p hp ↦ by
        rw [List.eq_of_mem_replicate hp]
        exact Bool.false_ne_true
    simp only [committed, admitted, hnone]
    omega
  | shieldedJob id now =>
    simp only [deliveryStep] at h
    split_ifs at h
    split at h
    · next store hs =>
      cases h
      exact .of_job hs rfl rfl rfl
    · cases h
      exact .kept le_rfl rfl
  | housekeeping now scan =>
    simp only [deliveryStep] at h
    split at h
    · obtain ⟨store, hs, rfl⟩ := Option.map_eq_some_iff.mp h
      exact .of_job hs rfl rfl rfl
    · cases h
  | action id verb acknowledgeDuplicate clock =>
    obtain ⟨store, hs, rfl⟩ := Option.map_eq_some_iff.mp h
    exact .of_job hs rfl rfl rfl
  | set setting =>
    simp only [deliveryStep] at h
    split_ifs at h
    obtain ⟨store, hs, rfl⟩ := Option.map_eq_some_iff.mp h
    exact .of_job hs rfl rfl rfl
  | setResume setting =>
    simp only [deliveryStep] at h
    split_ifs at h
    cases h
    cases setting <;> exact .kept le_rfl rfl
  | shieldedFault | setDrop =>
    simp only [deliveryStep] at h
    split_ifs at h
    cases h
    exact .kept le_rfl rfl
  | housekeepingCancel | stop =>
    cases h
    exact .kept le_rfl rfl
  | readSettings | tick | housekeepingFault | housekeepingRecover =>
    simp only [deliveryStep] at h
    split at h <;> cases h
    exact .kept le_rfl rfl

theorem step_paces (h : g.step a = some g') (hr : a.restarts = false) : Paces g a g' := by
  cases a with
  | start | crash => cases hr
  | intake action =>
    obtain ⟨config, hconfig, hstep⟩ := Option.bind_eq_some_iff.mp h
    have hd := intake_dispatcher hstep
    rcases intake_store hconfig hstep with hs | ⟨healthy, free, now, batch, hs⟩
    · refine .kept ?_ (by rw [hd])
      rw [committed, committed, admitted, admitted, hs, hd]
    · exact .of_job hs rfl (by rw [hd]) (by rw [hd])
  | delivery action =>
    obtain ⟨config, -, hstep⟩ := Option.bind_eq_some_iff.mp h
    exact delivery_paces hstep

/-- The rate in force, and every rate that can come into force without a restart,
is positive. -/
structure Rated (g : Gateway) : Prop where
  stored : ∀ q ∈ g.store.db.settings.rate, 0 < q
  read : ∀ settings, g.dispatcher.boot = .read settings → ∀ q ∈ settings.rate, 0 < q
  resuming : ∀ q, .rate q ∈ g.dispatcher.resuming → 0 < q
  rate : g.store.running.isSome = true → 0 < g.dispatcher.rate

theorem set_of_job {setting : Setting} (h : job g a = some (.setSetting setting)) :
    a = .delivery (.set setting) ∨ setting = .paused true := by
  unfold job at h
  split at h
  case h_3 => split at h <;> cases h
  case h_5 =>
    split at h <;> cases h
    exact .inr rfl
  case h_8 =>
    cases h
    exact .inl rfl
  all_goals cases h

theorem allowed_of_set {setting : Setting} (h : g.step (.delivery (.set setting)) = some g') :
    Allowed setting := by
  obtain ⟨config, -, h⟩ := Option.bind_eq_some_iff.mp h
  simp only [deliveryStep] at h
  split_ifs at h with hallowed
  exact hallowed

theorem pos_of_allowed {q : ℚ} (h : Allowed (.rate q)) : 0 < q := by
  have hq := h.1
  linarith

/-- The rates that a step of the dispatcher leaves: the stored ones it has read, the
operator's, or those it had. -/
structure Rates (g : Gateway) (a : DeliveryAction) (g' : Gateway) : Prop where
  read : ∀ settings, g'.dispatcher.boot = .read settings →
    settings = g.store.db.settings ∨ g.dispatcher.boot = .read settings
  resuming : ∀ setting ∈ g'.dispatcher.resuming,
    setting ∈ g.dispatcher.resuming ∨ Allowed setting
  rate : g'.dispatcher.rate = g.dispatcher.rate ∨ .rate g'.dispatcher.rate ∈ g.dispatcher.resuming ∨
    ∃ settings, g.dispatcher.boot = .read settings ∧ g'.dispatcher.rate ∈ settings.rate
  stopping : g'.dispatcher.stopping = false → g.dispatcher.stopping = false
  boot : g.dispatcher.boot = .running → g'.dispatcher.boot = .running

theorem SamePace.rates {a : DeliveryAction} (h : SamePace g g') : Rates g a g' := by
  refine ⟨fun settings hs ↦ .inr ?_, fun setting hs ↦ .inl ?_, .inl h.rate,
    fun hs ↦ h.stopping.symm.trans hs, fun hb ↦ h.boot.trans hb⟩
  · rw [← h.boot, hs]
  · rw [← h.resuming]
    exact hs

theorem delivery_rates {a : DeliveryAction} (h : deliveryStep g config a = some g') :
    Rates g a g' := by
  cases a with
  | worker index action =>
    simp only [deliveryStep] at h
    split at h
    · cases h
    obtain ⟨⟨g₁, p'⟩, hstep, rfl⟩ := Option.map_eq_some_iff.mp h
    obtain ⟨hrate, hstopping, hboot, hresuming⟩ := worker_samePace hstep
    exact SamePace.rates ⟨hrate, hstopping, hboot, hresuming⟩
  | readSettings =>
    simp only [deliveryStep] at h
    split at h <;> cases h
    next hwaiting =>
      exact ⟨fun settings hs ↦ .inl (Boot.read.inj hs).symm, fun _ hs ↦ .inl hs, .inl rfl, id,
        fun hb ↦ by rw [hb] at hwaiting; cases hwaiting⟩
  | boot =>
    simp only [deliveryStep] at h
    split at h <;> cases h
    next settings hread =>
      refine ⟨fun _ hs ↦ (by cases hs), fun _ hs ↦ .inl hs, ?_, id, fun _ ↦ rfl⟩
      cases hrate : settings.rate with
      | none => exact .inl (by simp)
      | some q => exact .inr (.inr ⟨settings, hread, by simp [hrate]⟩)
  | set setting =>
    simp only [deliveryStep] at h
    split_ifs at h with hallowed
    obtain ⟨store, -, rfl⟩ := Option.map_eq_some_iff.mp h
    refine ⟨fun settings hs ↦ .inr hs, fun setting' hs ↦ ?_, .inl rfl, id, id⟩
    rcases List.mem_append.mp hs with hs | hs
    · exact .inl hs
    · rw [List.mem_singleton.mp hs]
      exact .inr hallowed
  | setResume setting =>
    simp only [deliveryStep] at h
    split_ifs at h with hmem
    cases h
    cases setting with
    | paused b =>
      exact ⟨fun settings hs ↦ .inr hs, fun _ hs ↦ .inl (List.mem_of_mem_erase hs), .inl rfl, id,
        id⟩
    | rate q =>
      exact ⟨fun settings hs ↦ .inr hs, fun _ hs ↦ .inl (List.mem_of_mem_erase hs),
        .inr (.inl hmem), id, id⟩
  | setDrop setting =>
    simp only [deliveryStep] at h
    split_ifs at h
    cases h
    exact ⟨fun settings hs ↦ .inr hs, fun _ hs ↦ .inl (List.mem_of_mem_erase hs), .inl rfl, id, id⟩
  | shieldedJob id now =>
    simp only [deliveryStep] at h
    split_ifs at h
    split at h <;> cases h <;> exact SamePace.rates ⟨rfl, rfl, rfl, rfl⟩
  | shieldedFault id =>
    simp only [deliveryStep] at h
    split_ifs at h
    cases h
    exact SamePace.rates ⟨rfl, rfl, rfl, rfl⟩
  | housekeeping now scan =>
    simp only [deliveryStep] at h
    split at h
    · obtain ⟨store, -, rfl⟩ := Option.map_eq_some_iff.mp h
      exact SamePace.rates ⟨rfl, rfl, rfl, rfl⟩
    · cases h
  | action id verb acknowledgeDuplicate clock =>
    obtain ⟨store, -, rfl⟩ := Option.map_eq_some_iff.mp h
    exact SamePace.rates ⟨rfl, rfl, rfl, rfl⟩
  | housekeepingCancel =>
    cases h
    exact SamePace.rates ⟨rfl, rfl, rfl, rfl⟩
  | stop =>
    cases h
    exact ⟨fun settings hs ↦ .inr hs, fun _ hs ↦ .inl hs, .inl rfl, fun hs ↦ (by cases hs), id⟩
  | tick | housekeepingFault | housekeepingRecover =>
    simp only [deliveryStep] at h
    split at h <;> cases h
    exact SamePace.rates ⟨rfl, rfl, rfl, rfl⟩

/-- A configuration that starts the process has a positive rate. -/
def Positive (a : Action) : Prop :=
  ∀ config now, a = .start config now → 0 < config.delivery.messagesPerSecond

theorem Rated.step (hg : Rated g) (hp : Positive a) (h : g.step a = some g') : Rated g' := by
  have hstored : ∀ q ∈ g'.store.db.settings.rate, 0 < q := by
    intro q hq
    rcases step_job h with hs | ⟨op, hjob, hs⟩
    · rw [hs] at hq
      exact hg.stored q hq
    · rcases rate_of_step hs with hr | ⟨q', rfl, hr⟩
      · rw [hr] at hq
        exact hg.stored q hq
      · obtain rfl : q' = q := Option.some.inj (hr.symm.trans hq)
        rcases set_of_job hjob with rfl | he
        · exact pos_of_allowed (allowed_of_set h)
        · cases he
  cases a with
  | start config now =>
    obtain ⟨store, -, rfl⟩ := Option.map_eq_some_iff.mp h
    refine ⟨hstored, fun _ hs ↦ (by cases hs), fun q hq ↦ absurd hq List.not_mem_nil, fun _ ↦ ?_⟩
    exact hp config now rfl
  | crash =>
    obtain ⟨store, hcrash, rfl⟩ := Option.map_eq_some_iff.mp h
    obtain ⟨_, -, rfl⟩ := Option.map_eq_some_iff.mp hcrash
    exact ⟨hstored, fun _ hs ↦ (by cases hs), fun q hq ↦ absurd hq List.not_mem_nil,
      fun hr ↦ by cases hr⟩
  | intake action =>
    obtain ⟨config, hr, hstep⟩ := Option.bind_eq_some_iff.mp h
    have hd := intake_dispatcher hstep
    refine ⟨hstored, ?_, ?_, fun _ ↦ ?_⟩
    · rw [hd]
      exact hg.read
    · rw [hd]
      exact hg.resuming
    · rw [hd]
      exact hg.rate (by simp [hr])
  | delivery action =>
    obtain ⟨config, hr, hstep⟩ := Option.bind_eq_some_iff.mp h
    obtain ⟨hread, hresuming, hrate, -, -⟩ := delivery_rates hstep
    refine ⟨hstored, fun settings hs ↦ ?_, fun q hq ↦ ?_, fun _ ↦ ?_⟩
    · rcases hread settings hs with rfl | hs
      · exact hg.stored
      · exact hg.read settings hs
    · rcases hresuming _ hq with hq | hq
      · exact hg.resuming q hq
      · exact pos_of_allowed hq
    · rcases hrate with he | hq | ⟨settings, hs, hq⟩
      · rw [he]
        exact hg.rate (by simp [hr])
      · exact hg.resuming _ hq
      · exact hg.read settings hs _ hq

theorem rated_of_runs {ops : List Action} (h : Runs Gateway.step {} ops g)
    (hp : ∀ b ∈ ops, Positive b) : Rated g := by
  refine h.trace_invariant (P := fun k u ↦ (∀ b ∈ k, Positive b) → Rated u) ?_ ?_ hp
  · intro _
    exact ⟨fun q hq ↦ (by cases hq), fun _ hs ↦ (by cases hs),
      fun q hq ↦ absurd hq List.not_mem_nil, fun hr ↦ by cases hr⟩
  · intro k u b v hu ih hstep hk
    exact (ih fun c hc ↦ hk c (List.mem_append_left _ hc)).step (hk b (by simp)) hstep

/-- The instants of the permits. -/
def Action.permits : Action → List ℚ
  | .delivery (.worker _ (.permit _ instant)) => [instant]
  | _ => []

/-- The rate in force is at most this one, and a permit is granted when it is
due, or too early by what the timer allows. -/
def Punctual (rate early : ℚ) (g : Gateway) (a : Action) : Prop :=
  g.dispatcher.rate ≤ rate ∧
    (g.dispatcher.stopping = false → ∀ t ∈ a.permits, g.dispatcher.nextPermit - early ≤ t)

instance (rate early : ℚ) (g : Gateway) (a : Action) : Decidable (Punctual rate early g a) := by
  unfold Punctual
  infer_instance

theorem stopping_step (h : g.step a = some g') (hr : a.restarts = false)
    (hs : g'.dispatcher.stopping = false) : g.dispatcher.stopping = false := by
  cases a with
  | start | crash => cases hr
  | intake action =>
    obtain ⟨config, -, hstep⟩ := Option.bind_eq_some_iff.mp h
    rw [← intake_dispatcher hstep]
    exact hs
  | delivery action =>
    obtain ⟨config, -, hstep⟩ := Option.bind_eq_some_iff.mp h
    exact (delivery_rates hstep).stopping hs

theorem running_of_permit {index : ℕ} {now instant : Time}
    (h : g.step (.delivery (.worker index (.permit now instant))) = some g') :
    g.store.running.isSome = true := by
  obtain ⟨config, hr, -⟩ := Option.bind_eq_some_iff.mp h
  simp [hr]

/-- The permits granted since the gateway was in the first state, the newest one
first: they are apart, and every attempt begun since needs one of them, or a
worker that had its permit already. -/
structure Granted (u : Gateway) (rate early : ℚ) (instants l : List ℚ) (v : Gateway) : Prop where
  apart : Apart (1 / rate - early) l
  subset : ∀ t ∈ l, t ∈ instants
  committed : committed v ≤ Gateway.committed u + l.length
  due : v.dispatcher.stopping = false → ∀ t ∈ l.head?, t + 1 / rate ≤ v.dispatcher.nextPermit

variable {u v w : Gateway} {rate early : ℚ} {instants l : List ℚ}

theorem Granted.step (hl : Granted u rate early instants l v) (hrated : Rated v)
    (hp : Punctual rate early v a) (h : v.step a = some w) (hr : a.restarts = false) :
    ∃ l', Granted u rate early (instants ++ a.permits) l' w := by
  have hsubset : ∀ t ∈ l, t ∈ instants ++ a.permits :=
    fun t ht ↦ List.mem_append_left _ (hl.subset t ht)
  cases step_paces h hr with
  | kept hc hn =>
    refine ⟨l, hl.apart, hsubset, hc.trans hl.committed, fun hs ↦ ?_⟩
    rw [hn]
    exact hl.due (stopping_step h hr hs)
  | @permit index now instant he hc hn =>
    cases hs : v.dispatcher.stopping with
    | true =>
      rw [hs] at hc
      refine ⟨l, hl.apart, hsubset, hc.trans hl.committed, fun hs' ↦ ?_⟩
      rw [stopping_step h hr hs'] at hs
      cases hs
    | false =>
      subst he
      have hdue := hp.2 hs instant (List.mem_singleton_self _)
      refine ⟨instant :: l, ?_, ?_, ?_, fun _ t ht ↦ ?_⟩
      · refine List.isChain_cons.mpr ⟨fun t ht ↦ ?_, hl.apart⟩
        have hlast := hl.due hs t ht
        linarith
      · intro t ht
        rcases List.mem_cons.mp ht with rfl | ht
        · exact List.mem_append_right _ (List.mem_singleton_self _)
        · exact hsubset t ht
      · rw [hs] at hc
        have hold := hl.committed
        simp only [List.length_cons, Bool.not_false, Bool.toNat_true] at hc ⊢
        omega
      · obtain rfl := Option.some.inj ht
        rw [hn]
        have hpos := hrated.rate (running_of_permit h)
        gcongr
        exact hp.1

/-- Whatever is interleaved, the attempts that begin before the next restart are
spaced by the rate: but for one, and for those of the workers that had their
permit, each of them takes its interval out of the time between the permits. -/
theorem attempts_paced {before after : List Action} {x span : ℚ}
    (hu : Runs Gateway.step {} before u) (hw : Runs Gateway.step u after w)
    (hpos : ∀ b ∈ before, Positive b) (hr : ∀ b ∈ after, b.restarts = false)
    (hp : Throughout Gateway.step (Punctual rate early) u after)
    (hearly : early ≤ 1 / rate) (hspan : 0 ≤ span)
    (hclock : ∀ t ∈ after.flatMap Action.permits, x ≤ t ∧ t ≤ x + span) :
    ((w.store.attempts.length : ℚ) - u.store.attempts.length - admitted u - 1) *
      (1 / rate - early) ≤ span := by
  have hgranted : ∃ l, Granted u rate early (after.flatMap Action.permits) l w := by
    refine hw.trace_invariant (P := fun k v ↦ (∀ b ∈ k, b.restarts = false) →
      Throughout Gateway.step (Punctual rate early) u k →
      ∃ l, Granted u rate early (k.flatMap Action.permits) l v) ?_ ?_ hr hp
    · intro _ _
      exact ⟨[], List.isChain_nil, by simp, by simp, by simp⟩
    · intro k v b v' hv ih hstep hk hpk
      obtain ⟨l, hl⟩ := ih (fun c hc ↦ hk c (List.mem_append_left _ hc)) hpk.init
      rw [List.flatMap_append, List.flatMap_singleton]
      have hrestarts : ∀ c ∈ k, Positive c := by
        intro c hc config now he
        have hno := hk c (List.mem_append_left _ hc)
        rw [he] at hno
        cases hno
      have hrated : Rated v := rated_of_runs (runs_append.mpr ⟨u, hu, hv⟩) fun c hc ↦
        (List.mem_append.mp hc).elim (hpos c) (hrestarts c)
      exact hl.step hrated (hpk.last hv) hstep (hk b (by simp))
  obtain ⟨l, hl⟩ := hgranted
  have hcount : (w.store.attempts.length : ℚ) ≤
      u.store.attempts.length + admitted u + l.length := by
    have hle := hl.committed
    simp only [committed] at hle
    exact_mod_cast (Nat.le_add_right _ _).trans hle
  have hinterval : 0 ≤ 1 / rate - early := sub_nonneg.mpr hearly
  have htime : ((l.length : ℚ) - 1) * (1 / rate - early) ≤ span := by
    cases l with
    | nil =>
      simp only [List.length_nil, Nat.cast_zero]
      linarith
    | cons t l =>
      have hwhole := hl.apart.length_nsmul_le fun y hy ↦ (hclock y (hl.subset y hy)).1
      have hlast := (hclock t (hl.subset t List.mem_cons_self)).2
      rw [nsmul_eq_mul] at hwhole
      simp only [List.length_cons, Nat.cast_add, Nat.cast_one, add_sub_cancel_right]
      linarith
  refine le_trans (mul_le_mul_of_nonneg_right ?_ hinterval) htime
  linarith

/-- Two messages wait for the workers. -/
def readyRun : List Action :=
  [.start sampleConfig 0, .intake (.data (sampleMessage "m1" "a@example.com")),
    .intake (.data (sampleMessage "m2" "b@example.com")), .intake .take, .intake .batch,
    .intake (.commit 1000000000 1), .intake .resolve, .delivery .readSettings, .delivery .boot]

/-- Two workers claim them, one every two seconds. -/
def pacedRun : List Action :=
  [.delivery (.worker 0 (.loop 2)), .delivery (.worker 0 (.permit 2 5)),
    .delivery (.worker 1 (.loop 2)), .delivery (.worker 0 (.claimJob 2)),
    .delivery (.worker 1 (.permit 4 7)), .delivery (.worker 1 (.claimJob 4))]

theorem attempts_paced_sample : ∃ u w, Runs Gateway.step {} readyRun u ∧
    Runs Gateway.step u pacedRun w ∧ u.store.attempts.length = 0 ∧ w.store.attempts.length = 2 ∧
    ((w.store.attempts.length : ℚ) - u.store.attempts.length - admitted u - 1) *
      (1 / (1 / 2) - 0) ≤ 2 := by
  have hu : (run Gateway.step readyRun {}).any (fun u ↦ u.store.attempts.length = 0 ∧
      Throughout Gateway.step (Punctual (1 / 2) 0) u pacedRun ∧
      (run Gateway.step pacedRun u).any (·.store.attempts.length = 2)) := by decide +kernel
  obtain ⟨u, hu, h⟩ := (Option.any_eq_true ..).mp hu
  obtain ⟨hnone, hp, hw⟩ := of_decide_eq_true h
  obtain ⟨w, hw, htwo⟩ := (Option.any_eq_true ..).mp hw
  have hpos : ∀ b ∈ readyRun, Positive b := by
    intro b hb config now he
    simp only [readyRun, List.mem_cons, List.not_mem_nil, or_false] at hb
    rcases hb with rfl | rfl | rfl | rfl | rfl | rfl | rfl | rfl | rfl <;> cases he
    decide +kernel
  refine ⟨u, w, hu, hw, hnone, of_decide_eq_true htwo, attempts_paced hu hw hpos (by decide) hp
    (by norm_num) (by norm_num) (x := 5) (by decide +kernel)⟩

end Gateway

end NoreplyGateway
