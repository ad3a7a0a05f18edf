import NoreplyGateway.Gateway.Health
import NoreplyGateway.Gateway.Jobs

namespace NoreplyGateway

open Machine Store Upstream

/-- The limit is not exceeded, and a message that waits for a claim has an
attempt left. -/
structure Store.Fits (limit : ℕ) (r : Row) : Prop where
  bounded : r.attempts ≤ limit
  waiting : r.status = .queued ∨ r.status = .retry → r.attempts < limit

instance (limit : ℕ) (r : Row) : Decidable (Fits limit r) :=
  decidable_of_iff (r.attempts ≤ limit ∧
    (r.status = .queued ∨ r.status = .retry → r.attempts < limit))
    ⟨fun h ↦ ⟨h.1, h.2⟩, fun h ↦ ⟨h.1, h.2⟩⟩

def Upstream.DeliveryError.authentication : DeliveryError → Bool
  | .authenticationRequired _ | .additionalAuthenticationRequired _ => true
  | _ => false

def Upstream.DeliveryError.transient (e : DeliveryError) : Bool :=
  e.authentication || (e matches .retryable ..)

namespace Gateway

/-- A worker that is sending its message has an attempt left for it. -/
def Worker.spare (limit : ℕ) : Worker → Bool
  | .sending message => message.attempts < limit
  | _ => true

/-- An authentication failure comes before the last attempt, and a process
starts under a limit that its queue does not exceed. -/
def Limited (g : Gateway) : Action → Prop
  | .start config _ => 0 < config.delivery.maxAttempts ∧
    ∀ r ∈ g.store.db.messages.rows, Fits config.delivery.maxAttempts r
  | .delivery (.worker index (.outcome (.error e) _ _)) => e.authentication = true →
    ∀ config ∈ g.store.running, ∀ p ∈ g.dispatcher.workers[index]?,
      p.spare config.delivery.maxAttempts = true
  | _ => True

instance (g : Gateway) (a : Action) : Decidable (Limited g a) := by
  unfold Limited
  split <;> infer_instance

/-- The row of a held message has the attempts that the worker knows of, and
one is left if the message is to be tried again. -/
def Worker.WithinLimit (limit : ℕ) (db : Database) : Worker → Prop
  | .claimed (some message) | .sending message =>
    ∃ r, db.messages.find? message.id = some r ∧ r.attempts = message.attempts
  | .pausing message _ | .paused message _ =>
    ∃ r, db.messages.find? message.id = some r ∧ r.attempts < limit
  | .finishing id verdict =>
    verdict.status = .retry → ∃ r, db.messages.find? id = some r ∧ r.attempts < limit
  | _ => True

structure WithinLimit (limit : ℕ) (g : Gateway) : Prop where
  positive : 0 < limit
  rows : ∀ r ∈ g.store.db.messages.rows, Fits limit r
  workers : ∀ p ∈ g.dispatcher.workers, p.WithinLimit limit g.store.db

variable {g g' : Gateway} {config : Config} {p p' : Worker} {a : Action} {limit : ℕ}

section Rows

variable {op : Op} {x y : Option Row} {r r' : Row}

theorem fits_of_rowChange (h : RowChange op x y) (hl : 0 < limit) (hx : ∀ r ∈ x, Fits limit r)
    (hop : ∀ r error delay cooldown now, x = some r →
      op = .finish r.id .retry error delay cooldown now → r.attempts < limit) :
    ∀ r ∈ y, Fits limit r := by
  intro r hr
  cases h with
  | same => exact hx r hr
  | recovered hs | expired hs | cancelled hs =>
    obtain rfl := Option.some.inj hr
    have hfits := hx _ rfl
    exact ⟨hfits.bounded, fun hw ↦ by rcases hw with hw | hw <;> cases hw⟩
  | inserted hm =>
    obtain rfl := Option.some.inj hr
    exact ⟨hl.le, fun _ ↦ hl⟩
  | claimed hs =>
    obtain rfl := Option.some.inj hr
    have hspare := (hx _ rfl).waiting hs
    exact ⟨hspare, fun hw ↦ by rcases hw with hw | hw <;> cases hw⟩
  | @finished status error delay cooldown now r _ _ hs hc =>
    obtain rfl := Option.some.inj hr
    refine ⟨(hx _ rfl).bounded, fun hw ↦ ?_⟩
    rcases hw with hw | hw
    · obtain rfl : status = .queued := hw
      cases hc
    · obtain rfl : status = .retry := hw
      exact hop r error delay cooldown now rfl rfl
  | retried hs hu =>
    obtain rfl := Option.some.inj hr
    exact ⟨hl.le, fun _ ↦ hl⟩
  | deleted hs => cases hr

/-- A row in flight changes only by leaving this state. -/
theorem eq_of_sending (h : RowChange op (some r) (some r')) (hs : r.status = .sending)
    (hs' : r'.status = .sending) : r' = r := by
  cases h with
  | same => rfl
  | recovered => cases hs'
  | expired ht | claimed ht => simp [hs] at ht
  | @finished status _ _ _ _ _ _ _ ht hc =>
    obtain rfl : status = .sending := hs'
    cases hc
  | retried ht | cancelled ht => exact absurd hs ht.1

end Rows

theorem mem_held {id : String} {interrupted : Bool} (hp : p ∈ g.dispatcher.workers)
    (hh : p.holds = some (id, interrupted)) : id ∈ (held g).map (·.1) :=
  List.mem_map.mpr ⟨(id, interrupted),
    List.mem_append_left _ (List.mem_filterMap.mpr ⟨p, hp, hh⟩), rfl⟩

/-- The row of a message that a worker keeps does not change. -/
theorem row_of_holds {id : String} {interrupted : Bool} (hg : Holding g) (hg' : Holding g')
    (h : g.step a = some g') (hp : p ∈ g.dispatcher.workers) (hp' : p' ∈ g'.dispatcher.workers)
    (hh : p.holds = some (id, interrupted)) {interrupted' : Bool}
    (hh' : p'.holds = some (id, interrupted')) :
    g'.store.db.messages.find? id = g.store.db.messages.find? id := by
  obtain ⟨r, hr, hs⟩ := hg.sending id (mem_held hp hh)
  obtain ⟨r', hr', hs'⟩ := hg'.sending id (mem_held hp' hh')
  rcases step_job h with he | ⟨op, -, hop⟩
  · rw [he]
  · have hchange := step_row hop id
    rw [hr, hr'] at hchange
    rw [hr, hr', eq_of_sending hchange hs hs']

theorem Worker.WithinLimit.of_row {db db' : Database} (h : p.WithinLimit limit db)
    (hrow : ∀ id interrupted, p.holds = some (id, interrupted) →
      db'.messages.find? id = db.messages.find? id) : p.WithinLimit limit db' := by
  cases p with
  | claimed message =>
    cases message with
    | none => trivial
    | some message =>
      obtain ⟨r, hr, ha⟩ := h
      exact ⟨r, (hrow _ _ rfl).trans hr, ha⟩
  | sending message | pausing message | paused message =>
    obtain ⟨r, hr, ha⟩ := h
    exact ⟨r, (hrow _ _ rfl).trans hr, ha⟩
  | finishing id verdict =>
    intro hv
    obtain ⟨r, hr, ha⟩ := h hv
    exact ⟨r, (hrow _ _ rfl).trans hr, ha⟩
  | _ => trivial

/-- An attempt that ends before the last one, or without an authentication
failure, is tried again only if an attempt is left. -/
theorem attempts_lt_of_judge {attempts : ℕ} {jitter : ℚ} {result : Except DeliveryError Unit}
    (hc : ∀ e, result = .error e → e.authentication = true →
      attempts < config.delivery.maxAttempts)
    (h : (judge config.delivery attempts jitter result).status = .retry) :
    attempts < config.delivery.maxAttempts := by
  cases result with
  | ok => cases h
  | error e =>
    cases e with
    | retryable message delay cooldown =>
      simp only [judge] at h
      split_ifs at h with ha
      exact not_le.mp ha
    | authenticationRequired | additionalAuthenticationRequired => exact hc _ rfl rfl
    | permanent | uncertain | unexpected => cases h

theorem outcome_withinLimit {message : Row} {jitter : ℚ} {now : Time}
    {result : Except DeliveryError Unit}
    (hp : (Worker.sending message).WithinLimit config.delivery.maxAttempts g.store.db)
    (hc : ∀ e, result = .error e → e.authentication = true →
      message.attempts < config.delivery.maxAttempts) :
    (attempt g config message jitter now result).2.WithinLimit config.delivery.maxAttempts
      g.store.db := by
  obtain ⟨r, hr, ha⟩ := hp
  cases result with
  | ok => exact fun hv ↦ ⟨r, hr, ha ▸ attempts_lt_of_judge hc hv⟩
  | error e =>
    cases e with
    | authenticationRequired => exact ⟨r, hr, ha ▸ hc _ rfl rfl⟩
    | _ => exact fun hv ↦ ⟨r, hr, ha ▸ attempts_lt_of_judge hc hv⟩

/-- What a step makes of the worker that takes it. -/
theorem worker_withinLimit {index : ℕ} {action : WorkerAction}
    (hr : g.store.running = some config)
    (hw : g.dispatcher.workers[index]? = some p)
    (hp : p.WithinLimit config.delivery.maxAttempts g.store.db)
    (hc : Limited g (.delivery (.worker index action)))
    (h : workerStep g config p action = some (g', p')) :
    p'.WithinLimit config.delivery.maxAttempts g'.store.db := by
  unfold workerStep at h
  split at h
  case h_1 | h_2 => split_ifs at h <;> cases h <;> trivial
  case h_3 =>
    dsimp only at h
    split_ifs at h <;> cases h <;> trivial
  case h_4 now =>
    obtain ⟨store, hstore, he⟩ := Option.map_eq_some_iff.mp h
    obtain ⟨rfl, rfl⟩ := Prod.mk.inj he
    cases hclaimed : g.store.claimed now with
    | none => trivial
    | some row =>
      cases transition_of_step hstore with
      | idle hr hn | expired hr hn => simp [hn] at hclaimed
      | @claimed _ _ r hr hn hclaim =>
        obtain rfl := Option.some.inj (hn.symm.trans hclaimed)
        refine ⟨claimRow now r, ?_, rfl⟩
        rw [reserve_messages, Table.find?_updateAt, (candidate_ready hclaim.candidate).found]
        rfl
  case h_6 =>
    cases h
    exact hp
  case h_7 message result jitter now =>
    obtain ⟨rfl, rfl⟩ := Prod.mk.inj (Option.some.inj h)
    have hspare : ∀ e, result = .error e → e.authentication = true →
        message.attempts < config.delivery.maxAttempts := by
      rintro e rfl hauth
      exact of_decide_eq_true (hc hauth config hr _ hw)
    have hnext : (attempt g config message jitter now result).2.WithinLimit
        config.delivery.maxAttempts g.store.db := outcome_withinLimit hp hspare
    exact hnext
  case h_8 =>
    obtain ⟨store, hstore, he⟩ := Option.map_eq_some_iff.mp h
    obtain ⟨rfl, rfl⟩ := Prod.mk.inj he
    cases transition_of_step hstore
    exact hp
  case h_9 =>
    cases h
    exact fun _ ↦ hp
  case h_10 | h_12 => split at h <;> cases h <;> trivial
  case h_19 =>
    obtain ⟨rfl, rfl⟩ := Prod.mk.inj (Option.some.inj h)
    cases p <;> trivial
  case h_18 | h_20 => cases h
  all_goals
    cases h
    trivial

theorem WithinLimit.rows_step (hg : WithinLimit limit g) (h : g.step a = some g') :
    ∀ r ∈ g'.store.db.messages.rows, Fits limit r := by
  intro r hr
  rcases step_job h with he | ⟨op, hjob, hop⟩
  · exact hg.rows r (he ▸ hr)
  · refine fits_of_rowChange (step_row hop r.id) hg.positive
      (fun r' hr' ↦ hg.rows r' (Table.mem_of_find? hr')) ?_ r (Table.find?_of_mem hr)
    rintro r' error delay cooldown now hr' rfl
    rcases finish_of_job hjob with ⟨index, rfl, hw⟩ | ⟨hu, -⟩
    · obtain ⟨r'', hr'', ha⟩ := hg.workers _ (List.mem_of_getElem? hw) rfl
      rw [Table.key_of_find? hr', hr'] at hr''
      exact Option.some.inj hr'' ▸ ha
    · cases hu

theorem WithinLimit.workers_step (hr : g.store.running = some config)
    (hg : WithinLimit config.delivery.maxAttempts g) (hold : Holding g) (hc : Limited g a)
    (h : g.step a = some g') (ha : a.restarts = false) :
    ∀ p ∈ g'.dispatcher.workers, p.WithinLimit config.delivery.maxAttempts g'.store.db := by
  intro q hq
  have hold' := hold.step h
  have hkept : q ∈ g.dispatcher.workers →
      q.WithinLimit config.delivery.maxAttempts g'.store.db := fun hq' ↦
    (hg.workers q hq').of_row (fun _ _ hh ↦ row_of_holds hold hold' h hq' hq hh hh)
  cases a with
  | start | crash => cases ha
  | intake action =>
    obtain ⟨_, -, hstep⟩ := Option.bind_eq_some_iff.mp h
    exact hkept (intake_dispatcher hstep ▸ hq)
  | delivery action =>
    obtain ⟨config', hr', hstep⟩ := Option.bind_eq_some_iff.mp h
    obtain rfl := Option.some.inj (hr.symm.trans hr')
    rcases delivery_workers hstep with hw | ⟨index, worker, p, p', g₁, rfl, hp, hworker, hw⟩ | hready
    · exact hkept (hw ▸ hq)
    · rw [hw] at hq
      rcases List.mem_or_eq_of_mem_set hq with hq' | rfl
      · exact hkept hq'
      · have hstore : g'.store = g₁.store := by
          simp only [deliveryStep, hp, hworker, Option.map_some, Option.some.injEq] at hstep
          rw [← hstep]
        rw [hstore]
        exact worker_withinLimit hr hp (hg.workers _ (List.mem_of_getElem? hp)) hc hworker
    · rw [hready q hq]
      trivial

theorem withinLimit_step (hold : Holding g)
    (hg : ∀ config, g.store.running = some config → WithinLimit config.delivery.maxAttempts g)
    (hc : Limited g a) (h : g.step a = some g') (hr : g'.store.running = some config) :
    WithinLimit config.delivery.maxAttempts g' := by
  cases ha : a.restarts with
  | true =>
    cases a with
    | start config' now =>
      obtain ⟨store, hstore, rfl⟩ := Option.map_eq_some_iff.mp h
      obtain ⟨hpositive, hfits⟩ := hc
      cases transition_of_step hstore with
      | start hnone hs =>
        obtain rfl := Option.some.inj hr
        refine ⟨hpositive, fun r hr ↦ ?_, fun p hp ↦ absurd hp List.not_mem_nil⟩
        exact fits_of_rowChange (step_row hstore r.id) hpositive
          (fun r' hr' ↦ hfits r' (Table.mem_of_find? hr')) (fun _ _ _ _ _ _ he ↦ by cases he) r
          (Table.find?_of_mem hr)
    | crash =>
      obtain ⟨store, hstore, rfl⟩ := Option.map_eq_some_iff.mp h
      cases transition_of_step hstore
      cases hr
    | intake | delivery => cases ha
  | false =>
    have hrunning : g.store.running = some config := by
      rcases running_of_step h hr with hr | ⟨now, rfl⟩
      · exact hr
      · cases ha
    have hlimit := hg config hrunning
    exact ⟨hlimit.positive, hlimit.rows_step h, hlimit.workers_step hrunning hold hc h ha⟩

theorem withinLimit_of_runs {ops : List Action} (h : Runs Gateway.step {} ops g)
    (hc : Throughout Gateway.step Limited {} ops) (hr : g.store.running = some config) :
    WithinLimit config.delivery.maxAttempts g := by
  have hinv := h.invariant_of_throughout
    (P := fun g ↦ Holding g ∧
      ∀ config, g.store.running = some config → WithinLimit config.delivery.maxAttempts g)
    (fun _ _ _ hu hc ha ↦ ⟨hu.1.step ha, fun _ hr ↦ withinLimit_step hu.1 hu.2 hc ha hr⟩) hc
    ⟨.empty rfl, fun _ hr ↦ by cases hr⟩
  exact hinv.2 config hr

/-- The last attempt that the limit allows fails for good, whatever the passing
reason. -/
theorem failed_of_last_attempt {message : Row} {index : ℕ} {e : DeliveryError} (jitter : ℚ)
    {now : Time} (hr : g.store.running = some config)
    (hc : Limited g (.delivery (.worker index (.outcome (.error e) jitter now))))
    (hp : g.dispatcher.workers[index]? = some (.sending message))
    (hlast : config.delivery.maxAttempts ≤ message.attempts) (he : e.transient = true) :
    (judge config.delivery message.attempts jitter (.error e)).status = .failed := by
  have hspare : e.authentication = true → message.attempts < config.delivery.maxAttempts :=
    fun hauth ↦ of_decide_eq_true (hc hauth config hr _ hp)
  cases e with
  | retryable => simp only [judge, if_pos hlast]
  | authenticationRequired | additionalAuthenticationRequired =>
    exact absurd (hspare rfl) hlast.not_gt
  | permanent | uncertain | unexpected => cases he

theorem status_of_finishJob {index : ℕ} {id : String} {verdict : Verdict} {now : Time}
    (hp : g.dispatcher.workers[index]? = some (.finishing id verdict))
    (h : g.step (.delivery (.worker index (.finishJob now))) = some g')
    (hp' : g'.dispatcher.workers[index]? = some .finished) :
    ∃ row, g'.store.db.messages.find? id = some row ∧ row.status = verdict.status := by
  obtain ⟨-, hstep⟩ := finishes_of_finishJob hp h hp'
  generalize g'.store = store at hstep ⊢
  cases transition_of_step hstep with
  | @finished _ _ _ _ _ _ row next _ _ hrow _ _ _ =>
    refine ⟨finishRow verdict.status verdict.error now next row, ?_, rfl⟩
    rw [settle_messages, Table.find?_updateAt, hrow]
    rfl

/-- If authentication failures leave an attempt over, no message is claimed
more often than the limit allows, and one whose last attempt fails for a passing
reason is recorded as failed. -/
theorem bounded_attempts {ops : List Action} (h : Runs Gateway.step {} ops g)
    (hc : Throughout Gateway.step Limited {} ops) (hr : g.store.running = some config) :
    (∀ row ∈ g.store.db.messages.rows, row.attempts ≤ config.delivery.maxAttempts ∧
      (row.status = .retry → row.attempts < config.delivery.maxAttempts)) ∧
    (∀ index message e jitter now g',
      g.dispatcher.workers[index]? = some (.sending message) → e.transient = true →
      Limited g (.delivery (.worker index (.outcome (.error e) jitter now))) →
      g.step (.delivery (.worker index (.outcome (.error e) jitter now))) = some g' →
      (∃ row, g.store.db.messages.find? message.id = some row ∧
        row.attempts = message.attempts) ∧
      (message.attempts = config.delivery.maxAttempts → ∃ verdict, verdict.status = .failed ∧
        g'.dispatcher.workers[index]? = some (.finishing message.id verdict))) ∧
    ∀ index id verdict now g',
      g.dispatcher.workers[index]? = some (.finishing id verdict) →
      g.step (.delivery (.worker index (.finishJob now))) = some g' →
      g'.dispatcher.workers[index]? = some .finished →
      ∃ row, g'.store.db.messages.find? id = some row ∧ row.status = verdict.status := by
  have hg := withinLimit_of_runs h hc hr
  refine ⟨fun row hrow ↦ ?_, fun index message e jitter now g' hp he hlimited hstep ↦ ?_,
    fun index id verdict now g' ↦ status_of_finishJob⟩
  · have hfits := hg.rows row hrow
    exact ⟨hfits.bounded, fun hs ↦ hfits.waiting (.inr hs)⟩
  · refine ⟨hg.workers _ (List.mem_of_getElem? hp), fun hlast ↦ ?_⟩
    have hfailed := failed_of_last_attempt jitter hr hlimited hp hlast.ge he
    have hi : index < g.dispatcher.workers.length := (List.getElem?_eq_some_iff.mp hp).1
    simp only [Gateway.step, hr, Option.bind_some, deliveryStep, hp, workerStep, Option.map_some,
      Option.some.injEq] at hstep
    subst hstep
    cases e with
    | retryable => exact ⟨_, hfailed, List.getElem?_set_self hi⟩
    | authenticationRequired | additionalAuthenticationRequired => cases hfailed
    | permanent | uncertain | unexpected => cases he

def strictConfig : Config := { sampleConfig with delivery := { maxAttempts := 1 } }

/-- One message, and the outcome of its first attempt. -/
def firstAttempt (e : DeliveryError) : List Action :=
  [.start strictConfig 0,
    .intake (.data (sampleMessage "m1" "a@example.com")), .intake .take, .intake .batch,
    .intake (.commit 1000000000 1), .intake .resolve,
    .delivery .readSettings, .delivery .boot,
    .delivery (.worker 0 (.loop 2)), .delivery (.worker 0 (.permit 2 0)),
    .delivery (.worker 0 (.claimJob 2)), .delivery (.worker 0 .deliver),
    .delivery (.worker 0 (.outcome (.error e) 1 3)), .delivery (.worker 0 (.finishJob 3))]

theorem bounded_attempts_sample : ∃ g config,
    Runs Gateway.step {} (firstAttempt (.retryable "EWS ErrorServerBusy" (0 : ℚ) true)) g ∧
    g.store.running = some config ∧
    ∀ row ∈ g.store.db.messages.rows, row.attempts ≤ config.delivery.maxAttempts := by
  have hg : (run Gateway.step (firstAttempt (.retryable "EWS ErrorServerBusy" (0 : ℚ) true))
      {}).any (·.store.running.isSome) := by decide +kernel
  have hc : Throughout Gateway.step Limited {}
      (firstAttempt (.retryable "EWS ErrorServerBusy" (0 : ℚ) true)) := by decide +kernel
  obtain ⟨g, hg, hr⟩ := (Option.any_eq_true ..).mp hg
  obtain ⟨config, hr⟩ := Option.isSome_iff_exists.mp hr
  exact ⟨g, config, hg, hr, fun row hrow ↦ ((bounded_attempts hg hc hr).1 row hrow).1⟩

/-- The last attempt meets an authentication failure of the additional account,
and the message is claimed once more. -/
def excessRun : List Action :=
  firstAttempt (.additionalAuthenticationRequired "Additional Microsoft account is not connected") ++
    [.delivery (.worker 0 .conclude), .delivery (.worker 0 (.loop 303)),
      .delivery (.worker 0 (.permit 303 0)), .delivery (.worker 0 (.claimJob 303))]

theorem attempts_exceed_limit : ∃ g config row, Runs Gateway.step {} excessRun g ∧
    g.store.running = some config ∧ row ∈ g.store.db.messages.rows ∧
    config.delivery.maxAttempts < row.attempts := by
  have hg : (run Gateway.step excessRun {}).any (fun g ↦ g.store.running.any (fun config ↦
      g.store.db.messages.rows.any (config.delivery.maxAttempts < ·.attempts))) := by
    decide +kernel
  obtain ⟨g, hg, hr⟩ := (Option.any_eq_true ..).mp hg
  obtain ⟨config, hr, hrows⟩ := (Option.any_eq_true ..).mp hr
  obtain ⟨row, hrow, hlt⟩ := List.any_eq_true.mp hrows
  exact ⟨g, config, row, hg, hr, hrow, of_decide_eq_true hlt⟩

end Gateway

end NoreplyGateway
