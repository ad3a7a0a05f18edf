import NoreplyGateway.Gateway.Ambiguity
import NoreplyGateway.Gateway.AttemptLimit
import NoreplyGateway.Upstream.Delays

namespace NoreplyGateway

open Machine Store Upstream

namespace Store

/-- The stored cooldown is a number, and reaches at least this far. -/
def CoolsUntil (x : Extended) (s : Session) : Prop :=
  ∃ c, s.db.settings.cooldownUntil.getD (0 : ℚ) = .num c ∧ x ≤ c

variable {s t : Session} {op : Op} {x : Extended}

/-- No transaction shortens the cooldown, in whatever order they commit. -/
theorem CoolsUntil.step (hs : CoolsUntil x s) (h : s.step op = some t) : CoolsUntil x t := by
  obtain ⟨c, hc, hx⟩ := hs
  cases transition_of_step h with
  | inserted hr hi => exact ⟨c, by rw [hi.settings]; exact hc, hx⟩
  | @finished _ status _ delay cooldown now _ next _ _ _ _ _ hn =>
    have hnext := PyFloat.toReal_eq_some.mp hn
    cases cooldown with
    | false => exact ⟨c, hc, hx⟩
    | true =>
      refine ⟨next ⊔ c, ?_, le_sup_of_le_right hx⟩
      simp only [settle, if_true, Option.getD_some, hnext, hc, PyFloat.max_num]
  | @setSetting _ setting _ => cases setting <;> exact ⟨c, hc, hx⟩
  | _ => exact ⟨c, hc, hx⟩

theorem coolsUntil_of_finish {id error : String} {status : Status} {delay : PyFloat} {now : Time}
    (hs : CoolsUntil ⊥ s) (h : s.step (.finish id status error delay true now) = some t) :
    ∃ next, PyFloat.add now delay = .num next ∧ CoolsUntil next t := by
  obtain ⟨c, hc, -⟩ := hs
  cases transition_of_step h with
  | @finished _ _ _ _ _ _ _ next _ _ _ _ _ hn =>
    have hnext := PyFloat.toReal_eq_some.mp hn
    refine ⟨next, hnext, next ⊔ c, ?_, le_sup_left⟩
    simp only [settle, if_true, Option.getD_some, hnext, hc, PyFloat.max_num]

theorem CoolsUntil.le_of_claimed {now : Time} {row : Row} (hs : CoolsUntil x s)
    (h : s.claimed now = some row) : x ≤ ((now : WithTop ℚ) : Extended) := by
  obtain ⟨config, r, -, hclaim, -⟩ := claimed_eq_some h
  obtain ⟨c, hc, hx⟩ := hs
  have hcooled := hclaim.cooled
  rw [hc] at hcooled
  refine hx.trans (not_lt.mp (fun hlt ↦ ?_))
  rw [PyFloat.lt_num.mpr hlt] at hcooled
  cases hcooled

theorem due_of_finish {id error : String} {status : Status} {delay : PyFloat} {cooldown : Bool}
    {now : Time} (h : s.step (.finish id status error delay cooldown now) = some t) :
    ∃ row next, s.db.messages.find? id = some row ∧ PyFloat.add now delay = .num next ∧
      ∀ row', t.db.messages.find? id = some row' → row'.nextAttempt = next := by
  cases transition_of_step h with
  | @finished _ _ _ _ _ _ row next _ _ hrow _ _ hn =>
    refine ⟨row, next, hrow, PyFloat.toReal_eq_some.mp hn, fun row' hrow' ↦ ?_⟩
    rw [settle_messages, Table.find?_updateAt, hrow] at hrow'
    obtain rfl := Option.some.inj hrow'
    rfl

end Store

namespace Gateway

def Retried (m : String) (a : Action) : Prop :=
  ∃ acknowledgeDuplicate clock, a = .delivery (.action m "retry" acknowledgeDuplicate clock)

/-- The message is not due before this time. -/
structure Waits (m : String) (x : Extended) (g : Gateway) : Prop extends Handled g m where
  due : ∀ row, g.store.db.messages.find? m = some row →
    row.status = .queued ∨ row.status = .retry → row.nextAttempt = x

variable {g g' : Gateway} {config : Config} {p p' : Worker} {a : Action} {m : String}
  {x : Extended}

theorem coolsUntil_step (hs : CoolsUntil x g.store) (h : g.step a = some g') :
    CoolsUntil x g'.store := by
  rcases step_job h with he | ⟨op, -, hop⟩
  · exact he ▸ hs
  · exact hs.step hop

theorem coolsUntil_of_runs {ops : List Action} (h : Runs Gateway.step {} ops g) :
    CoolsUntil ⊥ g.store :=
  h.invariant (P := fun u ↦ CoolsUntil ⊥ u.store) (fun _ _ _ hu ha ↦ coolsUntil_step hu ha)
    ⟨_, rfl, bot_le⟩

/-- A claim waits for the end of every cooldown that was committed before. -/
theorem cooldown_of_claims {before after : List Action} {u v : Gateway} {id : String}
    {verdict : Verdict} {f t : Time} {index : ℕ} {row : Row}
    (hu : Runs Gateway.step {} before u) (hf : Finishes u a v id verdict f)
    (hcool : verdict.cooldown = true) (hv : Runs Gateway.step v after g)
    (h : Claims g (.delivery (.worker index (.claimJob t))) row) :
    PyFloat.le (PyFloat.add f verdict.delay) t = true := by
  obtain ⟨_, hstep⟩ := hf
  rw [hcool] at hstep
  obtain ⟨next, hnext, hcools⟩ := coolsUntil_of_finish (coolsUntil_of_runs hu) hstep
  have hg : CoolsUntil next g.store := hv.invariant (P := fun u ↦ CoolsUntil next u.store) (fun _ _ _ hu ha ↦ coolsUntil_step hu ha) hcools
  obtain ⟨_, now, ha, -, hclaimed⟩ := h
  cases ha
  rw [hnext]
  exact PyFloat.le_num.mpr (hg.le_of_claimed hclaimed)

section Own

theorem Waits.step (hm : Waits m x g) (h : g.step a = some g') (hr : ¬ Retried m a)
    (hf : ¬ ∃ verdict now, Finishes g a g' m verdict now ∧ verdict.status = .retry) :
    Waits m x g' := by
  have hprogress := step_progress h
  refine ⟨hm.toHandled.step hprogress, fun row' hrow' hstatus ↦ ?_⟩
  cases hrow : g.store.db.messages.find? m with
  | none =>
    have habsent : Absent g m := ⟨hm.toHandled, hrow⟩
    rw [(habsent.step hprogress).unstored] at hrow'
    cases hrow'
  | some row =>
    rcases step_job h with he | ⟨op, hjob, hop⟩
    · exact hm.due row' (he ▸ hrow') hstatus
    have hchange := step_row hop m
    obtain rfl := Table.key_of_find? hrow
    rw [hrow, hrow'] at hchange
    cases hchange with
    | same => exact hm.due _ hrow hstatus
    | recovered | expired | claimed | cancelled => rcases hstatus with hs | hs <;> cases hs
    | @finished status error delay cooldown now _ next counter hs hc =>
      rcases hstatus with hstatus | hstatus
      · obtain rfl : status = .queued := hstatus
        cases hc
      · obtain rfl : status = .retry := hstatus
        exact absurd ⟨⟨.retry, error, delay, cooldown⟩, now, ⟨hjob, hop⟩, rfl⟩ hf
    | @retried acknowledgeDuplicate clock _ hs hu =>
      exact absurd ⟨acknowledgeDuplicate, clock, action_of_job hjob⟩ hr

/-- A message whose attempt has ended is not due before the delay is over. -/
theorem Finishes.waits {verdict : Verdict} {now : Time} (hg : InCustody g)
    (h : g.step a = some g') (hf : Finishes g a g' m verdict now) :
    ∃ next, PyFloat.add now verdict.delay = .num next ∧ Waits m next g' := by
  obtain ⟨-, hstep⟩ := hf
  obtain ⟨row, next, hrow, hnext, hdue⟩ := due_of_finish hstep
  have hhandled : Handled g m := by
    refine ⟨hg.rows _ row hrow, fun halive ↦ ?_⟩
    obtain ⟨message, hmessage, he⟩ := Multiset.mem_map.mp halive
    rw [← he, hg.fresh message hmessage] at hrow
    cases hrow
  exact ⟨next, hnext, hhandled.step (step_progress h), fun row' hrow' _ ↦ hdue row' hrow'⟩

/-- A later retry outcome of the message, or an operator retry. -/
def Rescheduled (m : String) (g : Gateway) (a : Action) : Prop :=
  Retried m a ∨ ∃ g' verdict now, g.step a = some g' ∧ Finishes g a g' m verdict now ∧
    verdict.status = .retry

theorem delay_of_claims {before after : List Action} {u v : Gateway} {verdict : Verdict}
    {f t : Time} {index : ℕ} {row : Row} (hu : Runs Gateway.step {} before u)
    (ha : u.step a = some v) (hf : Finishes u a v row.id verdict f)
    (hv : Runs Gateway.step v after g) (h : Claims g (.delivery (.worker index (.claimJob t))) row) :
    PyFloat.le (PyFloat.add f verdict.delay) t = true ∨
      ∃ k b k' w, after = k ++ b :: k' ∧ Runs Gateway.step v k w ∧ Rescheduled row.id w b := by
  obtain ⟨next, hnext, hwaits⟩ := hf.waits (.of_runs hu) ha
  have hstep : ∀ w b w', Waits row.id next w → ¬ Rescheduled row.id w b → w.step b = some w' →
      Waits row.id next w' := by
    intro w b w' hw hb hstep
    refine hw.step hstep (fun hr ↦ hb (.inl hr)) ?_
    rintro ⟨verdict', now, hfinish, hretry⟩
    exact hb (.inr ⟨w', verdict', now, hstep, hfinish, hretry⟩)
  rcases hv.until hstep hwaits with hg | ⟨k, b, k', w, hk, hw, -, hb⟩
  · obtain ⟨_, now, he, -, hclaimed⟩ := h
    cases he
    obtain ⟨config, r, -, hclaim, rfl⟩ := claimed_eq_some hclaimed
    have hready := candidate_ready hclaim.candidate
    have hdue := hready.due
    rw [hg.due r hready.found hready.state] at hdue
    exact .inl (hnext ▸ PyFloat.le_num.mpr hdue)
  · exact .inr ⟨k, b, k', w, hk, hw, hb⟩

end Own

theorem delivery_worker {index : ℕ} {action : WorkerAction}
    (h : deliveryStep g config (.worker index action) = some g') :
    ∃ p p' g₁, g.dispatcher.workers[index]? = some p ∧
      workerStep g config p action = some (g₁, p') ∧
      g'.dispatcher.workers = g.dispatcher.workers.set index p' := by
  simp only [deliveryStep] at h
  split at h
  · cases h
  next p hp =>
    obtain ⟨⟨g₁, p'⟩, hstep, rfl⟩ := Option.map_eq_some_iff.mp h
    exact ⟨p, p', g₁, hp, hstep, congrArg (·.set index p') (workerStep_frame hstep).1⟩

section Pause

/-- Two workers do not keep the same message. -/
theorem Holding.unique (hg : Holding g) {i j : ℕ} {q : Worker} {b c : Bool}
    (hi : g.dispatcher.workers[i]? = some p) (hj : g.dispatcher.workers[j]? = some q)
    (hp : p.holds = some (m, b)) (hq : q.holds = some (m, c)) : i = j := by
  have hdistinct : ((g.dispatcher.workers.filterMap Worker.holds).map (·.1)).Nodup :=
    hg.distinct.sublist ((List.sublist_append_left _ _).map _)
  rw [List.Nodup, List.pairwise_map, List.pairwise_filterMap] at hdistinct
  have hlt : ∀ {i j : ℕ} {p q : Worker} {b c : Bool}, g.dispatcher.workers[i]? = some p →
      g.dispatcher.workers[j]? = some q → p.holds = some (m, b) → q.holds = some (m, c) →
      ¬ i < j := by
    intro i j p q b c hi hj hp hq hij
    obtain ⟨hi', rfl⟩ := List.getElem?_eq_some_iff.mp hi
    obtain ⟨hj', rfl⟩ := List.getElem?_eq_some_iff.mp hj
    exact List.pairwise_iff_getElem.mp hdistinct i j hi' hj' hij _ hp _ hq rfl
  exact le_antisymm (not_lt.mp (hlt hj hi hq hp)) (not_lt.mp (hlt hi hj hp hq))

/-- The message is in flight, and the worker that is to pause the delivery for
it has not done so. -/
structure Unpaused (m : String) (index : ℕ) (message : Row) (error : String) (g : Gateway) :
    Prop where
  sending : g.store.Sending m
  waiting : ∀ i p interrupted, g.dispatcher.workers[i]? = some p →
    p.holds = some (m, interrupted) →
    i = index ∧ p = .pausing message error ∨ interrupted = true

/-- The worker commits the pause. -/
def Pauses (index : ℕ) (message : Row) (error : String) (g : Gateway) (a : Action) : Prop :=
  g.dispatcher.workers[index]? = some (.pausing message error) ∧
    a = .delivery (.worker index .pauseJob) ∧
    ∃ g', g.step a = some g' ∧ g'.store.db.settings.paused = some true

/-- The attempt on the message ends as uncertain. -/
def EndsUncertain (m : String) (g : Gateway) (a : Action) : Prop :=
  g.store.Sending m ∧ ∃ g' row, g.step a = some g' ∧
    g'.store.db.messages.find? m = some row ∧ row.status = .uncertain

variable {index : ℕ} {message : Row} {error : String}

theorem Unpaused.not_retry (hg : Unpaused m index message error g) {verdict : Verdict} {now : Time}
    (hf : Finishes g a g' m verdict now) : verdict.status = .uncertain := by
  rcases finish_of_job hf.1 with ⟨i, -, hp⟩ | ⟨hu, -⟩
  · rcases hg.waiting i _ false hp rfl with ⟨-, h⟩ | h <;> cases h
  · exact hu

theorem Unpaused.sending_step (hg : Unpaused m index message error g) (h : g.step a = some g')
    (hn : ¬ EndsUncertain m g a) : g'.store.Sending m := by
  rcases step_job h with he | ⟨op, hjob, hop⟩
  · exact he ▸ hg.sending
  obtain ⟨row, hrow, hs⟩ := hg.sending
  have hchange := step_row hop m
  have hsome : ∃ row', g'.store.db.messages.find? m = some row' := by
    rw [hrow] at hchange
    generalize g'.store.db.messages.find? m = y at hchange
    cases hchange with
    | deleted hd => rcases hd with hd | hd <;> simp [hs] at hd
    | _ => exact ⟨_, rfl⟩
  obtain ⟨row', hrow'⟩ := hsome
  obtain rfl := Table.key_of_find? hrow
  rw [hrow, hrow'] at hchange
  rcases hchange.uncertain_of_sending hs (by
    rintro status error delay cooldown now rfl
    exact hg.not_retry (show Finishes g a g' row.id ⟨status, error, delay, cooldown⟩ now from ⟨hjob, hop⟩)) with rfl | hu
  · exact ⟨row, hrow', hs⟩
  · exact absurd ⟨hg.sending, g', row', h, hrow', hu⟩ hn

theorem pausing_step {action : WorkerAction}
    (h : workerStep g config (.pausing message error) action = some (g', p')) :
    action = .pauseJob ∨ p'.holds = none := by
  cases action with
  | pauseJob => exact .inl rfl
  | fault | cancel =>
    simp only [workerStep, cancelled, Option.some.injEq, Prod.mk.injEq] at h
    obtain ⟨-, rfl⟩ := h
    exact .inr rfl
  | _ => simp [workerStep] at h

theorem pauses_of_pauseJob (hp : g.dispatcher.workers[index]? = some (.pausing message error))
    (h : g.step (.delivery (.worker index .pauseJob)) = some g') :
    Pauses index message error g (.delivery (.worker index .pauseJob)) := by
  refine ⟨hp, rfl, g', h, ?_⟩
  obtain ⟨config, hr, h⟩ := Option.bind_eq_some_iff.mp h
  simp only [deliveryStep, hp, workerStep, Session.step, hr, Option.map_some,
    Option.some.injEq] at h
  subst h
  rfl

theorem Unpaused.worker_step (hg : Unpaused m index message error g) {action : WorkerAction}
    {i : ℕ} {interrupted : Bool} (hp : g.dispatcher.workers[i]? = some p)
    (hw : workerStep g config p action = some (g', p')) (hh : p'.holds = some (m, interrupted))
    (hn : i = index → p = .pausing message error → action ≠ .pauseJob) : interrupted = true := by
  have hkept : p'.holds = p.holds → interrupted = true := by
    intro he
    rcases hg.waiting i p interrupted hp (he ▸ hh) with ⟨hi, rfl⟩ | hi
    · rcases pausing_step hw with ha | hnone
      · exact absurd ha (hn hi rfl)
      · rw [hnone] at hh
        cases hh
    · exact hi
  cases workerStep_effect hw with
  | keep hs hd he =>
    rcases he with he | he
    · rw [he] at hh
      cases hh
    · exact hkept he
  | interrupt hs hd hp hp' =>
    rw [hp'] at hh
    exact (Prod.mk.inj (Option.some.inj hh)).2.symm
  | shield hs hd hp hp' | finish hs hd hp hp' =>
    rw [hp'] at hh
    cases hh
  | setting hs hd he => exact hkept he
  | @claim now hs hd hp hp' =>
    subst hp'
    cases hc : g.store.claimed now with
    | none => simp [hc, Worker.holds] at hh
    | some row =>
      rw [hc] at hh
      obtain ⟨rfl, -⟩ := Prod.mk.inj (Option.some.inj hh)
      exact absurd hg.sending (not_sending_of_claimed hc)

theorem Unpaused.step (hg : Unpaused m index message error g) (h : g.step a = some g')
    (hp : ¬ Pauses index message error g a) (hn : ¬ EndsUncertain m g a) :
    Unpaused m index message error g' := by
  refine ⟨hg.sending_step h hn, fun i q interrupted hq hh ↦ ?_⟩
  cases a with
  | start | crash =>
    obtain ⟨store, -, rfl⟩ := Option.map_eq_some_iff.mp h
    cases hq
  | intake action =>
    obtain ⟨config, -, hstep⟩ := Option.bind_eq_some_iff.mp h
    rw [intake_dispatcher hstep] at hq
    exact hg.waiting i q interrupted hq hh
  | delivery action =>
    obtain ⟨config, -, hstep⟩ := Option.bind_eq_some_iff.mp h
    rcases delivery_workers hstep with hw | ⟨j, worker, p, p', g₁, rfl, hj, hworker, hw⟩ | hready
    · rw [hw] at hq
      exact hg.waiting i q interrupted hq hh
    · rw [hw, List.getElem?_set] at hq
      split_ifs at hq with hi hlt
      · obtain rfl := Option.some.inj hq
        refine .inr (hg.worker_step hj hworker hh ?_)
        rintro rfl rfl rfl
        exact hp (pauses_of_pauseJob hj h)
      · exact hg.waiting i q interrupted hq hh
    · rw [hready q (List.mem_of_getElem? hq)] at hh
      cases hh

/-- A legacy authentication failure pauses the delivery before its message
returns to the queue. -/
theorem pause_before_retry {before after : List Action} {u v : Gateway} {jitter : ℚ}
    {now f : Time} {verdict : Verdict} (hu : Runs Gateway.step {} before u)
    (hp : u.dispatcher.workers[index]? = some (.sending message))
    (ha : u.step (.delivery (.worker index
      (.outcome (.error (.authenticationRequired error)) jitter now))) = some v)
    (hv : Runs Gateway.step v after g) (hf : Finishes g a g' message.id verdict f)
    (hretry : verdict.status = .retry) :
    ∃ k b k' w, after = k ++ b :: k' ∧ Runs Gateway.step v k w ∧
      (Pauses index message error w b ∨ EndsUncertain message.id w b) := by
  have hold := Holding.of_runs hu
  have hunpaused : Unpaused message.id index message error v := by
    obtain ⟨config, hr, hstep⟩ := Option.bind_eq_some_iff.mp ha
    simp only [deliveryStep, hp, workerStep, attempt, Option.map_some, Option.some.injEq] at hstep
    subst hstep
    refine ⟨hold.sending _ (mem_held (List.mem_of_getElem? hp) rfl), fun i q interrupted hq hh ↦ ?_⟩
    rw [List.getElem?_set] at hq
    split_ifs at hq with hi hlt
    · exact .inl ⟨hi.symm, (Option.some.inj hq).symm⟩
    · exact absurd (hold.unique hp hq rfl hh) hi
  have hstep : ∀ w b w', Unpaused message.id index message error w →
      ¬(Pauses index message error w b ∨ EndsUncertain message.id w b) → w.step b = some w' →
      Unpaused message.id index message error w' := by
    intro w b w' hw hb hstep
    rw [not_or] at hb
    exact hw.step hstep hb.1 hb.2
  rcases hv.until hstep hunpaused with hg | ⟨k, b, k', w, hk, hw, -, hb⟩
  · cases hretry.symm.trans (hg.not_retry hf)
  · exact ⟨k, b, k', w, hk, hw, hb⟩

end Pause

section Delay

/-- The message and the verdict that a worker is to record. -/
def Worker.verdict : Worker → Option (String × Verdict)
  | .finishing id verdict => some (id, verdict)
  | .pausing message error | .paused message error =>
    some (message.id, ⟨.retry, error, (60 : ℚ), false⟩)
  | _ => none

def isOutcome (index : ℕ) : Action → Bool
  | .delivery (.worker i (.outcome ..)) => i = index
  | _ => false

/-- The verdict is what the worker made of the end of its last `send`. -/
def Judged (ops : List Action) (index : ℕ) (m : String) (verdict : Verdict) : Prop :=
  ∃ k message result jitter now k' u config,
    ops = k ++ .delivery (.worker index (.outcome result jitter now)) :: k' ∧
    (∀ b ∈ k', isOutcome index b = false) ∧
    Runs Gateway.step {} k u ∧ u.store.running = some config ∧
    u.dispatcher.workers[index]? = some (.sending message) ∧ message.id = m ∧
    verdict = judge config.delivery message.attempts jitter result

theorem Judged.concat {ops : List Action} {index : ℕ} {verdict : Verdict}
    (h : Judged ops index m verdict) (ha : isOutcome index a = false) :
    Judged (ops ++ [a]) index m verdict := by
  obtain ⟨k, message, result, jitter, now, k', u, config, rfl, hk', hu⟩ := h
  refine ⟨k, message, result, jitter, now, k' ++ [a], u, config, by simp, fun b hb ↦ ?_, hu⟩
  rcases List.mem_append.mp hb with hb | hb
  · exact hk' b hb
  · rw [List.mem_singleton.mp hb]
    exact ha

theorem verdict_step {action : WorkerAction} {verdict : Verdict}
    (h : workerStep g config p action = some (g', p')) (hv : p'.verdict = some (m, verdict)) :
    (p.verdict = some (m, verdict) ∧ ∀ result jitter now, action ≠ .outcome result jitter now) ∨
    ∃ message result jitter now, action = .outcome result jitter now ∧ p = .sending message ∧
      message.id = m ∧ verdict = judge config.delivery message.attempts jitter result := by
  unfold workerStep at h
  split at h
  case h_1 | h_2 => split_ifs at h <;> cases h <;> cases hv
  case h_3 =>
    dsimp only at h
    split_ifs at h <;> cases h <;> cases hv
  case h_4 =>
    obtain ⟨store, hstore, he⟩ := Option.map_eq_some_iff.mp h
    obtain ⟨rfl, rfl⟩ := Prod.mk.inj he
    cases hv
  case h_7 message result jitter now =>
    obtain ⟨rfl, rfl⟩ := Prod.mk.inj (Option.some.inj h)
    refine .inr ⟨message, result, jitter, now, rfl, rfl, ?_⟩
    cases result with
    | ok =>
      obtain ⟨rfl, rfl⟩ := Prod.mk.inj (Option.some.inj hv)
      exact ⟨rfl, rfl⟩
    | error e =>
      cases e <;>
      · obtain ⟨rfl, rfl⟩ := Prod.mk.inj (Option.some.inj hv)
        exact ⟨rfl, rfl⟩
  case h_8 =>
    obtain ⟨store, hstore, he⟩ := Option.map_eq_some_iff.mp h
    obtain ⟨rfl, rfl⟩ := Prod.mk.inj he
    exact .inl ⟨hv, by simp⟩
  case h_9 =>
    cases h
    exact .inl ⟨hv, by simp⟩
  case h_10 | h_12 => split at h <;> cases h <;> cases hv
  case h_19 =>
    obtain ⟨rfl, rfl⟩ := Prod.mk.inj (Option.some.inj h)
    cases p <;> cases hv
  case h_18 | h_20 => cases h
  all_goals
    cases h
    cases hv

theorem judged_of_runs {ops : List Action} {index : ℕ} {verdict : Verdict}
    (h : Runs Gateway.step {} ops g) (hp : g.dispatcher.workers[index]? = some p)
    (hv : p.verdict = some (m, verdict)) : Judged ops index m verdict := by
  refine h.trace_invariant (P := fun ops g ↦ ∀ index p m verdict,
    g.dispatcher.workers[index]? = some p → p.verdict = some (m, verdict) →
      Judged ops index m verdict) (by simp) ?_ index p m verdict hp hv
  intro k u a w hu ih ha i q id v hq hv
  have hkept : u.dispatcher.workers[i]? = some q → isOutcome i a = false →
      Judged (k ++ [a]) i id v := fun hq' ha' ↦ (ih i q id v hq' hv).concat ha'
  cases a with
  | start | crash =>
    obtain ⟨store, -, rfl⟩ := Option.map_eq_some_iff.mp ha
    cases hq
  | intake action =>
    obtain ⟨config, -, hstep⟩ := Option.bind_eq_some_iff.mp ha
    rw [intake_dispatcher hstep] at hq
    exact hkept hq rfl
  | delivery action =>
    obtain ⟨config, hr, hstep⟩ := Option.bind_eq_some_iff.mp ha
    cases action with
    | worker j worker =>
      obtain ⟨p, p', g₁, hj, hworker, hw⟩ := delivery_worker hstep
      rw [hw, List.getElem?_set] at hq
      split_ifs at hq with hi hlt
      · obtain rfl := Option.some.inj hq
        obtain rfl := hi
        rcases verdict_step hworker hv with ⟨hv', hn⟩ | ⟨message, result, jitter, now, rfl, rfl, h⟩
        · refine (ih j p id v hj hv').concat ?_
          cases worker <;> first | rfl | exact absurd rfl (hn _ _ _)
        · exact ⟨k, message, result, jitter, now, [], u, config, rfl, by simp, hu, hr, hj, h⟩
      · refine hkept hq ?_
        cases worker <;> first | rfl | exact decide_eq_false hi
    | _ =>
      rcases delivery_workers hstep with hw | ⟨_, _, _, _, _, he, -⟩ | hready
      · rw [hw] at hq
        exact hkept hq rfl
      · cases he
      · rw [hready q (List.mem_of_getElem? hq)] at hv
        cases hv

/-- The recorded delay is not below the one that the outcome asks for. -/
theorem judge_retryable (d : DeliveryConfig) (attempts : ℕ) (jitter : ℚ) (text : String)
    (asked : PyFloat) (cooldown : Bool) :
    let verdict := judge d attempts jitter (.error (.retryable text asked cooldown))
    PyFloat.lt verdict.delay asked = false ∧ verdict.cooldown = cooldown := by
  simp only [judge]
  split_ifs <;> exact ⟨PyFloat.not_max_lt_left _ _, rfl⟩

end Delay

theorem judged_of_finishes {ops : List Action} {verdict : Verdict} {f : Time}
    (h : Runs Gateway.step {} ops g) (hf : Finishes g a g' m verdict f)
    (hv : verdict.status ≠ .uncertain) : ∃ index, Judged ops index m verdict := by
  rcases finish_of_job hf.1 with ⟨index, -, hp⟩ | ⟨hu, -⟩
  · exact ⟨index, judged_of_runs h hp rfl⟩
  · exact absurd hu hv

/-- A claim finds the delivery unpaused, waits for every cooldown committed
before it and for the delay of the message's own last retry outcome; a legacy
authentication failure commits a pause before its message returns to the queue;
and no delay falls short of what the provider asked for. -/
theorem backoff_honoured :
    (∀ ops g index t row, Runs Gateway.step {} ops g →
      Claims g (.delivery (.worker index (.claimJob t))) row →
      g.store.db.settings.paused.getD false = false ∧
      ∀ before a after u v id verdict f, ops = before ++ a :: after →
        Runs Gateway.step {} before u → u.step a = some v → Finishes u a v id verdict f →
        (verdict.cooldown = true → PyFloat.le (PyFloat.add f verdict.delay) t = true) ∧
        (id = row.id → verdict.status = .retry →
          PyFloat.le (PyFloat.add f verdict.delay) t = true ∨
          ∃ k b k' w, after = k ++ b :: k' ∧ Runs Gateway.step v k w ∧ Rescheduled id w b)) ∧
    (∀ before after u v g a g' index message error jitter now verdict f,
      Runs Gateway.step {} before u →
      u.dispatcher.workers[index]? = some (.sending message) →
      u.step (.delivery (.worker index
        (.outcome (.error (.authenticationRequired error)) jitter now))) = some v →
      Runs Gateway.step v after g → Finishes g a g' message.id verdict f →
      verdict.status = .retry →
      ∃ k b k' w, after = k ++ b :: k' ∧ Runs Gateway.step v k w ∧
        (Pauses index message error w b ∨ EndsUncertain message.id w b)) ∧
    (∀ ops g a g' m verdict f, Runs Gateway.step {} ops g → Finishes g a g' m verdict f →
      verdict.status ≠ .uncertain → ∃ index, Judged ops index m verdict) ∧
    (∀ (config : DeliveryConfig) attempts jitter text asked cooldown,
      let verdict := judge config attempts jitter (.error (.retryable text asked cooldown))
      PyFloat.lt verdict.delay asked = false ∧ verdict.cooldown = cooldown) ∧
    ∀ lib kind tokens token now response text asked cooldown delay, response.status ≠ 401 →
      (respond lib kind tokens token now response).1 = .error (.retryable text asked cooldown) →
      Asks lib kind now response delay → PyFloat.lt asked delay = false := by
  refine ⟨fun ops g index t row hg hc ↦ ⟨?_, ?_⟩, ?_, ?_, judge_retryable, ?_⟩
  · obtain ⟨_, now, -, -, hclaimed⟩ := hc
    obtain ⟨config, r, -, hclaim, -⟩ := claimed_eq_some hclaimed
    exact hclaim.unpaused
  · rintro before a after u v id verdict f rfl hu ha hf
    obtain ⟨u', hu', hg⟩ := runs_append.mp hg
    obtain rfl := hu'.deterministic hu
    obtain ⟨v', ha', hg⟩ := runs_cons.mp hg
    obtain rfl := Option.some.inj (ha'.symm.trans ha)
    refine ⟨fun hcool ↦ cooldown_of_claims hu hf hcool hg hc, ?_⟩
    rintro rfl -
    exact delay_of_claims hu ha hf hg hc
  · intro before after u v g a g' index message error jitter now verdict f hu hp ha hv hf hretry
    exact pause_before_retry hu hp ha hv hf hretry
  · intro ops g a g' m verdict f h hf hv
    exact judged_of_finishes h hf hv
  · intro lib kind tokens token now response text asked cooldown delay hs h hz
    exact not_lt_of_asks hs h hz

/-- The first attempt is throttled, for longer than the longest backoff. -/
def throttledRun : List Action :=
  sampleActions ++ [.delivery (.worker 0
    (.outcome (.error (.retryable "Upstream HTTP 429 throttling" (7200 : ℚ) true)) 1 3))]

def resumedRun : List Action :=
  [.delivery (.worker 0 .conclude), .delivery (.worker 0 (.loop 7203)),
    .delivery (.worker 0 (.permit 7203 0))]

theorem backoff_honoured_sample : ∃ u v g row verdict,
    Runs Gateway.step {} throttledRun u ∧ u.step (.delivery (.worker 0 (.finishJob 3))) = some v ∧
    Finishes u (.delivery (.worker 0 (.finishJob 3))) v "m1" verdict 3 ∧
    Runs Gateway.step v resumedRun g ∧
    Claims g (.delivery (.worker 0 (.claimJob 7203))) row ∧ verdict.cooldown = true ∧
    PyFloat.le (PyFloat.add (3 : ℚ) verdict.delay) (7203 : ℚ) = true := by
  have hu : (run Gateway.step throttledRun {}).any (fun u ↦ u.dispatcher.workers[0]?.any
      (fun | .finishing id verdict => id = "m1" ∧ verdict.cooldown = true | _ => false)) := by
    decide +kernel
  have hv : (run Gateway.step (throttledRun ++ [.delivery (.worker 0 (.finishJob 3))]) {}).any
      (fun v ↦ v.dispatcher.workers[0]?.any (· matches .finished)) := by decide +kernel
  have hg : (run Gateway.step
      (throttledRun ++ .delivery (.worker 0 (.finishJob 3)) :: resumedRun) {}).any
      (fun g ↦ g.dispatcher.workers[0]?.any (· matches .claiming) ∧
        (g.store.claimed 7203).isSome) := by decide +kernel
  obtain ⟨u, hu, hworker⟩ := (Option.any_eq_true ..).mp hu
  obtain ⟨v, hv, hfinished⟩ := (Option.any_eq_true ..).mp hv
  obtain ⟨g, hg, hclaim⟩ := (Option.any_eq_true ..).mp hg
  have hrun : Runs Gateway.step {} (throttledRun ++ .delivery (.worker 0 (.finishJob 3)) ::
    resumedRun) g := hg
  obtain ⟨u', hu', hv'⟩ := runs_concat.mp hv
  obtain rfl := hu'.deterministic hu
  obtain ⟨u'', hu'', hg⟩ := runs_append.mp hg
  obtain rfl := hu''.deterministic hu'
  obtain ⟨v', ha, hg⟩ := runs_cons.mp hg
  obtain rfl := Option.some.inj (ha.symm.trans hv')
  obtain ⟨worker, hworker, hverdict⟩ := (Option.any_eq_true ..).mp hworker
  obtain ⟨worker', hfinished, hmatch⟩ := (Option.any_eq_true ..).mp hfinished
  obtain ⟨hclaiming, hclaimed⟩ := of_decide_eq_true hclaim
  obtain ⟨worker'', hclaiming, hmatch'⟩ := (Option.any_eq_true ..).mp hclaiming
  obtain ⟨row, hclaimed⟩ := Option.isSome_iff_exists.mp hclaimed
  obtain rfl : worker' = .finished := by
    cases worker' <;> first | rfl | cases hmatch
  obtain rfl : worker'' = .claiming := by
    cases worker'' <;> first | rfl | cases hmatch'
  cases worker with
  | finishing id verdict =>
    obtain ⟨rfl, hcool⟩ := of_decide_eq_true hverdict
    have hf := finishes_of_finishJob hworker ha hfinished
    have hc : Claims g (.delivery (.worker 0 (.claimJob 7203))) row :=
      ⟨0, 7203, rfl, hclaiming, hclaimed⟩
    refine ⟨_, _, g, row, verdict, hu'', ha, hf, hg, hc, hcool, ?_⟩
    exact ((backoff_honoured.1 _ g 0 7203 row hrun hc).2 _ _ _ _ _ _ _ _ rfl hu'' ha hf).1 hcool
  | _ => cases hverdict

end Gateway

end NoreplyGateway
