import NoreplyGateway.Gateway.Exchanges

namespace NoreplyGateway

open Machine Store Upstream

namespace Store

/-- Every time at which the store will let a message or the delivery go on is
finite. -/
structure Session.Finite (s : Session) : Prop where
  rows : ∀ row ∈ s.db.messages.rows, (PyFloat.num row.nextAttempt).Finite
  cooldown : (s.db.settings.cooldownUntil.getD (0 : ℚ)).Finite

variable {s t : Session} {op : Op}

/-- An operation that records a finite delay, or none. -/
def Op.Delays : Op → Prop
  | .finish _ _ _ delay _ _ => delay.Finite
  | _ => True

theorem Session.Finite.step (hs : s.Finite) (hop : op.Delays) (h : s.step op = some t) :
    t.Finite := by
  refine ⟨fun row hrow ↦ ?_, ?_⟩
  · have hfound := Table.find?_of_mem hrow
    have hchange := step_row h row.id
    rw [hfound] at hchange
    generalize hold : s.db.messages.find? row.id = old at hchange
    have hkept : ∀ r ∈ old, (PyFloat.num r.nextAttempt).Finite := by
      intro r hr
      obtain rfl := hr
      exact hs.rows r (Table.mem_of_find? hold)
    cases hchange with
    | same => exact hkept row rfl
    | recovered | expired | claimed | cancelled =>
      have hfinite := hkept _ rfl
      exact hfinite
    | inserted | retried => exact PyFloat.finite_coe _
    | finished =>
      obtain ⟨_, next, -, hnext, hdue⟩ := due_of_finish h
      rw [hdue _ hfound, ← hnext]
      exact (PyFloat.finite_coe _).add hop
  · cases transition_of_step h with
    | inserted hr hi =>
      rw [hi.settings]
      exact hs.cooldown
    | @finished _ status _ delay cooldown now =>
      cases cooldown with
      | false => exact hs.cooldown
      | true => exact ((PyFloat.finite_coe now).add hop).max hs.cooldown
    | @setSetting _ setting _ => cases setting <;> exact hs.cooldown
    | _ => exact hs.cooldown

end Store

namespace Gateway

/-- Every time that the gateway waits for is finite: of the messages, of the
stored cooldown and of the cooldown in force. -/
structure Finite (g : Gateway) : Prop where
  stored : g.store.Finite
  cooldown : g.dispatcher.cooldownUntil.Finite

/-- The settings that the dispatcher has read are in order as well. -/
structure Sound (g : Gateway) : Prop extends Finite g where
  boot : ∀ settings, g.dispatcher.boot = .read settings →
    (settings.cooldownUntil.getD (0 : ℚ)).Finite

variable {g g' : Gateway} {config : Config} {p p' : Worker} {a : Action}

/-- Only the end of a `send` moves the cooldown of a running dispatcher. -/
theorem worker_cooldown {action : WorkerAction} (h : workerStep g config p action = some (g', p')) :
    g'.dispatcher.boot = g.dispatcher.boot ∧
    (g'.dispatcher.cooldownUntil = g.dispatcher.cooldownUntil ∨
      ∃ attempts result jitter now, action = .outcome result jitter now ∧
        g'.dispatcher.cooldownUntil = PyFloat.max g.dispatcher.cooldownUntil
          (PyFloat.add now (judge config.delivery attempts jitter result).delay)) := by
  unfold workerStep at h
  split at h
  case h_1 | h_2 => split_ifs at h <;> cases h <;> exact ⟨rfl, .inl rfl⟩
  case h_3 =>
    dsimp only at h
    split_ifs at h <;> cases h <;> exact ⟨rfl, .inl rfl⟩
  case h_4 | h_8 =>
    obtain ⟨store, -, he⟩ := Option.map_eq_some_iff.mp h
    obtain ⟨rfl, rfl⟩ := Prod.mk.inj he
    exact ⟨rfl, .inl rfl⟩
  case h_7 message result jitter now =>
    obtain ⟨rfl, rfl⟩ := Prod.mk.inj (Option.some.inj h)
    refine ⟨rfl, ?_⟩
    by_cases hcool : (judge config.delivery message.attempts jitter result).cooldown = true
    · exact .inr ⟨message.attempts, result, jitter, now, rfl, if_pos hcool⟩
    · exact .inl (if_neg hcool)
  case h_10 | h_12 => split at h <;> cases h <;> exact ⟨rfl, .inl rfl⟩
  case h_19 =>
    obtain ⟨rfl, rfl⟩ := Prod.mk.inj (Option.some.inj h)
    cases p <;> exact ⟨rfl, .inl rfl⟩
  case h_18 | h_20 => cases h
  all_goals
    cases h
    exact ⟨rfl, .inl rfl⟩

/-- The dispatcher takes its cooldown from the settings when it starts, and moves
it at the end of a `send`. -/
inductive Cools (g : Gateway) (config : Config) : DeliveryAction → Gateway → Prop
  | kept {a : DeliveryAction} {g' : Gateway}
      (hc : g'.dispatcher.cooldownUntil = g.dispatcher.cooldownUntil)
      (hb : g'.dispatcher.boot = g.dispatcher.boot) : Cools g config a g'
  | read {g' : Gateway} (hc : g'.dispatcher.cooldownUntil = g.dispatcher.cooldownUntil)
      (hb : g'.dispatcher.boot = .read g.store.db.settings) : Cools g config .readSettings g'
  | booted {settings : Settings} {g' : Gateway} (hr : g.dispatcher.boot = .read settings)
      (hc : g'.dispatcher.cooldownUntil = settings.cooldownUntil.getD (0 : ℚ))
      (hb : g'.dispatcher.boot = .running) : Cools g config .boot g'
  | outcome {index attempts : ℕ} {result : Except DeliveryError Unit} {jitter : ℚ} {now : Time}
      {g' : Gateway} (hc : g'.dispatcher.cooldownUntil = PyFloat.max g.dispatcher.cooldownUntil
        (PyFloat.add now (judge config.delivery attempts jitter result).delay))
      (hb : g'.dispatcher.boot = g.dispatcher.boot) :
      Cools g config (.worker index (.outcome result jitter now)) g'

theorem delivery_cools {a : DeliveryAction} (h : deliveryStep g config a = some g') :
    Cools g config a g' := by
  cases a with
  | worker index action =>
    simp only [deliveryStep] at h
    split at h
    · cases h
    next p hp =>
      obtain ⟨⟨g₁, p'⟩, hstep, rfl⟩ := Option.map_eq_some_iff.mp h
      obtain ⟨hb, hc | ⟨attempts, result, jitter, now, rfl, hc⟩⟩ := worker_cooldown hstep
      · exact .kept hc hb
      · exact .outcome hc hb
  | readSettings =>
    simp only [deliveryStep] at h
    split at h <;> cases h
    exact .read rfl rfl
  | boot =>
    simp only [deliveryStep] at h
    split at h <;> cases h
    next hr => exact .booted hr rfl rfl
  | shieldedJob id now =>
    simp only [deliveryStep] at h
    split_ifs at h
    split at h <;> cases h <;> exact .kept rfl rfl
  | housekeeping now scan =>
    simp only [deliveryStep] at h
    split at h
    · obtain ⟨store, -, rfl⟩ := Option.map_eq_some_iff.mp h
      exact .kept rfl rfl
    · cases h
  | set setting =>
    simp only [deliveryStep] at h
    split_ifs at h
    obtain ⟨store, -, rfl⟩ := Option.map_eq_some_iff.mp h
    exact .kept rfl rfl
  | setResume setting =>
    simp only [deliveryStep] at h
    split_ifs at h
    cases h
    cases setting <;> exact .kept rfl rfl
  | action id verb acknowledgeDuplicate clock =>
    obtain ⟨store, -, rfl⟩ := Option.map_eq_some_iff.mp h
    exact .kept rfl rfl
  | shieldedFault | setDrop =>
    simp only [deliveryStep] at h
    split_ifs at h
    cases h
    exact .kept rfl rfl
  | housekeepingCancel | stop =>
    cases h
    exact .kept rfl rfl
  | tick | housekeepingFault | housekeepingRecover =>
    simp only [deliveryStep] at h
    split at h <;> cases h
    exact .kept rfl rfl

/-- A delay that the dispatcher makes of a finite one is finite. -/
theorem judge_delay {result : Except DeliveryError Unit}
    (h : ∀ e, result = .error e → e.delay.IsDelay) (d : DeliveryConfig) (attempts : ℕ) (jitter : ℚ) :
    (judge d attempts jitter result).delay.IsDelay := by
  have hdelay : ∀ q : ℚ, 0 ≤ q → ((q : ℚ) : PyFloat).IsDelay := fun q hq ↦ PyFloat.isDelay_coe hq
  cases result with
  | ok => exact hdelay 0 le_rfl
  | error e =>
    cases e with
    | retryable message delay cooldown =>
      have hasked := h _ rfl
      simp only [judge]
      split_ifs <;> exact hasked.max _
    | authenticationRequired => exact hdelay 60 (by norm_num)
    | additionalAuthenticationRequired => exact hdelay 300 (by norm_num)
    | _ => exact hdelay 0 le_rfl

/-- An action that asks for a finite delay, or for none. -/
def Asks (a : Action) : Prop :=
  ∀ index result jitter now, a = .delivery (.worker index (.outcome result jitter now)) →
    ∀ e, result = .error e → e.delay.IsDelay

theorem delays_of_job {ops : List Action} {op : Op} (h : Runs Gateway.step {} ops g)
    (hasks : ∀ b ∈ ops, Asks b) (hop : job g a = some op) : op.Delays := by
  cases op with
  | finish id status error delay cooldown now =>
    rcases finish_of_job hop with ⟨index, -, hp⟩ | ⟨-, rfl, -⟩
    · obtain ⟨k, message, result, jitter, now, k', u, config, rfl, -, -, -, -, -, hv⟩ :=
        judged_of_runs h hp rfl
      have hdelay := judge_delay (hasks _ (by simp) index result jitter now rfl) config.delivery
        message.attempts jitter
      rw [← hv] at hdelay
      exact hdelay.finite
    · exact PyFloat.finite_coe 0
  | _ => trivial

theorem Sound.step {ops : List Action} (hg : Sound g) (hu : Runs Gateway.step {} ops g)
    (hasks : ∀ b ∈ ops ++ [a], Asks b) (h : g.step a = some g') : Sound g' := by
  have hstored : g'.store.Finite := by
    rcases step_job h with he | ⟨op, hjob, hop⟩
    · exact he ▸ hg.stored
    · refine hg.stored.step (delays_of_job hu (fun b hb ↦ hasks b ?_) hjob) hop
      exact List.mem_append_left _ hb
  have hkept : g'.dispatcher = g.dispatcher → Sound g' := fun he ↦
    ⟨⟨hstored, by rw [he]; exact hg.cooldown⟩, by rw [he]; exact hg.boot⟩
  have hnew : g'.dispatcher.cooldownUntil = (0 : ℚ) → g'.dispatcher.boot = .waiting → Sound g' :=
    fun hc hb ↦ ⟨⟨hstored, by rw [hc]; exact PyFloat.finite_coe 0⟩, by simp [hb]⟩
  cases a with
  | start | crash =>
    obtain ⟨store, -, rfl⟩ := Option.map_eq_some_iff.mp h
    exact hnew rfl rfl
  | intake action =>
    obtain ⟨config, -, hstep⟩ := Option.bind_eq_some_iff.mp h
    exact hkept (intake_dispatcher hstep)
  | delivery action =>
    obtain ⟨config, -, hstep⟩ := Option.bind_eq_some_iff.mp h
    cases delivery_cools hstep with
    | kept hc hb => exact ⟨⟨hstored, by rw [hc]; exact hg.cooldown⟩, by rw [hb]; exact hg.boot⟩
    | read hc hb =>
      refine ⟨⟨hstored, by rw [hc]; exact hg.cooldown⟩, fun settings hs ↦ ?_⟩
      obtain rfl := Boot.read.inj (hb.symm.trans hs)
      exact hg.stored.cooldown
    | booted hr hc hb => exact ⟨⟨hstored, by rw [hc]; exact hg.boot _ hr⟩, by simp [hb]⟩
    | @outcome index attempts result jitter now _ hc hb =>
      have hdelay := judge_delay (hasks _ (by simp) index result jitter now rfl) config.delivery
        attempts jitter
      refine ⟨⟨hstored, ?_⟩, by rw [hb]; exact hg.boot⟩
      rw [hc]
      exact hg.cooldown.max ((PyFloat.finite_coe now).add hdelay.finite)

theorem sound_of_runs {ops : List Action} (h : Runs Gateway.step {} ops g)
    (hasks : ∀ b ∈ ops, Asks b) : Sound g := by
  refine h.trace_invariant (P := fun k u ↦ (∀ b ∈ k, Asks b) → Sound u) ?_ ?_ hasks
  · intro _
    exact ⟨⟨⟨fun row hrow ↦ absurd hrow List.not_mem_nil, PyFloat.finite_coe 0⟩,
      PyFloat.finite_coe 0⟩, by simp⟩
  · intro k u b v hu ih hstep hk
    exact (ih (fun c hc ↦ hk c (List.mem_append_left _ hc))).step hu hk hstep

section Exchange

variable {lib : Library} {email : EmailPackage}

/-- A step in which no response puts a message off for ever. -/
def Event.Bounded : Event lib email → Prop
  | .attempt _ exchange _ _ => ¬exchange.Endless
  | .other .. => True

/-- What the outcome of a step asks for is a finite time. -/
def Event.AsksFinite : Event lib email → Prop
  | .attempt _ exchange _ _ => ∀ e, exchange.result = .error e → e.delay.IsDelay
  | .other .. => True

theorem Event.AsksFinite.asks {event : Event lib email} (h : event.AsksFinite) :
    Asks event.action := by
  intro index result jitter now ha e he
  cases event with
  | attempt =>
    cases ha
    exact h e he
  | other action hends =>
    rw [show action = _ from ha] at hends
    cases hends

end Exchange

end Gateway

end NoreplyGateway
