import NoreplyGateway.Gateway.Holding

namespace NoreplyGateway

open Machine Store

namespace Gateway

/-- The transaction that a step runs on the database thread. -/
def job (g : Gateway) : Action → Option Op
  | .start config now => some (.start config now)
  | .crash => some .crash
  | .intake (.commit free now) =>
    match g.intake.writer with
    | .committing batch _ => some (.insertBatch g.healthy free now batch)
    | _ => none
  | .intake _ => none
  | .delivery (.worker index action) =>
    match g.dispatcher.workers[index]?, action with
    | some .claiming, .claimJob now => some (.claim now)
    | some (.pausing _ _), .pauseJob => some (.setSetting (.paused true))
    | some (.finishing id v), .finishJob now =>
      some (.finish id v.status v.error v.delay v.cooldown now)
    | some (.interrupted id), .interruptJob now =>
      some (.finish id .uncertain interruption (0 : ℚ) false now)
    | _, _ => none
  | .delivery (.shieldedJob id now) => some (.finish id .uncertain interruption (0 : ℚ) false now)
  | .delivery (.housekeeping now scan) => some (.housekeeping now scan)
  | .delivery (.set setting) => some (.setSetting setting)
  | .delivery (.action id verb acknowledgeDuplicate clock) =>
    some (.action id verb acknowledgeDuplicate clock)
  | .delivery _ => none

/-- The step commits the end of an attempt. -/
def Finishes (g : Gateway) (a : Action) (g' : Gateway) (id : String) (v : Verdict) (now : Time) :
    Prop :=
  job g a = some (.finish id v.status v.error v.delay v.cooldown now) ∧
    g.store.step (.finish id v.status v.error v.delay v.cooldown now) = some g'.store

variable {g g' : Gateway} {config : Config} {p p' : Worker} {a : Action} {index : ℕ}

theorem worker_job {action : WorkerAction} (hp : g.dispatcher.workers[index]? = some p)
    (h : workerStep g config p action = some (g', p')) : g'.store = g.store ∨
      ∃ op, job g (.delivery (.worker index action)) = some op ∧
        g.store.step op = some g'.store := by
  unfold workerStep at h
  split at h
  case h_1 | h_2 => split_ifs at h <;> cases h <;> exact .inl rfl
  case h_3 =>
    dsimp only at h
    split_ifs at h <;> cases h <;> exact .inl rfl
  case h_4 | h_8 =>
    obtain ⟨store, hstore, he⟩ := Option.map_eq_some_iff.mp h
    obtain ⟨rfl, rfl⟩ := Prod.mk.inj he
    exact .inr ⟨_, by simp only [job, hp], hstore⟩
  case h_7 =>
    obtain ⟨rfl, rfl⟩ := Prod.mk.inj (Option.some.inj h)
    exact .inl rfl
  case h_10 | h_12 =>
    split at h
    · next store hstore =>
      cases h
      exact .inr ⟨_, by simp only [job, hp], hstore⟩
    · cases h
      exact .inl rfl
  case h_19 =>
    obtain ⟨rfl, rfl⟩ := Prod.mk.inj (Option.some.inj h)
    cases p <;> exact .inl rfl
  case h_18 | h_20 => cases h
  all_goals
    cases h
    exact .inl rfl

theorem delivery_job {a : DeliveryAction} (h : deliveryStep g config a = some g') :
    g'.store = g.store ∨
      ∃ op, job g (.delivery a) = some op ∧ g.store.step op = some g'.store := by
  cases a with
  | worker index action =>
    simp only [deliveryStep] at h
    split at h
    · cases h
    next p hp =>
      obtain ⟨⟨g₁, p'⟩, hstep, rfl⟩ := Option.map_eq_some_iff.mp h
      have hjob := worker_job hp hstep
      exact hjob
  | shieldedJob id now =>
    simp only [deliveryStep] at h
    split_ifs at h
    split at h
    · next store hs =>
      cases h
      exact .inr ⟨_, rfl, hs⟩
    · cases h
      exact .inl rfl
  | housekeeping now scan =>
    simp only [deliveryStep] at h
    split at h
    · obtain ⟨store, hs, rfl⟩ := Option.map_eq_some_iff.mp h
      exact .inr ⟨_, rfl, hs⟩
    · cases h
  | action id verb acknowledgeDuplicate clock =>
    obtain ⟨store, hs, rfl⟩ := Option.map_eq_some_iff.mp h
    exact .inr ⟨_, rfl, hs⟩
  | set setting =>
    simp only [deliveryStep] at h
    split_ifs at h
    obtain ⟨store, hs, rfl⟩ := Option.map_eq_some_iff.mp h
    exact .inr ⟨_, rfl, hs⟩
  | setResume setting =>
    simp only [deliveryStep] at h
    split_ifs at h
    cases h
    cases setting <;> exact .inl rfl
  | shieldedFault | setDrop =>
    simp only [deliveryStep] at h
    split_ifs at h
    cases h
    exact .inl rfl
  | housekeepingCancel | stop =>
    cases h
    exact .inl rfl
  | readSettings | boot | tick | housekeepingFault | housekeepingRecover =>
    simp only [deliveryStep] at h
    split at h <;> cases h
    exact .inl rfl

/-- A step writes the store by its transaction alone. -/
theorem step_job (h : g.step a = some g') : g'.store = g.store ∨
    ∃ op, job g a = some op ∧ g.store.step op = some g'.store := by
  cases a with
  | start config now =>
    obtain ⟨store, hs, rfl⟩ := Option.map_eq_some_iff.mp h
    exact .inr ⟨_, rfl, hs⟩
  | crash =>
    obtain ⟨store, hs, rfl⟩ := Option.map_eq_some_iff.mp h
    exact .inr ⟨_, rfl, hs⟩
  | intake action =>
    obtain ⟨config, hr, h⟩ := Option.bind_eq_some_iff.mp h
    cases action with
    | commit free now =>
      simp only [intakeStep] at h
      split at h
      · next batch stopping hw =>
        split at h
        · next db results hb =>
          cases h
          exact .inr ⟨.insertBatch g.healthy free now batch, by simp only [job, hw],
            by simp [Session.step, hr, hb]⟩
        · cases h
          exact .inl rfl
      · cases h
    | data message =>
      simp only [intakeStep] at h
      split_ifs at h
      cases h
      exact .inl (submit_frame message).1
    | reply id =>
      simp only [intakeStep] at h
      split_ifs at h
      obtain ⟨result, -, rfl⟩ := Option.map_eq_some_iff.mp h
      exact .inl rfl
    | disconnect id =>
      cases h
      exact .inl rfl
    | take =>
      simp only [intakeStep] at h
      split at h <;> cases h <;> exact .inl rfl
    | batch | fault | resolve =>
      simp only [intakeStep] at h
      split at h <;> cases h
      exact .inl rfl
    | close | closePut =>
      simp only [intakeStep] at h
      split_ifs at h
      cases h
      exact .inl rfl
  | delivery action =>
    obtain ⟨config, -, h⟩ := Option.bind_eq_some_iff.mp h
    exact delivery_job h

/-- Apart from interruptions, an attempt is ended by the worker that has its
verdict. -/
theorem finish_of_job {id : String} {status : Status} {error : String} {delay : PyFloat}
    {cooldown : Bool} {now : Time} (h : job g a = some (.finish id status error delay cooldown now)) :
    (∃ index, a = .delivery (.worker index (.finishJob now)) ∧
      g.dispatcher.workers[index]? = some (.finishing id ⟨status, error, delay, cooldown⟩)) ∨
    status = .uncertain ∧ delay = (0 : ℚ) ∧ cooldown = false := by
  unfold job at h
  split at h
  case h_3 => split at h <;> cases h
  case h_5 index action =>
    split at h
    case h_3 id v now hp =>
      cases h
      exact .inl ⟨index, rfl, hp⟩
    all_goals
      cases h
    exact .inr ⟨rfl, rfl, rfl⟩
  case h_6 =>
    cases h
    exact .inr ⟨rfl, rfl, rfl⟩
  all_goals cases h

theorem start_of_job {now : Time} (h : job g a = some (.start config now)) :
    a = .start config now := by
  unfold job at h
  split at h
  case h_1 =>
    cases h
    rfl
  case h_3 | h_5 => split at h <;> cases h
  all_goals cases h

theorem action_of_job {id verb : String} {acknowledgeDuplicate : Bool} {clock : RetryClock}
    (h : job g a = some (.action id verb acknowledgeDuplicate clock)) :
    a = .delivery (.action id verb acknowledgeDuplicate clock) := by
  unfold job at h
  split at h
  case h_9 =>
    cases h
    rfl
  case h_3 | h_5 => split at h <;> cases h
  all_goals cases h

/-- The configuration changes with the process alone. -/
theorem running_of_step (h : g.step a = some g') (hr : g'.store.running = some config) :
    g.store.running = some config ∨ ∃ now, a = .start config now := by
  rcases step_job h with he | ⟨op, hjob, hop⟩
  · exact .inl (he ▸ hr)
  · rcases (transition_of_step hop).running hr with hr | ⟨now, rfl⟩
    · exact .inl hr
    · exact .inr ⟨now, start_of_job hjob⟩

/-- A worker whose job has not raised has committed its verdict. -/
theorem finishes_of_finishJob {id : String} {verdict : Verdict} {now : Time}
    (hp : g.dispatcher.workers[index]? = some (.finishing id verdict))
    (h : g.step (.delivery (.worker index (.finishJob now))) = some g')
    (hp' : g'.dispatcher.workers[index]? = some .finished) :
    Finishes g (.delivery (.worker index (.finishJob now))) g' id verdict now := by
  refine ⟨by simp only [job, hp], ?_⟩
  obtain ⟨config, -, h⟩ := Option.bind_eq_some_iff.mp h
  have hi : index < g.dispatcher.workers.length := (List.getElem?_eq_some_iff.mp hp).1
  simp only [deliveryStep, hp, workerStep] at h
  split at h
  · next store hstore =>
    cases h
    exact hstore
  · cases h
    simp [hi] at hp'

end Gateway

end NoreplyGateway
