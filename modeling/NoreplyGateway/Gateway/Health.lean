import NoreplyGateway.Gateway.Holding

namespace NoreplyGateway

open Machine Store

namespace Gateway

/-- The worker does not look at the health of the store again before its next
claim. -/
def Worker.exposed : Worker → Bool
  | .queued | .pacing | .claiming => true
  | _ => false

/-- No worker is on its way to a claim. -/
def Parked (g : Gateway) : Prop := ∀ p ∈ g.dispatcher.workers, p.exposed = false

def WorkerAction.faults (a : WorkerAction) : Bool :=
  a matches .recover | .outcome (.error (.unexpected _)) _ _

/-- The steps that declare the store unhealthy. -/
def faults (g : Gateway) : Action → Bool
  | .intake .resolve => (g.intake.writer matches .committed _ none _)
  | .delivery (.worker _ action) => action.faults
  | .delivery .housekeepingRecover => true
  | _ => false

def Guarded (g : Gateway) (a : Action) : Prop := faults g a = true → Parked g

instance : DecidablePred Parked := fun g ↦ by unfold Parked; infer_instance

instance (g : Gateway) (a : Action) : Decidable (Guarded g a) := by
  unfold Guarded
  infer_instance

def Action.restarts : Action → Bool
  | .start .. | .crash => true
  | _ => false

variable {g g' : Gateway} {config : Config} {p p' : Worker} {a : Action}

/-- A worker sets out for a claim only if it finds the store healthy. -/
theorem exposed_of_workerStep {a : WorkerAction} (h : workerStep g config p a = some (g', p'))
    (hp' : p'.exposed = true) : p.exposed = true ∨ g.healthy = true ∧ ∃ now, a = .loop now := by
  unfold workerStep at h
  split at h
  case h_1 now =>
    refine .inr ⟨?_, now, rfl⟩
    by_contra hh
    rw [Bool.not_eq_true] at hh
    simp only [hh, true_or, or_true, if_true] at h
    split_ifs at h <;> cases h <;> cases hp'
  case h_2 | h_3 | h_4 => exact .inl rfl
  case h_7 message result jitter now =>
    obtain ⟨rfl, rfl⟩ := Prod.mk.inj (Option.some.inj h)
    cases result with
    | ok => cases hp'
    | error e => cases e <;> cases hp'
  case h_8 =>
    obtain ⟨store, hstore, he⟩ := Option.map_eq_some_iff.mp h
    obtain ⟨rfl, rfl⟩ := Prod.mk.inj he
    cases hp'
  case h_10 | h_12 => split at h <;> cases h <;> cases hp'
  case h_19 =>
    obtain ⟨rfl, rfl⟩ := Prod.mk.inj (Option.some.inj h)
    cases p <;> cases hp'
  case h_18 | h_20 => cases h
  all_goals
    cases h
    cases hp'

theorem healthy_of_workerStep {a : WorkerAction} (h : workerStep g config p a = some (g', p')) :
    g'.healthy = (g.healthy && !a.faults) := by
  have hkept : ∀ b : Bool, b = (b && !false) := fun b ↦ (Bool.and_true b).symm
  have hlost : ∀ b : Bool, false = (b && !true) := fun b ↦ (Bool.and_false b).symm
  unfold workerStep at h
  split at h
  case h_1 | h_2 => split_ifs at h <;> cases h <;> exact hkept _
  case h_3 =>
    dsimp only at h
    split_ifs at h <;> cases h <;> exact hkept _
  case h_4 | h_8 =>
    obtain ⟨store, hstore, he⟩ := Option.map_eq_some_iff.mp h
    obtain ⟨rfl, rfl⟩ := Prod.mk.inj he
    exact hkept _
  case h_7 message result jitter now =>
    obtain ⟨rfl, rfl⟩ := Prod.mk.inj (Option.some.inj h)
    cases result with
    | ok => exact hkept _
    | error e =>
      cases e with
      | unexpected => exact hlost _
      | _ => exact hkept _
  case h_10 | h_12 => split at h <;> cases h <;> exact hkept _
  case h_17 =>
    cases h
    exact hlost _
  case h_19 =>
    obtain ⟨rfl, rfl⟩ := Prod.mk.inj (Option.some.inj h)
    cases p <;> exact hkept _
  case h_18 | h_20 => cases h
  all_goals
    cases h
    exact hkept _

theorem healthy_of_intakeStep {a : IntakeAction} (h : intakeStep g config a = some g') :
    g'.healthy = (g.healthy && !faults g (.intake a)) := by
  have hkept : ∀ b : Bool, b = (b && !false) := fun b ↦ (Bool.and_true b).symm
  cases a with
  | data message =>
    simp only [intakeStep] at h
    split_ifs at h
    cases h
    simp only [submit]
    split_ifs <;> exact hkept _
  | reply id =>
    simp only [intakeStep] at h
    split_ifs at h
    obtain ⟨result, -, rfl⟩ := Option.map_eq_some_iff.mp h
    exact hkept _
  | commit free now =>
    simp only [intakeStep] at h
    split at h
    · split at h <;> cases h <;> exact hkept _
    · cases h
  | disconnect id =>
    cases h
    exact hkept _
  | take =>
    simp only [intakeStep] at h
    split at h <;> cases h <;> exact hkept _
  | batch | fault =>
    simp only [intakeStep] at h
    split at h <;> cases h
    exact hkept _
  | resolve =>
    simp only [intakeStep] at h
    split at h
    · next batch results stopping hw =>
      cases h
      cases results <;> simp [faults, resolve, hw]
    · cases h
  | close | closePut =>
    simp only [intakeStep] at h
    split_ifs at h
    cases h
    exact hkept _

theorem healthy_of_deliveryStep {a : DeliveryAction} (h : deliveryStep g config a = some g') :
    g'.healthy = (g.healthy && !faults g (.delivery a)) := by
  have hkept : ∀ b : Bool, b = (b && !false) := fun b ↦ (Bool.and_true b).symm
  cases a with
  | worker index action =>
    simp only [deliveryStep] at h
    split at h
    · cases h
    obtain ⟨⟨g₁, p'⟩, hstep, rfl⟩ := Option.map_eq_some_iff.mp h
    have hhealthy := healthy_of_workerStep hstep
    exact hhealthy
  | shieldedJob id now =>
    simp only [deliveryStep] at h
    split_ifs at h
    split at h <;> cases h <;> exact hkept _
  | housekeeping now scan =>
    simp only [deliveryStep] at h
    split at h
    · obtain ⟨store, hs, rfl⟩ := Option.map_eq_some_iff.mp h
      exact hkept _
    · cases h
  | action id verb acknowledgeDuplicate clock =>
    obtain ⟨store, hs, rfl⟩ := Option.map_eq_some_iff.mp h
    exact hkept _
  | set setting =>
    simp only [deliveryStep] at h
    split_ifs at h
    obtain ⟨store, hs, rfl⟩ := Option.map_eq_some_iff.mp h
    exact hkept _
  | shieldedFault | setResume | setDrop =>
    simp only [deliveryStep] at h
    split_ifs at h
    cases h
    exact hkept _
  | housekeepingCancel | stop =>
    cases h
    exact hkept _
  | readSettings | boot | tick | housekeepingFault | housekeepingRecover =>
    simp only [deliveryStep] at h
    split at h <;> cases h
    simp [faults]

/-- Apart from a restart, the health flag is only ever cleared, and by the
faults alone. -/
theorem healthy_step (h : g.step a = some g') (hr : a.restarts = false) :
    g'.healthy = (g.healthy && !faults g a) := by
  cases a with
  | start | crash => cases hr
  | intake action =>
    obtain ⟨config, -, h⟩ := Option.bind_eq_some_iff.mp h
    exact healthy_of_intakeStep h
  | delivery action =>
    obtain ⟨config, -, h⟩ := Option.bind_eq_some_iff.mp h
    exact healthy_of_deliveryStep h

/-- Once no worker is on its way to a claim and the store is not, or no longer,
healthy, no worker sets out. -/
theorem Parked.step (hg : Parked g) (h : g.step a = some g')
    (hf : g.healthy = false ∨ faults g a = true) : Parked g' := by
  cases a with
  | start config now =>
    obtain ⟨store, -, rfl⟩ := Option.map_eq_some_iff.mp h
    exact fun p hp ↦ absurd hp List.not_mem_nil
  | crash =>
    obtain ⟨store, -, rfl⟩ := Option.map_eq_some_iff.mp h
    exact fun p hp ↦ absurd hp List.not_mem_nil
  | intake action =>
    obtain ⟨config, -, h⟩ := Option.bind_eq_some_iff.mp h
    intro p hp
    rw [intake_dispatcher h] at hp
    exact hg p hp
  | delivery action =>
    obtain ⟨config, -, h⟩ := Option.bind_eq_some_iff.mp h
    rcases delivery_workers h with hw | ⟨index, worker, p, p', g₁, rfl, hp, hstep, hw⟩ | hready
    · intro p hp
      rw [hw] at hp
      exact hg p hp
    · intro q hq
      rw [hw] at hq
      rcases List.mem_or_eq_of_mem_set hq with hq | rfl
      · exact hg q hq
      by_contra hexposed
      rw [Bool.not_eq_false] at hexposed
      rcases exposed_of_workerStep hstep hexposed with hold | ⟨hhealthy, now, rfl⟩
      · simp [hg p (List.mem_of_getElem? hp)] at hold
      · rcases hf with hf | hf
        · simp [hhealthy] at hf
        · cases hf
    · intro p hp
      rw [hready p hp]
      rfl

theorem parked_of_runs {ops : List Action} (h : Runs Gateway.step {} ops g)
    (hc : Throughout Gateway.step Guarded {} ops) : g.healthy = false → Parked g := by
  refine h.invariant_of_throughout (P := fun g ↦ g.healthy = false → Parked g) ?_ hc
    (fun hg ↦ by cases hg)
  intro u a v hu hguard ha hv
  cases hr : a.restarts with
  | true =>
    cases a with
    | start | crash =>
      obtain ⟨store, -, rfl⟩ := Option.map_eq_some_iff.mp ha
      cases hv
    | intake | delivery => cases hr
  | false =>
    rw [healthy_step ha hr, Bool.and_eq_false_iff, Bool.not_eq_false'] at hv
    rcases hv with hv | hv
    · exact (hu hv).step ha (.inl hv)
    · exact (hguard hv).step ha (.inr hv)

theorem unhealthy_of_runs {ops : List Action} (h : Runs Gateway.step g ops g')
    (hr : ∀ b ∈ ops, b.restarts = false) (hg : g.healthy = false) : g'.healthy = false := by
  induction ops generalizing g with
  | nil =>
    obtain rfl := runs_nil.mp h
    exact hg
  | cons b ops ih =>
    obtain ⟨u, hu, h⟩ := runs_cons.mp h
    refine ih h (fun c hc ↦ hr c (List.mem_cons_of_mem _ hc)) ?_
    rw [healthy_step hu (hr b (List.mem_cons_self ..)), hg, Bool.false_and]

/-- If every fault finds the workers parked, then after the first one no claim
returns a message until a restart. -/
theorem faults_halt_delivery {before mid : List Action} {u w : Gateway} {c : Action} {row : Row}
    (hu : Runs Gateway.step {} before u) (hf : u.healthy = false)
    (hw : Runs Gateway.step u mid w) (hr : ∀ b ∈ mid, b.restarts = false)
    (hc : Throughout Gateway.step Guarded {} (before ++ mid)) : ¬ Claims w c row := by
  have hparked := parked_of_runs (runs_append.mpr ⟨u, hu, hw⟩) hc (unhealthy_of_runs hw hr hf)
  rintro ⟨index, now, -, hclaiming, -⟩
  have hexposed := hparked _ (List.mem_of_getElem? hclaiming)
  cases hexposed

/-- A batch fails while all the workers are parked. -/
def parkedRun : List Action :=
  [.start sampleConfig 0, .delivery .readSettings, .delivery .boot,
    .intake (.data (sampleMessage "m1" "a@example.com")), .intake .take, .intake .batch,
    .intake .fault, .intake .resolve]

theorem faults_halt_delivery_sample : ∃ u w, Runs Gateway.step {} parkedRun u ∧
    u.healthy = false ∧ Runs Gateway.step u [.delivery (.worker 0 (.loop 1))] w ∧
    ∀ c row, ¬ Claims w c row := by
  have hu : (run Gateway.step parkedRun {}).any (fun u ↦ u.healthy = false) := by decide +kernel
  have hc : Throughout Gateway.step Guarded {} (parkedRun ++ [.delivery (.worker 0 (.loop 1))]) := by
    decide +kernel
  obtain ⟨w, hw⟩ : ∃ w, Runs Gateway.step {} (parkedRun ++ [.delivery (.worker 0 (.loop 1))]) w :=
    Option.isSome_iff_exists.mp (by decide +kernel)
  obtain ⟨u, hu, hf⟩ := (Option.any_eq_true ..).mp hu
  obtain ⟨u', hu', hw⟩ := runs_append.mp hw
  obtain rfl := hu'.deterministic hu
  have hf := of_decide_eq_true hf
  exact ⟨u', w, hu, hf, hw, fun c row ↦ faults_halt_delivery hu hf hw (by decide) hc⟩

/-- A batch fails while a worker waits for its permit. -/
def pacingRun : List Action :=
  [.start sampleConfig 0,
    .intake (.data (sampleMessage "m1" "a@example.com")), .intake .take, .intake .batch,
    .intake (.commit 1000000000 1), .intake .resolve,
    .delivery .readSettings, .delivery .boot, .delivery (.worker 0 (.loop 2)),
    .intake (.data (sampleMessage "m2" "b@example.com")), .intake .take, .intake .batch,
    .intake .fault, .intake .resolve]

theorem claim_after_fault : ∃ u w c row, Runs Gateway.step {} pacingRun u ∧ u.healthy = false ∧
    Runs Gateway.step u [.delivery (.worker 0 (.permit 4 0))] w ∧ Claims w c row := by
  have hu : (run Gateway.step pacingRun {}).any (fun u ↦ u.healthy = false) := by decide +kernel
  have hw : (run Gateway.step (pacingRun ++ [.delivery (.worker 0 (.permit 4 0))]) {}).any
      (fun w ↦ w.dispatcher.workers[0]?.any (· matches .claiming) ∧
        (w.store.claimed 4).isSome) := by decide +kernel
  obtain ⟨u, hu, hf⟩ := (Option.any_eq_true ..).mp hu
  obtain ⟨w, hw, hclaim⟩ := (Option.any_eq_true ..).mp hw
  obtain ⟨u', hu', hw⟩ := runs_append.mp hw
  obtain rfl := hu'.deterministic hu
  obtain ⟨hclaiming, hclaimed⟩ := of_decide_eq_true hclaim
  obtain ⟨worker, hclaiming, hmatch⟩ := (Option.any_eq_true ..).mp hclaiming
  obtain ⟨row, hclaimed⟩ := Option.isSome_iff_exists.mp hclaimed
  obtain rfl : worker = .claiming := by
    cases worker <;> first | rfl | cases hmatch
  exact ⟨u', w, _, row, hu, of_decide_eq_true hf, hw, 0, 4, rfl, hclaiming, hclaimed⟩

end Gateway

end NoreplyGateway
