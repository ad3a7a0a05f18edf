import NoreplyGateway.Gateway.Pacing

namespace NoreplyGateway

open Machine Store

namespace Gateway

/-- The steps that a worker can still take once delivery stops. -/
def Worker.rank : Worker → ℕ
  | .ended => 0
  | .ready => 1
  | .finished | .failed | .claimed none => 2
  | .interrupted _ | .finishing .. => 3
  | .paused .. => 4
  | .pausing .. => 5
  | .sending _ => 6
  | .claimed (some _) => 7
  | .claiming => 8
  | .pacing => 9
  | .queued => 10

def remaining (g : Gateway) : ℕ := (g.dispatcher.workers.map Worker.rank).sum

def Action.works : Action → Bool
  | .delivery (.worker ..) => true
  | _ => false

variable {g g' u w : Gateway} {config : Config} {p p' : Worker} {a : Action} {index : ℕ}

theorem cancelled_rank (hp : p ≠ .ended) : (cancelled g p).2.rank < p.rank := by
  cases p with
  | ended => exact absurd rfl hp
  | claimed message => cases message <;> simp [cancelled, Worker.rank]
  | _ => simp [cancelled, Worker.rank]

/-- Once delivery stops, a worker only moves towards its end. -/
theorem worker_rank {action : WorkerAction} (hs : g.dispatcher.stopping = true)
    (h : workerStep g config p action = some (g', p')) : p'.rank < p.rank := by
  unfold workerStep at h
  split at h
  case h_1 =>
    rw [if_pos hs] at h
    cases h
    simp [Worker.rank]
  case h_2 =>
    split_ifs at h
    cases h
    simp [Worker.rank]
  case h_3 =>
    dsimp only at h
    rw [if_pos (.inl hs)] at h
    cases h
    simp [Worker.rank]
  case h_4 =>
    obtain ⟨store, -, he⟩ := Option.map_eq_some_iff.mp h
    obtain ⟨rfl, rfl⟩ := Prod.mk.inj he
    cases g.store.claimed _ <;> simp [Worker.rank]
  case h_7 message result jitter now =>
    obtain ⟨rfl, rfl⟩ := Prod.mk.inj (Option.some.inj h)
    cases result with
    | ok => simp [Worker.rank]
    | error e => cases e <;> simp [Worker.rank]
  case h_8 =>
    obtain ⟨store, -, he⟩ := Option.map_eq_some_iff.mp h
    obtain ⟨rfl, rfl⟩ := Prod.mk.inj he
    simp [Worker.rank]
  case h_10 | h_12 => split at h <;> cases h <;> simp [Worker.rank]
  case h_19 _ hne =>
    obtain ⟨rfl, rfl⟩ := Prod.mk.inj (Option.some.inj h)
    exact cancelled_rank hne
  case h_18 | h_20 => cases h
  all_goals
    cases h
    simp [Worker.rank]

theorem sum_rank_set (h : g.dispatcher.workers[index]? = some p) (p' : Worker) :
    ((g.dispatcher.workers.set index p').map Worker.rank).sum + p.rank = remaining g + p'.rank := by
  obtain ⟨hi, rfl⟩ := List.getElem?_eq_some_iff.mp h
  have hold := ((List.getElem_cons_eraseIdx_perm hi).map Worker.rank).sum_eq
  have hnew := ((List.set_perm_cons_eraseIdx hi p').map Worker.rank).sum_eq
  rw [List.map_cons, List.sum_cons] at hold hnew
  rw [remaining]
  omega

theorem delivery_remaining {a : DeliveryAction} (hs : g.dispatcher.stopping = true)
    (hb : g.dispatcher.boot = .running) (h : deliveryStep g config a = some g') :
    remaining g' + (Action.delivery a).works.toNat ≤ remaining g := by
  cases a with
  | worker index action =>
    simp only [deliveryStep] at h
    split at h
    · cases h
    next p hp =>
      obtain ⟨⟨g₁, p'⟩, hstep, rfl⟩ := Option.map_eq_some_iff.mp h
      have hrank := worker_rank hs hstep
      have hsum := sum_rank_set hp p'
      rw [← (workerStep_frame hstep).1] at hsum
      simp only [remaining, Action.works, Bool.toNat_true] at hsum ⊢
      omega
  | boot =>
    simp only [deliveryStep, hb] at h
    cases h
  | _ =>
    rcases workers_kept h with ⟨index, action, he⟩ | he | hw
    · cases he
    · cases he
    · rw [remaining, remaining, hw]
      exact le_rfl

theorem crash_of_job (h : job g a = some .crash) : a = .crash := by
  unfold job at h
  split at h
  case h_2 => rfl
  case h_3 | h_5 => split at h <;> cases h
  all_goals cases h

theorem running_kept (h : g.step a = some g') (hr : a.restarts = false) :
    g'.store.running = g.store.running := by
  rcases step_job h with he | ⟨op, hjob, hop⟩
  · rw [he]
  · generalize g'.store = t at hop
    cases transition_of_step hop with
    | start hrun ho =>
      rw [start_of_job hjob] at hr
      cases hr
    | crash hrun =>
      rw [crash_of_job hjob] at hr
      cases hr
    | _ => rfl

/-- Delivery stops in a running process whose dispatcher had started. -/
structure Stopping (g : Gateway) : Prop where
  stopping : g.dispatcher.stopping = true
  boot : g.dispatcher.boot = .running
  running : g.store.running.isSome = true

theorem Stopping.step (hg : Stopping g) (h : g.step a = some g') (hr : a.restarts = false) :
    Stopping g' := by
  have hrunning : g'.store.running.isSome = true := by
    rw [running_kept h hr]
    exact hg.running
  cases a with
  | start | crash => cases hr
  | intake action =>
    obtain ⟨config, -, hstep⟩ := Option.bind_eq_some_iff.mp h
    have hd := intake_dispatcher hstep
    exact ⟨by rw [hd]; exact hg.stopping, by rw [hd]; exact hg.boot, hrunning⟩
  | delivery action =>
    obtain ⟨config, -, hstep⟩ := Option.bind_eq_some_iff.mp h
    have hrates := delivery_rates hstep
    refine ⟨?_, hrates.boot hg.boot, hrunning⟩
    by_contra hs
    rw [Bool.not_eq_true] at hs
    exact absurd (hrates.stopping hs) (by simp [hg.stopping])

theorem Stopping.remaining (hg : Stopping g) (h : g.step a = some g')
    (hr : a.restarts = false) :
    Gateway.remaining g' + a.works.toNat ≤ Gateway.remaining g := by
  cases a with
  | start | crash => cases hr
  | intake action =>
    obtain ⟨config, -, hstep⟩ := Option.bind_eq_some_iff.mp h
    rw [Gateway.remaining, Gateway.remaining, intake_dispatcher hstep]
    exact le_rfl
  | delivery action =>
    obtain ⟨config, -, hstep⟩ := Option.bind_eq_some_iff.mp h
    exact delivery_remaining hg.stopping hg.boot hstep

/-- No permit admits a worker any more. -/
theorem Stopping.committed (hg : Stopping g) (h : g.step a = some g') (hr : a.restarts = false) :
    Gateway.committed g' ≤ Gateway.committed g := by
  cases step_paces h hr with
  | kept hc hn => exact hc
  | permit he hc hn =>
    rw [hg.stopping] at hc
    exact hc

end Gateway

end NoreplyGateway
