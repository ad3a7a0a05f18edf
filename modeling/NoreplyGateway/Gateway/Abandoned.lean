import NoreplyGateway.Gateway.Pacing

namespace NoreplyGateway

open Machine Store

namespace Store

variable {s t : Session} {op : Op} {id : String}

theorem ne_sending_of_resultCounter {status : Status} {counter : Counter}
    (h : resultCounter status = some counter) : status ≠ .sending := by
  rintro rfl
  cases h

theorem RowChange.sending {x : Option Row} {r : Row} (h : RowChange op x (some r))
    (hs : r.status = .sending) : x = some r ∨ ∃ now, op = .claim now := by
  cases h with
  | same => exact .inl rfl
  | claimed => exact .inr ⟨_, rfl⟩
  | finished hs' hc => exact absurd hs (ne_sending_of_resultCounter hc)
  | _ => cases hs

/-- Only its claim puts a message in flight. -/
theorem sending_of_step (h : s.step op = some t) (ht : t.Sending id) :
    s.Sending id ∨ ∃ now row, op = .claim now ∧ s.claimed now = some row ∧ row.id = id := by
  obtain ⟨r', hr', hs'⟩ := ht
  have hchange := step_row h id
  rw [hr'] at hchange
  cases op with
  | claim now =>
    cases transition_of_step h with
    | idle => exact .inl ⟨r', hr', hs'⟩
    | @expired config now row hr hn hc =>
      refine .inl ?_
      by_cases he : id = row.id
      · rw [he, expire_messages, Table.find?_updateAt, hc.found] at hr'
        obtain rfl := Option.some.inj hr'
        cases hs'
      · rw [expire_messages, Table.find?_updateAt_ne _ he] at hr'
        exact ⟨r', hr', hs'⟩
    | @claimed config now row hr hn hc =>
      by_cases he : id = row.id
      · exact .inr ⟨now, _, rfl, hn, he.symm⟩
      · rw [reserve_messages, Table.find?_updateAt_ne _ he] at hr'
        exact .inl ⟨r', hr', hs'⟩
  | _ =>
    rcases hchange.sending hs' with hold | ⟨now, he⟩
    · exact .inl ⟨r', hold, hs'⟩
    · cases he

theorem not_sending_of_finish {status : Status} {error : String} {delay : PyFloat}
    {cooldown : Bool} {now : Time}
    (h : s.step (.finish id status error delay cooldown now) = some t) : ¬ t.Sending id := by
  cases transition_of_step h with
  | @finished _ _ _ _ _ _ row next counter hr hf hs hc hn =>
    rintro ⟨r, hr', hs'⟩
    rw [settle_messages, Table.find?_updateAt, hf] at hr'
    obtain rfl := Option.some.inj hr'
    exact ne_sending_of_resultCounter hc hs'

end Store

namespace Gateway

variable {g g' u w : Gateway} {config : Config} {p p' : Worker} {a : Action} {index : ℕ}
  {id : String} {interrupted : Bool}

/-- The messages whose attempt a worker, or a shielded job, is to end. -/
def heldIds (g : Gateway) : List String := (held g).map (·.1)

/-- The step gives the attempt on the message up without recording its end: a job
raises, or its waiting worker is cancelled. -/
inductive Abandons (g : Gateway) : Action → String → Prop
  | fault {index : ℕ} {p : Worker} {id : String} {interrupted : Bool}
      (hp : g.dispatcher.workers[index]? = some p) (hh : p.holds = some (id, interrupted)) :
      Abandons g (.delivery (.worker index .fault)) id
  | cancel {index : ℕ} {p : Worker} {id : String}
      (hp : g.dispatcher.workers[index]? = some p) (hh : p.holds = some (id, false))
      (hs : ∀ message, p ≠ .sending message) : Abandons g (.delivery (.worker index .cancel)) id
  | raised {a : Action} {id : String} {status : Status} {error : String} {delay : PyFloat}
      {cooldown : Bool} {now : Time}
      (hj : job g a = some (.finish id status error delay cooldown now))
      (hs : g.store.step (.finish id status error delay cooldown now) = none) : Abandons g a id
  | shieldedFault {id : String} (h : id ∈ g.dispatcher.shielded) :
      Abandons g (.delivery (.shieldedFault id)) id

theorem mem_heldIds : id ∈ heldIds g ↔
    (∃ p ∈ g.dispatcher.workers, ∃ interrupted, p.holds = some (id, interrupted)) ∨
      id ∈ g.dispatcher.shielded := by
  simp only [heldIds, held, heldBy, List.map_append, List.mem_append, List.mem_map,
    List.mem_filterMap, List.map_map]
  constructor
  · rintro (⟨⟨i, b⟩, ⟨p, hp, hh⟩, rfl⟩ | ⟨i, hi, rfl⟩)
    · exact .inl ⟨p, hp, b, hh⟩
    · exact .inr hi
  · rintro (⟨p, hp, b, hh⟩ | hi)
    · exact .inl ⟨(id, b), ⟨p, hp, hh⟩, rfl⟩
    · exact .inr ⟨id, hi, rfl⟩

/-- What becomes of the attempt that a worker holds. -/
theorem worker_held {action : WorkerAction} (hp : g.dispatcher.workers[index]? = some p)
    (hh : p.holds = some (id, interrupted)) (h : workerStep g config p action = some (g', p')) :
    (∃ interrupted', p'.holds = some (id, interrupted')) ∨ id ∈ g'.dispatcher.shielded ∨
    Abandons g (.delivery (.worker index action)) id ∨
    ∃ status error delay cooldown now,
      g.store.step (.finish id status error delay cooldown now) = some g'.store := by
  unfold workerStep at h
  split at h
  case h_6 | h_9 =>
    cases h
    exact .inl ⟨_, hh⟩
  case h_7 message result jitter now =>
    obtain ⟨rfl, rfl⟩ := Prod.mk.inj (Option.some.inj h)
    refine .inl ⟨interrupted, ?_⟩
    cases result with
    | ok => exact hh
    | error e => cases e <;> exact hh
  case h_8 =>
    obtain ⟨store, -, he⟩ := Option.map_eq_some_iff.mp h
    obtain ⟨rfl, rfl⟩ := Prod.mk.inj he
    exact .inl ⟨_, hh⟩
  case h_10 id' verdict now =>
    obtain ⟨rfl, rfl⟩ := Prod.mk.inj (Option.some.inj hh)
    split at h
    · next store hs =>
      cases h
      exact .inr (.inr (.inr ⟨_, _, _, _, _, hs⟩))
    · next hs => exact .inr (.inr (.inl (.raised (by simp only [job, hp]) hs)))
  case h_12 id' now =>
    obtain ⟨rfl, rfl⟩ := Prod.mk.inj (Option.some.inj hh)
    split at h
    · next store hs =>
      cases h
      exact .inr (.inr (.inr ⟨_, _, _, _, _, hs⟩))
    · next hs => exact .inr (.inr (.inl (.raised (by simp only [job, hp]) hs)))
  case h_14 | h_15 | h_16 => exact .inr (.inr (.inl (.fault hp hh)))
  case h_19 =>
    obtain ⟨rfl, rfl⟩ := Prod.mk.inj (Option.some.inj h)
    cases p with
    | sending message =>
      obtain ⟨rfl, rfl⟩ := Prod.mk.inj (Option.some.inj hh)
      exact .inl ⟨true, rfl⟩
    | interrupted id' =>
      obtain ⟨rfl, rfl⟩ := Prod.mk.inj (Option.some.inj hh)
      exact .inr (.inl List.mem_cons_self)
    | claimed message =>
      cases message with
      | none => cases hh
      | some message =>
        obtain ⟨rfl, rfl⟩ := Prod.mk.inj (Option.some.inj hh)
        exact .inr (.inr (.inl (.cancel hp rfl (by simp))))
    | pausing message error | paused message error | finishing id' verdict =>
      obtain ⟨rfl, rfl⟩ := Prod.mk.inj (Option.some.inj hh)
      exact .inr (.inr (.inl (.cancel hp rfl (by simp))))
    | _ => cases hh
  case h_18 | h_20 => cases h
  all_goals cases hh

theorem worker_shielded {action : WorkerAction} (h : workerStep g config p action = some (g', p')) :
    g.dispatcher.shielded ⊆ g'.dispatcher.shielded := by
  cases workerStep_effect h with
  | shield hs hd =>
    rw [hd]
    exact List.subset_cons_self _ _
  | keep hs hd | interrupt hs hd | setting hs hd | claim hs hd | finish hs hd =>
    rw [hd]
    exact List.Subset.refl _

/-- The dispatcher has no workers before it has started. -/
def Manned (g : Gateway) : Prop := g.dispatcher.boot = .running ∨ g.dispatcher.workers = []

theorem Manned.step (hg : Manned g) (h : g.step a = some g') : Manned g' := by
  cases a with
  | start | crash =>
    obtain ⟨store, -, rfl⟩ := Option.map_eq_some_iff.mp h
    exact .inr rfl
  | intake action =>
    obtain ⟨config, -, hstep⟩ := Option.bind_eq_some_iff.mp h
    rw [Manned, intake_dispatcher hstep]
    exact hg
  | delivery action =>
    obtain ⟨config, -, hstep⟩ := Option.bind_eq_some_iff.mp h
    rcases hg with hb | hnone
    · exact .inl ((delivery_rates hstep).boot hb)
    · rcases workers_kept hstep with ⟨index, action, rfl⟩ | rfl | hw
      · simp [deliveryStep, hnone] at hstep
      · simp only [deliveryStep] at hstep
        split at hstep <;> cases hstep
        exact .inl rfl
      · exact .inr (hw.trans hnone)

/-- A held message stays held, or the step ends its attempt, or gives it up. -/
theorem held_step (hg : Manned g) (h : g.step a = some g') (hr : a.restarts = false)
    (hid : id ∈ heldIds g) :
    id ∈ heldIds g' ∨ Abandons g a id ∨ ∃ status error delay cooldown now,
      g.store.step (.finish id status error delay cooldown now) = some g'.store := by
  have hkept : g'.dispatcher.workers = g.dispatcher.workers →
      g'.dispatcher.shielded = g.dispatcher.shielded → id ∈ heldIds g' := by
    intro hw hd
    rw [mem_heldIds, hw, hd]
    exact mem_heldIds.mp hid
  cases a with
  | start | crash => cases hr
  | intake action =>
    obtain ⟨config, -, hstep⟩ := Option.bind_eq_some_iff.mp h
    have hd := intake_dispatcher hstep
    exact .inl (hkept (by rw [hd]) (by rw [hd]))
  | delivery action =>
    obtain ⟨config, -, hstep⟩ := Option.bind_eq_some_iff.mp h
    cases action with
    | worker index action =>
      simp only [deliveryStep] at hstep
      split at hstep
      · cases hstep
      next p hp =>
        obtain ⟨⟨g₁, p'⟩, hworker, rfl⟩ := Option.map_eq_some_iff.mp hstep
        obtain ⟨hi, -⟩ := List.getElem?_eq_some_iff.mp hp
        have hset : index < g₁.dispatcher.workers.length := by
          rw [(workerStep_frame hworker).1]
          exact hi
        rcases mem_heldIds.mp hid with ⟨q, hq, b, hh⟩ | hd
        · obtain ⟨j, hj⟩ := List.mem_iff_getElem?.mp hq
          by_cases he : index = j
          · subst he
            obtain rfl := Option.some.inj (hp.symm.trans hj)
            rcases worker_held hp hh hworker with ⟨b', hh'⟩ | hd | habandons | hfinish
            · refine .inl (mem_heldIds.mpr (.inl ⟨p', ?_, b', hh'⟩))
              exact List.mem_of_getElem? (List.getElem?_set_self hset)
            · exact .inl (mem_heldIds.mpr (.inr hd))
            · exact .inr (.inl habandons)
            · exact .inr (.inr hfinish)
          · refine .inl (mem_heldIds.mpr (.inl ⟨q, List.mem_of_getElem? (i := j) ?_, b, hh⟩))
            simp only [List.getElem?_set_ne he, (workerStep_frame hworker).1]
            exact hj
        · exact .inl (mem_heldIds.mpr (.inr (worker_shielded hworker hd)))
    | shieldedJob id' now =>
      simp only [deliveryStep] at hstep
      split_ifs at hstep with hmem
      by_cases he : id = id'
      · subst he
        split at hstep
        · next store hs =>
          cases hstep
          exact .inr (.inr ⟨_, _, _, _, _, hs⟩)
        · next hs => exact .inr (.inl (.raised rfl hs))
      · have hrest : id ∈ g.dispatcher.shielded → id ∈ g.dispatcher.shielded.erase id' :=
          (List.mem_erase_of_ne he).mpr
        have hold := mem_heldIds.mp hid
        split at hstep <;> cases hstep <;> exact .inl (mem_heldIds.mpr (hold.imp_right hrest))
    | shieldedFault id' =>
      simp only [deliveryStep] at hstep
      split_ifs at hstep with hmem
      cases hstep
      by_cases he : id = id'
      · subst he
        exact .inr (.inl (.shieldedFault hmem))
      · exact .inl (mem_heldIds.mpr ((mem_heldIds.mp hid).imp_right (List.mem_erase_of_ne he).mpr))
    | boot =>
      have hold := mem_heldIds.mp hid
      simp only [deliveryStep] at hstep
      split at hstep <;> cases hstep
      next settings hread =>
        rcases hg with hb | hnone
        · rw [hb] at hread
          cases hread
        · rw [hnone] at hold
          refine .inl (mem_heldIds.mpr (.inr (hold.resolve_left ?_)))
          rintro ⟨q, hq, -⟩
          exact List.not_mem_nil hq
    | housekeeping now scan =>
      simp only [deliveryStep] at hstep
      split at hstep
      · obtain ⟨store, -, rfl⟩ := Option.map_eq_some_iff.mp hstep
        exact .inl (hkept rfl rfl)
      · cases hstep
    | action id' verb acknowledgeDuplicate clock =>
      obtain ⟨store, -, rfl⟩ := Option.map_eq_some_iff.mp hstep
      exact .inl (hkept rfl rfl)
    | set setting =>
      simp only [deliveryStep] at hstep
      split_ifs at hstep
      obtain ⟨store, -, rfl⟩ := Option.map_eq_some_iff.mp hstep
      exact .inl (hkept rfl rfl)
    | setResume setting =>
      simp only [deliveryStep] at hstep
      split_ifs at hstep
      cases hstep
      cases setting <;> exact .inl (hkept rfl rfl)
    | setDrop =>
      simp only [deliveryStep] at hstep
      split_ifs at hstep
      cases hstep
      exact .inl (hkept rfl rfl)
    | housekeepingCancel | stop =>
      cases hstep
      exact .inl (hkept rfl rfl)
    | readSettings | tick | housekeepingFault | housekeepingRecover =>
      simp only [deliveryStep] at hstep
      split at hstep <;> cases hstep
      exact .inl (hkept rfl rfl)

/-- A worker that lets go of its message was the only one to hold it. -/
theorem drop_worker (hg : Holding g) (hp : g.dispatcher.workers[index]? = some p)
    (hh : p.holds = some (id, interrupted)) (hnone : p'.holds = none)
    (hw : g'.dispatcher.workers = g.dispatcher.workers.set index p')
    (hd : g'.dispatcher.shielded = g.dispatcher.shielded) :
    id ∈ heldIds g ∧ id ∉ heldIds g' := by
  obtain ⟨rest, hrest⟩ := heldBy_set hp
  obtain ⟨hold, hnew⟩ := hrest g.dispatcher.shielded
  have hnew := (hnew p').map (·.1)
  rw [hnone] at hnew
  have hold := hold.map (·.1)
  rw [hh] at hold
  have hdistinct := hold.nodup_iff.mp hg.distinct
  rw [heldIds, heldIds, held, held, hw, hd]
  refine ⟨hold.mem_iff.mpr List.mem_cons_self, fun hid ↦ ?_⟩
  exact (List.nodup_cons.mp hdistinct).1 (hnew.mem_iff.mp hid)

theorem drop_shielded (hg : Holding g) (h : id ∈ g.dispatcher.shielded)
    (hw : g'.dispatcher.workers = g.dispatcher.workers)
    (hd : g'.dispatcher.shielded = g.dispatcher.shielded.erase id) :
    id ∈ heldIds g ∧ id ∉ heldIds g' := by
  obtain ⟨rest, hold, hnew⟩ := held_erase h
  have hold := hold.map (·.1)
  have hdistinct := hold.nodup_iff.mp hg.distinct
  refine ⟨hold.mem_iff.mpr List.mem_cons_self, ?_⟩
  rw [heldIds, held, hw, hd, hnew]
  exact (List.nodup_cons.mp hdistinct).1

/-- The jobs that record the end of an attempt. -/
inductive EndingJob (g : Gateway) :
    Action → String → Status → String → PyFloat → Bool → Time → Prop
  | verdict {index : ℕ} {id : String} {v : Verdict} {now : Time}
      (hp : g.dispatcher.workers[index]? = some (.finishing id v)) :
      EndingJob g (.delivery (.worker index (.finishJob now))) id v.status v.error v.delay
        v.cooldown now
  | interrupted {index : ℕ} {id : String} {now : Time}
      (hp : g.dispatcher.workers[index]? = some (.interrupted id)) :
      EndingJob g (.delivery (.worker index (.interruptJob now))) id .uncertain interruption
        (0 : ℚ) false now
  | shielded {id : String} {now : Time} :
      EndingJob g (.delivery (.shieldedJob id now)) id .uncertain interruption (0 : ℚ) false now

theorem endingJob_of_job {status : Status} {error : String} {delay : PyFloat} {cooldown : Bool}
    {now : Time} (h : job g a = some (.finish id status error delay cooldown now)) :
    EndingJob g a id status error delay cooldown now := by
  unfold job at h
  split at h
  case h_3 => split at h <;> cases h
  case h_5 index action =>
    split at h
    case h_3 id v now hp =>
      cases h
      exact .verdict hp
    case h_4 id now hp =>
      cases h
      exact .interrupted hp
    all_goals cases h
  case h_6 =>
    cases h
    exact .shielded
  all_goals cases h

/-- A message that is given up stays in flight, and nobody holds it. -/
theorem Abandons.step (ha : Abandons g a id) (hg : Holding g) (h : g.step a = some g') :
    g'.store = g.store ∧ id ∈ heldIds g ∧ id ∉ heldIds g' := by
  cases ha with
  | @fault index p _ b hp hh =>
    obtain ⟨config, -, h⟩ := Option.bind_eq_some_iff.mp h
    simp only [deliveryStep, hp] at h
    obtain ⟨⟨g₁, p'⟩, hworker, rfl⟩ := Option.map_eq_some_iff.mp h
    cases p with
    | pausing | finishing | interrupted =>
      cases hworker
      exact ⟨rfl, drop_worker hg hp hh rfl rfl rfl⟩
    | claimed message => cases message <;> cases hworker
    | claiming => cases hh
    | _ => cases hworker
  | @cancel index p _ hp hh hs =>
    obtain ⟨config, -, h⟩ := Option.bind_eq_some_iff.mp h
    simp only [deliveryStep, hp] at h
    obtain ⟨⟨g₁, p'⟩, hworker, rfl⟩ := Option.map_eq_some_iff.mp h
    cases p with
    | claimed message =>
      cases message with
      | none => cases hh
      | some message =>
        cases hworker
        exact ⟨rfl, drop_worker hg hp hh rfl rfl rfl⟩
    | pausing | paused | finishing =>
      cases hworker
      exact ⟨rfl, drop_worker hg hp hh rfl rfl rfl⟩
    | sending message => exact absurd rfl (hs message)
    | _ => cases hh
  | @raised _ _ status error delay cooldown now hj hs =>
    cases endingJob_of_job hj with
    | verdict hp =>
      obtain ⟨config, -, h⟩ := Option.bind_eq_some_iff.mp h
      simp only [deliveryStep, hp] at h
      obtain ⟨⟨g₁, p'⟩, hworker, rfl⟩ := Option.map_eq_some_iff.mp h
      simp only [workerStep, hs] at hworker
      cases hworker
      exact ⟨rfl, drop_worker hg hp rfl rfl rfl rfl⟩
    | interrupted hp =>
      obtain ⟨config, -, h⟩ := Option.bind_eq_some_iff.mp h
      simp only [deliveryStep, hp] at h
      obtain ⟨⟨g₁, p'⟩, hworker, rfl⟩ := Option.map_eq_some_iff.mp h
      simp only [workerStep, hs] at hworker
      cases hworker
      exact ⟨rfl, drop_worker hg hp rfl rfl rfl rfl⟩
    | shielded =>
      obtain ⟨config, -, h⟩ := Option.bind_eq_some_iff.mp h
      simp only [deliveryStep, hs] at h
      split_ifs at h with hmem
      cases h
      exact ⟨rfl, drop_shielded hg hmem rfl rfl⟩
  | shieldedFault hmem =>
    obtain ⟨config, -, h⟩ := Option.bind_eq_some_iff.mp h
    simp only [deliveryStep] at h
    split_ifs at h
    cases h
    exact ⟨rfl, drop_shielded hg hmem rfl rfl⟩

/-- A message comes to be held by its claim alone. -/
theorem held_or_idle (h : g.step a = some g') (hid : id ∈ heldIds g') :
    id ∈ heldIds g ∨ ¬ g.store.Sending id := by
  cases step_effect h with
  | frame hs hh =>
    obtain ⟨l, hl, hsub⟩ := hh
    exact .inl ((hsub.map (·.1)).subset ((hl.map (·.1)).mem_iff.mpr hid))
  | interrupt hs hh hh' =>
    have hids := (hh'.map (·.1)).trans (hh.map (·.1)).symm
    exact .inl (hids.mem_iff.mp hid)
  | quiet hq hs hh => exact .inl ((hh.map (·.1)).mem_iff.mp hid)
  | @claim now hs hh =>
    have hids := (hh.map (·.1)).mem_iff.mp hid
    cases hc : g.store.claimed now with
    | none =>
      rw [hc] at hids
      exact .inl hids
    | some row =>
      rw [hc] at hids
      rcases List.mem_cons.mp hids with rfl | hids
      · exact .inr (not_sending_of_claimed hc)
      · exact .inl hids
  | finish hs hh hh' hu =>
    have hrest := (hh'.map (·.1)).mem_iff.mp hid
    exact .inl ((hh.map (·.1)).mem_iff.mpr (List.mem_cons_of_mem _ hrest))
  | reset hr hs hh =>
    rw [heldIds, hh] at hid
    exact absurd hid List.not_mem_nil

theorem running_of_enabled (h : g.step a = some g') (hr : a.restarts = false) :
    g.store.running ≠ none := by
  cases a with
  | start | crash => cases hr
  | intake | delivery =>
    obtain ⟨config, hrun, -⟩ := Option.bind_eq_some_iff.mp h
    simp [hrun]

/-- Nobody ends the flight of a message that nobody holds. -/
theorem sending_kept (h : g.step a = some g') (hr : a.restarts = false)
    (hs : g.store.Sending id) (hid : id ∉ heldIds g) : g'.store.Sending id := by
  cases step_effect h with
  | frame he | interrupt he => rw [he]; exact hs
  | quiet hq hop hh => exact hs.step hop (hq.not_ends id)
  | claim hop hh => exact hs.step hop (by simp [Op.Ends])
  | finish hop hh hh' hu =>
    refine hs.step hop ?_
    rintro rfl
    exact hid ((hh.map (·.1)).mem_iff.mpr List.mem_cons_self)
  | reset hreset hop hh =>
    rcases hreset with rfl | ⟨config, now, rfl⟩
    · exact hs.step hop (by simp [Op.Ends])
    · generalize g'.store = t at hop
      cases transition_of_step hop with
      | start hrun ho => exact absurd hrun (running_of_enabled h hr)

theorem held_of_sending (h : g.step a = some g') (hs : g'.store.Sending id) :
    g.store.Sending id ∨ id ∈ heldIds g' := by
  cases step_effect h with
  | frame he | interrupt he => rw [he] at hs; exact .inl hs
  | quiet hq hop hh =>
    rcases sending_of_step hop hs with hold | ⟨now, row, rfl, -, -⟩
    · exact .inl hold
    · exact hq.elim
  | claim hop hh =>
    rcases sending_of_step hop hs with hold | ⟨now, row, he, hc, rfl⟩
    · exact .inl hold
    · cases he
      rw [hc] at hh
      exact .inr ((hh.map (·.1)).mem_iff.mpr List.mem_cons_self)
  | finish hop hh hh' hu =>
    rcases sending_of_step hop hs with hold | ⟨now, row, he, -, -⟩
    · exact .inl hold
    · cases he
  | reset hreset hop hh =>
    rcases sending_of_step hop hs with hold | ⟨now, row, rfl, -, -⟩
    · exact .inl hold
    · rcases hreset with he | ⟨config, now, he⟩ <;> cases he

/-- A step of the run, which begins in the first state, gives the message up. -/
def GivenUp (s : Gateway) (life : List Action) (id : String) : Prop :=
  ∃ k b k' v, life = k ++ b :: k' ∧ Runs Gateway.step s k v ∧ Abandons v b id

variable {s v : Gateway} {k life : List Action}

theorem givenUp_concat (hv : Runs Gateway.step s k v) :
    GivenUp s (k ++ [a]) id ↔ GivenUp s k id ∨ Abandons v a id := by
  constructor
  · rintro ⟨k₁, b, k₂, u, he, hu, hb⟩
    rcases List.eq_nil_or_concat k₂ with rfl | ⟨k₃, c, rfl⟩
    · obtain ⟨rfl, hab⟩ := List.append_inj' he rfl
      obtain rfl := List.singleton_inj.mp hab
      obtain rfl := hu.deterministic hv
      exact .inr hb
    · have he' : k ++ [a] = (k₁ ++ b :: k₃) ++ [c] := by
        rw [he]
        simp
      obtain ⟨rfl, -⟩ := List.append_inj' he' rfl
      exact .inl ⟨k₁, b, k₃, u, rfl, hu, hb⟩
  · rintro (⟨k₁, b, k₂, u, rfl, hu, hb⟩ | ha)
    · exact ⟨k₁, b, k₂ ++ [a], u, by simp, hu, hb⟩
    · exact ⟨k, a, [], v, rfl, hv, ha⟩

/-- The messages in flight are those that a worker or a shielded job holds and
those that were given up. -/
structure Flight (s : Gateway) (k : List Action) (v : Gateway) : Prop where
  holding : Holding v
  manned : Manned v
  sending : ∀ id, v.store.Sending id → id ∈ heldIds v ∨ GivenUp s k id
  given : ∀ id, GivenUp s k id → v.store.Sending id ∧ id ∉ heldIds v

theorem Flight.step (hf : Flight s k v) (hk : Runs Gateway.step s k v) (h : v.step a = some w)
    (hr : a.restarts = false) : Flight s (k ++ [a]) w := by
  refine ⟨hf.holding.step h, hf.manned.step h, fun id hs ↦ ?_, fun id hg ↦ ?_⟩
  · rw [givenUp_concat hk]
    rcases held_of_sending h hs with hold | hid
    · rcases hf.sending id hold with hid | hgiven
      · rcases held_step hf.manned h hr hid with hid | ha | ⟨_, _, _, _, _, hfinish⟩
        · exact .inl hid
        · exact .inr (.inr ha)
        · exact absurd hs (not_sending_of_finish hfinish)
      · exact .inr (.inl hgiven)
    · exact .inl hid
  · rcases (givenUp_concat hk).mp hg with hgiven | ha
    · obtain ⟨hold, hfree⟩ := hf.given id hgiven
      refine ⟨sending_kept h hr hold hfree, fun hid ↦ ?_⟩
      rcases held_or_idle h hid with hid | hidle
      · exact hfree hid
      · exact hidle hold
    · obtain ⟨hstore, hid, hfree⟩ := ha.step hf.holding h
      rw [hstore]
      exact ⟨hf.holding.sending id hid, hfree⟩

theorem not_sending_of_start {config : Config} {now : Time}
    (h : g.step (.start config now) = some g') : ¬ g'.store.Sending id := by
  obtain ⟨store, hstore, rfl⟩ := Option.map_eq_some_iff.mp h
  cases transition_of_step hstore with
  | start hr ho =>
    rintro ⟨r, hfound, hs⟩
    simp only [started, reopen_messages, Table.find?_update] at hfound
    obtain ⟨r₀, -, rfl⟩ := Option.map_eq_some_iff.mp hfound
    by_cases hsending : r₀.status = .sending <;> simp [hsending, recoverRow] at hs

/-- In every state of a process, the messages that the next start would find in
flight are exactly those that its workers and shielded jobs hold, and those whose
attempt was given up in its life. -/
theorem in_flight_iff {before : List Action} {config : Config} {now : Time}
    (hg : Runs Gateway.step {} before g) (hs : g.step (.start config now) = some s)
    (hw : Runs Gateway.step s life w) (hr : ∀ b ∈ life, b.restarts = false) :
    w.store.Sending id ↔ id ∈ (held w).map (·.1) ∨
      ∃ k b k' v, life = k ++ b :: k' ∧ Runs Gateway.step s k v ∧ Abandons v b id := by
  have hempty : ∀ {id}, ¬ GivenUp s [] id := by
    rintro id ⟨k, b, k', v, he, -⟩
    simp at he
  have hfirst : Flight s [] s := by
    have hrun : Runs Gateway.step {} (before ++ [.start config now]) s :=
      runs_concat.mpr ⟨g, hg, hs⟩
    refine ⟨.of_runs hrun, ?_, fun id hsending ↦ absurd hsending (not_sending_of_start hs),
      fun id hgiven ↦ absurd hgiven hempty⟩
    obtain ⟨store, -, rfl⟩ := Option.map_eq_some_iff.mp hs
    exact .inr rfl
  have hflight : Flight s life w := by
    refine hw.trace_invariant (P := fun k v ↦ (∀ b ∈ k, b.restarts = false) → Flight s k v) ?_ ?_ hr
    · exact fun _ ↦ hfirst
    · intro k v b v' hv ih hstep hk
      exact (ih fun c hc ↦ hk c (List.mem_append_left _ hc)).step hv hstep (hk b (by simp))
  constructor
  · exact hflight.sending id
  · rintro (hid | hgiven)
    · exact hflight.holding.sending id hid
    · exact (hflight.given id hgiven).1

/-- The first message has been accepted upstream, and its result is to be recorded. -/
def sentRun : List Action :=
  readyRun.tail ++ [.delivery (.worker 0 (.loop 2)), .delivery (.worker 0 (.permit 2 0)),
    .delivery (.worker 0 (.claimJob 2)), .delivery (.worker 0 .deliver),
    .delivery (.worker 0 (.outcome (.ok ()) 1 3))]

/-- The job that records the result raises. -/
theorem in_flight_sample : ∃ s w, Gateway.step {} (.start sampleConfig 0) = some s ∧
    Runs Gateway.step s (sentRun ++ [.delivery (.worker 0 .fault)]) w ∧ w.store.Sending "m1" := by
  have hs : (Gateway.step {} (.start sampleConfig 0)).any (fun s ↦
      (run Gateway.step sentRun s).any (fun v ↦
        v.dispatcher.workers[0]?.any (·.holds = some ("m1", false)) ∧
        (v.step (.delivery (.worker 0 .fault))).isSome)) := by decide +kernel
  obtain ⟨s, hs, h⟩ := (Option.any_eq_true ..).mp hs
  obtain ⟨v, hv, h⟩ := (Option.any_eq_true ..).mp h
  obtain ⟨hholds, hw⟩ := of_decide_eq_true h
  obtain ⟨w, hw⟩ := Option.isSome_iff_exists.mp hw
  obtain ⟨p, hp, hh⟩ := (Option.any_eq_true ..).mp hholds
  have hrun : Runs Gateway.step s (sentRun ++ [.delivery (.worker 0 .fault)]) w :=
    runs_concat.mpr ⟨v, hv, hw⟩
  have hgiven : Abandons v (.delivery (.worker 0 .fault)) "m1" := .fault hp (of_decide_eq_true hh)
  refine ⟨s, w, hs, hrun, (in_flight_iff (runs_nil.mpr rfl) hs hrun (by decide)).mpr (.inr ?_)⟩
  exact ⟨sentRun, _, [], v, rfl, hv, hgiven⟩

end Gateway

end NoreplyGateway
