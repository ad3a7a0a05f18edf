import NoreplyGateway.Gateway.System

namespace NoreplyGateway

open Machine Store

namespace Gateway

/-- The message whose attempt a worker is to end, and whether the attempt was
interrupted, so that it can only be recorded as uncertain. -/
def Worker.holds : Worker → Option (String × Bool)
  | .claimed (some message) | .sending message | .pausing message _ | .paused message _ =>
    some (message.id, false)
  | .finishing id _ => some (id, false)
  | .interrupted id => some (id, true)
  | _ => none

def heldBy (workers : List Worker) (shielded : List String) : List (String × Bool) :=
  workers.filterMap Worker.holds ++ shielded.map (·, true)

theorem heldBy_set {workers : List Worker} {index : ℕ} {p : Worker}
    (h : workers[index]? = some p) : ∃ rest : List (String × Bool), ∀ shielded,
      (heldBy workers shielded).Perm (p.holds.toList ++ (rest ++ shielded.map (·, true))) ∧
      ∀ p', (heldBy (workers.set index p') shielded).Perm
        (p'.holds.toList ++ (rest ++ shielded.map (·, true))) := by
  obtain ⟨hi, rfl⟩ := List.getElem?_eq_some_iff.mp h
  have hcons : ∀ (p : Worker) l, (p :: l).filterMap Worker.holds =
      p.holds.toList ++ l.filterMap Worker.holds := by
    intro p l
    cases hp : p.holds <;> simp [hp]
  refine ⟨(workers.eraseIdx index).filterMap Worker.holds, fun shielded ↦ ⟨?_, fun p' ↦ ?_⟩⟩
  · rw [← List.append_assoc, ← hcons]
    exact ((List.getElem_cons_eraseIdx_perm hi).symm.filterMap _).append_right _
  · rw [← List.append_assoc, ← hcons]
    exact ((List.set_perm_cons_eraseIdx hi p').filterMap _).append_right _

/-- What a worker's step does to the store and to the message it holds. -/
inductive WorkerEffect (g : Gateway) (p : Worker) (g' : Gateway) (p' : Worker) : Prop
  | keep (hs : g'.store = g.store) (hd : g'.dispatcher.shielded = g.dispatcher.shielded)
      (hp : p'.holds = none ∨ p'.holds = p.holds)
  | interrupt {id : String} (hs : g'.store = g.store)
      (hd : g'.dispatcher.shielded = g.dispatcher.shielded) (hp : p.holds = some (id, false))
      (hp' : p'.holds = some (id, true))
  | shield {id : String} (hs : g'.store = g.store)
      (hd : g'.dispatcher.shielded = id :: g.dispatcher.shielded) (hp : p.holds = some (id, true))
      (hp' : p'.holds = none)
  | setting {setting : Setting} (hs : g.store.step (.setSetting setting) = some g'.store)
      (hd : g'.dispatcher.shielded = g.dispatcher.shielded) (hp : p'.holds = p.holds)
  | claim {now : Time} (hs : g.store.step (.claim now) = some g'.store)
      (hd : g'.dispatcher.shielded = g.dispatcher.shielded) (hp : p.holds = none)
      (hp' : p' = .claimed (g.store.claimed now))
  | finish {id : String} {interrupted : Bool} {status : Status} {error : String} {delay : PyFloat}
      {cooldown : Bool} {now : Time}
      (hs : g.store.step (.finish id status error delay cooldown now) = some g'.store)
      (hd : g'.dispatcher.shielded = g.dispatcher.shielded)
      (hp : p.holds = some (id, interrupted)) (hp' : p'.holds = none)
      (hu : interrupted = true → status = .uncertain)

variable {g g' : Gateway} {config : Config} {p p' : Worker}

/-- The intake of both states is the same. -/
structure SameIntake (g g' : Gateway) : Prop where
  intake : g'.intake = g.intake
  issued : g'.issued = g.issued
  replies : g'.replies = g.replies

theorem SameIntake.refl : SameIntake g g := ⟨rfl, rfl, rfl⟩

/-- A worker's step leaves the other workers and the intake alone. -/
theorem workerStep_frame {a : WorkerAction} (h : workerStep g config p a = some (g', p')) :
    g'.dispatcher.workers = g.dispatcher.workers ∧ SameIntake g g' := by
  unfold workerStep at h
  split at h
  case h_1 | h_2 =>
    split_ifs at h <;> cases h <;> exact ⟨rfl, .refl⟩
  case h_3 =>
    dsimp only at h
    split_ifs at h <;> cases h <;> exact ⟨rfl, rfl, rfl, rfl⟩
  case h_4 | h_8 =>
    obtain ⟨store, hstore, he⟩ := Option.map_eq_some_iff.mp h
    obtain ⟨rfl, rfl⟩ := Prod.mk.inj he
    exact ⟨rfl, rfl, rfl, rfl⟩
  case h_10 | h_12 =>
    split at h <;> cases h <;> exact ⟨rfl, rfl, rfl, rfl⟩
  case h_19 =>
    obtain ⟨rfl, rfl⟩ := Prod.mk.inj (Option.some.inj h)
    cases p <;> exact ⟨rfl, rfl, rfl, rfl⟩
  case h_18 | h_20 => cases h
  all_goals
    cases h
    exact ⟨rfl, rfl, rfl, rfl⟩

theorem cancelled_effect : WorkerEffect g p (cancelled g p).1 (cancelled g p).2 := by
  cases p with
  | sending message => exact .interrupt rfl rfl rfl rfl
  | interrupted id => exact .shield rfl rfl rfl rfl
  | _ => exact .keep rfl rfl (.inl rfl)

theorem workerStep_effect {a : WorkerAction} (h : workerStep g config p a = some (g', p')) :
    WorkerEffect g p g' p' := by
  unfold workerStep at h
  split at h
  case h_1 | h_2 =>
    split_ifs at h <;> cases h <;> exact .keep rfl rfl (.inl rfl)
  case h_3 =>
    dsimp only at h
    split_ifs at h <;> cases h <;> exact .keep rfl rfl (.inl rfl)
  case h_4 =>
    obtain ⟨store, hstore, he⟩ := Option.map_eq_some_iff.mp h
    obtain ⟨rfl, rfl⟩ := Prod.mk.inj he
    exact .claim hstore rfl rfl rfl
  case h_7 message result jitter now =>
    obtain ⟨rfl, rfl⟩ := Prod.mk.inj (Option.some.inj h)
    refine .keep rfl rfl (.inr ?_)
    cases result with
    | ok => rfl
    | error e => cases e <;> rfl
  case h_8 =>
    obtain ⟨store, hstore, he⟩ := Option.map_eq_some_iff.mp h
    obtain ⟨rfl, rfl⟩ := Prod.mk.inj he
    exact .setting hstore rfl rfl
  case h_10 =>
    split at h
    next store hstore =>
      cases h
      exact .finish hstore rfl rfl rfl (by simp)
    · cases h
      exact .keep rfl rfl (.inl rfl)
  case h_12 =>
    split at h
    next store hstore =>
      cases h
      exact .finish hstore rfl rfl rfl (by simp)
    · cases h
      exact .keep rfl rfl (.inl rfl)
  case h_19 =>
    obtain ⟨rfl, rfl⟩ := Prod.mk.inj (Option.some.inj h)
    exact cancelled_effect
  case h_18 | h_20 => cases h
  case h_6 | h_9 =>
    cases h
    exact .keep rfl rfl (.inr rfl)
  all_goals
    cases h
    exact .keep rfl rfl (.inl rfl)

def held (g : Gateway) : List (String × Bool) := heldBy g.dispatcher.workers g.dispatcher.shielded

/-- The operations that neither begin nor end an attempt. -/
def Quiet (a : Action) : Op → Prop
  | .action id verb acknowledgeDuplicate clock =>
    a = .delivery (.action id verb acknowledgeDuplicate clock)
  | .insertBatch .. => ∃ action, a = .intake action
  | .setSetting _ | .housekeeping .. => True
  | .start .. | .crash | .claim _ | .finish .. => False

/-- What a step of the gateway does to the store and to the held messages. -/
inductive Effect (g : Gateway) (a : Action) (g' : Gateway) : Prop
  | frame (hs : g'.store = g.store) (hh : (held g').Subperm (held g))
  | interrupt {id : String} {rest : List (String × Bool)} (hs : g'.store = g.store)
      (hh : (held g).Perm ((id, false) :: rest)) (hh' : (held g').Perm ((id, true) :: rest))
  | quiet {op : Op} (hq : Quiet a op) (hs : g.store.step op = some g'.store)
      (hh : (held g').Perm (held g))
  | claim {now : Time} (hs : g.store.step (.claim now) = some g'.store)
      (hh : (held g').Perm
        (((g.store.claimed now).map (fun r ↦ (r.id, false))).toList ++ held g))
  | finish {id : String} {interrupted : Bool} {status : Status} {error : String} {delay : PyFloat}
      {cooldown : Bool} {now : Time} {rest : List (String × Bool)}
      (hs : g.store.step (.finish id status error delay cooldown now) = some g'.store)
      (hh : (held g).Perm ((id, interrupted) :: rest)) (hh' : (held g').Perm rest)
      (hu : interrupted = true → status = .uncertain)
  | reset {op : Op} (hr : op = .crash ∨ ∃ config now, op = .start config now)
      (hs : g.store.step op = some g'.store) (hh : held g' = [])

theorem effect_of_worker {a : Action} {index : ℕ} (hp : g.dispatcher.workers[index]? = some p)
    (hw : g'.dispatcher.workers = g.dispatcher.workers) (h : WorkerEffect g p g' p') :
    Effect g a { g' with dispatcher := { g'.dispatcher with
      workers := g'.dispatcher.workers.set index p' } } := by
  obtain ⟨rest, hrest⟩ := heldBy_set hp
  obtain ⟨hold, hnew⟩ := hrest g.dispatcher.shielded
  cases h with
  | keep hs hd hp' =>
    refine .frame hs ?_
    rw [held, held, hw, hd]
    refine ((hnew p').subperm.trans ?_).trans hold.symm.subperm
    rcases hp' with hp' | hp' <;> rw [hp']
    exact (List.sublist_append_right _ _).subperm
  | interrupt hs hd hp₁ hp₂ =>
    rw [hp₁] at hold
    have hnew := hnew p'
    rw [hp₂] at hnew
    refine .interrupt hs hold ?_
    rw [held, hw, hd]
    exact hnew
  | @shield id hs hd hp₁ hp₂ =>
    rw [hp₁] at hold
    have hnew := (hrest (id :: g.dispatcher.shielded)).2 p'
    rw [hp₂] at hnew
    refine .frame hs ?_
    rw [held, hw, hd]
    exact (hnew.trans (List.perm_middle.trans hold.symm)).subperm
  | setting hs hd hp' =>
    refine .quiet (show Quiet _ (.setSetting _) from trivial) hs ?_
    rw [held, held, hw, hd]
    exact (hnew p').trans (hp' ▸ hold.symm)
  | @claim now hs hd hp₁ hp₂ =>
    rw [hp₁] at hold
    refine .claim hs ?_
    rw [held, held, hw, hd]
    refine (hnew p').trans (List.Perm.append ?_ hold.symm)
    rw [hp₂]
    cases g.store.claimed now <;> rfl
  | finish hs hd hp₁ hp₂ hu =>
    rw [hp₁] at hold
    have hnew := hnew p'
    rw [hp₂] at hnew
    refine .finish hs hold ?_ hu
    rw [held, hw, hd]
    exact hnew

theorem submit_frame (message : PreparedMessage) :
    (submit g config message).store = g.store ∧
      (submit g config message).dispatcher = g.dispatcher := by
  simp only [submit]
  split_ifs <;> exact ⟨rfl, rfl⟩

theorem intake_dispatcher {a : IntakeAction} (h : intakeStep g config a = some g') :
    g'.dispatcher = g.dispatcher := by
  cases a with
  | data message =>
    simp only [intakeStep] at h
    split_ifs at h
    cases h
    exact (submit_frame message).2
  | reply id =>
    simp only [intakeStep] at h
    split_ifs at h
    obtain ⟨result, -, rfl⟩ := Option.map_eq_some_iff.mp h
    rfl
  | commit free now =>
    simp only [intakeStep] at h
    split at h
    · split at h <;> cases h <;> rfl
    · cases h
  | disconnect id =>
    cases h
    rfl
  | take =>
    simp only [intakeStep] at h
    split at h <;> cases h <;> rfl
  | batch | fault | resolve =>
    simp only [intakeStep] at h
    split at h <;> cases h
    rfl
  | close | closePut =>
    simp only [intakeStep] at h
    split_ifs at h
    cases h
    rfl

/-- The intake writes the store in one place, the batch job. -/
theorem intake_store {a : IntakeAction} (hr : g.store.running = some config)
    (h : intakeStep g config a = some g') : g'.store = g.store ∨
      ∃ healthy free now batch,
        g.store.step (.insertBatch healthy free now batch) = some g'.store := by
  cases a with
  | data message =>
    simp only [intakeStep] at h
    split_ifs at h
    cases h
    exact .inl (submit_frame message).1
  | reply id =>
    simp only [intakeStep] at h
    split_ifs at h
    obtain ⟨result, -, rfl⟩ := Option.map_eq_some_iff.mp h
    exact .inl rfl
  | commit free now =>
    simp only [intakeStep] at h
    split at h
    · split at h
      · next batch _ _ _ _ _ hb =>
        cases h
        exact .inr ⟨g.healthy, free, now, batch, by simp [Session.step, hr, hb]⟩
      · cases h
        exact .inl rfl
    · cases h
  | disconnect id =>
    cases h
    exact .inl rfl
  | take =>
    simp only [intakeStep] at h
    split at h <;> cases h <;> exact .inl rfl
  | batch | fault | resolve =>
    simp only [intakeStep] at h
    split at h <;> cases h
    exact .inl rfl
  | close | closePut =>
    simp only [intakeStep] at h
    split_ifs at h
    cases h
    exact .inl rfl

theorem intake_effect {a : IntakeAction} (hr : g.store.running = some config)
    (h : intakeStep g config a = some g') : Effect g (.intake a) g' := by
  have hheld : held g' = held g := by rw [held, held, intake_dispatcher h]
  rcases intake_store hr h with hs | ⟨healthy, free, now, batch, hs⟩
  · exact .frame hs (List.Perm.of_eq hheld).subperm
  · have hq : Quiet (.intake a) (.insertBatch healthy free now batch) := ⟨a, rfl⟩
    exact .quiet hq hs (.of_eq hheld)

theorem held_erase {id : String} (h : id ∈ g.dispatcher.shielded) : ∃ rest,
    (held g).Perm ((id, true) :: rest) ∧
      heldBy g.dispatcher.workers (g.dispatcher.shielded.erase id) = rest := by
  refine ⟨_, ?_, rfl⟩
  have hperm := ((List.perm_cons_erase h).map (·, true)).append_left
    (g.dispatcher.workers.filterMap Worker.holds)
  exact hperm.trans List.perm_middle

theorem delivery_effect {a : DeliveryAction} (h : deliveryStep g config a = some g') :
    Effect g (.delivery a) g' := by
  cases a with
  | worker index action =>
    simp only [deliveryStep] at h
    split at h
    · cases h
    next p hp =>
      obtain ⟨⟨g₁, p'⟩, hstep, rfl⟩ := Option.map_eq_some_iff.mp h
      exact effect_of_worker hp (workerStep_frame hstep).1 (workerStep_effect hstep)
  | shieldedJob id now =>
    simp only [deliveryStep] at h
    split_ifs at h with hid
    obtain ⟨rest, hold, hrest⟩ := held_erase hid
    split at h
    · next store hs =>
      cases h
      exact .finish hs hold (.of_eq hrest) (fun _ ↦ rfl)
    · cases h
      refine .frame rfl (List.Subperm.trans ?_ hold.symm.subperm)
      exact (List.Perm.of_eq hrest).subperm.trans (List.sublist_cons_self _ _).subperm
  | shieldedFault id =>
    simp only [deliveryStep] at h
    split_ifs at h with hid
    obtain ⟨rest, hold, hrest⟩ := held_erase hid
    cases h
    refine .frame rfl (List.Subperm.trans ?_ hold.symm.subperm)
    exact (List.Perm.of_eq hrest).subperm.trans (List.sublist_cons_self _ _).subperm
  | boot =>
    simp only [deliveryStep] at h
    split at h <;> cases h
    refine .frame rfl ?_
    have hready : (List.replicate config.delivery.workers Worker.ready).filterMap Worker.holds = [] :=
      List.filterMap_eq_nil_iff.mpr (fun p hp ↦ by rw [List.eq_of_mem_replicate hp]; rfl)
    rw [held, heldBy, hready]
    exact (List.sublist_append_right _ _).subperm
  | housekeeping now scan =>
    simp only [deliveryStep] at h
    split at h
    · obtain ⟨store, hs, rfl⟩ := Option.map_eq_some_iff.mp h
      exact .quiet (show Quiet _ (.housekeeping now scan) from trivial) hs .rfl
    · cases h
  | action id verb acknowledgeDuplicate clock =>
    obtain ⟨store, hs, rfl⟩ := Option.map_eq_some_iff.mp h
    exact .quiet (show Quiet _ (.action id verb acknowledgeDuplicate clock) from rfl) hs .rfl
  | set setting =>
    simp only [deliveryStep] at h
    split_ifs at h
    obtain ⟨store, hs, rfl⟩ := Option.map_eq_some_iff.mp h
    exact .quiet (show Quiet _ (.setSetting setting) from trivial) hs .rfl
  | setResume setting =>
    simp only [deliveryStep] at h
    split_ifs at h
    cases h
    cases setting <;> exact .frame rfl (List.Subperm.refl _)
  | setDrop setting =>
    simp only [deliveryStep] at h
    split_ifs at h
    cases h
    exact .frame rfl (List.Subperm.refl _)
  | housekeepingCancel | stop =>
    cases h
    exact .frame rfl (List.Subperm.refl _)
  | readSettings | tick | housekeepingFault | housekeepingRecover =>
    simp only [deliveryStep] at h
    split at h <;> cases h
    exact .frame rfl (List.Subperm.refl _)

theorem delivery_frame {a : DeliveryAction} (h : deliveryStep g config a = some g') :
    SameIntake g g' := by
  cases a with
  | worker index action =>
    simp only [deliveryStep] at h
    split at h
    · cases h
    next p hp =>
      obtain ⟨⟨g₁, p'⟩, hstep, rfl⟩ := Option.map_eq_some_iff.mp h
      obtain ⟨-, hintake, hissued, hreplies⟩ := workerStep_frame hstep
      exact ⟨hintake, hissued, hreplies⟩
  | shieldedJob id now =>
    simp only [deliveryStep] at h
    split_ifs at h
    split at h <;> cases h <;> exact ⟨rfl, rfl, rfl⟩
  | housekeeping now scan =>
    simp only [deliveryStep] at h
    split at h
    · obtain ⟨store, hs, rfl⟩ := Option.map_eq_some_iff.mp h
      exact ⟨rfl, rfl, rfl⟩
    · cases h
  | action id verb acknowledgeDuplicate clock =>
    obtain ⟨store, hs, rfl⟩ := Option.map_eq_some_iff.mp h
    exact ⟨rfl, rfl, rfl⟩
  | set setting =>
    simp only [deliveryStep] at h
    split_ifs at h
    obtain ⟨store, hs, rfl⟩ := Option.map_eq_some_iff.mp h
    exact ⟨rfl, rfl, rfl⟩
  | shieldedFault | setResume | setDrop =>
    simp only [deliveryStep] at h
    split_ifs at h
    cases h
    exact ⟨rfl, rfl, rfl⟩
  | housekeepingCancel | stop =>
    cases h
    exact ⟨rfl, rfl, rfl⟩
  | readSettings | boot | tick | housekeepingFault | housekeepingRecover =>
    simp only [deliveryStep] at h
    split at h <;> cases h
    exact ⟨rfl, rfl, rfl⟩

/-- The workers change one at a time, or all of them are new. -/
theorem delivery_workers {a : DeliveryAction} (h : deliveryStep g config a = some g') :
    g'.dispatcher.workers = g.dispatcher.workers ∨
    (∃ index action p p' g₁, a = .worker index action ∧ g.dispatcher.workers[index]? = some p ∧
      workerStep g config p action = some (g₁, p') ∧
      g'.dispatcher.workers = g.dispatcher.workers.set index p') ∨
    ∀ p ∈ g'.dispatcher.workers, p = .ready := by
  cases a with
  | worker index action =>
    simp only [deliveryStep] at h
    split at h
    · cases h
    next p hp =>
      obtain ⟨⟨g₁, p'⟩, hstep, rfl⟩ := Option.map_eq_some_iff.mp h
      refine .inr (.inl ⟨index, action, p, p', g₁, rfl, hp, hstep, ?_⟩)
      exact congrArg (·.set index p') (workerStep_frame hstep).1
  | boot =>
    simp only [deliveryStep] at h
    split at h <;> cases h
    exact .inr (.inr (fun p hp ↦ List.eq_of_mem_replicate hp))
  | shieldedJob id now =>
    simp only [deliveryStep] at h
    split_ifs at h
    split at h <;> cases h <;> exact .inl rfl
  | housekeeping now scan =>
    simp only [deliveryStep] at h
    split at h
    · obtain ⟨store, hs, rfl⟩ := Option.map_eq_some_iff.mp h
      exact .inl rfl
    · cases h
  | action id verb acknowledgeDuplicate clock =>
    obtain ⟨store, hs, rfl⟩ := Option.map_eq_some_iff.mp h
    exact .inl rfl
  | set setting =>
    simp only [deliveryStep] at h
    split_ifs at h
    obtain ⟨store, hs, rfl⟩ := Option.map_eq_some_iff.mp h
    exact .inl rfl
  | setResume setting =>
    simp only [deliveryStep] at h
    split_ifs at h
    cases h
    cases setting <;> exact .inl rfl
  | shieldedFault | setDrop =>
    simp only [deliveryStep] at h
    split_ifs at h
    cases h
    exact .inl rfl
  | housekeepingCancel | stop =>
    cases h
    exact .inl rfl
  | readSettings | tick | housekeepingFault | housekeepingRecover =>
    simp only [deliveryStep] at h
    split at h <;> cases h
    exact .inl rfl

theorem step_effect {a : Action} (h : g.step a = some g') : Effect g a g' := by
  cases a with
  | start config now =>
    obtain ⟨store, hs, rfl⟩ := Option.map_eq_some_iff.mp h
    exact .reset (.inr ⟨config, now, rfl⟩) hs rfl
  | crash =>
    obtain ⟨store, hs, rfl⟩ := Option.map_eq_some_iff.mp h
    exact .reset (.inl rfl) hs rfl
  | intake action =>
    obtain ⟨config, hr, h⟩ := Option.bind_eq_some_iff.mp h
    exact intake_effect hr h
  | delivery action =>
    obtain ⟨config, hr, h⟩ := Option.bind_eq_some_iff.mp h
    exact delivery_effect h

/-- A gateway step is at most one step of its store. -/
theorem store_runs {a : Action} (h : g.step a = some g') :
    ∃ ops, Runs Session.step g.store ops g'.store := by
  cases step_effect h with
  | frame hs hh | interrupt hs hh hh' => exact ⟨[], runs_nil.mpr hs.symm⟩
  | quiet hq hs hh | claim hs hh | finish hs hh hh' hu | reset hr hs hh =>
    exact ⟨[_], runs_cons.mpr ⟨_, hs, runs_nil.mpr rfl⟩⟩

/-- The held messages are distinct, and their rows are in flight. -/
structure Holding (g : Gateway) : Prop where
  distinct : ((held g).map (·.1)).Nodup
  sending : ∀ id ∈ (held g).map (·.1), g.store.Sending id

theorem Quiet.not_ends {a : Action} {op : Op} (h : Quiet a op) (id : String) : ¬ op.Ends id := by
  cases op with
  | start | finish => exact h.elim
  | _ => exact not_false

theorem Holding.frame (hg : Holding g) (hs : g'.store = g.store) (hh : (held g').Subperm (held g)) :
    Holding g' := by
  obtain ⟨l, hl, hsub⟩ := hh
  refine ⟨(hl.map _).nodup_iff.mp (hg.distinct.sublist (hsub.map _)), fun id hid ↦ ?_⟩
  rw [hs]
  exact hg.sending id ((hsub.map _).subset ((hl.map _).mem_iff.mpr hid))

theorem Holding.empty (h : held g = []) : Holding g := by
  constructor <;> simp [h]

theorem Holding.step {a : Action} (hg : Holding g) (h : g.step a = some g') : Holding g' := by
  cases step_effect h with
  | frame hs hh => exact hg.frame hs hh
  | @interrupt id rest hs hh hh' =>
    have hids : ((held g').map (·.1)).Perm ((held g).map (·.1)) :=
      (hh'.map _).trans (hh.map (·.1)).symm
    refine ⟨hids.nodup_iff.mpr hg.distinct, fun id hid ↦ ?_⟩
    rw [hs]
    exact hg.sending id (hids.mem_iff.mp hid)
  | quiet hq hs hh =>
    have hids := hh.map (·.1)
    refine ⟨hids.nodup_iff.mpr hg.distinct, fun id hid ↦ ?_⟩
    exact (hg.sending id (hids.mem_iff.mp hid)).step hs (hq.not_ends id)
  | @claim now hs hh =>
    have hkept : ∀ id ∈ (held g).map (·.1), g'.store.Sending id :=
      fun id hid ↦ (hg.sending id hid).step hs (by simp [Op.Ends])
    cases hc : g.store.claimed now with
    | none =>
      rw [hc] at hh
      have hids := hh.map (·.1)
      exact ⟨hids.nodup_iff.mpr hg.distinct, fun id hid ↦ hkept id (hids.mem_iff.mp hid)⟩
    | some row =>
      rw [hc] at hh
      have hids : ((held g').map (·.1)).Perm (row.id :: (held g).map (·.1)) := hh.map (·.1)
      have hnew : row.id ∉ (held g).map (·.1) :=
        fun hid ↦ not_sending_of_claimed hc (hg.sending row.id hid)
      refine ⟨hids.nodup_iff.mpr (List.nodup_cons.mpr ⟨hnew, hg.distinct⟩), fun id hid ↦ ?_⟩
      rcases List.mem_cons.mp (hids.mem_iff.mp hid) with rfl | hid
      · exact sending_of_claimed hs hc
      · exact hkept id hid
  | @finish id _ _ _ _ _ _ rest hs hh hh' hu =>
    have hids : ((held g).map (·.1)).Perm (id :: rest.map (·.1)) := hh.map (·.1)
    have hrest := hh'.map (·.1)
    obtain ⟨hid, hdistinct⟩ := List.nodup_cons.mp (hids.nodup_iff.mp hg.distinct)
    refine ⟨hrest.nodup_iff.mpr hdistinct, fun id' hid' ↦ ?_⟩
    have hmem := hrest.mem_iff.mp hid'
    refine (hg.sending id' (hids.mem_iff.mpr (List.mem_cons_of_mem _ hmem))).step hs ?_
    rintro rfl
    exact hid hmem
  | reset hr hs hh => exact .empty hh

theorem Holding.of_runs {ops : List Action} (h : Runs Gateway.step {} ops g) : Holding g :=
  h.invariant (fun _ _ _ hu ha ↦ hu.step ha) (.empty rfl)

theorem exclusive_of_runs {ops : List Action} (h : Runs Gateway.step {} ops g) :
    Exclusive g.store := by
  obtain ⟨ops', hops⟩ := h.simulate (·.store) (fun _ _ _ ha ↦ store_runs ha)
  exact .of_runs hops

/-- In every reachable state a message has its reservation, and at most one
attempt in progress, exactly while it is in flight; the workers hold different
messages, and none of them finds its own out of flight when it ends the attempt. -/
theorem attempt_exclusivity {ops : List Action} (h : Runs Gateway.step {} ops g) :
    (∀ id, reservations id g.store.db.quota = inFlight (g.store.db.messages.find? id)) ∧
    (∀ id, openAttempts id g.store.attempts ≤ 1) ∧
    ((held g).map (·.1)).Nodup ∧
    (∀ id ∈ (held g).map (·.1), openAttempts id g.store.attempts = 1) ∧
    ∀ id, openAttempts id g.store.attempts = 1 → g.store.Sending id ∧
      ∀ status error delay cooldown now,
        finish id status error delay cooldown now g.store.db ≠
          .error (.runtimeError "Attempt is no longer in sending state") := by
  have hg := Holding.of_runs h
  have he := exclusive_of_runs h
  refine ⟨he.reserved, fun id ↦ ?_, hg.distinct, fun id hid ↦ ?_, fun id hid ↦ ?_⟩
  · rw [he.attempts, inFlight]
    split_ifs <;> omega
  · obtain ⟨r, hr, hs⟩ := hg.sending id hid
    rw [he.attempts, hr, inFlight_of_sending hs]
  · have hsending : g.store.Sending id := sending_of_inFlight (he.attempts id ▸ hid)
    exact ⟨hsending, fun status error delay cooldown now ↦ finish_of_sending hsending⟩

/-- One message goes through the intake and the first worker hands it over. -/
def sampleActions : List Action :=
  [.start sampleConfig 0,
    .intake (.data (sampleMessage "m1" "a@example.com")), .intake .take, .intake .batch,
    .intake (.commit 1000000000 1), .intake .resolve, .intake (.reply "m1"),
    .delivery .readSettings, .delivery .boot,
    .delivery (.worker 0 (.loop 2)), .delivery (.worker 0 (.permit 2 0)),
    .delivery (.worker 0 (.claimJob 2)), .delivery (.worker 0 .deliver)]

theorem attempt_exclusivity_sample : ∃ g, Runs Gateway.step {} sampleActions g ∧
    openAttempts "m1" g.store.attempts = 1 ∧ reservations "m1" g.store.db.quota = 1 := by
  have hheld : (run Gateway.step sampleActions {}).any (fun g ↦ "m1" ∈ (held g).map (·.1)) := by
    decide +kernel
  rw [Option.any_eq_true] at hheld
  obtain ⟨g, hg, hheld⟩ := hheld
  have hexclusive := attempt_exclusivity hg
  have hone := hexclusive.2.2.2.1 "m1" (of_decide_eq_true hheld)
  refine ⟨g, hg, hone, ?_⟩
  obtain ⟨r, hr, hs⟩ := (hexclusive.2.2.2.2 "m1" hone).1
  rw [hexclusive.1, hr, inFlight_of_sending hs]

end Gateway

end NoreplyGateway
