import NoreplyGateway.Gateway.Acknowledgement
import NoreplyGateway.Gateway.Jobs

namespace NoreplyGateway

open Machine Store

namespace Store

/-- The identifiers and the acceptance times of the rows, which nothing writes again. -/
def entries (db : Database) : List (String × Time) := db.messages.rows.map fun r ↦ (r.id, r.created)

theorem entries_update {db db' : Database} {p : Row → Bool} {f : Row → Row}
    (h : db'.messages.rows = db.messages.rows.map (fun r ↦ if p r then f r else r))
    (hf : ∀ r, ((f r).id, (f r).created) = (r.id, r.created)) :
    (entries db').Sublist (entries db) := by
  have he : entries db' = entries db := by
    rw [entries, h, List.map_map]
    refine List.map_congr_left fun r _ ↦ ?_
    cases hp : p r with
    | true => simpa [hp] using hf r
    | false => simp [hp]
  rw [he]

variable {s t : Session} {op : Op}

/-- Rows enter the table in batches and leave it, and stay in their order. -/
theorem Transition.entries (h : Transition s op t) (hop : ¬op.Inserts) :
    (Store.entries t.db).Sublist (Store.entries s.db) := by
  cases h with
  | start | expired | claimed | finished | retried | cancelled =>
    exact entries_update rfl fun _ ↦ rfl
  | crash | idle => exact .refl _
  | @setSetting _ setting => cases setting <;> exact .refl _
  | refused | inserted => exact absurd trivial hop
  | housekeeping => exact List.filter_sublist.map _

end Store

namespace Gateway

/-- The identifiers of the submissions that a batch has decided, in its order. -/
def Intake.decided (i : Intake) : List String :=
  i.resolved.map (·.1) ++ i.writer.outcomes.map (·.1.id)

def Intake.undecided (i : Intake) : List PreparedMessage :=
  i.writer.uncommitted ++ i.pending.reduceOption

/-- The submissions are decided in the order in which they came, and the rows of those
that are stored stand in that order. -/
structure InOrder (g : Gateway) : Prop where
  line : g.intake.submitted = g.intake.decided ++ g.intake.undecided.map (·.id)
  rows : (((entries g.store.db).map (·.1)).filter (· ∈ g.intake.submitted)).Sublist
    g.intake.decided

/-- What the intake holds in memory. -/
structure Bounded (config : Config) (i : Intake) : Prop where
  batch : i.writer.uncommitted.length ≤ max 1 config.queue.batchSize
  pending : 0 < config.queue.pendingSubmissions →
    i.pending.length ≤ config.queue.pendingSubmissions

def Action.accepts : Action → List Time
  | .intake (.commit _ now) => [now]
  | _ => []

variable {g g' : Gateway} {config : Config} {a : Action} {ops : List Action}

theorem entries_mem {id : String} {created : Time} (h : (id, created) ∈ entries g.store.db) :
    ∃ r, g.store.db.messages.find? id = some r := by
  obtain ⟨r, hr, he⟩ := List.mem_map.mp h
  obtain ⟨rfl, -⟩ := Prod.mk.inj he
  exact ⟨r, Table.find?_of_mem hr⟩

/-- Where the store is as before, or has lost rows, it is enough to look at the lists. -/
theorem InOrder.frame (hg : InOrder g) (hs : (entries g'.store.db).Sublist (entries g.store.db))
    (hsubmitted : g'.intake.submitted = g.intake.submitted)
    (hdecided : g'.intake.decided = g.intake.decided)
    (hundecided : g'.intake.undecided = g.intake.undecided) : InOrder g' := by
  refine ⟨?_, ?_⟩
  · rw [hsubmitted, hdecided, hundecided]
    exact hg.line
  · rw [hsubmitted, hdecided]
    exact ((hs.map _).filter _).trans hg.rows

theorem InOrder.submit (hc : InCustody g) (hg : InOrder g) {m : PreparedMessage}
    (hm : m.id ∉ g.issued) : InOrder (Gateway.submit g config m) := by
  unfold Gateway.submit
  dsimp only
  split_ifs
  · exact hg.frame (.refl _) rfl rfl rfl
  refine ⟨?_, ?_⟩
  · simp only [Intake.decided, Intake.undecided, List.reduceOption_append]
    rw [hg.line]
    simp [Intake.decided, Intake.undecided, List.reduceOption]
  · -- No row has the identifier of the new submission.
    have hfilter : ((entries g.store.db).map (·.1)).filter (· ∈ g.intake.submitted ++ [m.id]) =
        ((entries g.store.db).map (·.1)).filter (· ∈ g.intake.submitted) := by
      refine List.filter_congr fun id hid ↦ ?_
      obtain ⟨⟨id', created⟩, hmem, rfl⟩ := List.mem_map.mp hid
      obtain ⟨r, hr⟩ := entries_mem hmem
      have hne : id' ≠ m.id := fun he ↦ hm (he ▸ hc.rows id' r hr)
      simp [hne]
    have hrows := hg.rows
    rw [← hfilter] at hrows
    exact hrows

section Commit

variable {batch : List PreparedMessage} {stopping : Bool}

theorem undecided_committing (hw : g.intake.writer = .committing batch stopping) :
    g.intake.undecided = batch ++ g.intake.pending.reduceOption := by
  simp [Intake.undecided, hw, Writer.uncommitted]

theorem decided_committing (hw : g.intake.writer = .committing batch stopping) :
    g.intake.decided = g.intake.resolved.map (·.1) := by
  simp [Intake.decided, hw, Writer.outcomes]

/-- A batch job that ends moves its whole batch from one list to the other. -/
theorem InOrder.commit (hg : InOrder g) (hw : g.intake.writer = .committing batch stopping)
    {given : Option (List InsertResult)} (hgiven : (outcomes batch given).map (·.1) = batch)
    {accepted : List PreparedMessage} (haccepted : accepted.Sublist batch)
    (hs : (entries g'.store.db).map (·.1) =
      (entries g.store.db).map (·.1) ++ accepted.map (·.id))
    (hi : g'.intake = { g.intake with writer := .committed batch given stopping }) :
    InOrder g' := by
  have hbatch : (outcomes batch given).map (·.1.id) = batch.map (·.id) := by
    have hmap := congrArg (List.map PreparedMessage.id) hgiven
    rw [List.map_map] at hmap
    exact hmap
  have hdecided : g'.intake.decided = g.intake.decided ++ batch.map (·.id) := by
    rw [decided_committing hw, hi, Intake.decided, Writer.outcomes, hbatch]
  have hsubmitted : g'.intake.submitted = g.intake.submitted := by rw [hi]
  have hline := hg.line
  rw [undecided_committing hw, List.map_append, ← List.append_assoc, ← hdecided] at hline
  refine ⟨?_, ?_⟩
  · rw [hsubmitted, hline, hi]
    rfl
  · have hmem : ∀ id ∈ accepted.map (·.id), decide (id ∈ g.intake.submitted) = true := by
      intro id hid
      rw [hline, hdecided]
      have hsub := (haccepted.map PreparedMessage.id).subset hid
      simp [hsub]
    rw [hsubmitted, hs, List.filter_append, List.filter_eq_self.mpr hmem, hdecided]
    exact hg.rows.append (haccepted.map _)

end Commit

theorem outcomes_zip {batch : List PreparedMessage} {results : List InsertResult}
    (h : results.length = batch.length) : (outcomes batch (some results)).map (·.1) = batch :=
  List.map_fst_zip h.ge

theorem outcomes_none (batch : List PreparedMessage) : (outcomes batch none).map (·.1) = batch := by
  simp [outcomes, Function.comp_def]

theorem entries_inserted {now : Time} {db db' : Database} {accepted : List PreparedMessage}
    (h : Inserted now db db' accepted) :
    entries db' = entries db ++ accepted.map fun m ↦ (m.id, now) := by
  rw [entries, entries, h.rows, List.map_append, List.map_map]
  rfl

theorem InOrder.intake {action : IntakeAction} (hc : InCustody g) (hg : InOrder g)
    (h : intakeStep g config action = some g') : InOrder g' := by
  cases action with
  | data m =>
    simp only [intakeStep] at h
    split_ifs at h with hm
    cases h
    exact hg.submit hc hm
  | reply id =>
    simp only [intakeStep] at h
    split_ifs at h
    obtain ⟨result, -, rfl⟩ := Option.map_eq_some_iff.mp h
    exact hg.frame (.refl _) rfl rfl rfl
  | disconnect id =>
    cases h
    exact hg.frame (.refl _) rfl rfl rfl
  | take =>
    simp only [intakeStep] at h
    split at h
    · next pending hw hp =>
      cases h
      refine hg.frame (.refl _) rfl ?_ ?_
      · simp [Intake.decided, hw, Writer.outcomes]
      · simp [Intake.undecided, hw, hp, Writer.uncommitted]
    · next first pending hw hp =>
      cases h
      refine hg.frame (.refl _) rfl ?_ ?_
      · simp [Intake.decided, hw, Writer.outcomes]
      · simp [Intake.undecided, hw, hp, Writer.uncommitted]
    · cases h
  | batch =>
    simp only [intakeStep] at h
    split at h
    · next first hw =>
      cases h
      refine hg.frame (.refl _) rfl ?_ ?_
      · simp [Intake.decided, hw, Writer.outcomes]
      · have hgather := gather_reduceOption (config.queue.batchSize - 1) g.intake.pending
        simp [Intake.undecided, hw, Writer.uncommitted, hgather]
    · cases h
  | commit free now =>
    simp only [intakeStep] at h
    split at h
    · next batch stopping hw =>
      split at h
      · next db results hb =>
        cases h
        rcases insertBatch_ok hb with ⟨rfl, reason, rfl⟩ | ⟨rfl, hi⟩
        · exact hg.commit hw (outcomes_zip (List.length_map _)) (List.nil_sublist _) (by simp) rfl
        · have hrows := congrArg (List.map Prod.fst) (entries_inserted hi)
          rw [List.map_append, List.map_map] at hrows
          exact hg.commit hw (outcomes_zip admission_length) admission_sublist hrows rfl
      · cases h
        exact hg.commit hw (outcomes_none batch) (List.nil_sublist _) (by simp) rfl
    · cases h
  | fault =>
    simp only [intakeStep] at h
    split at h
    · next batch stopping hw =>
      cases h
      exact hg.commit hw (outcomes_none batch) (List.nil_sublist _) (by simp) rfl
    · cases h
  | resolve =>
    simp only [intakeStep] at h
    split at h
    · next batch results stopping hw =>
      cases h
      refine hg.frame (.refl _) rfl ?_ ?_
      · cases stopping <;> simp [Gateway.resolve, Intake.decided, hw, Writer.outcomes]
      · cases stopping <;> simp [Gateway.resolve, Intake.undecided, hw, Writer.uncommitted]
    · cases h
  | close =>
    simp only [intakeStep] at h
    split_ifs at h
    cases h
    exact hg.frame (.refl _) rfl rfl rfl
  | closePut =>
    simp only [intakeStep] at h
    split_ifs at h
    cases h
    refine hg.frame (.refl _) rfl rfl ?_
    simp [Intake.undecided, List.reduceOption_append]

theorem not_inserts_of_delivery {action : DeliveryAction} {op : Op}
    (h : job g (.delivery action) = some op) : ¬op.Inserts := by
  intro hop
  cases op with
  | insertBatch =>
    unfold job at h
    split at h
    case h_3 he | h_4 he => cases he
    case h_5 => split at h <;> cases h
    all_goals cases h
  | _ => exact hop

theorem InOrder.step (hc : InCustody g) (hg : InOrder g) (h : g.step a = some g') :
    InOrder g' := by
  cases a with
  | start config now =>
    obtain ⟨store, -, rfl⟩ := Option.map_eq_some_iff.mp h
    exact ⟨rfl, by simp [started]⟩
  | crash =>
    obtain ⟨store, -, rfl⟩ := Option.map_eq_some_iff.mp h
    exact ⟨rfl, by simp [down]⟩
  | intake action =>
    obtain ⟨config, -, h⟩ := Option.bind_eq_some_iff.mp h
    exact hg.intake hc h
  | delivery action =>
    obtain ⟨config, -, h⟩ := Option.bind_eq_some_iff.mp h
    have hi := (delivery_frame h).intake
    refine hg.frame ?_ (congrArg Intake.submitted hi) (congrArg Intake.decided hi)
      (congrArg Intake.undecided hi)
    rcases delivery_job h with he | ⟨op, hjob, hop⟩
    · rw [he]
    · exact (transition_of_step hop).entries (not_inserts_of_delivery hjob)

theorem InOrder.of_runs (h : Runs Gateway.step {} ops g) : InOrder g := by
  refine (h.invariant (P := fun v ↦ InCustody v ∧ InOrder v) ?_ ⟨.of_runs (runs_nil.mpr rfl), ?_⟩).2
  · intro u a v hu ha
    exact ⟨hu.1.step (step_progress ha), hu.2.step hu.1 ha⟩
  · exact ⟨rfl, .refl _⟩

theorem gather_length (room : ℕ) (pending : List (Option PreparedMessage)) :
    (gather room pending).1.length ≤ room ∧
      (gather room pending).2.2.length ≤ pending.length := by
  fun_induction gather room pending with
  | case1 | case2 => simp
  | case3 => simp
  | case4 room m pending rest ih =>
    exact ⟨Nat.succ_le_succ ih.1, ih.2.trans (Nat.le_succ _)⟩

theorem length_of_not_full {pending : List (Option PreparedMessage)} {x : Option PreparedMessage}
    (h : ¬full config pending = true) (hlimit : 0 < config.queue.pendingSubmissions) :
    (pending ++ [x]).length ≤ config.queue.pendingSubmissions := by
  simp only [full, decide_eq_true_eq, not_and, not_le] at h
  have hroom := h hlimit
  simp only [List.length_append, List.length_singleton]
  omega

theorem Bounded.intake {action : IntakeAction} (hg : Bounded config g.intake)
    (h : intakeStep g config action = some g') : Bounded config g'.intake := by
  obtain ⟨hbatch, hpending⟩ := hg
  cases action with
  | data m =>
    simp only [intakeStep] at h
    split_ifs at h
    cases h
    unfold Gateway.submit
    dsimp only
    split_ifs with hrefused
    · exact ⟨hbatch, hpending⟩
    · rw [not_or, not_or] at hrefused
      exact ⟨hbatch, length_of_not_full hrefused.2.2⟩
  | reply id =>
    simp only [intakeStep] at h
    split_ifs at h
    obtain ⟨result, -, rfl⟩ := Option.map_eq_some_iff.mp h
    exact ⟨hbatch, hpending⟩
  | disconnect id =>
    cases h
    exact ⟨hbatch, hpending⟩
  | take =>
    simp only [intakeStep] at h
    split at h
    · next pending hw hp =>
      cases h
      rw [hp, List.length_cons] at hpending
      exact ⟨Nat.zero_le _, fun hlimit ↦ (Nat.le_succ _).trans (hpending hlimit)⟩
    · next first pending hw hp =>
      cases h
      rw [hp, List.length_cons] at hpending
      exact ⟨le_max_left _ _, fun hlimit ↦ (Nat.le_succ _).trans (hpending hlimit)⟩
    · cases h
  | batch =>
    simp only [intakeStep] at h
    split at h
    · next first hw =>
      cases h
      obtain ⟨hroom, hrest⟩ := gather_length (config.queue.batchSize - 1) g.intake.pending
      refine ⟨?_, fun hlimit ↦ hrest.trans (hpending hlimit)⟩
      simp only [Writer.uncommitted, List.length_cons]
      omega
    · cases h
  | commit free now =>
    simp only [intakeStep] at h
    split at h
    · split at h <;> cases h <;> exact ⟨Nat.zero_le _, hpending⟩
    · cases h
  | fault =>
    simp only [intakeStep] at h
    split at h <;> cases h
    exact ⟨Nat.zero_le _, hpending⟩
  | resolve =>
    simp only [intakeStep] at h
    split at h
    · next batch results stopping hw =>
      cases h
      cases stopping <;> exact ⟨Nat.zero_le _, hpending⟩
    · cases h
  | close =>
    simp only [intakeStep] at h
    split_ifs at h
    cases h
    exact ⟨hbatch, hpending⟩
  | closePut =>
    simp only [intakeStep] at h
    split_ifs at h with hroom
    cases h
    refine ⟨hbatch, length_of_not_full ?_⟩
    simp [hroom.2]

/-- The limits are those of the process that runs. -/
theorem Bounded.step (hg : ∀ config ∈ g.store.running, Bounded config g.intake)
    (h : g.step a = some g') : ∀ config ∈ g'.store.running, Bounded config g'.intake := by
  intro config hr
  cases a with
  | start config' now =>
    obtain ⟨store, -, rfl⟩ := Option.map_eq_some_iff.mp h
    exact ⟨Nat.zero_le _, fun _ ↦ Nat.zero_le _⟩
  | crash =>
    obtain ⟨store, -, rfl⟩ := Option.map_eq_some_iff.mp h
    exact ⟨Nat.zero_le _, fun _ ↦ Nat.zero_le _⟩
  | intake action =>
    rcases running_of_step h hr with hr | ⟨now, hstart⟩
    · obtain ⟨config', hr', h⟩ := Option.bind_eq_some_iff.mp h
      obtain rfl : config' = config := Option.some.inj (hr'.symm.trans hr)
      exact (hg config' hr).intake h
    · cases hstart
  | delivery action =>
    rcases running_of_step h hr with hr | ⟨now, hstart⟩
    · obtain ⟨config', -, h⟩ := Option.bind_eq_some_iff.mp h
      rw [(delivery_frame h).intake]
      exact hg config hr
    · cases hstart

theorem Bounded.of_runs (h : Runs Gateway.step {} ops g) :
    ∀ config ∈ g.store.running, Bounded config g.intake :=
  h.invariant (P := fun v ↦ ∀ config ∈ v.store.running, Bounded config v.intake)
    (fun _ _ _ hu ha ↦ Bounded.step hu ha) (fun _ hr ↦ by cases hr)

/-- The rows stand in the order of their acceptance times, which have been read. -/
structure Dated (readings : List Time) (db : Database) : Prop where
  sorted : ((entries db).map (·.2)).Pairwise (· ≤ ·)
  past : ∀ t ∈ (entries db).map (·.2), t ∈ readings

section Dated

variable {readings : List Time} {db db' : Database}

theorem Dated.sublist (hd : Dated readings db) (h : (entries db').Sublist (entries db))
    (later : List Time) : Dated (readings ++ later) db' :=
  ⟨hd.sorted.sublist (h.map _), fun t ht ↦
    List.mem_append_left _ (hd.past t ((h.map _).subset ht))⟩

theorem Dated.inserted (hd : Dated readings db) {now : Time} {accepted : List PreparedMessage}
    (hi : Inserted now db db' accepted) (hclock : (readings ++ [now]).Pairwise (· ≤ ·)) :
    Dated (readings ++ [now]) db' := by
  have htimes : (entries db').map (·.2) =
      (entries db).map (·.2) ++ List.replicate accepted.length now := by
    rw [entries_inserted hi, List.map_append, List.map_map]
    simp [Function.comp_def]
  have hlast := (List.pairwise_append.mp hclock).2.2
  refine ⟨?_, fun t ht ↦ ?_⟩
  · rw [htimes, List.pairwise_append]
    refine ⟨hd.sorted, List.pairwise_replicate.mpr (.inr le_rfl), fun t ht t' ht' ↦ ?_⟩
    obtain rfl := List.eq_of_mem_replicate ht'
    exact hlast t (hd.past t ht) t' (List.mem_singleton_self _)
  · rw [htimes] at ht
    rcases List.mem_append.mp ht with ht | ht
    · exact List.mem_append_left _ (hd.past t ht)
    · exact List.mem_append_right _ (List.mem_singleton.mpr (List.eq_of_mem_replicate ht))

end Dated

theorem accepts_of_job {healthy : Bool} {free : ℕ} {now : Time} {batch : List PreparedMessage}
    (h : job g a = some (.insertBatch healthy free now batch)) : a.accepts = [now] := by
  unfold job at h
  split at h
  case h_3 =>
    split at h <;> cases h
    rfl
  case h_5 => split at h <;> cases h
  all_goals cases h

theorem Dated.step {readings : List Time} (hg : Dated readings g.store.db)
    (hclock : (readings ++ a.accepts).Pairwise (· ≤ ·)) (h : g.step a = some g') :
    Dated (readings ++ a.accepts) g'.store.db := by
  rcases step_job h with he | ⟨op, hjob, hop⟩
  · rw [he]
    exact hg.sublist (.refl _) _
  by_cases hinserts : op.Inserts
  · cases op with
    | insertBatch healthy free now batch =>
      have htrans := transition_of_step hop
      rw [accepts_of_job hjob] at hclock ⊢
      generalize g'.store = s' at htrans
      cases htrans with
      | refused hr => exact hg.sublist (.refl _) _
      | inserted hr hi => exact hg.inserted hi hclock
    | _ => exact hinserts.elim
  · exact hg.sublist ((transition_of_step hop).entries hinserts) _

theorem Dated.of_runs (h : Runs Gateway.step {} ops g)
    (hclock : (ops.flatMap Action.accepts).Pairwise (· ≤ ·)) :
    Dated (ops.flatMap Action.accepts) g.store.db := by
  refine h.trace_invariant (P := fun k v ↦ (k.flatMap Action.accepts).Pairwise (· ≤ ·) →
    Dated (k.flatMap Action.accepts) v.store.db) ?_ ?_ hclock
  · exact fun _ ↦ ⟨.nil, fun t ht ↦ by cases ht⟩
  · intro k u a v _ hu hstep hk
    rw [List.flatMap_append, List.flatMap_singleton] at hk ⊢
    exact (hu (List.pairwise_append.mp hk).1).step hk hstep

/-- The group commit decides the submissions in the order in which they came, the rows
of those that are stored stand in that order and in that of their acceptance times, and
the intake holds at most a batch and a full queue in memory. -/
theorem group_commit_order (h : Runs Gateway.step {} ops g) :
    g.intake.submitted = g.intake.decided ++ g.intake.undecided.map (·.id) ∧
    ((g.store.db.messages.rows.map (·.id)).filter (· ∈ g.intake.submitted)).Sublist
      g.intake.decided ∧
    ((ops.flatMap Action.accepts).Pairwise (· ≤ ·) →
      (g.store.db.messages.rows.map (·.created)).Pairwise (· ≤ ·)) ∧
    ∀ config ∈ g.store.running, 0 < config.queue.pendingSubmissions →
      g.intake.undecided.length ≤
        max 1 config.queue.batchSize + config.queue.pendingSubmissions := by
  have ho := InOrder.of_runs h
  refine ⟨ho.line, ?_, fun hclock ↦ ?_, fun config hr hlimit ↦ ?_⟩
  · have hrows := ho.rows
    rw [entries, List.map_map] at hrows
    exact hrows
  · have hsorted := (Dated.of_runs h hclock).sorted
    rw [entries, List.map_map] at hsorted
    exact hsorted
  · obtain ⟨hbatch, hpending⟩ := Bounded.of_runs h config hr
    have hreduce : g.intake.pending.reduceOption.length ≤ g.intake.pending.length :=
      List.reduceOption_length_le _
    have hroom := hpending hlimit
    rw [Intake.undecided, List.length_append]
    omega

/-- Three submissions, in batches of two and one. -/
def groupedRun : List Action :=
  [.start sampleConfig 0,
    .intake (.data (sampleMessage "m1" "a@example.com")),
    .intake (.data (sampleMessage "m2" "b@example.com")), .intake .take, .intake .batch,
    .intake (.data (sampleMessage "m3" "c@example.com")),
    .intake (.commit 1000000000 1), .intake .resolve, .intake .take, .intake .batch,
    .intake (.commit 1000000000 2)]

theorem group_commit_order_sample : ∃ g, Runs Gateway.step {} groupedRun g ∧
    g.intake.submitted = ["m1", "m2", "m3"] ∧ g.intake.decided = ["m1", "m2", "m3"] ∧
    ["m1", "m2", "m3"] = g.intake.decided ++ g.intake.undecided.map (·.id) := by
  have hrun : (run Gateway.step groupedRun {}).any (fun g ↦
      g.intake.submitted = ["m1", "m2", "m3"] ∧ g.intake.decided = ["m1", "m2", "m3"]) := by
    decide +kernel
  obtain ⟨g, hg, hlists⟩ := (Option.any_eq_true ..).mp hrun
  obtain ⟨hsubmitted, hdecided⟩ := of_decide_eq_true hlists
  have horder := (group_commit_order hg).1
  exact ⟨g, hg, hsubmitted, hdecided, hsubmitted ▸ horder⟩

end Gateway

end NoreplyGateway
