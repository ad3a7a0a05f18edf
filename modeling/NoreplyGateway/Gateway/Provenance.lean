import NoreplyGateway.Gateway.Acknowledgement
import NoreplyGateway.Gateway.Jobs
import NoreplyGateway.Upstream.Payload

namespace NoreplyGateway

open Machine Store Upstream

/-- The columns of a row that are written once, with the row. -/
structure Content where
  id : String
  envelopeSender : String
  originalFrom : String
  recipients : String
  recipientCount : ℕ
  subject : String
  messageId : String
  nat : Bool
  size : ℕ

def Row.content (r : Row) : Content where
  id := r.id
  envelopeSender := r.envelopeSender
  originalFrom := r.originalFrom
  recipients := r.recipients
  recipientCount := r.recipientCount
  subject := r.subject
  messageId := r.messageId
  nat := r.nat
  size := r.size

def Content.of (m : PreparedMessage) : Content where
  id := m.id
  envelopeSender := m.envelopeSender
  originalFrom := m.originalFrom
  recipients := Json.dumps m.recipients
  recipientCount := m.recipients.length
  subject := truncate m.subject 2000
  messageId := truncate m.messageId 1000
  nat := m.nat
  size := m.mime.length

namespace Store

variable {s t : Session} {op : Op}

/-- A row is new, or it has the content and at most the body that it had. -/
theorem RowChange.content {x : Option Row} {r : Row} (h : RowChange op x (some r)) :
    (∃ r₀, x = some r₀ ∧ r.content = r₀.content ∧ (r.mime = r₀.mime ∨ r.mime = none)) ∨
    ∃ healthy free now batch m, op = .insertBatch healthy free now batch ∧ m ∈ batch ∧
      r = queuedRow now m := by
  cases x with
  | some r₀ =>
    have hmime := h.mime
    refine .inl ⟨r₀, rfl, ?_, hmime⟩
    cases h <;> rfl
  | none =>
    cases h with
    | inserted hm => exact .inr ⟨_, _, _, _, _, rfl, hm, rfl⟩

end Store

namespace Gateway

/-- The row that a worker has from its claim. -/
def Worker.message : Worker → Option Row
  | .claimed message => message
  | .sending message | .pausing message _ | .paused message _ => some message
  | _ => none

def Action.submission : Action → Option PreparedMessage
  | .intake (.data m) => some m
  | _ => none

/-- Each row in the store, and each one that a worker has, is that of a message that
DATA submitted in the run. -/
structure Sourced (ops : List Action) (g : Gateway) : Prop where
  rows : ∀ r ∈ g.store.db.messages.rows, ∃ m, .intake (.data m) ∈ ops ∧ r.content = .of m ∧
    (r.mime = some m.mime ∨ r.mime = none)
  carried : ∀ p ∈ g.dispatcher.workers, ∀ r ∈ p.message, ∃ m, .intake (.data m) ∈ ops ∧
    r.content = .of m ∧ r.mime = some m.mime

/-- The submissions of the run differ, and they are those with an identifier. -/
structure Issued (ops : List Action) (g : Gateway) : Prop where
  issued : g.issued = (ops.filterMap Action.submission).map (·.id)
  nodup : g.issued.Nodup

/-- The identifier is given out, and its submission can only be answered by the
acknowledgement. -/
structure Kept (g : Gateway) (id : String) : Prop extends Handled g id where
  refused : ∀ reason, (id, .refused reason) ∉ (custody g).decided
  deferred : .deferred id ∉ (custody g).replies

variable {g g' : Gateway} {config : Config} {p p' : Worker} {a : Action} {ops : List Action}
  {id : String}

theorem worker_message {action : WorkerAction} (h : workerStep g config p action = some (g', p'))
    {r : Row} (hr : r ∈ p'.message) :
    r ∈ p.message ∨ ∃ now, g.store.claimed now = some r := by
  unfold workerStep at h
  split at h
  case h_1 | h_2 => split_ifs at h <;> cases h <;> cases hr
  case h_3 =>
    dsimp only at h
    split_ifs at h <;> cases h <;> cases hr
  case h_4 now =>
    obtain ⟨store, -, he⟩ := Option.map_eq_some_iff.mp h
    obtain ⟨rfl, rfl⟩ := Prod.mk.inj he
    exact .inr ⟨now, hr⟩
  case h_6 | h_9 =>
    cases h
    first
      | exact .inl hr
      | cases hr
  case h_7 message result jitter now =>
    obtain ⟨rfl, rfl⟩ := Prod.mk.inj (Option.some.inj h)
    cases result with
    | ok => cases hr
    | error e =>
      cases e with
      | authenticationRequired => exact .inl hr
      | _ => cases hr
  case h_8 =>
    obtain ⟨store, -, he⟩ := Option.map_eq_some_iff.mp h
    obtain ⟨rfl, rfl⟩ := Prod.mk.inj he
    exact .inl hr
  case h_10 | h_12 => split at h <;> cases h <;> cases hr
  case h_19 =>
    obtain ⟨rfl, rfl⟩ := Prod.mk.inj (Option.some.inj h)
    cases p <;> cases hr
  case h_18 | h_20 => cases h
  all_goals
    cases h
    cases hr

theorem step_message (h : g.step a = some g') (hp : p' ∈ g'.dispatcher.workers) {r : Row}
    (hr : r ∈ p'.message) :
    (∃ p ∈ g.dispatcher.workers, r ∈ p.message) ∨ ∃ now, g.store.claimed now = some r := by
  cases a with
  | start config now =>
    obtain ⟨store, -, rfl⟩ := Option.map_eq_some_iff.mp h
    cases hp
  | crash =>
    obtain ⟨store, -, rfl⟩ := Option.map_eq_some_iff.mp h
    cases hp
  | intake action =>
    obtain ⟨config, -, h⟩ := Option.bind_eq_some_iff.mp h
    rw [intake_dispatcher h] at hp
    exact .inl ⟨p', hp, hr⟩
  | delivery action =>
    obtain ⟨config, -, h⟩ := Option.bind_eq_some_iff.mp h
    rcases delivery_workers h with he | ⟨index, action, p, q, g₁, -, hq, hstep, he⟩ | hready
    · exact .inl ⟨p', he ▸ hp, hr⟩
    · rw [he] at hp
      rcases List.mem_or_eq_of_mem_set hp with hp | rfl
      · exact .inl ⟨p', hp, hr⟩
      · rcases worker_message hstep hr with hold | hclaimed
        · exact .inl ⟨p, List.mem_of_getElem? hq, hold⟩
        · exact .inr hclaimed
    · obtain rfl := hready p' hp
      cases hr

/-- A batch that is committed comes from the submissions that are undecided. -/
theorem insert_of_job {healthy : Bool} {free : ℕ} {now : Time} {batch : List PreparedMessage}
    (h : job g a = some (.insertBatch healthy free now batch)) {m : PreparedMessage}
    (hm : m ∈ batch) : m ∈ (custody g).alive := by
  unfold job at h
  split at h
  case h_3 =>
    split at h
    · next hw =>
      cases h
      simp [custody, hw, Writer.uncommitted, hm]
    · cases h
  case h_5 => split at h <;> cases h
  all_goals cases h

theorem Sourced.rows_step (hr : Runs Gateway.step {} ops g) (hs : Sourced ops g)
    (h : g.step a = some g') {r : Row} (hmem : r ∈ g'.store.db.messages.rows) :
    ∃ m, .intake (.data m) ∈ ops ++ [a] ∧ r.content = .of m ∧
      (r.mime = some m.mime ∨ r.mime = none) := by
  have hold : ∀ r₀ ∈ g.store.db.messages.rows, r.content = r₀.content →
      (r.mime = r₀.mime ∨ r.mime = none) → ∃ m, .intake (.data m) ∈ ops ++ [a] ∧
        r.content = .of m ∧ (r.mime = some m.mime ∨ r.mime = none) := by
    intro r₀ hr₀ hcontent hmime
    obtain ⟨m, hm, hof, hbody⟩ := hs.rows r₀ hr₀
    refine ⟨m, List.mem_append_left _ hm, hcontent.trans hof, ?_⟩
    rcases hmime with hmime | hmime
    · exact hmime ▸ hbody
    · exact .inr hmime
  rcases step_job h with he | ⟨op, hjob, hop⟩
  · exact hold r (he ▸ hmem) rfl (.inl rfl)
  · have hchange := step_row hop r.id
    rw [Table.find?_of_mem hmem] at hchange
    rcases hchange.content with ⟨r₀, hr₀, hcontent, hmime⟩ |
      ⟨healthy, free, now, batch, m, rfl, hm, rfl⟩
    · exact hold r₀ (Table.mem_of_find? hr₀) hcontent hmime
    · have hdata := (Traced.of_runs hr).data m (insert_of_job hjob hm)
      exact ⟨m, List.mem_append_left _ hdata, rfl, .inl rfl⟩

theorem bodyOk_of_gateway (h : Runs Gateway.step {} ops g) :
    ∀ r ∈ g.store.db.messages.rows, BodyOk r := by
  obtain ⟨ops', hops⟩ := h.simulate (·.store) (fun _ _ _ ha ↦ store_runs ha)
  exact bodyOk_of_runs hops

theorem Sourced.step (hr : Runs Gateway.step {} ops g) (hs : Sourced ops g)
    (h : g.step a = some g') : Sourced (ops ++ [a]) g' := by
  refine ⟨fun r hmem ↦ hs.rows_step hr h hmem, fun p' hp' r hrow ↦ ?_⟩
  rcases step_message h hp' hrow with ⟨p, hp, hold⟩ | ⟨now, hclaimed⟩
  · obtain ⟨m, hm, hcontent, hmime⟩ := hs.carried p hp r hold
    exact ⟨m, List.mem_append_left _ hm, hcontent, hmime⟩
  · -- A row that can be claimed waits in the queue, and so it has its body.
    obtain ⟨config, r₀, -, hclaimable, rfl⟩ := claimed_eq_some hclaimed
    have hready := candidate_ready hclaimable.candidate
    have hmem := Table.mem_of_find? hready.found
    obtain ⟨m, hm, hcontent, hmime⟩ := hs.rows r₀ hmem
    have hbody : r₀.mime ≠ none := by
      rw [ne_eq, (bodyOk_of_gateway hr r₀ hmem).gone]
      rcases hready.state with hstate | hstate <;> simp [hstate]
    exact ⟨m, List.mem_append_left _ hm, hcontent, hmime.resolve_right hbody⟩

theorem Sourced.of_runs (h : Runs Gateway.step {} ops g) : Sourced ops g :=
  h.trace_invariant ⟨fun _ hr ↦ (by cases hr), fun _ hp ↦ (by cases hp)⟩
    fun _ _ _ _ hr hs ha ↦ hs.step hr ha

theorem issued_step (h : g.step a = some g') :
    g'.issued = g.issued ++ (a.submission.toList).map (·.id) ∧
      ∀ m, a.submission = some m → m.id ∉ g.issued := by
  have hother : g'.issued = g.issued → a.submission = none →
      g'.issued = g.issued ++ (a.submission.toList).map (·.id) ∧
        ∀ m, a.submission = some m → m.id ∉ g.issued := by
    intro hissued hnone
    simp [hissued, hnone]
  cases a with
  | start config now =>
    obtain ⟨store, -, rfl⟩ := Option.map_eq_some_iff.mp h
    exact hother rfl rfl
  | crash =>
    obtain ⟨store, -, rfl⟩ := Option.map_eq_some_iff.mp h
    exact hother rfl rfl
  | delivery action =>
    obtain ⟨config, -, h⟩ := Option.bind_eq_some_iff.mp h
    exact hother (delivery_frame h).issued rfl
  | intake action =>
    obtain ⟨config, -, h⟩ := Option.bind_eq_some_iff.mp h
    cases action with
    | data m =>
      simp only [intakeStep] at h
      split_ifs at h with hm
      cases h
      refine ⟨?_, fun m' hm' ↦ ?_⟩
      · unfold submit
        dsimp only
        split_ifs <;> rfl
      · cases hm'
        exact hm
    | reply id =>
      simp only [intakeStep] at h
      split_ifs at h
      obtain ⟨result, -, rfl⟩ := Option.map_eq_some_iff.mp h
      exact hother rfl rfl
    | disconnect id =>
      cases h
      exact hother rfl rfl
    | take =>
      simp only [intakeStep] at h
      split at h <;> cases h <;> exact hother rfl rfl
    | commit free now =>
      simp only [intakeStep] at h
      split at h
      · split at h <;> cases h <;> exact hother rfl rfl
      · cases h
    | batch | fault | resolve =>
      simp only [intakeStep] at h
      split at h <;> cases h
      exact hother rfl rfl
    | close | closePut =>
      simp only [intakeStep] at h
      split_ifs at h
      cases h
      exact hother rfl rfl

theorem Issued.step (hi : Issued ops g) (h : g.step a = some g') : Issued (ops ++ [a]) g' := by
  obtain ⟨hissued, hnew⟩ := issued_step h
  refine ⟨?_, ?_⟩
  · rw [hissued, hi.issued, List.filterMap_append, List.map_append]
    cases hsub : a.submission <;> simp [hsub]
  · rw [hissued]
    cases hsub : a.submission with
    | none => simpa using hi.nodup
    | some m =>
      refine hi.nodup.append (List.nodup_singleton _) ?_
      exact List.disjoint_singleton.mpr (hnew m hsub)

theorem Issued.of_runs (h : Runs Gateway.step {} ops g) : Issued ops g :=
  h.trace_invariant ⟨rfl, List.nodup_nil⟩ fun _ _ _ _ _ hi ha ↦ hi.step ha

theorem Issued.unique (hi : Issued ops g) {m m' : PreparedMessage}
    (hm : .intake (.data m) ∈ ops) (hm' : .intake (.data m') ∈ ops) (h : m'.id = m.id) :
    m' = m := by
  have hnodup := hi.issued ▸ hi.nodup
  have hmem : ∀ m₀, .intake (.data m₀) ∈ ops → m₀ ∈ ops.filterMap Action.submission :=
    fun m₀ h₀ ↦ List.mem_filterMap.mpr ⟨_, h₀, rfl⟩
  exact List.inj_on_of_nodup_map hnodup (hmem m' hm') (hmem m hm) h

/-- A message that has a row is not refused any more. -/
theorem InCustody.kept (hg : InCustody g) {r : Row} (hr : g.store.db.messages.find? id = some r) :
    Kept g id := by
  have hpresent : ¬ Absent g id := fun habsent ↦ by simp [habsent.unstored] at hr
  refine ⟨⟨hg.rows id r hr, fun hmem ↦ ?_⟩, fun reason hmem ↦ ?_, fun hmem ↦ ?_⟩
  · obtain ⟨m, hm, rfl⟩ := Multiset.mem_map.mp hmem
    simp [hg.fresh m hm] at hr
  · exact hpresent (hg.refused id reason hmem)
  · exact hpresent (hg.deferred id hmem)

theorem Kept.step (hid : Kept g id) (p : Progress g a g') : Kept g' id := by
  refine ⟨hid.toHandled.step p, ?_, ?_⟩
  · intro reason hmem
    cases p with
    | idle hs hc | store hop hs hc | refused hm hs hc | taken ha hm hs hc | answered hr hs hc =>
      rw [hc] at hmem
      exact hid.refused reason hmem
    | reset hop hs hc => simp [hc] at hmem
    | decided hb hl ha hi hc =>
      rw [hc] at hmem
      rcases Multiset.mem_add.mp hmem with hmem | hmem
      · exact hid.refused reason hmem
      · obtain ⟨⟨m, result⟩, ho, he⟩ := List.mem_map.mp hmem
        obtain ⟨rfl, rfl⟩ := Prod.mk.inj he
        refine hid.decided (Multiset.mem_map_of_mem _ ?_)
        rw [hb]
        exact Multiset.mem_add.mpr (.inl (List.of_mem_zip ho).1)
  · intro hmem
    cases p with
    | idle hs hc | store hop hs hc | reset hop hs hc | taken ha hm hs hc | decided hb hl ha hi hc =>
      rw [hc] at hmem
      exact hid.deferred hmem
    | refused hm hs hc =>
      rw [hc] at hmem
      rcases List.mem_append.mp hmem with hmem | hmem
      · exact hid.deferred hmem
      · obtain rfl := Reply.deferred.inj (List.mem_singleton.mp hmem)
        exact hm hid.issued
    | @answered id' result hr hs hc =>
      rw [hc] at hmem
      rcases List.mem_append.mp hmem with hmem | hmem
      · exact hid.deferred hmem
      · cases result with
        | stored => simp [answer] at hmem
        | refused reason =>
          obtain rfl := Reply.deferred.inj (List.mem_singleton.mp hmem)
          exact hid.refused reason hr

theorem holds_of_message {row : Row} (h : p.message = some row) :
    p.holds = some (row.id, false) := by
  cases p with
  | claimed message =>
    obtain rfl : message = some row := h
    rfl
  | sending | pausing | paused =>
    cases h
    rfl
  | _ => cases h

/-- What a worker claims and sends is the message of one DATA transaction of the run:
the row has its columns and its whole MIME, the payload carries that MIME, and the
client was not and will not be told to try again. -/
theorem attempt_provenance {row : Row} (h : Runs Gateway.step {} ops g)
    (hp : p ∈ g.dispatcher.workers) (hrow : p.message = some row) :
    ∃ m, .intake (.data m) ∈ ops ∧ (∀ m', .intake (.data m') ∈ ops → m'.id = row.id → m' = m) ∧
      row.content = .of m ∧
      (∃ mime, row.mime = some mime ∧ ∀ contentType account,
        carried account.backend (payload contentType account mime) = some m.mime) ∧
      ∀ ops' g', Runs Gateway.step g ops' g' → .deferred row.id ∉ g'.replies := by
  obtain ⟨m, hm, hcontent, hmime⟩ := (Sourced.of_runs h).carried p hp row hrow
  have hid : row.id = m.id := congrArg Content.id hcontent
  refine ⟨m, hm, fun m' hm' he ↦ ?_, hcontent, ⟨m.mime, hmime, fun contentType account ↦ ?_⟩,
    fun ops' g' hrun ↦ ?_⟩
  · exact (Issued.of_runs h).unique hm hm' (he.trans hid)
  · exact carried_payload contentType account m.mime
  · have hheld : row.id ∈ (held g).map (·.1) := by
      refine List.mem_map.mpr ⟨(row.id, false), List.mem_append_left _ ?_, rfl⟩
      exact List.mem_filterMap.mpr ⟨p, hp, holds_of_message hrow⟩
    obtain ⟨r, hr, -⟩ := (Holding.of_runs h).sending row.id hheld
    have hkept : Kept g' row.id :=
      hrun.invariant (P := fun v ↦ Kept v row.id) (fun _ _ _ hu ha ↦ hu.step (step_progress ha))
        ((InCustody.of_runs h).kept hr)
    exact hkept.deferred

theorem attempt_provenance_sample : ∃ (g : Gateway) (row : Row), Runs Gateway.step {} sampleActions g ∧
    row.id = "m1" ∧ .deferred row.id ∉ g.replies ∧
    ∃ m, .intake (.data m) ∈ sampleActions ∧ row.content = .of m := by
  have hrun : (run Gateway.step sampleActions {}).any (fun g ↦
      g.dispatcher.workers.any (fun p ↦ p.message.any (·.id = "m1"))) := by
    decide +kernel
  obtain ⟨g, hg, hworkers⟩ := (Option.any_eq_true ..).mp hrun
  obtain ⟨p, hp, hmessage⟩ := List.any_eq_true.mp hworkers
  obtain ⟨row, hrow, hid⟩ := (Option.any_eq_true ..).mp hmessage
  obtain ⟨m, hm, -, hcontent, -, hdeferred⟩ := attempt_provenance hg hp hrow
  exact ⟨g, row, hg, of_decide_eq_true hid, hdeferred [] g (runs_nil.mpr rfl), m, hm, hcontent⟩

end Gateway

end NoreplyGateway
