import NoreplyGateway.Store.Spec

namespace NoreplyGateway.Store

open Machine

/-- The committed transactions, each with the conditions under which the code
reaches its commit. -/
inductive Transition (s : Session) : Op → Session → Prop
  | start {config : Config} {now : Time} (hr : s.running = none)
      (ho : s.db.settings.sender.getD "" = "" ∨
        s.db.settings.sender.getD "" = casefold config.account.sender ∨ retained s.db = []) :
      Transition s (.start config now)
        ⟨some config, reopen config now s.db, s.attempts.map Attempt.recover⟩
  | crash {config : Config} (hr : s.running = some config) :
      Transition s .crash { s with running := none }
  | refused {config : Config} {healthy : Bool} {free : ℕ} {now : Time}
      {batch : List PreparedMessage} (hr : s.running = some config) :
      Transition s (.insertBatch healthy free now batch) s
  | inserted {config : Config} {healthy : Bool} {free : ℕ} {now : Time}
      {batch : List PreparedMessage} {db : Database} (hr : s.running = some config)
      (hi : Inserted now s.db db (admission config.queue batch (s.db.counters .retainedMessages)
        (s.db.counters .retainedBytes)).2) :
      Transition s (.insertBatch healthy free now batch) { s with db := db }
  | idle {config : Config} {now : Time} (hr : s.running = some config) (hn : s.claimed now = none) :
      Transition s (.claim now) s
  | expired {config : Config} {now : Time} {row : Row} (hr : s.running = some config)
      (hn : s.claimed now = none) (hc : Ready now s.db row) :
      Transition s (.claim now) { s with db := expire now row s.db }
  | claimed {config : Config} {now : Time} {row : Row} (hr : s.running = some config)
      (hn : s.claimed now = some { row with attempts := row.attempts + 1 })
      (hc : Claimable config now s.db row) :
      Transition s (.claim now) { s with
        db := reserve config now row s.db
        attempts := s.attempts ++ [⟨row.id, now, row.recipientCount, none⟩] }
  | finished {config : Config} {status : Status} {error : String} {delay : PyFloat}
      {globalCooldown : Bool} {now : Time} {row : Row} {next : Extended} {counter : Counter}
      (hr : s.running = some config) (hf : s.db.messages.find? row.id = some row)
      (hs : row.status = .sending) (hc : resultCounter status = some counter)
      (hn : (PyFloat.add now delay).toReal = some next) :
      Transition s (.finish row.id status error delay globalCooldown now) { s with
        db := settle row.id status error delay globalCooldown now counter row next s.db
        attempts := s.attempts.map (Attempt.finish row.id status) }
  | retried {config : Config} {acknowledgeDuplicate : Bool} {clock : RetryClock} {row : Row}
      (hr : s.running = some config) (hf : s.db.messages.find? row.id = some row)
      (hs : row.status ≠ .sending ∧ row.status ≠ .submitted ∧ row.status ≠ .cancelled)
      (hu : row.status = .uncertain → acknowledgeDuplicate = true) :
      Transition s (.action row.id "retry" acknowledgeDuplicate clock)
        { s with db := requeue clock row s.db }
  | cancelled {config : Config} {acknowledgeDuplicate : Bool} {clock : RetryClock} {row : Row}
      (hr : s.running = some config) (hf : s.db.messages.find? row.id = some row)
      (hs : row.status ≠ .sending ∧ row.status ≠ .submitted ∧ row.status ≠ .cancelled) :
      Transition s (.action row.id "cancel" acknowledgeDuplicate clock)
        { s with db := cancel clock.updated row s.db }
  | setSetting {config : Config} {setting : Setting} (hr : s.running = some config) :
      Transition s (.setSetting setting) { s with db := setSetting setting s.db }
  | housekeeping {config : Config} {now : Time} {scan : ScanOrder}
      (hr : s.running = some config) :
      Transition s (.housekeeping now scan) { s with db := housekeeping config now scan s.db }

variable {s t : Session} {op : Op}

/-- Every step of the store is one of the committed transactions. -/
theorem transition_of_step (h : s.step op = some t) : Transition s op t := by
  cases op with
  | start config now =>
    simp only [Session.step] at h
    split at h
    · next db hr ho =>
      obtain ⟨hsender, rfl⟩ := openStore_ok.mp ho
      cases h
      exact .start hr hsender
    · cases h
  | crash =>
    obtain ⟨config, hr, rfl⟩ := Option.map_eq_some_iff.mp h
    exact .crash hr
  | insertBatch healthy free now batch =>
    obtain ⟨config, hr, h⟩ := Option.bind_eq_some_iff.mp h
    split at h
    · next db results hb =>
      cases h
      rcases insertBatch_ok hb with ⟨rfl, -⟩ | ⟨-, hi⟩
      · exact .refused hr
      · exact .inserted hr hi
    · cases h
  | claim now =>
    obtain ⟨config, hr, rfl⟩ := Option.map_eq_some_iff.mp h
    have hclaimed : s.claimed now = (claim config now s.db).2 := by simp [Session.claimed, hr]
    rcases claim_cases config now s.db with hc | ⟨row, hrow, hc⟩ | ⟨row, hrow, hc⟩
    · have hn : s.claimed now = none := by rw [hclaimed, hc]
      simpa [hc, hn] using Transition.idle hr hn
    · have hn : s.claimed now = none := by rw [hclaimed, hc]
      simpa [hc, hn] using Transition.expired hr hn (candidate_ready hrow)
    · have hn : s.claimed now = some { row with attempts := row.attempts + 1 } := by
        rw [hclaimed, hc]
      simpa [hc, hn] using Transition.claimed hr hn hrow
  | finish identifier status error delay globalCooldown now =>
    obtain ⟨config, hr, h⟩ := Option.bind_eq_some_iff.mp h
    split at h
    · next db hf =>
      cases h
      obtain ⟨row, next, counter, hrow, hs, hc, hn, rfl⟩ := finish_ok hf
      obtain rfl := Table.key_of_find? hrow
      exact .finished hr hrow hs hc hn
    · cases h
  | action identifier verb acknowledgeDuplicate clock =>
    obtain ⟨config, hr, h⟩ := Option.bind_eq_some_iff.mp h
    split at h
    · next db ha =>
      cases h
      obtain ⟨row, hrow, hs₁, hs₂, hs₃, ⟨rfl, hu, rfl⟩ | ⟨rfl, rfl⟩⟩ := action_ok ha
      · obtain rfl := Table.key_of_find? hrow
        exact .retried hr hrow ⟨hs₁, hs₂, hs₃⟩ hu
      · obtain rfl := Table.key_of_find? hrow
        exact .cancelled hr hrow ⟨hs₁, hs₂, hs₃⟩
    · cases h
  | setSetting setting =>
    obtain ⟨config, hr, rfl⟩ := Option.map_eq_some_iff.mp h
    exact .setSetting hr
  | housekeeping now scan =>
    obtain ⟨config, hr, rfl⟩ := Option.map_eq_some_iff.mp h
    exact .housekeeping hr

/-- A claim returns a ready row, with the attempt counted. -/
theorem claimed_eq_some {now : Time} {row : Row} (h : s.claimed now = some row) :
    ∃ config r, s.running = some config ∧ Claimable config now s.db r ∧
      row = { r with attempts := r.attempts + 1 } := by
  obtain ⟨config, hr, hc⟩ := Option.bind_eq_some_iff.mp h
  rcases claim_cases config now s.db with he | ⟨r, -, he⟩ | ⟨r, hclaim, he⟩
  · simp [he] at hc
  · simp [he] at hc
  · rw [he] at hc
    exact ⟨config, r, hr, hclaim, (Option.some.inj hc).symm⟩

theorem Transition.running {config : Config} (h : Transition s op t)
    (ht : t.running = some config) : s.running = some config ∨ ∃ now, op = .start config now := by
  cases h with
  | start hr ho =>
    obtain rfl := Option.some.inj ht
    exact .inr ⟨_, rfl⟩
  | crash hr => cases ht
  | _ => exact .inl ht

/-- The configuration in force is that of a start in the run. -/
theorem started {config : Config} {ops : List Op} (h : Runs Session.step {} ops s)
    (hs : s.running = some config) : ∃ now, Op.start config now ∈ ops := by
  refine h.trace_invariant (P := fun k u ↦ u.running = some config → ∃ now, Op.start config now ∈ k)
    (fun hu ↦ by cases hu) (fun k u a v _ hu ha hv ↦ ?_) hs
  rcases (transition_of_step ha).running hv with hv | ⟨now, rfl⟩
  · obtain ⟨now, hnow⟩ := hu hv
    exact ⟨now, List.mem_append_left _ hnow⟩
  · exact ⟨now, List.mem_append_right _ (List.mem_singleton_self _)⟩

/-- What one step may do to the row of one message. -/
inductive RowChange : Op → Option Row → Option Row → Prop
  | same (op : Op) (r : Option Row) : RowChange op r r
  | recovered {config : Config} {now : Time} {r : Row} (hs : r.status = .sending) :
      RowChange (.start config now) (some r) (some (recoverRow now r))
  | inserted {healthy : Bool} {free : ℕ} {now : Time} {batch : List PreparedMessage}
      {m : PreparedMessage} (hm : m ∈ batch) :
      RowChange (.insertBatch healthy free now batch) none (some (queuedRow now m))
  | expired {now : Time} {r : Row} (hs : r.status = .queued ∨ r.status = .retry) :
      RowChange (.claim now) (some r) (some (expireRow now r))
  | claimed {now : Time} {r : Row} (hs : r.status = .queued ∨ r.status = .retry) :
      RowChange (.claim now) (some r) (some (claimRow now r))
  | finished {status : Status} {error : String} {delay : PyFloat} {globalCooldown : Bool}
      {now : Time} {r : Row} {next : Extended} {counter : Counter} (hs : r.status = .sending)
      (hc : resultCounter status = some counter) :
      RowChange (.finish r.id status error delay globalCooldown now) (some r)
        (some (finishRow status error now next r))
  | retried {acknowledgeDuplicate : Bool} {clock : RetryClock} {r : Row}
      (hs : r.status ≠ .sending ∧ r.status ≠ .submitted ∧ r.status ≠ .cancelled)
      (hu : r.status = .uncertain → acknowledgeDuplicate = true) :
      RowChange (.action r.id "retry" acknowledgeDuplicate clock) (some r)
        (some (retryRow clock r))
  | cancelled {acknowledgeDuplicate : Bool} {clock : RetryClock} {r : Row}
      (hs : r.status ≠ .sending ∧ r.status ≠ .submitted ∧ r.status ≠ .cancelled) :
      RowChange (.action r.id "cancel" acknowledgeDuplicate clock) (some r)
        (some (cancelRow clock.updated r))
  | deleted {now : Time} {scan : ScanOrder} {r : Row}
      (hs : r.status = .submitted ∨ r.status = .cancelled) :
      RowChange (.housekeeping now scan) (some r) none

theorem RowChange.updateAt {messages : Table Row.id} {row : Row} {f : Row → Row}
    (hf : ∀ r, (f r).id = r.id) (hrow : messages.find? row.id = some row)
    (h : RowChange op (some row) (some (f row))) (id : String) :
    RowChange op (messages.find? id) ((messages.updateAt row.id f hf).find? id) := by
  by_cases hid : id = row.id
  · subst hid
    rw [Table.find?_updateAt, hrow]
    exact h
  · rw [Table.find?_updateAt_ne hf hid]
    exact .same op _

theorem Transition.row (h : Transition s op t) (id : String) :
    RowChange op (s.db.messages.find? id) (t.db.messages.find? id) := by
  cases h with
  | start hr ho =>
    rw [reopen_messages, Table.find?_update]
    cases hf : s.db.messages.find? id with
    | none => exact .same _ _
    | some r =>
      by_cases hs : r.status = .sending
      · simpa [hs] using RowChange.recovered hs
      · simpa [hs] using RowChange.same _ _
  | crash hr => exact .same _ _
  | refused hr => exact .same _ _
  | @inserted config healthy free now batch db hr hi =>
    cases hf : s.db.messages.find? id with
    | some r => rw [hi.find?_of_some hf]; exact .same _ _
    | none =>
      rw [Table.find?_append hi.rows, hf, Option.none_or]
      cases hn : List.find? (fun r : Row ↦ r.id = id) _ with
      | none => exact .same _ _
      | some r =>
        obtain ⟨m, hm, rfl⟩ := List.mem_map.mp (List.mem_of_find?_eq_some hn)
        exact .inserted (admission_sublist.subset hm)
  | idle hr hn => exact .same _ _
  | expired hr hn hc => exact RowChange.updateAt (expireRow_id _) hc.found (.expired hc.state) id
  | claimed hr hn hc =>
    have hready := candidate_ready hc.candidate
    exact RowChange.updateAt (claimRow_id _) hready.found (.claimed hready.state) id
  | finished hr hf hs hc hn => exact RowChange.updateAt (finishRow_id _ _ _ _) hf (.finished hs hc) id
  | retried hr hf hs hu => exact RowChange.updateAt (retryRow_id _) hf (.retried hs hu) id
  | cancelled hr hf hs => exact RowChange.updateAt (cancelRow_id _) hf (.cancelled hs) id
  | @setSetting config setting hr => cases setting <;> exact .same _ _
  | @housekeeping config now scan hr =>
    obtain ⟨p, hp, hstatus⟩ := housekeeping_messages config now scan s.db
    rw [hp, Table.find?_delete]
    cases hf : s.db.messages.find? id with
    | none => exact .same _ _
    | some r =>
      cases hpr : p r with
      | false => simpa [Option.filter, hpr] using RowChange.same _ _
      | true => simpa [Option.filter, hpr] using RowChange.deleted (hstatus r (Table.mem_of_find? hf) hpr)

theorem step_row (h : s.step op = some t) (id : String) :
    RowChange op (s.db.messages.find? id) (t.db.messages.find? id) :=
  (transition_of_step h).row id

def Op.Inserts : Op → Prop
  | .insertBatch .. => True
  | _ => False

theorem find?_eq_none_of_step {id : String} (h : s.step op = some t) (hop : ¬ op.Inserts)
    (hn : s.db.messages.find? id = none) : t.db.messages.find? id = none := by
  have hchange := step_row h id
  rw [hn] at hchange
  generalize t.db.messages.find? id = y at hchange
  cases hchange with
  | same => rfl
  | inserted => exact absurd trivial hop

/-- The body is gone exactly when the message is done, and the size column is
the length of the body. -/
structure BodyOk (r : Row) : Prop where
  gone : r.mime = none ↔ r.status = .submitted ∨ r.status = .cancelled
  size : ∀ b, r.mime = some b → r.size = b.length

theorem RowChange.bodyOk {x y : Option Row} (h : RowChange op x y)
    (hx : ∀ r ∈ x, BodyOk r) : ∀ r ∈ y, BodyOk r := by
  intro r hr
  cases h with
  | same => exact hx r hr
  | recovered hs | retried hs =>
    obtain rfl := Option.some.inj hr
    obtain ⟨hg, hz⟩ := hx _ rfl
    refine ⟨?_, hz⟩
    simp_all [recoverRow, retryRow]
  | expired hs | claimed hs =>
    obtain rfl := Option.some.inj hr
    obtain ⟨hg, hz⟩ := hx _ rfl
    refine ⟨?_, hz⟩
    rcases hs with hs | hs <;> simp_all [expireRow, claimRow]
  | inserted hm =>
    obtain rfl := Option.some.inj hr
    exact ⟨by simp [queuedRow], fun b hb ↦ by cases hb; rfl⟩
  | @finished status _ _ _ _ _ _ _ hs hc =>
    obtain rfl := Option.some.inj hr
    obtain ⟨hg, hz⟩ := hx _ rfl
    refine ⟨?_, fun b hb ↦ hz b ?_⟩
    · cases status <;> simp_all [finishRow, resultCounter]
    · simp only [finishRow] at hb
      split_ifs at hb
      exact hb
  | cancelled hs =>
    obtain rfl := Option.some.inj hr
    exact ⟨by simp [cancelRow], fun b hb ↦ by simp [cancelRow] at hb⟩
  | deleted hs => cases hr

/-- A body is never replaced, and never comes back. -/
theorem RowChange.mime {r r' : Row} (h : RowChange op (some r) (some r')) :
    r'.mime = r.mime ∨ r'.mime = none := by
  cases h with
  | same | recovered | expired | claimed | retried => exact .inl rfl
  | finished hs hc =>
    simp only [finishRow]
    split_ifs
    · exact .inr rfl
    · exact .inl rfl
  | cancelled hs => exact .inr rfl

theorem Transition.bodyOk (h : Transition s op t) (hs : ∀ r ∈ s.db.messages.rows, BodyOk r) :
    ∀ r ∈ t.db.messages.rows, BodyOk r :=
  fun r hr ↦ (h.row r.id).bodyOk (fun r' hr' ↦ hs r' (Table.mem_of_find? hr')) r
    (Table.find?_of_mem hr)

theorem bodyOk_of_runs {ops : List Op} (h : Runs Session.step {} ops s) :
    ∀ r ∈ s.db.messages.rows, BodyOk r :=
  h.invariant (P := fun u ↦ ∀ r ∈ u.db.messages.rows, BodyOk r)
    (fun _ _ _ hu ha ↦ (transition_of_step ha).bodyOk hu) (fun _ hr ↦ absurd hr List.not_mem_nil)

end NoreplyGateway.Store
