import NoreplyGateway.Store.Rows

namespace NoreplyGateway.Store

open Machine

/-- A row's share of the two retention counters. -/
def heldMessages (r : Row) : ℤ := if r.mime.isSome then 1 else 0

def heldBytes (r : Row) : ℤ := if r.mime.isSome then r.size else 0

theorem retained_length (db : Database) :
    ((retained db).length : ℤ) = db.messages.total heldMessages := by
  rw [retained, Table.total]
  induction db.messages.rows with
  | nil => rfl
  | cons r l ih =>
    cases hm : r.mime with
    | none => simp [hm, heldMessages, ih]
    | some b =>
      simp only [List.filter_cons, hm, Option.isSome_some, if_true, List.length_cons, List.map_cons,
        List.sum_cons, heldMessages, Nat.cast_add, Nat.cast_one, ih]
      ring

theorem retained_size (db : Database) :
    ((((retained db).map (·.size)).sum : ℕ) : ℤ) = db.messages.total heldBytes := by
  rw [retained, Table.total]
  induction db.messages.rows with
  | nil => rfl
  | cons r l ih =>
    cases hm : r.mime with
    | none => simpa [hm, heldBytes] using ih
    | some b => simpa [hm, heldBytes] using ih

/-- The counters agree with the rows, the limits hold, and every accepted
message is submitted, cancelled or retained. -/
structure Accounting (maxMessages maxBytes : ℕ) (db : Database) : Prop where
  body : ∀ r ∈ db.messages.rows, BodyOk r
  retainedMessages : db.counters .retainedMessages = db.messages.total heldMessages
  retainedBytes : db.counters .retainedBytes = db.messages.total heldBytes
  messagesBound : db.counters .retainedMessages ≤ maxMessages
  bytesBound : db.counters .retainedBytes ≤ maxBytes
  conservation : db.counters .accepted =
    db.counters .submitted + db.counters .cancelled + db.counters .retainedMessages

def Limits (maxMessages maxBytes : ℕ) (config : Config) : Prop :=
  config.queue.maxMessages = maxMessages ∧ config.queue.maxBytes = maxBytes

variable {maxMessages maxBytes : ℕ} {s t : Session} {op : Op}

theorem Accounting.empty : Accounting maxMessages maxBytes {} :=
  ⟨fun _ hr ↦ absurd hr List.not_mem_nil, rfl, rfl, Int.natCast_nonneg _, Int.natCast_nonneg _, rfl⟩

theorem queuedRows_held (now : Time) (accepted : List PreparedMessage) :
    ((accepted.map (queuedRow now)).map heldMessages).sum = accepted.length ∧
    ((accepted.map (queuedRow now)).map heldBytes).sum =
      ((accepted.map (·.mime.length)).sum : ℕ) := by
  induction accepted with
  | nil => exact ⟨rfl, rfl⟩
  | cons m l ih =>
    obtain ⟨hm, hb⟩ := ih
    simp only [List.map_cons, List.sum_cons, hm, hb]
    constructor
    · simp [queuedRow, heldMessages]
      ring
    · simp [queuedRow, heldBytes]

theorem heldMessages_of_retained {r : Row} (h : r.mime ≠ none) : heldMessages r = 1 := by
  rw [heldMessages, if_pos (Option.isSome_iff_ne_none.mpr h)]

theorem heldBytes_of_retained {r : Row} (h : r.mime ≠ none) : heldBytes r = r.size := by
  rw [heldBytes, if_pos (Option.isSome_iff_ne_none.mpr h)]

/-- Removing the body of one row takes exactly its share from both totals. -/
theorem totals_of_removed {messages : Table Row.id} {row : Row} {f : Row → Row}
    (hf : ∀ r, (f r).id = r.id) (hrow : messages.find? row.id = some row) (hm : row.mime ≠ none)
    (hgone : (f row).mime = none) :
    (messages.updateAt row.id f hf).total heldMessages = messages.total heldMessages - 1 ∧
    (messages.updateAt row.id f hf).total heldBytes = messages.total heldBytes - row.size := by
  rw [Table.total_updateAt hrow, Table.total_updateAt hrow, heldMessages_of_retained hm,
    heldBytes_of_retained hm]
  simp [heldMessages, heldBytes, hgone]

section Transactions

variable {db : Database} {now : Time} {row : Row}

theorem Accounting.mime_ne_none (ha : Accounting maxMessages maxBytes db)
    (hrow : db.messages.find? row.id = some row)
    (hs : row.status ≠ .submitted ∧ row.status ≠ .cancelled) : row.mime ≠ none := by
  intro hm
  rcases (ha.body row (Table.mem_of_find? hrow)).gone.mp hm with h | h
  · exact hs.1 h
  · exact hs.2 h

/-- A transaction that leaves bodies, sizes and the five counters as they are
keeps the accounts. -/
theorem Accounting.of_same {db' : Database} (ha : Accounting maxMessages maxBytes db)
    (hbody : ∀ r ∈ db'.messages.rows, BodyOk r)
    (hm : db'.messages.total heldMessages = db.messages.total heldMessages)
    (hb : db'.messages.total heldBytes = db.messages.total heldBytes)
    (hc : ∀ key ∈ [Counter.accepted, .retainedMessages, .retainedBytes, .submitted, .cancelled],
      db'.counters key = db.counters key) : Accounting maxMessages maxBytes db' := by
  simp only [List.forall_mem_cons, List.not_mem_nil, false_implies, implies_true, and_true] at hc
  obtain ⟨h₁, h₂, h₃, h₄, h₅⟩ := hc
  refine ⟨hbody, ?_, ?_, h₂ ▸ ha.messagesBound, h₃ ▸ ha.bytesBound, ?_⟩
  · rw [h₂, hm, ha.retainedMessages]
  · rw [h₃, hb, ha.retainedBytes]
  · rw [h₁, h₂, h₄, h₅, ha.conservation]

theorem Accounting.reopen {config : Config} (ha : Accounting maxMessages maxBytes db)
    (hbody : ∀ r ∈ (reopen config now db).messages.rows, BodyOk r) :
    Accounting maxMessages maxBytes (reopen config now db) := by
  -- the recomputed counters are the totals that the old ones already were
  refine ha.of_same hbody ?_ ?_ ?_
  · exact Table.total_update (recoverRow_id now) (fun r _ _ ↦ rfl)
  · exact Table.total_update (recoverRow_id now) (fun r _ _ ↦ rfl)
  · simp only [List.forall_mem_cons, List.not_mem_nil, false_implies, implies_true, and_true]
    refine ⟨reopen_counters (by decide) (by decide) (by decide), ?_, ?_,
      reopen_counters (by decide) (by decide) (by decide),
      reopen_counters (by decide) (by decide) (by decide)⟩
    · rw [reopen_retainedMessages, retained_length, ha.retainedMessages]
    · rw [reopen_retainedBytes, retained_size, ha.retainedBytes]

theorem Accounting.inserted {queue : QueueConfig} {batch : List PreparedMessage} {db' : Database}
    (ha : Accounting queue.maxMessages queue.maxBytes db)
    (hbody : ∀ r ∈ db'.messages.rows, BodyOk r)
    (hi : Inserted now db db' (admission queue batch (db.counters .retainedMessages)
      (db.counters .retainedBytes)).2) :
    Accounting queue.maxMessages queue.maxBytes db' := by
  obtain ⟨hrm, hrb⟩ := queuedRows_held now (admission queue batch (db.counters .retainedMessages)
    (db.counters .retainedBytes)).2
  refine ⟨hbody, ?_, ?_, ?_, ?_, ?_⟩
  · rw [hi.retainedMessages, Table.total_append hi.rows, hrm, ha.retainedMessages]
  · rw [hi.retainedBytes, Table.total_append hi.rows, hrb, ha.retainedBytes]
  · rw [hi.retainedMessages]
    exact admission_messages ha.messagesBound
  · rw [hi.retainedBytes]
    exact admission_bytes ha.bytesBound
  · rw [hi.counted, hi.submitted, hi.cancelled, hi.retainedMessages, ha.conservation]
    ring

theorem Accounting.settle {status : Status} {error : String} {delay : PyFloat}
    {globalCooldown : Bool} {counter : Counter} {next : Extended}
    (ha : Accounting maxMessages maxBytes db) (hf : db.messages.find? row.id = some row)
    (hs : row.status = .sending) (hc : resultCounter status = some counter)
    (hbody : ∀ r ∈ (settle row.id status error delay globalCooldown now counter row next
      db).messages.rows, BodyOk r) :
    Accounting maxMessages maxBytes
      (settle row.id status error delay globalCooldown now counter row next db) := by
  by_cases hsub : status = .submitted
  · subst hsub
    obtain rfl := Option.some.inj hc
    obtain ⟨hm, hb⟩ := totals_of_removed (finishRow_id .submitted error now next) hf
      (ha.mime_ne_none hf (by simp [hs])) rfl
    have hmb := ha.messagesBound
    have hbb := ha.bytesBound
    refine ⟨hbody, ?_, ?_, ?_, ?_, ?_⟩
    · simp [Store.settle, hm, ha.retainedMessages]
      ring
    · simp [Store.settle, hb, ha.retainedBytes]
      ring
    · simp [Store.settle]
      omega
    · simp [Store.settle]
      omega
    · simp [Store.settle, ha.conservation]
      ring
  · refine ha.of_same hbody ?_ ?_ ?_
    · exact Table.total_update (finishRow_id status error now next)
        (fun r _ _ ↦ by simp [heldMessages, finishRow, hsub])
    · exact Table.total_update (finishRow_id status error now next)
        (fun r _ _ ↦ by simp [heldBytes, finishRow, hsub])
    · cases status <;> simp_all [Store.settle, resultCounter] <;> subst hc <;> simp

theorem Accounting.cancel (ha : Accounting maxMessages maxBytes db)
    (hf : db.messages.find? row.id = some row)
    (hs : row.status ≠ .submitted ∧ row.status ≠ .cancelled)
    (hbody : ∀ r ∈ (cancel now row db).messages.rows, BodyOk r) :
    Accounting maxMessages maxBytes (cancel now row db) := by
  obtain ⟨hm, hb⟩ := totals_of_removed (cancelRow_id now) hf (ha.mime_ne_none hf hs) rfl
  have hmb := ha.messagesBound
  have hbb := ha.bytesBound
  refine ⟨hbody, ?_, ?_, ?_, ?_, ?_⟩
  · simp [Store.cancel, hm, ha.retainedMessages]
    ring
  · simp [Store.cancel, hb, ha.retainedBytes]
    ring
  · simp [Store.cancel]
    omega
  · simp [Store.cancel]
    omega
  · simp [Store.cancel, ha.conservation]
    ring

theorem Accounting.housekeeping {config : Config} {scan : ScanOrder}
    (ha : Accounting maxMessages maxBytes db)
    (hbody : ∀ r ∈ (housekeeping config now scan db).messages.rows, BodyOk r) :
    Accounting maxMessages maxBytes (housekeeping config now scan db) := by
  obtain ⟨p, hp, hstatus⟩ := housekeeping_messages config now scan db
  have hgone : ∀ r ∈ db.messages.rows, p r = true → r.mime = none :=
    fun r hr hpr ↦ (ha.body r hr).gone.mpr (hstatus r hr hpr)
  refine ha.of_same hbody ?_ ?_ (fun _ _ ↦ rfl)
  · rw [hp, Table.total_delete (fun r hr hpr ↦ by simp [heldMessages, hgone r hr hpr])]
  · rw [hp, Table.total_delete (fun r hr hpr ↦ by simp [heldBytes, hgone r hr hpr])]

end Transactions

theorem Accounting.step (ha : Accounting maxMessages maxBytes s.db)
    (hl : ∀ config, s.running = some config → Limits maxMessages maxBytes config)
    (h : Transition s op t) : Accounting maxMessages maxBytes t.db := by
  have hbody := h.bodyOk ha.body
  cases h with
  | crash | refused | idle => exact ha
  | @setSetting config setting hr =>
    cases setting <;> exact ha.of_same hbody rfl rfl (fun _ _ ↦ rfl)
  | start hr ho => exact ha.reopen hbody
  | @inserted config healthy free now batch db hr hi =>
    obtain ⟨rfl, rfl⟩ := hl config hr
    exact ha.inserted hbody hi
  | expired hr hn hc =>
    exact ha.of_same hbody (Table.total_update (expireRow_id _) (fun r _ _ ↦ rfl))
      (Table.total_update (expireRow_id _) (fun r _ _ ↦ rfl)) (by simp [expire])
  | claimed hr hn hc =>
    exact ha.of_same hbody (Table.total_update (claimRow_id _) (fun r _ _ ↦ rfl))
      (Table.total_update (claimRow_id _) (fun r _ _ ↦ rfl)) (fun _ _ ↦ rfl)
  | finished hr hf hs hc hn => exact ha.settle hf hs hc hbody
  | retried hr hf hs hu =>
    exact ha.of_same hbody (Table.total_update (retryRow_id _) (fun r _ _ ↦ rfl))
      (Table.total_update (retryRow_id _) (fun r _ _ ↦ rfl)) (by simp [requeue])
  | cancelled hr hf hs => exact ha.cancel hf hs.2 hbody
  | housekeeping hr => exact ha.housekeeping hbody

theorem Accounting.of_runs {ops : List Op}
    (hlimits : ∀ config now, Op.start config now ∈ ops → Limits maxMessages maxBytes config)
    (h : Runs Session.step {} ops s) : Accounting maxMessages maxBytes s.db := by
  refine h.trace_invariant (P := fun k u ↦
    (∀ config now, Op.start config now ∈ k → Limits maxMessages maxBytes config) →
      Accounting maxMessages maxBytes u.db) (fun _ ↦ Accounting.empty) ?_ hlimits
  intro k u a v hk hu ha hl
  have hl' := fun config now hm ↦ hl config now (List.mem_append_left _ hm)
  refine (hu hl').step (fun config hc ↦ ?_) (transition_of_step ha)
  obtain ⟨now, hnow⟩ := started hk hc
  exact hl' config now hnow

/-- The counters are maintained by the transactions one by one; over a whole
run they stay what the rows say they are. -/
theorem queue_accounting {ops : List Op}
    (hlimits : ∀ config now, Op.start config now ∈ ops → Limits maxMessages maxBytes config)
    (h : Runs Session.step {} ops s) :
    (∀ r ∈ s.db.messages.rows, r.mime = none ↔ r.status = .submitted ∨ r.status = .cancelled) ∧
    s.db.counters .retainedMessages = (retained s.db).length ∧
    s.db.counters .retainedBytes = (((retained s.db).map (·.size)).sum : ℕ) ∧
    s.db.counters .retainedMessages ≤ maxMessages ∧
    s.db.counters .retainedBytes ≤ maxBytes ∧
    s.db.counters .accepted =
      s.db.counters .submitted + s.db.counters .cancelled + s.db.counters .retainedMessages := by
  have ha := Accounting.of_runs hlimits h
  refine ⟨fun r hr ↦ (ha.body r hr).gone, ?_, ?_, ha.messagesBound, ha.bytesBound, ha.conservation⟩
  · rw [ha.retainedMessages, retained_length]
  · rw [ha.retainedBytes, retained_size]

theorem queue_accounting_sample : ∃ s, Runs Session.step {} sampleRun s ∧
    s.db.counters .accepted =
      s.db.counters .submitted + s.db.counters .cancelled + s.db.counters .retainedMessages := by
  obtain ⟨s, hs⟩ := sampleRun_runs
  have hlimits : ∀ config now, Op.start config now ∈ sampleRun →
      Limits 100000 (5 * 1024 ^ 3) config := by
    intro config now hm
    simp only [sampleRun, List.mem_cons, Op.start.injEq, reduceCtorEq, List.not_mem_nil,
      or_false] at hm
    rw [hm.1]
    exact ⟨rfl, rfl⟩
  exact ⟨s, hs, (queue_accounting hlimits hs).2.2.2.2.2⟩

end NoreplyGateway.Store
