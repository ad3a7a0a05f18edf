import NoreplyGateway.Store.Session

namespace NoreplyGateway.Store

variable {config : Config} {now : Time} {db db' : Database}

section Open

@[simp] theorem reopen_messages : (reopen config now db).messages =
    db.messages.update (·.status = .sending) (recoverRow now) (recoverRow_id now) := rfl

@[simp] theorem reopen_settings : (reopen config now db).settings =
    { db.settings with sender := some (casefold config.account.sender) } := rfl

@[simp] theorem reopen_quota : (reopen config now db).quota =
    db.quota.map (fun q ↦ { q with state := .counted }) := rfl

theorem reopen_retainedMessages :
    (reopen config now db).counters .retainedMessages = (retained db).length := by
  simp only [reopen]
  split_ifs <;> simp

theorem reopen_retainedBytes :
    (reopen config now db).counters .retainedBytes = (((retained db).map (·.size)).sum : ℕ) := by
  simp only [reopen]
  split_ifs <;> simp

/-- A restart recomputes the two retention counters and adds to the uncertain
ones. -/
theorem reopen_counters {key : Counter} (hm : key ≠ .retainedMessages) (hb : key ≠ .retainedBytes)
    (hu : key ≠ .uncertain) : (reopen config now db).counters key = db.counters key := by
  simp only [reopen]
  split_ifs <;> simp [hm, hb, hu]

theorem openStore_ok : openStore config now db = .ok db' ↔
    (db.settings.sender.getD "" = "" ∨
      db.settings.sender.getD "" = casefold config.account.sender ∨ retained db = []) ∧
    db' = reopen config now db := by
  unfold openStore
  simp only [ne_eq, List.length_eq_zero_iff]
  split_ifs with h
  · simp only [false_iff]
    tauto
  · simp only [Except.ok.injEq]
    constructor
    · rintro rfl
      exact ⟨by tauto, rfl⟩
    · rintro ⟨-, rfl⟩
      rfl

end Open

section Insert

variable {queue : QueueConfig} {batch : List PreparedMessage} {held size : ℤ}

theorem admission_length : (admission queue batch held size).1.length = batch.length := by
  induction batch generalizing held size with
  | nil => rfl
  | cons m batch ih =>
    unfold admission
    split_ifs <;> simp [ih]

/-- The messages to be inserted are those whose result is `stored`. -/
theorem admission_accepted : (admission queue batch held size).2 =
    ((batch.zip (admission queue batch held size).1).filter (·.2 = .stored)).map (·.1) := by
  induction batch generalizing held size with
  | nil => rfl
  | cons m batch ih =>
    unfold admission
    split_ifs <;> simp [← ih]

theorem admission_sublist : (admission queue batch held size).2.Sublist batch := by
  induction batch generalizing held size with
  | nil => exact List.Sublist.refl _
  | cons m batch ih =>
    unfold admission
    split_ifs
    · exact ih.cons m
    · exact ih.cons_cons m

theorem admission_messages (h : held ≤ queue.maxMessages) :
    held + (admission queue batch held size).2.length ≤ queue.maxMessages := by
  induction batch generalizing held size with
  | nil => simpa [admission] using h
  | cons m batch ih =>
    unfold admission
    split_ifs with hc
    · exact ih h
    · have := @ih (held + 1) (size + m.mime.length) (by omega)
      simp only [List.length_cons, Nat.cast_add, Nat.cast_one]
      omega

theorem admission_bytes (h : size ≤ queue.maxBytes) :
    size + (((admission queue batch held size).2.map (·.mime.length)).sum : ℕ) ≤ queue.maxBytes := by
  induction batch generalizing held size with
  | nil => simpa [admission] using h
  | cons m batch ih =>
    unfold admission
    split_ifs with hc
    · exact ih h
    · have := @ih (held + 1) (size + m.mime.length) (by omega)
      simp only [List.map_cons, List.sum_cons, Nat.cast_add]
      omega

/-- The effect of a batch whose transaction committed: rows for the accepted
messages, and counters raised by them. -/
structure Inserted (now : Time) (db db' : Database) (accepted : List PreparedMessage) : Prop where
  rows : db'.messages.rows = db.messages.rows ++ accepted.map (queuedRow now)
  fresh : ∀ m ∈ accepted, db.messages.find? m.id = none
  settings : db'.settings = db.settings
  quota : db'.quota = db.quota
  counted : db'.counters .accepted = db.counters .accepted + accepted.length
  retainedMessages :
    db'.counters .retainedMessages = db.counters .retainedMessages + accepted.length
  retainedBytes : db'.counters .retainedBytes =
    db.counters .retainedBytes + ((accepted.map (·.mime.length)).sum : ℕ)
  submitted : db'.counters .submitted = db.counters .submitted
  cancelled : db'.counters .cancelled = db.counters .cancelled

theorem Inserted.refl : Inserted now db db [] :=
  ⟨by simp, by simp, rfl, rfl, by simp, by simp, by simp, rfl, rfl⟩

variable {healthy : Bool} {free : ℕ} {results : List InsertResult}

theorem insertBatch_ok (h : insertBatch config healthy free now batch db = .ok (db', results)) :
    (db' = db ∧ ∃ reason, results = batch.map (fun _ ↦ .refused reason)) ∨
    results = (admission config.queue batch (db.counters .retainedMessages)
        (db.counters .retainedBytes)).1 ∧
      Inserted now db db' (admission config.queue batch (db.counters .retainedMessages)
        (db.counters .retainedBytes)).2 := by
  unfold insertBatch at h
  split_ifs at h with hh hf
  · simp only [Except.ok.injEq, Prod.mk.injEq] at h
    exact .inl ⟨h.1.symm, _, h.2.symm⟩
  · simp only [Except.ok.injEq, Prod.mk.injEq] at h
    exact .inl ⟨h.1.symm, _, h.2.symm⟩
  · right
    generalize admission config.queue batch (db.counters .retainedMessages)
      (db.counters .retainedBytes) = admitted at h ⊢
    obtain ⟨results', accepted⟩ := admitted
    dsimp only at h ⊢
    split at h
    · cases h
    · next messages hm =>
      obtain ⟨hrows, hfresh⟩ := Table.insertMany_eq_some hm
      have hfresh' : ∀ m ∈ accepted, db.messages.find? m.id = none :=
        fun m hmem ↦ hfresh _ (List.mem_map_of_mem hmem)
      split_ifs at h with ha
      · simp only [Except.ok.injEq, Prod.mk.injEq] at h
        obtain ⟨rfl, rfl⟩ := h
        exact ⟨rfl, hrows, hfresh', rfl, rfl, by simp [ha], by simp [ha], by simp [ha], rfl, rfl⟩
      · simp only [Except.ok.injEq, Prod.mk.injEq] at h
        obtain ⟨rfl, rfl⟩ := h
        exact ⟨rfl, hrows, hfresh', rfl, rfl, by simp, by simp, by simp, by simp, by simp⟩

theorem Inserted.find?_of_some {accepted : List PreparedMessage} {id : String} {r : Row}
    (h : Inserted now db db' accepted) (hr : db.messages.find? id = some r) :
    db'.messages.find? id = some r := by
  rw [Table.find?_append h.rows, hr, Option.some_or]

end Insert

section Claim

variable {row : Row}

@[simp] theorem expire_messages : (expire now row db).messages =
    db.messages.updateAt row.id (expireRow now) (expireRow_id now) := rfl

@[simp] theorem expire_settings : (expire now row db).settings = db.settings := rfl

@[simp] theorem expire_quota : (expire now row db).quota = db.quota := rfl

@[simp] theorem reserve_messages : (reserve config now row db).messages =
    db.messages.updateAt row.id (claimRow now) (claimRow_id now) := rfl

@[simp] theorem reserve_settings : (reserve config now row db).settings = db.settings := rfl

@[simp] theorem reserve_quota : (reserve config now row db).quota = db.quota ++
    [⟨row.id, casefold config.account.sender, now, row.recipientCount, .reserved⟩] := rfl

/-- A row that the claim query may select. -/
structure Ready (now : Time) (db : Database) (row : Row) : Prop where
  found : db.messages.find? row.id = some row
  state : row.status = .queued ∨ row.status = .retry
  due : row.nextAttempt ≤ ((now : WithTop ℚ) : Extended)

theorem candidate_ready (h : candidate db now = some row) : Ready now db row := by
  have hstate : ∀ state, ready db now state = some row → (state = .queued ∨ state = .retry) →
      Ready now db row := by
    intro state hr hs
    obtain ⟨hm, hp⟩ := List.mem_filter.mp (List.argmin_mem hr)
    obtain ⟨rfl, hdue⟩ : row.status = state ∧ row.nextAttempt ≤ ((now : WithTop ℚ) : Extended) := by
      simpa using hp
    exact ⟨Table.find?_of_mem hm, hs, hdue⟩
  have hm := List.argmin_mem h
  simp only [List.mem_filterMap, List.mem_cons, List.not_mem_nil, or_false, id, exists_eq_right]
    at hm
  rcases hm with hm | hm
  · exact hstate .queued hm.symm (.inl rfl)
  · exact hstate .retry hm.symm (.inr rfl)

/-- The conditions under which a claim returns the row. -/
structure Claimable (config : Config) (now : Time) (db : Database) (row : Row) : Prop where
  unpaused : db.settings.paused.getD false = false
  cooled : PyFloat.lt now (db.settings.cooldownUntil.getD (0 : ℚ)) = false
  candidate : candidate db now = some row
  young : now - row.cycleStarted ≤ config.delivery.maxAgeHours * 3600
  budget : config.delivery.recipientLimit24h = 0 ∨
    used config now db + row.recipientCount ≤ config.delivery.recipientLimit24h

/-- A claim does nothing, or fails the head of the queue for its age, or
reserves the head. -/
theorem claim_cases (config : Config) (now : Time) (db : Database) :
    claim config now db = (db, none) ∨
    (∃ row, candidate db now = some row ∧ claim config now db = (expire now row db, none)) ∨
    ∃ row, Claimable config now db row ∧
      claim config now db =
        (reserve config now row db, some { row with attempts := row.attempts + 1 }) := by
  unfold claim
  split_ifs with hp
  · exact .inl rfl
  · simp only [not_or, Bool.not_eq_true] at hp
    split
    · exact .inl rfl
    · next row hrow =>
      split_ifs with ha hl
      · exact .inr (.inl ⟨row, hrow, rfl⟩)
      · exact .inl rfl
      · exact .inr (.inr ⟨row, ⟨hp.1, hp.2, hrow, not_lt.mp ha, by omega⟩, rfl⟩)

end Claim

section Finish

variable {identifier error : String} {status : Status} {delay : PyFloat} {globalCooldown : Bool}

@[simp] theorem settle_messages {counter : Counter} {row : Row} {next : Extended} :
    (settle identifier status error delay globalCooldown now counter row next db).messages =
      db.messages.updateAt identifier (finishRow status error now next)
        (finishRow_id status error now next) := rfl

@[simp] theorem settle_quota {counter : Counter} {row : Row} {next : Extended} :
    (settle identifier status error delay globalCooldown now counter row next db).quota =
      settleQuota identifier status db.quota := rfl

/-- A result is recorded only for a row in `sending`. -/
theorem finish_ok (h : finish identifier status error delay globalCooldown now db = .ok db') :
    ∃ row next counter, db.messages.find? identifier = some row ∧ row.status = .sending ∧
      resultCounter status = some counter ∧ (PyFloat.add now delay).toReal = some next ∧
      db' = settle identifier status error delay globalCooldown now counter row next db := by
  unfold finish at h
  split at h
  · cases h
  next counter hc =>
    split at h
    · cases h
    next row hrow =>
      split_ifs at h with hs
      rw [ne_eq, not_not] at hs
      split at h
      · cases h
      next next hn =>
        simp only [Except.ok.injEq] at h
        exact ⟨row, next, counter, hrow, hs, hc, hn, h.symm⟩

end Finish

section Action

variable {identifier verb : String} {acknowledgeDuplicate : Bool} {clock : RetryClock}

/-- An operator action that commits is a retry or a cancellation of a row that
is neither in flight nor done. -/
theorem action_ok (h : action identifier verb acknowledgeDuplicate clock db = .ok db') :
    ∃ row, db.messages.find? identifier = some row ∧
      row.status ≠ .sending ∧ row.status ≠ .submitted ∧ row.status ≠ .cancelled ∧
      ((verb = "retry" ∧ (row.status = .uncertain → acknowledgeDuplicate = true) ∧
        db' = requeue clock row db) ∨ (verb = "cancel" ∧ db' = cancel clock.updated row db)) := by
  unfold action at h
  split at h
  · cases h
  next row hrow =>
    split_ifs at h with hs hr hu hc
    · simp only [Except.ok.injEq] at h
      simp only [not_or] at hs
      refine ⟨row, hrow, hs.1, hs.2.1, hs.2.2, .inl ⟨hr, fun hstatus ↦ ?_, h.symm⟩⟩
      simpa [hstatus] using hu
    · simp only [Except.ok.injEq] at h
      simp only [not_or] at hs
      exact ⟨row, hrow, hs.1, hs.2.1, hs.2.2, .inr ⟨hc, h.symm⟩⟩

end Action

section Housekeeping

/-- Housekeeping deletes rows of submitted and cancelled messages only. -/
theorem housekeeping_messages (config : Config) (now : Time) (scan : ScanOrder) (db : Database) :
    ∃ p : Row → Bool,
    (housekeeping config now scan db).messages = db.messages.delete p ∧
    ∀ r ∈ db.messages.rows, p r = true → r.status = .submitted ∨ r.status = .cancelled := by
  refine ⟨_, rfl, fun r hr hp ↦ ?_⟩
  obtain ⟨r', hr', hid⟩ := List.mem_map.mp (of_decide_eq_true hp)
  have hm := (scan.perm _).mem_iff.mp (List.mem_of_mem_take hr')
  obtain ⟨hm, hh⟩ := List.mem_filter.mp hm
  obtain rfl := Table.eq_of_key hm hr hid
  simp only [historic, Bool.decide_and, Bool.and_eq_true, decide_eq_true_eq] at hh
  exact hh.1

end Housekeeping

end NoreplyGateway.Store
