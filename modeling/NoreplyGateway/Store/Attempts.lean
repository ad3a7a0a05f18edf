import NoreplyGateway.Store.Rows

namespace NoreplyGateway.Store

open Machine

/-- One while the row is present and `sending`, zero otherwise. -/
def inFlight (row : Option Row) : ℕ := if row.any (·.status = .sending) then 1 else 0

def openAttempts (id : String) (attempts : List Attempt) : ℕ :=
  attempts.countP (fun a ↦ a.message = id ∧ a.ended = none)

def reservations (id : String) (quota : List Quota) : ℕ :=
  quota.countP (fun q ↦ q.messageId = id ∧ q.state = .reserved)

/-- Every message has one open attempt and one reservation while its row is
`sending`, and none otherwise. -/
structure Exclusive (s : Session) : Prop where
  attempts : ∀ id, openAttempts id s.attempts = inFlight (s.db.messages.find? id)
  reserved : ∀ id, reservations id s.db.quota = inFlight (s.db.messages.find? id)

section Counts

variable {id : String} {attempts : List Attempt} {quota : List Quota} {status : Status}

@[simp] theorem inFlight_none : inFlight none = 0 := rfl

theorem inFlight_some {r : Row} : inFlight (some r) = if r.status = .sending then 1 else 0 := by
  simp [inFlight]

theorem inFlight_of_sending {r : Row} (h : r.status = .sending) : inFlight (some r) = 1 := by
  rw [inFlight_some, if_pos h]

theorem inFlight_of_not_sending {r : Row} (h : r.status ≠ .sending) : inFlight (some r) = 0 := by
  rw [inFlight_some, if_neg h]

theorem openAttempts_recover : openAttempts id (attempts.map Attempt.recover) = 0 := by
  rw [openAttempts, List.countP_eq_zero]
  intro a ha
  obtain ⟨b, -, rfl⟩ := List.mem_map.mp ha
  simp only [Attempt.recover]
  split_ifs with h <;> simp [h]

theorem openAttempts_finish : openAttempts id (attempts.map (Attempt.finish id status)) = 0 := by
  rw [openAttempts, List.countP_eq_zero]
  intro a ha
  obtain ⟨b, -, rfl⟩ := List.mem_map.mp ha
  simp only [Attempt.finish]
  split_ifs with h <;> simp [h]

/-- The end of one attempt leaves the attempts on other messages open. -/
theorem openAttempts_finish_ne {id' : String} (h : id' ≠ id) :
    openAttempts id' (attempts.map (Attempt.finish id status)) = openAttempts id' attempts := by
  rw [openAttempts, openAttempts, List.countP_map]
  refine List.countP_congr (fun a _ ↦ ?_)
  simp only [Function.comp_apply, Attempt.finish]
  split_ifs with ha
  · simp [ha.1, h.symm]
  · rfl

theorem reservations_counted :
    reservations id (quota.map (fun q ↦ { q with state := .counted })) = 0 := by
  rw [reservations, List.countP_eq_zero]
  intro q hq
  obtain ⟨b, -, rfl⟩ := List.mem_map.mp hq
  simp

theorem reservations_settle : reservations id (settleQuota id status quota) = 0 := by
  rw [reservations, List.countP_eq_zero]
  intro q hq
  unfold settleQuota at hq
  split_ifs at hq
  · obtain ⟨b, -, rfl⟩ := List.mem_map.mp hq
    split_ifs with hb <;> simp_all
  · simpa [imp_iff_not_or] using (List.mem_filter.mp hq).2

theorem reservations_settle_ne {id' : String} (h : id' ≠ id) :
    reservations id' (settleQuota id status quota) = reservations id' quota := by
  unfold settleQuota reservations
  split_ifs
  · rw [List.countP_map]
    refine List.countP_congr (fun q _ ↦ ?_)
    simp only [Function.comp_apply]
    split_ifs with hq
    · simp [hq.1, h.symm]
    · rfl
  · rw [List.countP_filter]
    refine List.countP_congr (fun q _ ↦ ?_)
    grind

theorem reservations_housekeeping {now : Time} :
    reservations id (quota.filter (fun q ↦ ¬(q.instant < now - 86400 ∧ q.state = .counted))) =
      reservations id quota := by
  rw [reservations, reservations, List.countP_filter]
  refine List.countP_congr (fun q _ ↦ ?_)
  grind

end Counts

variable {s t : Session} {op : Op}

theorem Exclusive.empty : Exclusive {} := ⟨fun _ ↦ rfl, fun _ ↦ rfl⟩

theorem RowChange.inFlight_inserted {healthy : Bool} {free : ℕ} {now : Time}
    {batch : List PreparedMessage} {x y : Option Row}
    (h : RowChange (.insertBatch healthy free now batch) x y) : inFlight y = inFlight x := by
  cases h <;> rfl

theorem RowChange.inFlight_housekeeping {now : Time} {scan : ScanOrder} {x y : Option Row}
    (h : RowChange (.housekeeping now scan) x y) : inFlight y = inFlight x := by
  cases h with
  | same => rfl
  | deleted hs => rw [inFlight_of_not_sending (by rcases hs with hs | hs <;> simp [hs]), inFlight_none]

section Update

variable {messages : Table Row.id} {row : Row} {f : Row → Row}

theorem inFlight_updateAt (hf : ∀ r, (f r).id = r.id)
    (hrow : messages.find? row.id = some row) (hs : row.status ≠ .sending)
    (hs' : (f row).status ≠ .sending) (id : String) :
    inFlight ((messages.updateAt row.id f hf).find? id) = inFlight (messages.find? id) := by
  by_cases hid : id = row.id
  · rw [hid, Table.find?_updateAt, hrow, Option.map_some, inFlight_of_not_sending hs,
      inFlight_of_not_sending hs']
  · rw [Table.find?_updateAt_ne hf hid]

end Update

theorem Exclusive.of_same (he : Exclusive s) (ha : t.attempts = s.attempts)
    (hq : ∀ id, reservations id t.db.quota = reservations id s.db.quota)
    (hf : ∀ id, inFlight (t.db.messages.find? id) = inFlight (s.db.messages.find? id)) :
    Exclusive t := by
  refine ⟨fun id ↦ ?_, fun id ↦ ?_⟩
  · rw [ha, hf, he.attempts]
  · rw [hq, hf, he.reserved]

theorem Exclusive.step (he : Exclusive s) (h : Transition s op t) : Exclusive t := by
  have hrow := h.row
  cases h with
  | crash | refused | idle => exact ⟨he.attempts, he.reserved⟩
  | start hr ho =>
    have hf : ∀ id config now, inFlight ((reopen config now s.db).messages.find? id) = 0 := by
      intro id config now
      rw [reopen_messages, Table.find?_update]
      cases s.db.messages.find? id with
      | none => rfl
      | some r =>
        refine inFlight_of_not_sending ?_
        by_cases hs : r.status = .sending <;> simp [hs, recoverRow]
    refine ⟨fun id ↦ ?_, fun id ↦ ?_⟩
    · rw [hf]
      exact openAttempts_recover
    · rw [hf]
      exact reservations_counted
  | inserted hr hi =>
    exact he.of_same rfl (fun id ↦ by rw [hi.quota]) (fun id ↦ (hrow id).inFlight_inserted)
  | @expired config now row hr hn hc =>
    refine he.of_same rfl (fun id ↦ rfl) (inFlight_updateAt (expireRow_id now) hc.found ?_ ?_)
    · rcases hc.state with hs | hs <;> simp [hs]
    · simp [expireRow]
  | @claimed config now row hr hn hc =>
    have hready := candidate_ready hc.candidate
    have hzero : inFlight (s.db.messages.find? row.id) = 0 := by
      rw [hready.found]
      exact inFlight_of_not_sending (by rcases hready.state with hs | hs <;> simp [hs])
    have hone : inFlight ((reserve config now row s.db).messages.find? row.id) = 1 := by
      simp [reserve, hready.found, inFlight_some, claimRow]
    have hother : ∀ id, id ≠ row.id →
        (reserve config now row s.db).messages.find? id = s.db.messages.find? id :=
      fun id hid ↦ Table.find?_updateAt_ne (claimRow_id now) hid
    refine ⟨fun id ↦ ?_, fun id ↦ ?_⟩
    · rw [openAttempts, List.countP_append, ← openAttempts, he.attempts]
      by_cases hid : id = row.id
      · subst hid
        rw [hone, hzero]
        simp
      · rw [hother id hid]
        simp [Ne.symm hid]
    · rw [reservations, reserve_quota, List.countP_append, ← reservations, he.reserved]
      by_cases hid : id = row.id
      · subst hid
        rw [hone, hzero]
        simp
      · rw [hother id hid]
        simp [Ne.symm hid]
  | @finished config status error delay globalCooldown now row next counter hr hf hs hc hn =>
    have hzero : inFlight ((settle row.id status error delay globalCooldown now counter row next
        s.db).messages.find? row.id) = 0 := by
      rw [settle, Table.find?_updateAt, hf, Option.map_some]
      exact inFlight_of_not_sending (by cases status <;> simp_all [finishRow, resultCounter])
    have hother : ∀ id, id ≠ row.id → (settle row.id status error delay globalCooldown now counter
        row next s.db).messages.find? id = s.db.messages.find? id :=
      fun id hid ↦ Table.find?_updateAt_ne (finishRow_id status error now next) hid
    refine ⟨fun id ↦ ?_, fun id ↦ ?_⟩
    · by_cases hid : id = row.id
      · subst hid
        rw [hzero]
        exact openAttempts_finish
      · rw [hother id hid, ← he.attempts]
        exact openAttempts_finish_ne hid
    · by_cases hid : id = row.id
      · subst hid
        rw [hzero]
        exact reservations_settle
      · rw [hother id hid, ← he.reserved]
        exact reservations_settle_ne hid
  | retried hr hf hs hu =>
    exact he.of_same rfl (fun id ↦ rfl) (inFlight_updateAt (retryRow_id _) hf hs.1
      (by simp [retryRow]))
  | cancelled hr hf hs =>
    exact he.of_same rfl (fun id ↦ rfl) (inFlight_updateAt (cancelRow_id _) hf hs.1
      (by simp [cancelRow]))
  | @setSetting config setting hr =>
    cases setting <;> exact he.of_same rfl (fun _ ↦ rfl) (fun _ ↦ rfl)
  | housekeeping hr =>
    exact he.of_same rfl (fun id ↦ reservations_housekeeping)
      (fun id ↦ (hrow id).inFlight_housekeeping)

theorem Exclusive.of_runs {ops : List Op} (h : Runs Session.step {} ops s) : Exclusive s :=
  h.invariant (fun _ _ _ hu ha ↦ hu.step (transition_of_step ha)) Exclusive.empty

/-- A row in `sending` belongs to an attempt that has not ended. -/
theorem Exclusive.open_attempt {r : Row} (he : Exclusive s)
    (hr : s.db.messages.find? r.id = some r) (hs : r.status = .sending) :
    ∃ a ∈ s.attempts, a.message = r.id ∧ a.ended = none := by
  have hone := he.attempts r.id
  rw [hr, inFlight_of_sending hs, openAttempts] at hone
  obtain ⟨a, ha, hp⟩ := List.countP_pos_iff.mp (hone ▸ Nat.one_pos)
  exact ⟨a, ha, by simpa using hp⟩

theorem Exclusive.row_of_open {a : Attempt} (he : Exclusive s) (ha : a ∈ s.attempts)
    (ho : a.ended = none) : ∃ r, s.db.messages.find? a.message = some r ∧ r.status = .sending := by
  have hpos : 0 < openAttempts a.message s.attempts :=
    List.countP_pos_iff.mpr ⟨a, ha, by simp [ho]⟩
  rw [he.attempts] at hpos
  cases hr : s.db.messages.find? a.message with
  | none => simp [hr] at hpos
  | some r =>
    refine ⟨r, rfl, ?_⟩
    by_contra hs
    rw [hr, inFlight_of_not_sending hs] at hpos
    exact lt_irrefl 0 hpos

section Sending

variable {id : String}

/-- The row is present and in flight. -/
def Session.Sending (s : Session) (id : String) : Prop :=
  ∃ r, s.db.messages.find? id = some r ∧ r.status = .sending

/-- The operations that may take a message out of flight. -/
def Op.Ends (id : String) : Op → Prop
  | .start .. => True
  | .finish identifier .. => identifier = id
  | _ => False

theorem RowChange.eq_of_sending {r : Row} {y : Option Row} (h : RowChange op (some r) y)
    (hs : r.status = .sending) (hop : ¬ op.Ends r.id) : y = some r := by
  cases h with
  | same => rfl
  | recovered => exact absurd trivial hop
  | finished => exact absurd rfl hop
  | expired hs' | claimed hs' | deleted hs' => simp [hs] at hs'
  | retried hs' | cancelled hs' => exact absurd hs hs'.1

theorem RowChange.uncertain_of_sending {r r' : Row} (h : RowChange op (some r) (some r'))
    (hs : r.status = .sending) (hop : ∀ status error delay globalCooldown now,
      op = .finish r.id status error delay globalCooldown now → status = .uncertain) :
    r = r' ∨ r'.status = .uncertain := by
  cases h with
  | same => exact .inl rfl
  | recovered => exact .inr rfl
  | finished => exact .inr (hop _ _ _ _ _ rfl)
  | expired hs' | claimed hs' => simp [hs] at hs'
  | retried hs' | cancelled hs' => exact absurd hs hs'.1

theorem RowChange.eq_of_unacknowledged {r : Row} {y : Option Row} {clock : RetryClock}
    (h : RowChange (.action id "retry" false clock) (some r) y) (hs : r.status = .uncertain) :
    y = some r := by
  generalize hv : "retry" = verb at h
  generalize ha : false = acknowledgeDuplicate at h
  cases h with
  | same => rfl
  | retried _ hu => exact absurd (ha.trans (hu hs)) Bool.false_ne_true
  | cancelled => simp at hv

/-- Only an operator can put the message back into the queue. -/
def AtRest (r : Row) : Prop :=
  r.status = .uncertain ∨ r.status = .submitted ∨ r.status = .cancelled

theorem RowChange.atRest {r r' : Row} (h : RowChange op (some r) (some r')) (hr : AtRest r)
    (hop : ∀ clock, op ≠ .action r.id "retry" true clock) : AtRest r' := by
  cases h with
  | same => exact hr
  | recovered hs | finished hs => simp [AtRest, hs] at hr
  | expired hs | claimed hs => rcases hs with hs | hs <;> simp [AtRest, hs] at hr
  | @retried acknowledgeDuplicate clock _ hs hu =>
    rcases hr with hr | hr | hr
    · exact absurd (by rw [hu hr]) (hop clock)
    · exact absurd hr hs.2.1
    · exact absurd hr hs.2.2
  | cancelled hs => exact .inr (.inr rfl)

theorem Session.Sending.step (hs : s.Sending id) (h : s.step op = some t) (hop : ¬ op.Ends id) :
    t.Sending id := by
  obtain ⟨r, hr, hsending⟩ := hs
  have hid := Table.key_of_find? hr
  have hchange := step_row h id
  rw [hr] at hchange
  exact ⟨r, hchange.eq_of_sending hsending (hid ▸ hop), hsending⟩

theorem not_sending_of_claimed {now : Time} {row : Row} (h : s.claimed now = some row) :
    ¬ s.Sending row.id := by
  obtain ⟨config, r, -, hc, rfl⟩ := claimed_eq_some h
  rintro ⟨r', hr', hsending⟩
  have hready := candidate_ready hc.candidate
  obtain rfl := Option.some.inj (hready.found.symm.trans hr')
  rcases hready.state with hs | hs <;> simp [hs] at hsending

theorem sending_of_claimed {now : Time} {row : Row} (h : s.step (.claim now) = some t)
    (hc : s.claimed now = some row) : t.Sending row.id := by
  cases transition_of_step h with
  | idle hr hn | expired hr hn => simp [hn] at hc
  | @claimed config _ r hr hn hclaim =>
    obtain rfl := Option.some.inj (hn.symm.trans hc)
    refine ⟨claimRow now r, ?_, rfl⟩
    rw [reserve_messages, Table.find?_updateAt, (candidate_ready hclaim.candidate).found]
    rfl

theorem sending_of_inFlight (h : inFlight (s.db.messages.find? id) = 1) : s.Sending id := by
  cases hr : s.db.messages.find? id with
  | none => simp [hr] at h
  | some r =>
    rw [hr, inFlight_some] at h
    exact ⟨r, hr, by_contra fun hs ↦ by simp [hs] at h⟩

theorem finish_of_sending {status : Status} {error : String} {delay : PyFloat}
    {globalCooldown : Bool} {now : Time} (h : s.Sending id) :
    finish id status error delay globalCooldown now s.db ≠
      .error (.runtimeError "Attempt is no longer in sending state") := by
  obtain ⟨r, hr, hs⟩ := h
  unfold finish
  split
  · simp
  · rw [hr]
    simp only [hs, ne_eq, not_true_eq_false, if_false]
    split <;> simp

end Sending

end NoreplyGateway.Store
