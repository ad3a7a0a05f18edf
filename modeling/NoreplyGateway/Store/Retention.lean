import NoreplyGateway.Store.Attempts

namespace NoreplyGateway.Store

open Machine

/-- The two operations that may drop the body of a message: the end of an
attempt in progress that was submitted, and an operator's cancellation. -/
inductive Releases (s : Session) (id : String) : Op → Prop
  | submitted {error : String} {delay : PyFloat} {globalCooldown : Bool} {now : Time}
      (hp : s.InProgress id) : Releases s id (.finish id .submitted error delay globalCooldown now)
  | cancelled {acknowledgeDuplicate : Bool} {clock : RetryClock} :
      Releases s id (.action id "cancel" acknowledgeDuplicate clock)

/-- Housekeeping takes this row away. -/
def Deletes (s : Session) (id : String) (op : Op) : Prop :=
  (∃ now scan, op = .housekeeping now scan) ∧
    ∃ t, s.step op = some t ∧ t.db.messages.find? id = none

variable {s t u : Session} {op : Op} {id : String} {row : Row}

theorem Transition.runs_or_starts (h : Transition s op t) :
    s.running.isSome ∨ ∃ config now, op = .start config now := by
  cases h with
  | start hr ho => exact .inr ⟨_, _, rfl⟩
  | _ => simp_all

theorem RowChange.released {x y : Option Row} {r : Row} (h : RowChange op x y) (hx : x = some r)
    (hid : r.id = id) (hm : r.mime ≠ none) (hb : BodyOk r)
    (hp : r.status = .sending → (∀ config now, op ≠ .start config now) → s.InProgress id)
    (hn : ¬ Releases s id op) : ∃ r', y = some r' ∧ r'.mime = r.mime := by
  cases h with
  | same => exact ⟨r, hx, rfl⟩
  | inserted hm => cases hx
  | recovered hs | expired hs | claimed hs | retried hs hu =>
    cases hx
    exact ⟨_, rfl, rfl⟩
  | @finished status error delay globalCooldown now r' next counter hs hc =>
    cases hx
    subst hid
    refine ⟨_, rfl, ?_⟩
    by_cases hsub : status = .submitted
    · subst hsub
      exact absurd (.submitted (hp hs (fun _ _ h ↦ by cases h))) hn
    · simp [finishRow, hsub]
  | cancelled hs =>
    cases hx
    subst hid
    exact absurd .cancelled hn
  | deleted hs =>
    cases hx
    exact absurd (hb.gone.mpr hs) hm

/-- The body of a message survives every step that does not release it. -/
theorem body_step (he : Exclusive s) (hb : ∀ r ∈ s.db.messages.rows, BodyOk r)
    (h : s.step op = some t) (hn : ¬ Releases s id op) {b : Octets}
    (hr : ∃ r, s.db.messages.find? id = some r ∧ r.mime = some b) :
    ∃ r, t.db.messages.find? id = some r ∧ r.mime = some b := by
  obtain ⟨r, hf, hm⟩ := hr
  have hid := Table.key_of_find? hf
  subst hid
  have hp : r.status = .sending → (∀ config now, op ≠ .start config now) → s.InProgress r.id := by
    intro hs hstart
    refine ⟨?_, he.open_attempt hf hs⟩
    rcases (transition_of_step h).runs_or_starts with hrun | ⟨config, now, rfl⟩
    · exact hrun
    · exact absurd rfl (hstart config now)
  obtain ⟨r', hr', hm'⟩ := (step_row h r.id).released hf rfl (by simp [hm])
    (hb r (Table.mem_of_find? hf)) hp hn
  exact ⟨r', hr', hm'.trans hm⟩

/-- A submitted or cancelled row stays as it is until housekeeping deletes it. -/
theorem done_step (h : s.step op = some t) (hn : ¬ Deletes s id op) {status : Status}
    (hd : status = .submitted ∨ status = .cancelled)
    (hr : ∃ r, s.db.messages.find? id = some r ∧ r.status = status) :
    ∃ r, t.db.messages.find? id = some r ∧ r.status = status := by
  obtain ⟨r, hf, hs⟩ := hr
  have hrow := step_row h id
  cases hy : t.db.messages.find? id with
  | none =>
    rw [hf, hy] at hrow
    cases hrow with
    | deleted => exact absurd ⟨⟨_, _, rfl⟩, t, h, hy⟩ hn
  | some r' =>
    rw [hf, hy] at hrow
    refine ⟨r', rfl, ?_⟩
    cases hrow with
    | same => exact hs
    | recovered hs' | expired hs' | claimed hs' | finished hs' hc | retried hs' hu | cancelled hs' =>
      rcases hd with hd | hd <;> simp_all

/-- No accepted mail is silently lost. A message whose row was committed keeps
the row and the octets of its body, in every later state, unless one of the
two releasing operations was committed for it on the way. -/
theorem accepted_mail_kept {ops later : List Op} {healthy : Bool} {free : ℕ} {now : Time}
    {batch : List PreparedMessage} (h : Runs Session.step {} ops s)
    (hi : s.step (.insertBatch healthy free now batch) = some t)
    (hnew : s.db.messages.find? id = none) (hrow : t.db.messages.find? id = some row)
    (hl : Runs Session.step t later u) :
    (∃ m ∈ batch, m.id = id ∧ row.mime = some m.mime) ∧
    ((∃ r, u.db.messages.find? id = some r ∧ r.mime = row.mime) ∨
      ∃ k op k' v, later = k ++ op :: k' ∧ Runs Session.step t k v ∧ Releases v id op) ∧
    ∀ r w later', u.db.messages.find? id = some r →
      r.status = .submitted ∨ r.status = .cancelled → Runs Session.step u later' w →
      (∃ r', w.db.messages.find? id = some r' ∧ r'.status = r.status) ∨
        ∃ k op k' v, later' = k ++ op :: k' ∧ Runs Session.step u k v ∧ Deletes v id op := by
  have hm : ∃ m ∈ batch, m.id = id ∧ row.mime = some m.mime := by
    have hc := step_row hi id
    rw [hnew, hrow] at hc
    cases hc with
    | inserted hm => exact ⟨_, hm, by simpa only [queuedRow] using Table.key_of_find? hrow, rfl⟩
  refine ⟨hm, ?_, fun r w later' hr hd hw ↦ ?_⟩
  · obtain ⟨m, -, -, hmime⟩ := hm
    have ht := runs_concat.mpr ⟨s, h, hi⟩
    rw [hmime]
    refine (hl.until (P := fun v ↦ (Exclusive v ∧ ∀ r ∈ v.db.messages.rows, BodyOk r) ∧
      ∃ r, v.db.messages.find? id = some r ∧ r.mime = some m.mime)
      (E := fun v op ↦ Releases v id op) ?_ ⟨⟨Exclusive.of_runs ht, bodyOk_of_runs ht⟩,
        row, hrow, hmime⟩).imp (·.2) ?_
    · rintro v op w ⟨⟨he, hb⟩, hr⟩ hn hw
      have htrans := transition_of_step hw
      exact ⟨⟨he.step htrans, htrans.bodyOk hb⟩, body_step he hb hw hn hr⟩
    · rintro ⟨k, op, k', v, hk, hv, -, hrel⟩
      exact ⟨k, op, k', v, hk, hv, hrel⟩
  · refine (hw.until (P := fun v ↦ ∃ r', v.db.messages.find? id = some r' ∧ r'.status = r.status)
      (E := fun v op ↦ Deletes v id op) (fun v op w hv hn hstep ↦ done_step hstep hn hd hv)
      ⟨r, hr, rfl⟩).imp (·) ?_
    rintro ⟨k, op, k', v, hk, hv, -, hdel⟩
    exact ⟨k, op, k', v, hk, hv, hdel⟩

theorem accepted_mail_kept_sample : ∃ u, Runs Session.step {} sampleRun u ∧
    ((∃ r, u.db.messages.find? "m2" = some r ∧ r.mime = some (sampleMessage "m2" "").mime) ∨
      ∃ k op k' v t, sampleRun.drop 2 = k ++ op :: k' ∧ Runs Session.step t k v ∧
        Releases v "m2" op) := by
  obtain ⟨u, hu⟩ := sampleRun_runs
  have h₀ : (run Session.step (sampleRun.take 1) {}).all
      (fun s ↦ (s.db.messages.find? "m2").isNone) := by decide +kernel
  have h₁ : (run Session.step (sampleRun.take 2) {}).all
      (fun t ↦ (t.db.messages.find? "m2").any
        (·.mime = some (sampleMessage "m2" "").mime)) := by decide +kernel
  obtain ⟨s, hs, t, ht, hl⟩ : ∃ s, Runs Session.step {} (sampleRun.take 1) s ∧
      ∃ t, s.step sampleRun[1] = some t ∧ Runs Session.step t (sampleRun.drop 2) u := by
    obtain ⟨s, hs, hr⟩ := runs_cons.mp hu
    obtain ⟨t, ht, hl⟩ := runs_cons.mp hr
    exact ⟨s, runs_cons.mpr ⟨s, hs, runs_nil.mpr rfl⟩, t, ht, hl⟩
  have hst : Runs Session.step {} (sampleRun.take 2) t := runs_concat.mpr ⟨s, hs, ht⟩
  rw [Runs] at hs hst
  rw [hs, Option.all_some, Option.isNone_iff_eq_none] at h₀
  rw [hst, Option.all_some, Option.any_eq_true] at h₁
  obtain ⟨row, hrow, hmime⟩ := h₁
  refine ⟨u, hu, ?_⟩
  rcases (accepted_mail_kept hs ht h₀ hrow hl).2.1 with ⟨r, hr, hm⟩ | ⟨k, op, k', v, hk, hv, hrel⟩
  · exact .inl ⟨r, hr, hm.trans (of_decide_eq_true hmime)⟩
  · exact .inr ⟨k, op, k', v, t, hk, hv, hrel⟩

end NoreplyGateway.Store
