import NoreplyGateway.RollingLedger
import NoreplyGateway.Store.Rows

namespace NoreplyGateway.Store

open Machine RollingLedger

/-- The clock readings of an operation, in the order in which they are taken. -/
def Op.readings : Op → List Time
  | .start _ now | .insertBatch _ _ now _ | .claim now | .finish _ _ _ _ _ now
  | .housekeeping now _ => [now]
  | .action _ _ _ clock => [clock.cycleStarted, clock.updated, clock.nextAttempt]
  | .crash | .setSetting _ => []

def Quota.charge (q : Quota) : Charge String Time where
  holder := q.messageId
  instant := q.instant
  weight := q.recipients
  pending := q.state = .reserved

/-- In flight, or ended in a way that leaves its recipients charged. -/
def Attempt.Charged (a : Attempt) : Prop :=
  a.ended = none ∨ a.ended = some .submitted ∨ a.ended = some .uncertain

instance : DecidablePred Attempt.Charged := fun _ ↦ inferInstanceAs (Decidable (_ ∨ _))

def Attempt.charge (a : Attempt) : Charge String Time where
  holder := a.message
  instant := a.began
  weight := a.recipients
  pending := a.ended = none

/-- The charges that the history of attempts calls for. -/
def charges (attempts : List Attempt) : List (Charge String Time) :=
  (attempts.filter (·.Charged)).map Attempt.charge

def ledger (quota : List Quota) : List (Charge String Time) := quota.map Quota.charge

section Refinement

variable {attempts : List Attempt} {quota : List Quota} {id : String} {status : Status}
  {now : Time}

theorem ledger_close : ledger (quota.map (fun q ↦ { q with state := .counted })) =
    close (ledger quota) := by
  simp [ledger, close, Quota.charge]

theorem charges_cons (a : Attempt) : charges (a :: attempts) =
    if a.Charged then a.charge :: charges attempts else charges attempts := by
  by_cases h : a.Charged <;> simp [charges, h]

theorem charges_close : charges (attempts.map Attempt.recover) = close (charges attempts) := by
  induction attempts with
  | nil => rfl
  | cons a l ih =>
    rw [List.map_cons, charges_cons, charges_cons, ih]
    by_cases ho : a.ended = none
    · simp [Attempt.recover, Attempt.Charged, Attempt.charge, close, ho]
    · by_cases hc : a.Charged <;> simp [Attempt.recover, Attempt.charge, close, ho, hc]

theorem ledger_settle : ledger (settleQuota id status quota) =
    conclude id (status = .submitted ∨ status = .uncertain) (ledger quota) := by
  unfold settleQuota conclude ledger
  simp only [decide_eq_true_eq]
  split_ifs
  · rw [List.map_map, List.map_map]
    refine List.map_congr_left (fun q _ ↦ ?_)
    by_cases hq : q.messageId = id ∧ q.state = .reserved <;> simp [Quota.charge, hq]
  · rw [List.filter_map]
    congr 1
    refine List.filter_congr (fun q _ ↦ ?_)
    by_cases hm : q.messageId = id <;> cases hq : q.state <;> simp [Quota.charge, hm, hq]

theorem charges_settle {counter : Counter} (hc : resultCounter status = some counter) :
    charges (attempts.map (Attempt.finish id status)) =
      conclude id (status = .submitted ∨ status = .uncertain) (charges attempts) := by
  induction attempts with
  | nil => cases status <;> rfl
  | cons a l ih =>
    rw [List.map_cons, charges_cons, charges_cons, ih]
    by_cases ha : a.message = id ∧ a.ended = none
    · cases status <;> simp_all [resultCounter, Attempt.finish, Attempt.Charged, Attempt.charge,
        conclude]
    · have hp : ¬(a.charge.holder = id ∧ a.charge.pending = true) := by simpa [Attempt.charge] using ha
      by_cases hl : a.Charged
      · rw [Attempt.finish, if_neg ha, if_pos hl, if_pos hl, conclude_cons_of_not hp]
      · simp [Attempt.finish, ha, hl]

theorem ledger_trim :
    ledger (quota.filter (fun q ↦ ¬(q.instant < now - 86400 ∧ q.state = .counted))) =
      trim (now - 86400) (ledger quota) := by
  rw [ledger, trim, ledger, List.filter_map]
  congr 1
  refine List.filter_congr (fun q _ ↦ ?_)
  by_cases hlt : q.instant < now - 86400 <;> cases hq : q.state <;>
    simp only [Function.comp_apply, Quota.charge, hlt, hq] <;> rfl

end Refinement

/-- Since the last window began, the ledger holds what the attempts call for,
all of it charged to the one mailbox and within the limit. -/
structure Budget (mailbox : String) (limit : ℕ) (θ : Time) (s : Session) : Prop where
  mailbox : ∀ q ∈ s.db.quota, q.mailbox = mailbox
  agree : Agree θ (ledger s.db.quota) (charges s.attempts)
  within : spent θ (charges s.attempts) ≤ limit

variable {s t : Session} {op : Op} {mailbox : String} {limit : ℕ} {θ θ' : Time}

theorem Budget.empty : Budget mailbox limit θ {} := ⟨by simp, Agree.refl, Nat.zero_le _⟩

theorem Budget.mono (hb : Budget mailbox limit θ s) (h : θ ≤ θ') : Budget mailbox limit θ' s :=
  ⟨hb.mailbox, hb.agree.mono h, (spent_anti h).trans hb.within⟩

/-- What the claim query sums up is the weight of the charged attempts. -/
theorem Budget.used {config : Config} {now : Time} (hb : Budget mailbox limit (now - 86400) s)
    (hm : casefold config.account.sender = mailbox) :
    used config now s.db = spent (now - 86400) (charges s.attempts) := by
  have hq : s.db.quota.filter (fun q ↦ q.mailbox = casefold config.account.sender ∧
      q.instant > now - 86400) = s.db.quota.filter (fun q ↦ now - 86400 < q.instant) :=
    List.filter_congr (fun q hq ↦ by simp [hb.mailbox q hq, hm])
  rw [Store.used, hq, ← hb.agree.spent, spent, after, ledger, List.filter_map, List.map_map]
  rfl

theorem Budget.claimed {config : Config} {now : Time} {row : Row}
    (hb : Budget mailbox limit (now - 86400) s) (hlimit : 0 < limit)
    (hm : casefold config.account.sender = mailbox)
    (hl : config.delivery.recipientLimit24h = limit) (hc : Claimable config now s.db row) :
    Budget mailbox limit (now - 86400) { s with
      db := reserve config now row s.db
      attempts := s.attempts ++ [⟨row.id, now, row.recipientCount, none⟩] } := by
  have hcharges : charges (s.attempts ++ [⟨row.id, now, row.recipientCount, none⟩]) =
      charges s.attempts ++ [⟨row.id, now, row.recipientCount, true⟩] := by
    simp [charges, Attempt.Charged, Attempt.charge]
  have hledger : ledger (reserve config now row s.db).quota =
      ledger s.db.quota ++ [⟨row.id, now, row.recipientCount, true⟩] := by
    simp [ledger, Quota.charge]
  refine ⟨fun q hq ↦ ?_, ?_, ?_⟩
  · rw [reserve_quota, List.mem_append, List.mem_singleton] at hq
    rcases hq with hq | rfl
    · exact hb.mailbox q hq
    · exact hm
  · rw [hcharges, hledger]
    exact hb.agree.append
  · have hbudget := hc.budget
    rw [hl, hb.used hm] at hbudget
    rw [hcharges]
    exact spent_append.trans (hbudget.resolve_left hlimit.ne')

theorem Budget.settled {status : Status} {error : String} {delay : PyFloat} {globalCooldown : Bool}
    {now : Time} {row : Row} {next : Extended} {counter : Counter}
    (hb : Budget mailbox limit θ s) (hc : resultCounter status = some counter) :
    Budget mailbox limit θ { s with
      db := settle row.id status error delay globalCooldown now counter row next s.db
      attempts := s.attempts.map (Attempt.finish row.id status) } := by
  refine ⟨fun q hq ↦ ?_, ?_, ?_⟩
  · rw [settle_quota] at hq
    unfold settleQuota at hq
    split_ifs at hq
    · obtain ⟨q', hq', rfl⟩ := List.mem_map.mp hq
      split_ifs <;> exact hb.mailbox q' hq'
    · exact hb.mailbox q (List.mem_of_mem_filter hq)
  · rw [settle_quota, ledger_settle, charges_settle hc]
    exact hb.agree.conclude
  · rw [charges_settle hc]
    exact spent_conclude.trans hb.within

/-- The budget of every window that ends no earlier than the given readings. -/
def BudgetSince (mailbox : String) (limit : ℕ) (past : List Time) (s : Session) : Prop :=
  ∀ θ, (∀ r ∈ past, r - 86400 ≤ θ) → Budget mailbox limit θ s

theorem BudgetSince.step {past : List Time} (hb : BudgetSince mailbox limit past s)
    (hlimit : 0 < limit)
    (hconfig : ∀ config, s.running = some config →
      casefold config.account.sender = mailbox ∧ config.delivery.recipientLimit24h = limit)
    (hpast : ∀ r ∈ past, ∀ r' ∈ op.readings, r ≤ r') (h : Transition s op t) :
    BudgetSince mailbox limit (past ++ op.readings) t := by
  intro θ hθ
  simp only [List.forall_mem_append] at hθ
  have hs := hb θ hθ.1
  cases h with
  | crash | refused | idle => exact ⟨hs.mailbox, hs.agree, hs.within⟩
  | start hr ho =>
    refine ⟨fun q hq ↦ ?_, ?_, ?_⟩
    · obtain ⟨q', hq', rfl⟩ := List.mem_map.mp hq
      exact hs.mailbox q' hq'
    · rw [reopen_quota, ledger_close, charges_close]
      exact hs.agree.close
    · rw [charges_close, spent_close]
      exact hs.within
  | inserted hr hi =>
    exact ⟨fun q hq ↦ hs.mailbox q (hi.quota ▸ hq), hi.quota ▸ hs.agree, hs.within⟩
  | expired hr hn hc => exact ⟨hs.mailbox, hs.agree, hs.within⟩
  | @claimed config now row hr hn hc =>
    obtain ⟨hm, hl⟩ := hconfig config hr
    have hnow := hb (now - 86400) (fun r hr' ↦ sub_le_sub_right (hpast r hr' now (by simp [Op.readings])) _)
    exact (hnow.claimed hlimit hm hl hc).mono (hθ.2 now (by simp [Op.readings]))
  | finished hr hf hs' hc hn => exact hs.settled hc
  | retried hr hf hs' hu => exact ⟨hs.mailbox, hs.agree, hs.within⟩
  | cancelled hr hf hs' => exact ⟨hs.mailbox, hs.agree, hs.within⟩
  | @setSetting config setting hr => cases setting <;> exact ⟨hs.mailbox, hs.agree, hs.within⟩
  | @housekeeping config now scan hr =>
    have hnow := hb (now - 86400) (fun r hr' ↦ sub_le_sub_right (hpast r hr' now (by simp [Op.readings])) _)
    refine ⟨fun q hq ↦ hs.mailbox q (List.mem_of_mem_filter hq), ?_, hs.within⟩
    have hagree := hnow.agree.trim
    rw [← ledger_trim] at hagree
    exact hagree.mono (hθ.2 now (by simp [Op.readings]))

theorem BudgetSince.of_runs {ops : List Op} (hlimit : 0 < limit)
    (hstart : ∀ config now, Op.start config now ∈ ops →
      casefold config.account.sender = mailbox ∧ config.delivery.recipientLimit24h = limit)
    (hclock : (ops.flatMap Op.readings).Pairwise (· ≤ ·)) (h : Runs Session.step {} ops s) :
    BudgetSince mailbox limit (ops.flatMap Op.readings) s := by
  refine h.trace_invariant (P := fun k u ↦
    (∀ config now, Op.start config now ∈ k →
      casefold config.account.sender = mailbox ∧ config.delivery.recipientLimit24h = limit) →
    (k.flatMap Op.readings).Pairwise (· ≤ ·) →
    BudgetSince mailbox limit (k.flatMap Op.readings) u) (fun _ _ _ _ ↦ Budget.empty) ?_ hstart hclock
  intro k u a v hk hu ha hs hc
  simp only [List.flatMap_append, List.flatMap_singleton, List.pairwise_append] at hc ⊢
  have hs' := fun config now hm ↦ hs config now (List.mem_append_left _ hm)
  refine (hu hs' hc.1).step hlimit (fun config hconfig ↦ ?_) hc.2.2 (transition_of_step ha)
  obtain ⟨now, hnow⟩ := started hk hconfig
  exact hs' config now hnow

/-- The recipients of the attempts that began within any day and are still
charged never exceed the limit. -/
theorem rolling_recipient_budget {ops : List Op} {now : Time} (hlimit : 0 < limit)
    (hstart : ∀ config time, Op.start config time ∈ ops →
      casefold config.account.sender = mailbox ∧ config.delivery.recipientLimit24h = limit)
    (hclock : (ops.flatMap Op.readings).Pairwise (· ≤ ·)) (h : Runs Session.step {} ops s)
    (hnow : ∀ r ∈ ops.flatMap Op.readings, r ≤ now) :
    ((s.attempts.filter (fun a ↦ a.Charged ∧ now - 86400 < a.began ∧ a.began ≤ now)).map
      (·.recipients)).sum ≤ limit := by
  have hb := BudgetSince.of_runs hlimit hstart hclock h (now - 86400)
    (fun r hr ↦ sub_le_sub_right (hnow r hr) _)
  refine le_trans ?_ hb.within
  have hspent : spent (now - 86400) (charges s.attempts) =
      ((s.attempts.filter (fun a ↦ a.Charged ∧ now - 86400 < a.began)).map (·.recipients)).sum := by
    rw [spent, after, charges, List.filter_map, List.map_map, List.filter_filter]
    congr 2
    refine List.filter_congr (fun a _ ↦ ?_)
    by_cases h₁ : now - 86400 < a.began <;> by_cases h₂ : a.Charged <;>
      simp only [Function.comp_apply, Attempt.charge, h₁, h₂, decide_true, decide_false] <;> rfl
  rw [hspent]
  refine ((List.monotone_filter_right s.attempts (fun a ha ↦ ?_)).map _).sum_le_sum
    (fun _ _ ↦ Nat.zero_le _)
  simp only [decide_eq_true_eq] at ha ⊢
  exact ⟨ha.1, ha.2.1⟩

theorem rolling_recipient_budget_sample : ∃ s, Runs Session.step {} sampleRun s ∧
    ((s.attempts.filter (fun a ↦ a.Charged ∧ 4 - 86400 < a.began ∧ a.began ≤ 4)).map
      (·.recipients)).sum ≤ 10000 := by
  obtain ⟨s, hs⟩ := sampleRun_runs
  have hstart : ∀ config time, Op.start config time ∈ sampleRun →
      casefold config.account.sender = "noreply@example.com" ∧
        config.delivery.recipientLimit24h = 10000 := by
    intro config time hm
    simp only [sampleRun, List.mem_cons, Op.start.injEq, reduceCtorEq, List.not_mem_nil,
      or_false] at hm
    rw [hm.1]
    exact ⟨by decide, rfl⟩
  exact ⟨s, hs, rolling_recipient_budget (by decide) hstart (by decide +kernel) hs
    (by decide +kernel)⟩

end NoreplyGateway.Store
