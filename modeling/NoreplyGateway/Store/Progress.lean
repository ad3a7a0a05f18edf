import NoreplyGateway.Store.Rows
import NoreplyGateway.Validation

namespace NoreplyGateway.Store

open Machine

section Argmin

variable {α β : Type*} [LinearOrder β] (f : α → β)

theorem argmin_pair (a b : α) : [a, b].argmin f = if f b < f a then some b else some a := by
  rw [List.argmin_cons, List.argmin_singleton]

/-- The first minimum of two lists is among the first minima of each. -/
theorem argmin_append (l k : List α) :
    (l ++ k).argmin f = ([l.argmin f, k.argmin f].filterMap id).argmin f := by
  induction l with
  | nil => cases hk : k.argmin f <;> simp [hk]
  | cons a l ih =>
    rw [List.cons_append, List.argmin_cons, ih, List.argmin_cons]
    cases l.argmin f with
    | none => cases k.argmin f <;> simp [argmin_pair]
    | some b =>
      cases k.argmin f with
      | none => by_cases hba : f b < f a <;> simp [hba]
      | some c =>
        by_cases hcb : f c < f b <;> by_cases hba : f b < f a
        · simp [argmin_pair, hcb, hba, hcb.trans hba]
        · simp [argmin_pair, hcb, hba]
        · simp [argmin_pair, hcb, hba]
        · have hca : ¬f c < f a := not_lt.mpr ((not_lt.mp hba).trans (not_lt.mp hcb))
          simp [argmin_pair, hcb, hba, hca]

end Argmin

/-- Every ready row, queued messages before those to be retried. -/
def readyRows (db : Database) (now : Time) : List Row :=
  [Status.queued, Status.retry].flatMap (fun state ↦ db.messages.rows.filter
    (fun r ↦ r.status = state ∧ r.nextAttempt ≤ ((now : WithTop ℚ) : Extended)))

/-- The message whose turn it is. -/
def head (db : Database) (now : Time) : Option Row := (readyRows db now).argmin claimKey

/-- The two index seeks find what a sort of all ready rows would find. -/
theorem candidate_eq_head (db : Database) (now : Time) : candidate db now = head db now := by
  rw [head, readyRows, List.flatMap_cons, List.flatMap_singleton, argmin_append]
  rfl

variable {config : Config} {now : Time} {db : Database} {row : Row}

theorem mem_readyRows : row ∈ readyRows db now ↔ Ready now db row := by
  simp only [readyRows, List.mem_flatMap, List.mem_filter, decide_eq_true_eq]
  constructor
  · rintro ⟨state, hstate, hrow, rfl, hdue⟩
    exact ⟨Table.find?_of_mem hrow, by simpa using hstate, hdue⟩
  · intro h
    exact ⟨row.status, by simpa using h.state, Table.mem_of_find? h.found, rfl, h.due⟩

theorem ready_of_head (h : head db now = some row) : Ready now db row :=
  mem_readyRows.mp (List.argmin_mem h)

theorem exists_head (h : Ready now db row) : ∃ row', head db now = some row' := by
  refine Option.ne_none_iff_exists'.mp (fun hnone ↦ ?_)
  rw [head, List.argmin_eq_none] at hnone
  exact List.ne_nil_of_mem (mem_readyRows.mpr h) hnone

/-- Nothing but the limits on the messages themselves stands in the way of a
claim. -/
structure Unhindered (config : Config) (now : Time) (db : Database) : Prop where
  unpaused : db.settings.paused.getD false = false
  cooled : PyFloat.lt now (db.settings.cooldownUntil.getD (0 : ℚ)) = false
  unspent : ∀ q ∈ db.quota, q.instant ≤ now - 86400
  ready : ∃ row, Ready now db row ∧ row.recipientCount ≤ config.smtp.maxRecipients

def OverAge (config : Config) (now : Time) (row : Row) : Prop :=
  config.delivery.maxAgeHours * 3600 < now - row.cycleStarted

/-- A claim that changes the state: it returns an attempt, or fails a message
over its age. -/
def Serves (config : Config) (now : Time) (db : Database) : Prop :=
  (claim config now db).1 ≠ db ∧
  ((∃ row, (claim config now db).2 = some row) ∨
    ∃ row, Ready now db row ∧ OverAge config now row ∧
      (claim config now db).1.messages.find? row.id = some (expireRow now row))

/-- The message whose turn it is can be sent on an empty ledger. -/
def Sendable (config : Config) (now : Time) (row : Row) : Prop :=
  OverAge config now row ∨ config.delivery.recipientLimit24h = 0 ∨
    row.recipientCount ≤ config.delivery.recipientLimit24h

theorem used_eq_zero (h : ∀ q ∈ db.quota, q.instant ≤ now - 86400) : used config now db = 0 := by
  have hnone : db.quota.filter (fun q ↦ q.mailbox = casefold config.account.sender ∧
      q.instant > now - 86400) = [] := by
    refine List.filter_eq_nil_iff.mpr (fun q hq hdec ↦ ?_)
    exact absurd (of_decide_eq_true hdec).2 (not_lt.mpr (h q hq))
  rw [used, hnone]
  rfl

theorem ne_of_find? {db' : Database} {id : String} {r : Row} (h : db'.messages.find? id = some r)
    (hr : db.messages.find? id ≠ some r) : db' ≠ db := by
  rintro rfl
  exact hr h

/-- On an empty ledger a claim does its work unless the head can never fit. -/
theorem serves_iff (h : Unhindered config now db) :
    Serves config now db ↔ ∀ row, head db now = some row → Sendable config now row := by
  obtain ⟨hpaused, hcooled, hunspent, r, hr, -⟩ := h
  have hgate : ¬(db.settings.paused.getD false = true ∨
      PyFloat.lt now (db.settings.cooldownUntil.getD (0 : ℚ)) = true) := by
    rw [hpaused, hcooled]
    simp
  obtain ⟨row, hrow⟩ := exists_head hr
  have hready := ready_of_head hrow
  have hclaim : claim config now db =
      if now - row.cycleStarted > config.delivery.maxAgeHours * 3600 then (expire now row db, none)
      else if config.delivery.recipientLimit24h ≠ 0 ∧
          used config now db + row.recipientCount > config.delivery.recipientLimit24h then
        (db, none)
      else (reserve config now row db, some { row with attempts := row.attempts + 1 }) := by
    rw [claim, if_neg hgate, candidate_eq_head, hrow]
  simp only [hrow, Option.some.injEq, forall_eq']
  rw [used_eq_zero hunspent, zero_add] at hclaim
  by_cases hage : now - row.cycleStarted > config.delivery.maxAgeHours * 3600
  · rw [if_pos hage] at hclaim
    have hfound : (expire now row db).messages.find? row.id = some (expireRow now row) := by
      rw [expire_messages, Table.find?_updateAt, hready.found]
      rfl
    refine iff_of_true ⟨?_, .inr ⟨row, hready, hage, ?_⟩⟩ (.inl hage)
    · rw [hclaim]
      refine ne_of_find? hfound (fun hsame ↦ ?_)
      have hstatus : row.status = .failed := by
        rw [hready.found] at hsame
        rw [Option.some.inj hsame]
        rfl
      rcases hready.state with hs | hs <;> simp [hs] at hstatus
    · rw [hclaim]
      exact hfound
  · rw [if_neg hage] at hclaim
    by_cases hlimit : config.delivery.recipientLimit24h ≠ 0 ∧
        row.recipientCount > config.delivery.recipientLimit24h
    · rw [if_pos hlimit] at hclaim
      refine iff_of_false (fun hserves ↦ hserves.1 (by rw [hclaim])) ?_
      rintro (hold | hzero | hle)
      · exact hage hold
      · exact hlimit.1 hzero
      · omega
    · rw [if_neg hlimit] at hclaim
      refine iff_of_true ⟨?_, .inl ⟨_, by rw [hclaim]⟩⟩ (.inr (by omega))
      rw [hclaim]
      intro hsame
      have hquota := congrArg (fun d ↦ d.quota.length) hsame
      simp at hquota

/-- Each claim of the run that nothing hinders does its work. -/
def NeverBlocked (ops : List Op) : Prop :=
  ∀ k now k' s config, ops = k ++ .claim now :: k' → Runs Session.step {} k s →
    s.running = some config → Unhindered config now s.db → Serves config now s.db

/-- A claim that nothing hinders finds a head that fits. -/
def HeadFits (s : Session) (op : Op) : Prop :=
  ∀ now config row, op = .claim now → s.running = some config → Unhindered config now s.db →
    head s.db now = some row → Sendable config now row

theorem neverBlocked_iff (ops : List Op) :
    NeverBlocked ops ↔ Throughout Session.step HeadFits {} ops := by
  constructor
  · rintro h k op k' s hops hs now config row rfl hr hopen hrow
    exact (serves_iff hopen).mp (h k now k' s config hops hs hr hopen) row hrow
  · intro h k now k' s config hops hs hr hopen
    refine (serves_iff hopen).mpr (fun row hrow ↦ ?_)
    exact h k (.claim now) k' s hops hs now config row rfl hr hopen hrow

/-- Every process of the run has the configuration, and every message it takes
in respects the number of recipients that the configuration allows. -/
def Under (config : Config) : Op → Prop
  | .start config' _ => config' = config
  | .insertBatch _ _ _ batch => ∀ m ∈ batch, m.recipients.length ≤ config.smtp.maxRecipients
  | _ => True

theorem RowChange.recipientCount {op : Op} {x y : Option Row} (h : RowChange op x y)
    (hop : Under config op) (hx : ∀ r ∈ x, r.recipientCount ≤ config.smtp.maxRecipients) :
    ∀ r ∈ y, r.recipientCount ≤ config.smtp.maxRecipients := by
  intro r hr
  cases h with
  | same => exact hx r hr
  | inserted hm =>
    obtain rfl := Option.some.inj hr
    exact hop _ hm
  | deleted => cases hr
  | _ =>
    obtain rfl := Option.some.inj hr
    have hle := hx _ (Option.mem_some_self _)
    exact hle

theorem recipientCount_of_runs {s : Session} {ops : List Op} (h : Runs Session.step {} ops s)
    (hops : ∀ op ∈ ops, Under config op) :
    ∀ r ∈ s.db.messages.rows, r.recipientCount ≤ config.smtp.maxRecipients := by
  refine h.trace_invariant (P := fun k u ↦ (∀ op ∈ k, Under config op) →
    ∀ r ∈ u.db.messages.rows, r.recipientCount ≤ config.smtp.maxRecipients) ?_ ?_ hops
  · intro _ r hr
    exact absurd hr List.not_mem_nil
  · intro k u op v _ hu hstep hk r hr
    have hrows := hu (fun op' hop ↦ hk op' (List.mem_append_left _ hop))
    have hop := hk op (List.mem_append_right _ (List.mem_singleton_self op))
    exact (step_row hstep r.id).recipientCount hop
      (fun r' hr' ↦ hrows r' (Table.mem_of_find? hr')) r (Table.find?_of_mem hr)

/-- One message to one recipient more than a day's budget. -/
def oversize (config : Config) : PreparedMessage where
  id := "m1"
  mime := []
  recipients := (List.range (config.delivery.recipientLimit24h + 1)).map
    (fun i ↦ toString i ++ "@example.com")
  envelopeSender := ""
  originalFrom := config.account.sender
  subject := ""
  messageId := "<m1@example.com>"
  nat := false

theorem oversize_stored (hmessages : 0 < config.queue.maxMessages) :
    ∃ s, Runs Session.step {}
      [.start config 0, .insertBatch true config.queue.minFreeBytes 1 [oversize config]] s ∧
      s.running = some config ∧ s.db.settings = (reopen config 0 {}).settings ∧
      s.db.quota = [] ∧ s.db.messages.rows = [queuedRow 1 (oversize config)] := by
  have hstart : openStore config 0 {} = .ok (reopen config 0 {}) := openStore_ok.mpr ⟨.inl rfl, rfl⟩
  have hretained : (reopen config 0 {}).counters .retainedMessages = 0 := reopen_retainedMessages
  have hbytes : (reopen config 0 {}).counters .retainedBytes = 0 := reopen_retainedBytes
  have hadmitted : admission config.queue [oversize config] 0 0 = ([.stored], [oversize config]) := by
    simp [admission, oversize, hmessages.ne']
  have hfree : ¬config.queue.minFreeBytes < config.queue.minFreeBytes +
      ([oversize config].map (·.mime.length)).sum * 2 := by
    simp [oversize]
  obtain ⟨messages, hinsert⟩ : ∃ messages, (reopen config 0 {}).messages.insertMany
      [queuedRow 1 (oversize config)] = some messages := ⟨_, rfl⟩
  obtain ⟨hrows, -⟩ := Table.insertMany_eq_some hinsert
  have hbatch : ∃ db, insertBatch config true config.queue.minFreeBytes 1 [oversize config]
      (reopen config 0 {}) = .ok (db, [.stored]) ∧ db.messages = messages ∧
      db.settings = (reopen config 0 {}).settings ∧ db.quota = [] := by
    rw [insertBatch, if_neg (by simp), if_neg hfree, hretained, hbytes, hadmitted]
    simp only [List.map_cons, List.map_nil, hinsert]
    exact ⟨_, rfl, rfl, rfl, rfl⟩
  obtain ⟨db, hdb, rfl, hsettings, hquota⟩ := hbatch
  refine ⟨⟨some config, db, []⟩, ?_, rfl, hsettings, hquota, hrows⟩
  simp only [runs_cons, runs_nil]
  exact ⟨⟨some config, reopen config 0 {}, []⟩, by simp [Session.step, hstart],
    ⟨some config, db, []⟩, by simp [Session.step, hdb], rfl⟩

/-- No message blocks the queue of a run if and only if every claim that nothing
else hinders finds a head that fits. All runs of a valid configuration are of
that kind if and only if a day's budget covers every message that may be taken
in. -/
theorem queue_unblocked {email : EmailPackage} (hv : config.validate email = .ok ()) :
    (∀ ops, NeverBlocked ops ↔ Throughout Session.step HeadFits {} ops) ∧
    ((∀ ops s, Runs Session.step {} ops s → (∀ op ∈ ops, Under config op) → NeverBlocked ops) ↔
      config.delivery.recipientLimit24h = 0 ∨
        config.smtp.maxRecipients ≤ config.delivery.recipientLimit24h) := by
  refine ⟨neverBlocked_iff, ?_⟩
  obtain ⟨hcounts, hrates, -⟩ := Config.limits_of_validate hv
  constructor
  · intro h
    by_contra hlimit
    simp only [not_or, not_le] at hlimit
    have hmessages : 0 < config.queue.maxMessages := hcounts _ (by simp [Config.counts])
    have hage : 0 < config.delivery.maxAgeHours := hrates _ (by simp [Config.rates])
    obtain ⟨s, hs, hr, hsettings, hquota, hrows⟩ := oversize_stored hmessages
    have hcount : (queuedRow 1 (oversize config)).recipientCount =
        config.delivery.recipientLimit24h + 1 := by simp [queuedRow, oversize]
    have hready : Ready 1 s.db (queuedRow 1 (oversize config)) := by
      refine ⟨Table.find?_of_mem ?_, .inl rfl, le_refl _⟩
      rw [hrows]
      exact List.mem_singleton_self _
    have hopen : Unhindered config 1 s.db := by
      refine ⟨?_, ?_, by simp [hquota], _, hready, by omega⟩
      · rw [hsettings]
        rfl
      · have hnone : (reopen config 0 {}).settings.cooldownUntil = none := rfl
        rw [hsettings, hnone]
        decide +kernel
    have hhead : head s.db 1 = some (queuedRow 1 (oversize config)) := by
      obtain ⟨row, hrow⟩ := exists_head hready
      have hmem := Table.mem_of_find? (ready_of_head hrow).found
      rw [hrows, List.mem_singleton] at hmem
      exact hrow.trans (congrArg some hmem)
    have hrun : Runs Session.step {} ([.start config 0,
        .insertBatch true config.queue.minFreeBytes 1 [oversize config]] ++ [.claim 1]) _ :=
      runs_concat.mpr ⟨s, hs, by rw [Session.step, hr]; rfl⟩
    have hserves := h _ _ hrun (by simp [Under, oversize]; omega) _ 1 [] s config rfl hs hr hopen
    rcases (serves_iff hopen).mp hserves _ hhead with hold | hzero | hle
    · simp only [OverAge, queuedRow, sub_self] at hold
      linarith
    · exact hlimit.1 hzero
    · omega
  · intro hlimit ops s hs hops
    refine (neverBlocked_iff ops).mpr ?_
    rintro k op k' u rfl hu now config' row rfl hr hopen hrow
    have hk : ∀ op ∈ k, Under config op := fun op hop ↦ hops op (List.mem_append_left _ hop)
    obtain ⟨time, hstart⟩ := started hu hr
    obtain rfl : config' = config := hk _ hstart
    have hmem := Table.mem_of_find? (ready_of_head hrow).found
    have hcount := recipientCount_of_runs hu hk row hmem
    exact .inr (hlimit.imp_right hcount.trans)

theorem queue_unblocked_sample : sampleConfig.validate plainEmail = .ok () ∧
    ∀ ops s, Runs Session.step {} ops s → (∀ op ∈ ops, Under sampleConfig op) →
      NeverBlocked ops := by
  have hv : sampleConfig.validate plainEmail = .ok () := by decide +kernel
  exact ⟨hv, (queue_unblocked hv).2.mpr (.inr (by decide))⟩

/-- A day's budget below the number of recipients that one message may have is a
valid configuration. -/
def tightConfig : Config where
  account := { sender := "noreply@example.com" }
  delivery := { recipientLimit24h := 1 }

/-- A message to two recipients, and a message to one recipient behind it. -/
def tightRun : List Op :=
  [.start tightConfig 0,
    .insertBatch true 1000000000 1
      [{ sampleMessage "m1" "a@example.com" with recipients := ["a@example.com", "b@example.com"] },
        sampleMessage "m2" "c@example.com"],
    .claim 2]

theorem head_blocks_queue : tightConfig.validate plainEmail = .ok () ∧
    (∃ s, Runs Session.step {} tightRun s) ∧ (∀ op ∈ tightRun, Under tightConfig op) ∧
    ¬NeverBlocked tightRun := by
  refine ⟨by decide +kernel, Option.isSome_iff_exists.mp (by decide +kernel), ?_, fun h ↦ ?_⟩
  · simp [tightRun, Under, sampleMessage, tightConfig]
  obtain ⟨s, hs⟩ : ∃ s, Runs Session.step {} (tightRun.take 2) s :=
    Option.isSome_iff_exists.mp (by decide +kernel)
  have hrunning : (run Session.step (tightRun.take 2) {}).map (·.running) =
    some (some tightConfig) := rfl
  have hopen : (run Session.step (tightRun.take 2) {}).all (fun s ↦
      s.db.settings.paused.getD false = false ∧
      PyFloat.lt (2 : ℚ) (s.db.settings.cooldownUntil.getD (0 : ℚ)) = false ∧
      s.db.quota.isEmpty ∧
      (head s.db 2).any (fun row ↦ row.recipientCount = 2 ∧ row.cycleStarted = 1)) := by
    decide +kernel
  rw [hs] at hrunning hopen
  obtain ⟨hpaused, hcooled, hquota, hhead⟩ := of_decide_eq_true hopen
  rw [Option.any_eq_true] at hhead
  obtain ⟨row, hrow, hcount⟩ := hhead
  obtain ⟨hcount, hcycle⟩ := of_decide_eq_true hcount
  have hready := ready_of_head hrow
  have hhindered : Unhindered tightConfig 2 s.db := by
    refine ⟨hpaused, hcooled, ?_, row, hready, ?_⟩
    · rw [List.isEmpty_iff.mp hquota]
      simp
    · rw [hcount]
      decide
  have hserves := h (tightRun.take 2) 2 [] s tightConfig rfl hs (Option.some.inj hrunning) hhindered
  rcases (serves_iff hhindered).mp hserves row hrow with hage | hzero | hle
  · rw [OverAge, hcycle] at hage
    revert hage
    decide +kernel
  · cases hzero
  · rw [hcount] at hle
    revert hle
    decide

end NoreplyGateway.Store
