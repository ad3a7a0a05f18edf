import NoreplyGateway.History
import NoreplyGateway.Store.Ledger
import NoreplyGateway.Store.Progress

namespace NoreplyGateway.Store

open Machine

/-- `status IN ('queued','retry') AND next_attempt<=?` -/
def dueRows (db : Database) (now : Time) : List Row :=
  db.messages.rows.filter (fun r ↦ (r.status = .queued ∨ r.status = .retry) ∧
    r.nextAttempt ≤ ((now : WithTop ℚ) : Extended))

/-- An order in which one sort over all ready rows may return them. SQL leaves
the order of ties open. -/
structure FullSort (db : Database) (now : Time) (l : List Row) : Prop where
  perm : l.Perm (dueRows db now)
  sorted : l.Pairwise (claimKey · ≤ claimKey ·)

section Selection

variable {db : Database} {now : Time} {row r : Row} {l : List Row}

theorem mem_dueRows : r ∈ dueRows db now ↔ Ready now db r := by
  rw [dueRows, List.mem_filter, decide_eq_true_eq]
  constructor
  · intro hr
    exact ⟨Table.find?_of_mem hr.1, hr.2.1, hr.2.2⟩
  · intro hr
    exact ⟨Table.mem_of_find? hr.found, hr.state, hr.due⟩

theorem FullSort.mem (h : FullSort db now l) : r ∈ l ↔ Ready now db r :=
  h.perm.mem_iff.trans mem_dueRows

/-- No ready row comes before the one that the claim selects. -/
theorem candidate_le (h : candidate db now = some row) (hr : Ready now db r) :
    claimKey row ≤ claimKey r := by
  rw [candidate_eq_head] at h
  exact List.le_of_mem_argmin (mem_readyRows.mpr hr) h

theorem exists_candidate (hr : Ready now db r) : ∃ row, candidate db now = some row := by
  rw [candidate_eq_head]
  exact exists_head hr

theorem FullSort.head_le (h : FullSort db now (row :: l)) (hr : r ∈ row :: l) :
    claimKey row ≤ claimKey r := by
  rcases List.mem_cons.mp hr with hr | hr
  · exact le_of_eq (congrArg claimKey hr.symm)
  · exact List.rel_of_pairwise_cons h.sorted hr

/-- A sort and the two seeks find equal keys. -/
theorem FullSort.key_eq (h : FullSort db now l) :
    (candidate db now).map claimKey = l.head?.map claimKey := by
  cases l with
  | nil =>
    cases hc : candidate db now with
    | none => rfl
    | some row => exact absurd (h.mem.mpr (candidate_ready hc)) List.not_mem_nil
  | cons a l =>
    have ha := h.mem.mp (List.mem_cons_self ..)
    obtain ⟨row, hrow⟩ := exists_candidate ha
    have hle := h.head_le (h.mem.mpr (candidate_ready hrow))
    rw [hrow]
    exact congrArg some (le_antisymm (candidate_le hrow ha) hle)

theorem exists_sorted_perm (k : List Row) :
    ∃ l : List Row, l.Perm k ∧ l.Pairwise (claimKey · ≤ claimKey ·) := by
  refine ⟨k.mergeSort (fun a b ↦ decide (claimKey a ≤ claimKey b)), List.mergeSort_perm .., ?_⟩
  refine (List.pairwise_mergeSort ?_ ?_ k).imp (fun h ↦ of_decide_eq_true h)
  · intro a b c hab hbc
    exact decide_eq_true ((of_decide_eq_true hab).trans (of_decide_eq_true hbc))
  · intro a b
    simpa using le_total (claimKey a) (claimKey b)

/-- The row that the two seeks find comes first in one of the sorts. -/
theorem exists_fullSort (db : Database) (now : Time) :
    ∃ l, FullSort db now l ∧ l.head? = candidate db now := by
  cases hc : candidate db now with
  | none =>
    obtain ⟨l, hperm, hsorted⟩ := exists_sorted_perm (dueRows db now)
    have hl : FullSort db now l := ⟨hperm, hsorted⟩
    have hkey := hl.key_eq
    rw [hc] at hkey
    exact ⟨l, hl, Option.map_eq_none_iff.mp hkey.symm⟩
  | some row =>
    obtain ⟨before, after, hsplit⟩ := List.append_of_mem (mem_dueRows.mpr (candidate_ready hc))
    obtain ⟨l, hperm, hsorted⟩ := exists_sorted_perm (before ++ after)
    have hdue : (row :: l).Perm (dueRows db now) := by
      rw [hsplit]
      exact (hperm.cons row).trans List.perm_middle.symm
    refine ⟨row :: l, ⟨hdue, List.pairwise_cons.mpr ⟨fun r hr ↦ ?_, hsorted⟩⟩, rfl⟩
    exact candidate_le hc (mem_dueRows.mp (hdue.mem_iff.mp (List.mem_cons_of_mem _ hr)))

end Selection

/-- What a run does to a message, as an observer of its steps sees it. -/
inductive Event
  | accepted (id : String) (created : Time)
  | claimed (id : String)
  | expired (id : String)
  | cancelled (id : String)
  | retried (id : String)
  deriving DecidableEq

/-- The messages of a batch whose senders are told that they are stored. -/
def Session.stored (s : Session) (healthy : Bool) (free : ℕ) (now : Time)
    (batch : List PreparedMessage) : List PreparedMessage :=
  match s.running.map (fun config ↦ insertBatch config healthy free now batch s.db) with
  | some (.ok (_, results)) => ((batch.zip results).filter (·.2 = .stored)).map (·.1)
  | _ => []

/-- The rows that a step fails. -/
def Session.failing (s t : Session) : List Row :=
  s.db.messages.rows.filter (fun r ↦ r.status ≠ .failed ∧
    (t.db.messages.find? r.id).any (·.status = .failed))

def Session.events (s : Session) (op : Op) (t : Session) : List Event :=
  match op with
  | .insertBatch healthy free now batch =>
    (s.stored healthy free now batch).map (fun m ↦ .accepted m.id now)
  | .claim now =>
    (s.claimed now).toList.map (fun r ↦ .claimed r.id) ++ (s.failing t).map (fun r ↦ .expired r.id)
  | .finish identifier status _ _ _ _ => if status = .retry then [.retried identifier] else []
  | .action identifier verb _ _ =>
    if verb = "retry" then [.retried identifier]
    else if verb = "cancel" then [.cancelled identifier]
    else []
  | _ => []

abbrev logged : Session × List Event → Op → Option (Session × List Event) :=
  observe Session.step (fun log s op t ↦ log ++ s.events op t)

variable {s t : Session} {op : Op} {id : String} {r : Row} {now : Time} {log y : List Event}

/-- A message of which its sender is told that it is stored has a queued row. -/
theorem row_of_stored {healthy : Bool} {free : ℕ} {batch : List PreparedMessage}
    {m : PreparedMessage} (h : s.step (.insertBatch healthy free now batch) = some t)
    (hm : m ∈ s.stored healthy free now batch) :
    t.db.messages.find? m.id = some (queuedRow now m) := by
  obtain ⟨config, hr, h⟩ := Option.bind_eq_some_iff.mp h
  rw [Session.stored, hr, Option.map_some] at hm
  split at h
  · next db results hb =>
    cases h
    rw [hb] at hm
    dsimp only at hm
    rcases insertBatch_ok hb with ⟨-, reason, rfl⟩ | ⟨rfl, hi⟩
    · obtain ⟨x, hx, -⟩ := List.mem_map.mp hm
      obtain ⟨hzip, hstored⟩ := List.mem_filter.mp hx
      obtain ⟨m', -, hm'⟩ := List.mem_map.mp (List.of_mem_zip hzip).2
      rw [← hm'] at hstored
      simp at hstored
    · rw [← admission_accepted] at hm
      refine Table.find?_of_mem (r := queuedRow now m) ?_
      rw [hi.rows]
      exact List.mem_append_right _ (List.mem_map_of_mem hm)
  · cases h

/-- A step that takes a message into an attempt claims it. -/
theorem claimed_of_sending {r' : Row} (h : s.step (.claim now) = some t)
    (hr : s.db.messages.find? id = some r) (hs : r.status ≠ .sending)
    (hr' : t.db.messages.find? id = some r') (hs' : r'.status = .sending) :
    Event.claimed id ∈ s.events (.claim now) t := by
  have hne : r' ≠ r := fun he ↦ hs (he ▸ hs')
  cases transition_of_step h with
  | idle => exact absurd (Option.some.inj (hr'.symm.trans hr)) hne
  | @expired config now row hrun hn hc =>
    simp only [expire_messages] at hr'
    by_cases hid : id = row.id
    · subst hid
      rw [Table.find?_updateAt, hc.found] at hr'
      obtain rfl := Option.some.inj hr'
      cases hs'
    · rw [Table.find?_updateAt_ne _ hid] at hr'
      exact absurd (Option.some.inj (hr'.symm.trans hr)) hne
  | @claimed config now row hrun hn hc =>
    simp only [reserve_messages] at hr'
    by_cases hid : id = row.id
    · subst hid
      simp [Session.events, hn]
    · rw [Table.find?_updateAt_ne _ hid] at hr'
      exact absurd (Option.some.inj (hr'.symm.trans hr)) hne

/-- The events that take a message out of the order of acceptance, other than a
retry. -/
def Served (id : String) (log : List Event) : Prop :=
  .claimed id ∈ log ∨ .expired id ∈ log ∨ .cancelled id ∈ log

theorem Served.append_left (h : Served id y) (log : List Event) : Served id (y ++ log) :=
  h.imp (List.mem_append_left _) (Or.imp (List.mem_append_left _) (List.mem_append_left _))

theorem Served.append_right (h : Served id y) (log : List Event) : Served id (log ++ y) :=
  h.imp (List.mem_append_right _) (Or.imp (List.mem_append_right _) (List.mem_append_right _))

/-- A queued message waits unchanged until it is served or retried. -/
theorem queued_step (h : s.step op = some t) (hr : s.db.messages.find? id = some r)
    (hs : r.status = .queued) : t.db.messages.find? id = some r ∨
      Served id (s.events op t) ∨ .retried id ∈ s.events op t := by
  obtain rfl := Table.key_of_find? hr
  have hchange := step_row h r.id
  rw [hr] at hchange
  generalize hy : t.db.messages.find? r.id = y at hchange
  cases hchange with
  | same => exact .inl rfl
  | recovered hsending | finished hsending => exact absurd (hs.symm.trans hsending) (by decide)
  | expired =>
    have hfail : r ∈ s.failing t := by
      refine List.mem_filter.mpr ⟨Table.mem_of_find? hr, decide_eq_true ⟨?_, ?_⟩⟩
      · rw [hs]
        decide
      · rw [hy]
        rfl
    exact .inr (.inl (.inr (.inl (List.mem_append_right _ (List.mem_map_of_mem hfail)))))
  | claimed =>
    refine .inr (.inl (.inl (claimed_of_sending h hr ?_ hy rfl)))
    rw [hs]
    decide
  | retried => exact .inr (.inr (by simp [Session.events]))
  | cancelled => exact .inr (.inl (.inr (.inr (by simp [Session.events]))))
  | deleted hdone => simp [hs] at hdone

/-- The row of a message that was not retried still carries its acceptance. -/
def Original (since : Time) (r : Row) : Prop :=
  r.status = .queued ∨ r.status = .retry →
    r.nextAttempt = ((r.created : WithTop ℚ) : Extended) ∧ since ≤ r.created

theorem original_step {since : Time} (h : s.step op = some t)
    (hlate : ∀ now ∈ op.readings, since ≤ now) (hn : .retried id ∉ s.events op t)
    (hs : ∀ r, s.db.messages.find? id = some r → Original since r) :
    ∀ r, t.db.messages.find? id = some r → Original since r := by
  intro r hr
  obtain rfl := Table.key_of_find? hr
  have hchange := step_row h r.id
  rw [hr] at hchange
  generalize hx : s.db.messages.find? r.id = x at hchange
  cases hchange with
  | same => exact hs r hx
  | inserted =>
    intro _
    exact ⟨rfl, hlate _ (List.mem_singleton_self _)⟩
  | @finished status error delay globalCooldown now row next counter _ hc =>
    intro hstatus
    cases status with
    | retry => exact absurd (by simp [Session.events]) hn
    | _ => simp [finishRow, resultCounter] at hstatus hc
  | retried => exact absurd (by simp [Session.events]) hn
  | recovered | expired | claimed | cancelled =>
    intro hstatus
    rcases hstatus with hstatus | hstatus <;> cases hstatus

theorem append_eq_split {l k x z : List Event} {e : Event} (h : l ++ k = x ++ e :: z) :
    (∃ z', l = x ++ e :: z' ∧ z = z' ++ k) ∨ ∃ x', x = l ++ x' ∧ k = x' ++ e :: z := by
  rcases List.append_eq_append_iff.mp h with ⟨x', hx, hk⟩ | ⟨c, hl, hc⟩
  · exact .inr ⟨x', hx, hk⟩
  · cases c with
    | nil => exact .inr ⟨[], by simpa using hl.symm, hc.symm⟩
    | cons e' z' =>
      obtain ⟨rfl, hz⟩ := List.cons.inj hc
      exact .inl ⟨z', hl, hz⟩

/-- What holds of a message while the events that followed its acceptance are
those of the list. -/
structure Follows (id : String) (since : Time) (y : List Event) (s : Session) : Prop where
  waits : Served id y ∨ .retried id ∈ y ∨ ∃ r, s.db.messages.find? id = some r ∧
    r.status = .queued ∧ r.nextAttempt = ((since : WithTop ℚ) : Extended)
  original : .retried id ∈ y ∨ ∀ r, s.db.messages.find? id = some r → Original since r

theorem Follows.step {since : Time} (hf : Follows id since y s) (h : s.step op = some t)
    (hlate : ∀ now ∈ op.readings, since ≤ now) : Follows id since (y ++ s.events op t) t := by
  constructor
  · rcases hf.waits with hserved | hretried | ⟨r, hr, hs, hnext⟩
    · exact .inl (hserved.append_left _)
    · exact .inr (.inl (List.mem_append_left _ hretried))
    · rcases queued_step h hr hs with hsame | hserved | hretried
      · exact .inr (.inr ⟨r, hsame, hs, hnext⟩)
      · exact .inl (hserved.append_right _)
      · exact .inr (.inl (List.mem_append_right _ hretried))
  · rcases hf.original with hretried | horiginal
    · exact .inl (List.mem_append_left _ hretried)
    · by_cases hn : .retried id ∈ s.events op t
      · exact .inl (List.mem_append_right _ hn)
      · exact .inr (original_step h hlate hn horiginal)

theorem accepted_event {since : Time} (h : s.step op = some t)
    (he : .accepted id since ∈ s.events op t) :
    since ∈ op.readings ∧ Follows id since y t := by
  cases op with
  | insertBatch healthy free now batch =>
    obtain ⟨m, hm, he⟩ := List.mem_map.mp he
    obtain ⟨rfl, rfl⟩ := Event.accepted.inj he
    have hrow := row_of_stored h hm
    refine ⟨List.mem_singleton_self _, .inr (.inr ⟨_, hrow, rfl, rfl⟩), .inr (fun r hr _ ↦ ?_)⟩
    obtain rfl := Option.some.inj (hrow.symm.trans hr)
    exact ⟨rfl, le_refl _⟩
  | claim now =>
    rcases List.mem_append.mp he with he | he
    · obtain ⟨r, -, hr⟩ := List.mem_map.mp he
      cases hr
    · obtain ⟨r, -, hr⟩ := List.mem_map.mp he
      cases hr
  | finish identifier status =>
    simp only [Session.events] at he
    split_ifs at he <;> simp at he
  | action identifier verb =>
    simp only [Session.events] at he
    split_ifs at he <;> simp at he
  | _ => exact absurd he List.not_mem_nil

theorem claimed_event (he : .claimed id ∈ s.events op t) :
    ∃ now row, op = .claim now ∧ s.claimed now = some row ∧ row.id = id := by
  cases op with
  | claim now =>
    rcases List.mem_append.mp he with he | he
    · obtain ⟨row, hrow, he⟩ := List.mem_map.mp he
      exact ⟨now, row, rfl, Option.mem_toList.mp hrow, Event.claimed.inj he⟩
    · obtain ⟨r, -, hr⟩ := List.mem_map.mp he
      cases hr
  | insertBatch healthy free now batch =>
    obtain ⟨m, -, hm⟩ := List.mem_map.mp he
    cases hm
  | finish identifier status =>
    simp only [Session.events] at he
    split_ifs at he <;> simp at he
  | action identifier verb =>
    simp only [Session.events] at he
    split_ifs at he <;> simp at he
  | _ => exact absurd he List.not_mem_nil

/-- A message is not claimed while one that was accepted before it waits. -/
theorem served_of_claimed {first second : String} {a b : Time} {z : List Event} {row : Row}
    (hfirst : Follows first a y s) (hsecond : Follows second b z s) (hab : a < b)
    (hy : .retried first ∉ y) (hz : .retried second ∉ z) (hnow : a ≤ now)
    (hc : s.claimed now = some row) (hrow : row.id = second) : Served first y := by
  obtain ⟨config, r, -, hclaim, rfl⟩ := claimed_eq_some hc
  have hready := candidate_ready hclaim.candidate
  have hr : s.db.messages.find? second = some r := by
    rw [← hrow]
    exact hready.found
  obtain ⟨hnext, hlate⟩ := hsecond.original.resolve_left hz r hr hready.state
  rcases hfirst.waits with hserved | hretried | ⟨r', hr', hs, hdue⟩
  · exact hserved
  · exact absurd hretried hy
  · obtain rfl := Table.key_of_find? hr'
    have hready' : Ready now s.db r' := by
      refine ⟨hr', .inl hs, ?_⟩
      rw [hdue]
      exact_mod_cast hnow
    have hle : r.nextAttempt ≤ r'.nextAttempt :=
      (Prod.Lex.toLex_le_toLex'.mp (candidate_le hclaim.candidate hready')).1
    rw [hnext, hdue] at hle
    have hle : r.created ≤ a := by exact_mod_cast hle
    exact absurd (hab.trans_le (hlate.trans hle)) (lt_irrefl a)

/-- No message that was not retried is claimed while one that was accepted
strictly before it, and was not retried either, waits. -/
def NoOvertaking (log : List Event) : Prop :=
  ∀ past rest first second a b x y x' z, log = past ++ .claimed second :: rest →
    past = x ++ .accepted first a :: y → past = x' ++ .accepted second b :: z → a < b →
    .retried first ∉ y → .retried second ∉ z → Served first y

/-- The log of a run up to now, with the clock readings taken. -/
structure Ordered (readings : List Time) (w : Session × List Event) : Prop where
  past : ∀ id since, .accepted id since ∈ w.2 → since ∈ readings
  follows : ∀ x y id since, w.2 = x ++ .accepted id since :: y → Follows id since y w.1
  served : NoOvertaking w.2

theorem Ordered.step {readings : List Time} (ho : Ordered readings (s, log))
    (h : s.step op = some t) (hclock : ∀ r ∈ readings, ∀ r' ∈ op.readings, r ≤ r') :
    Ordered (readings ++ op.readings) (t, log ++ s.events op t) := by
  constructor
  · intro id since he
    rcases List.mem_append.mp he with he | he
    · exact List.mem_append_left _ (ho.past id since he)
    · exact List.mem_append_right _ (accepted_event (y := []) h he).1
  · intro x y id since hlog
    rcases append_eq_split hlog with ⟨y', hl, rfl⟩ | ⟨x', rfl, hevents⟩
    · have hpast : since ∈ readings := ho.past id since (by rw [hl]; simp)
      exact (ho.follows x y' id since hl).step h (fun now hnow ↦ hclock since hpast now hnow)
    · exact (accepted_event h (by rw [hevents]; simp)).2
  · intro past rest first second a b x y x' z hlog hx hx' hab hy hz
    rcases append_eq_split hlog with ⟨rest', hl, rfl⟩ | ⟨between, rfl, hevents⟩
    · exact ho.served past rest' first second a b x y x' z hl hx hx' hab hy hz
    · have hclaimed : .claimed second ∈ s.events op t := by rw [hevents]; simp
      obtain ⟨now, row, rfl, hc, hrow⟩ := claimed_event hclaimed
      have hnone : ∀ id since, .accepted id since ∉ between := by
        intro id since he
        have he : .accepted id since ∈ s.events (.claim now) t := by
          rw [hevents]
          exact List.mem_append_left _ he
        rcases List.mem_append.mp he with he | he
        · obtain ⟨r, -, hr⟩ := List.mem_map.mp he
          cases hr
        · obtain ⟨r, -, hr⟩ := List.mem_map.mp he
          cases hr
      have hold : ∀ {x y : List Event} {id since}, log ++ between = x ++ .accepted id since :: y →
          ∃ y', log = x ++ .accepted id since :: y' ∧ y = y' ++ between := by
        intro x y id since hsplit
        rcases append_eq_split hsplit with hl | ⟨x₁, -, hbetween⟩
        · exact hl
        · exact absurd (by rw [hbetween]; simp) (hnone id since)
      obtain ⟨y', hy', rfl⟩ := hold hx
      obtain ⟨z', hz', rfl⟩ := hold hx'
      have hpast : a ∈ readings := ho.past first a (by rw [hy']; simp)
      refine Served.append_left ?_ between
      exact served_of_claimed (ho.follows x y' first a hy') (ho.follows x' z' second b hz') hab
        (fun he ↦ hy (List.mem_append_left _ he)) (fun he ↦ hz (List.mem_append_left _ he))
        (hclock a hpast now (List.mem_singleton_self _)) hc hrow

theorem Ordered.of_runs {ops : List Op} (hclock : (ops.flatMap Op.readings).Pairwise (· ≤ ·))
    (h : Runs logged ({}, []) ops (s, log)) : Ordered (ops.flatMap Op.readings) (s, log) := by
  refine h.trace_invariant (P := fun k w ↦ (k.flatMap Op.readings).Pairwise (· ≤ ·) →
    Ordered (k.flatMap Op.readings) w) ?_ ?_ hclock
  · intro _
    refine ⟨fun id since he ↦ absurd he List.not_mem_nil, fun x y id since hx ↦ ?_, ?_⟩
    · simp at hx
    · intro past rest first second a b x y x' z hlog
      simp at hlog
  · intro k w op w' _ hw hstep hk
    obtain ⟨hstep, hlog⟩ := observe_eq_some.mp hstep
    rw [List.flatMap_append, List.pairwise_append] at hk
    rw [List.flatMap_append, List.flatMap_singleton] at *
    have hordered := (hw hk.1).step hstep hk.2.2
    rw [← hlog] at hordered
    exact hordered

/-- The claim serves the ready messages in the order of one full sort, so that
messages that are not retried are attempted in the order of their acceptance. -/
theorem queue_order :
    (∀ db now, (∃ l, FullSort db now l ∧ l.head? = candidate db now) ∧
      (∀ l, FullSort db now l → (candidate db now).map claimKey = l.head?.map claimKey) ∧
      ∀ row, candidate db now = some row →
        Ready now db row ∧ ∀ r, Ready now db r → claimKey row ≤ claimKey r) ∧
    ∀ ops s log, (ops.flatMap Op.readings).Pairwise (· ≤ ·) →
      Runs logged ({}, []) ops (s, log) → NoOvertaking log := by
  refine ⟨fun db now ↦ ⟨exists_fullSort db now, fun l hl ↦ hl.key_eq, fun row hrow ↦ ?_⟩, ?_⟩
  · exact ⟨candidate_ready hrow, fun r hr ↦ candidate_le hrow hr⟩
  · intro ops s log hclock h
    exact (Ordered.of_runs hclock h).served

/-- Two messages accepted one after the other, and their attempts. -/
def orderedRun : List Op :=
  [.start sampleConfig 0,
    .insertBatch true 1000000000 1 [sampleMessage "m1" "a@example.com"],
    .insertBatch true 1000000000 2 [sampleMessage "m2" "b@example.com"],
    .claim 3,
    .claim 4]

theorem queue_order_sample : ∃ s, Runs logged ({}, []) orderedRun
    (s, [.accepted "m1" 1, .accepted "m2" 2, .claimed "m1", .claimed "m2"]) ∧
    NoOvertaking [.accepted "m1" 1, .accepted "m2" 2, .claimed "m1", .claimed "m2"] := by
  have hlog : (run logged orderedRun ({}, [])).map (·.2) =
    some [.accepted "m1" 1, .accepted "m2" 2, .claimed "m1", .claimed "m2"] := by decide +kernel
  obtain ⟨⟨s, log⟩, hs, rfl⟩ := Option.map_eq_some_iff.mp hlog
  exact ⟨s, hs, queue_order.2 orderedRun s _ (by decide +kernel) hs⟩

end NoreplyGateway.Store
