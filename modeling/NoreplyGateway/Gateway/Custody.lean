import NoreplyGateway.Gateway.Holding

namespace NoreplyGateway

open Machine Store

namespace Gateway

/-- The messages of a batch whose job has not run. -/
def Writer.uncommitted : Writer → List PreparedMessage
  | .gathering first => [first]
  | .committing batch _ => batch
  | _ => []

/-- The results that the futures of a batch are still to be given. -/
def Writer.outcomes : Writer → List (PreparedMessage × InsertResult)
  | .committed batch results _ => Gateway.outcomes batch results
  | _ => []

/-- What has become of the submissions. Those in `alive` are undecided. -/
structure Custody where
  alive : Multiset PreparedMessage
  decided : Multiset (String × InsertResult)
  submitted : Multiset String
  issued : List String
  replies : List Reply

def decision (o : PreparedMessage × InsertResult) : String × InsertResult := (o.1.id, o.2)

def custody (g : Gateway) : Custody where
  alive := ↑(g.intake.writer.uncommitted ++ g.intake.pending.reduceOption)
  decided := ↑(g.intake.resolved ++ g.intake.writer.outcomes.map decision)
  submitted := ↑g.intake.submitted
  issued := g.issued
  replies := g.replies

def stored (o : List (PreparedMessage × InsertResult)) : List PreparedMessage :=
  (o.filter (·.2 = .stored)).map (·.1)

/-- What a step of the gateway does with the submissions. -/
inductive Progress (g : Gateway) (a : Action) (g' : Gateway) : Prop
  | idle (hs : g'.store = g.store) (hc : custody g' = custody g)
  | store {op : Op} (hop : ¬ op.Inserts) (hs : g.store.step op = some g'.store)
      (hc : custody g' = custody g)
  | reset {op : Op} (hop : ¬ op.Inserts) (hs : g.store.step op = some g'.store)
      (hc : custody g' = { custody g with alive := 0, decided := 0, submitted := 0 })
  | refused {m : PreparedMessage} (hm : m.id ∉ g.issued) (hs : g'.store = g.store)
      (hc : custody g' = { custody g with
        issued := g.issued ++ [m.id]
        replies := g.replies ++ [.deferred m.id] })
  | taken {m : PreparedMessage} (ha : a = .intake (.data m)) (hm : m.id ∉ g.issued)
      (hs : g'.store = g.store)
      (hc : custody g' = { custody g with
        alive := m ::ₘ (custody g).alive
        submitted := m.id ::ₘ (custody g).submitted
        issued := g.issued ++ [m.id] })
  | answered {id : String} {result : InsertResult} (hr : (id, result) ∈ (custody g).decided)
      (hs : g'.store = g.store)
      (hc : custody g' = { custody g with replies := g.replies ++ [answer id result] })
  | decided {batch : List PreparedMessage} {rest : Multiset PreparedMessage}
      {results : List InsertResult} {now : Time} (hb : (custody g).alive = ↑batch + rest)
      (hl : results.length = batch.length)
      (ha : .stored ∈ results → ∃ free, a = .intake (.commit free now))
      (hi : Inserted now g.store.db g'.store.db (stored (batch.zip results)))
      (hc : custody g' = { custody g with
        alive := rest
        decided := (custody g).decided + ↑((batch.zip results).map decision) })

variable {g g' : Gateway} {config : Config}

theorem gather_eq (room : ℕ) (pending : List (Option PreparedMessage)) : pending =
    (gather room pending).1.map some ++
      ((if (gather room pending).2.1 then [none] else []) ++ (gather room pending).2.2) := by
  fun_induction gather room pending with
  | case1 | case2 | case3 => rfl
  | case4 room m pending rest ih => exact congrArg (some m :: ·) ih

theorem gather_reduceOption (room : ℕ) (pending : List (Option PreparedMessage)) :
    pending.reduceOption =
      (gather room pending).1 ++ (gather room pending).2.2.reduceOption := by
  have hsome : ∀ l : List PreparedMessage, (l.map some).reduceOption = l := by
    intro l
    simp [List.reduceOption]
  conv_lhs => rw [gather_eq room pending]
  rw [List.reduceOption_append, List.reduceOption_append, hsome]
  split_ifs <;> rfl

theorem stored_subset {batch : List PreparedMessage} {results : List InsertResult}
    {m : PreparedMessage} (h : m ∈ stored (batch.zip results)) : m ∈ batch := by
  obtain ⟨o, ho, rfl⟩ := List.mem_map.mp h
  exact (List.of_mem_zip (List.mem_filter.mp ho).1).1

theorem map_decision {batch : List PreparedMessage} {results : List InsertResult}
    (h : results.length = batch.length) :
    ((batch.zip results).map decision).map (·.1) = batch.map (·.id) := by
  have hfst := congrArg (List.map PreparedMessage.id) (List.map_fst_zip h.ge)
  rw [List.map_map] at hfst ⊢
  exact hfst

theorem zip_refused (batch : List PreparedMessage) (reason : String) :
    batch.zip (batch.map (fun _ ↦ InsertResult.refused reason)) = batch.map (·, .refused reason) := by
  induction batch with
  | nil => rfl
  | cons m batch ih => simp only [List.map_cons, List.zip_cons_cons, ih]

theorem stored_refused (batch : List PreparedMessage) (reason : String) :
    stored (batch.map (·, .refused reason)) = [] := by
  simp [stored]

theorem submit_progress {message : PreparedMessage} (hm : message.id ∉ g.issued) :
    Progress g (.intake (.data message)) (submit g config message) := by
  simp only [submit]
  split_ifs with h
  · exact .refused hm rfl rfl
  · refine .taken rfl hm rfl ?_
    simp only [custody, List.reduceOption_append, Custody.mk.injEq, and_true, true_and]
    refine ⟨Multiset.coe_eq_coe.mpr ?_, Multiset.coe_eq_coe.mpr (List.perm_append_singleton _ _)⟩
    rw [← List.append_assoc]
    exact List.perm_append_singleton _ _

section Commit

variable {a : Action} {batch : List PreparedMessage} {stopping : Bool}

/-- The end of a batch job, whatever it gave. -/
theorem commit_progress (now : Time) {results : List InsertResult}
    {given : Option (List InsertResult)} (hw : g.intake.writer = .committing batch stopping)
    (hl : results.length = batch.length) (hg : outcomes batch given = batch.zip results)
    (ha : .stored ∈ results → ∃ free, a = .intake (.commit free now))
    (hi : Inserted now g.store.db g'.store.db (stored (batch.zip results)))
    (hg' : g'.intake = { g.intake with writer := .committed batch given stopping })
    (hissued : g'.issued = g.issued) (hreplies : g'.replies = g.replies) : Progress g a g' := by
  have hb : (custody g).alive = ↑batch + ↑g.intake.pending.reduceOption := by
    simp [custody, hw, Writer.uncommitted]
  refine .decided hb hl ha hi ?_
  simp [custody, hg', hissued, hreplies, hw, Writer.uncommitted, Writer.outcomes, hg,
    ← Multiset.coe_add]

theorem refused_progress (now : Time) {reason : String} {given : Option (List InsertResult)}
    (hw : g.intake.writer = .committing batch stopping)
    (hg : outcomes batch given = batch.map (·, .refused reason)) (hs : g'.store.db = g.store.db)
    (hg' : g'.intake = { g.intake with writer := .committed batch given stopping })
    (hissued : g'.issued = g.issued) (hreplies : g'.replies = g.replies) : Progress g a g' := by
  refine commit_progress now hw (List.length_map _) (hg.trans (zip_refused ..).symm)
    (by simp) ?_ hg' hissued hreplies
  rw [zip_refused, stored_refused, hs]
  exact .refl

end Commit

theorem intake_progress {a : IntakeAction} (h : intakeStep g config a = some g') :
    Progress g (.intake a) g' := by
  cases a with
  | data message =>
    simp only [intakeStep] at h
    split_ifs at h with hm
    cases h
    exact submit_progress hm
  | reply id =>
    simp only [intakeStep] at h
    split_ifs at h
    obtain ⟨result, hr, rfl⟩ := Option.map_eq_some_iff.mp h
    refine .answered (Multiset.mem_coe.mpr (List.mem_append_left _ ?_)) rfl rfl
    obtain ⟨before, after, he, -⟩ := List.lookup_eq_some_iff.mp hr
    rw [he]
    exact List.mem_append_right _ (List.mem_cons_self ..)
  | disconnect id =>
    cases h
    exact .idle rfl rfl
  | take =>
    simp only [intakeStep] at h
    split at h
    · next hw hp =>
      cases h
      exact .idle rfl (by simp [custody, hw, hp, Writer.uncommitted, Writer.outcomes])
    · next hw hp =>
      cases h
      exact .idle rfl (by simp [custody, hw, hp, Writer.uncommitted, Writer.outcomes])
    · cases h
  | batch =>
    simp only [intakeStep] at h
    split at h
    · next first hw =>
      cases h
      refine .idle rfl ?_
      simp [custody, hw, Writer.uncommitted, Writer.outcomes,
        gather_reduceOption (config.queue.batchSize - 1) g.intake.pending]
    · cases h
  | commit free now =>
    simp only [intakeStep] at h
    split at h
    · next batch stopping hw =>
      split at h
      · next db results hb =>
        cases h
        rcases insertBatch_ok hb with ⟨hdb, reason, rfl⟩ | ⟨rfl, hi⟩
        · have hg : outcomes batch (some (batch.map (fun _ ↦ .refused reason))) =
              batch.map (·, .refused reason) := zip_refused ..
          exact refused_progress now hw hg hdb rfl rfl rfl
        · refine commit_progress now hw admission_length rfl (fun _ ↦ ⟨free, rfl⟩) ?_ rfl rfl rfl
          rw [admission_accepted] at hi
          exact hi
      · cases h
        exact refused_progress now hw rfl rfl rfl rfl rfl
    · cases h
  | fault =>
    simp only [intakeStep] at h
    split at h
    · next hw =>
      cases h
      exact refused_progress 0 hw rfl rfl rfl rfl rfl
    · cases h
  | resolve =>
    simp only [intakeStep] at h
    split at h
    · next batch results stopping hw =>
      cases h
      refine .idle rfl ?_
      cases stopping <;> simp [custody, resolve, hw, Writer.uncommitted, Writer.outcomes] <;> rfl
    · cases h
  | close =>
    simp only [intakeStep] at h
    split_ifs at h
    cases h
    exact .idle rfl rfl
  | closePut =>
    simp only [intakeStep] at h
    split_ifs at h
    cases h
    refine .idle rfl ?_
    simp [custody, List.reduceOption_append]

theorem SameIntake.custody (h : SameIntake g g') : custody g' = custody g := by
  simp only [Gateway.custody, h.intake, h.issued, h.replies]

theorem step_progress {a : Action} (h : g.step a = some g') : Progress g a g' := by
  cases a with
  | start config now =>
    obtain ⟨store, hs, rfl⟩ := Option.map_eq_some_iff.mp h
    have hop : ¬ (Op.start config now).Inserts := not_false
    exact .reset hop hs rfl
  | crash =>
    obtain ⟨store, hs, rfl⟩ := Option.map_eq_some_iff.mp h
    have hop : ¬ Op.crash.Inserts := not_false
    exact .reset hop hs rfl
  | intake action =>
    obtain ⟨config, hr, h⟩ := Option.bind_eq_some_iff.mp h
    exact intake_progress h
  | delivery action =>
    have heffect := step_effect h
    obtain ⟨config, hr, h⟩ := Option.bind_eq_some_iff.mp h
    have hc := (delivery_frame h).custody
    cases heffect with
    | frame hs hh | interrupt hs hh hh' => exact .idle hs hc
    | @quiet op hq hs hh =>
      refine .store (fun hop ↦ ?_) hs hc
      cases op with
      | insertBatch =>
        obtain ⟨action, ha⟩ := hq
        cases ha
      | _ => exact hop
    | claim hs hh | finish hs hh hh' hu => exact .store (by exact not_false) hs hc
    | reset hr hs hh =>
      rcases hr with rfl | ⟨config, now, rfl⟩ <;> exact .store (by exact not_false) hs hc

/-- The identifier was given out, and its message is not undecided. -/
structure Handled (g : Gateway) (id : String) : Prop where
  issued : id ∈ (custody g).issued
  decided : id ∉ (custody g).alive.map (·.id)

structure Absent (g : Gateway) (id : String) : Prop extends Handled g id where
  unstored : g.store.db.messages.find? id = none

structure InCustody (g : Gateway) : Prop where
  nodup : (custody g).submitted.Nodup
  accounted : (custody g).decided.map (·.1) + (custody g).alive.map (·.id) = (custody g).submitted
  issued : ∀ id ∈ (custody g).submitted, id ∈ (custody g).issued
  rows : ∀ id r, g.store.db.messages.find? id = some r → id ∈ (custody g).issued
  fresh : ∀ m ∈ (custody g).alive, g.store.db.messages.find? m.id = none
  refused : ∀ id reason, (id, .refused reason) ∈ (custody g).decided → Absent g id
  deferred : ∀ id, .deferred id ∈ (custody g).replies → Absent g id

section Step

variable {a : Action} {id : String}

theorem InCustody.alive_issued (hg : InCustody g) {m : PreparedMessage}
    (hm : m ∈ (custody g).alive) : m.id ∈ (custody g).issued := by
  refine hg.issued m.id ?_
  rw [← hg.accounted]
  exact Multiset.mem_add.mpr (.inr (Multiset.mem_map_of_mem _ hm))

theorem Handled.step (hid : Handled g id) (p : Progress g a g') : Handled g' id := by
  obtain ⟨hissued, hdecided⟩ := hid
  cases p with
  | idle hs hc | store hop hs hc | answered hr hs hc => exact ⟨by rwa [hc], by rwa [hc]⟩
  | reset hop hs hc => exact ⟨by rwa [hc], by simp [hc]⟩
  | refused hm hs hc => exact ⟨by rw [hc]; exact List.mem_append_left _ hissued, by rwa [hc]⟩
  | taken ha hm hs hc =>
    refine ⟨by rw [hc]; exact List.mem_append_left _ hissued, ?_⟩
    rw [hc, Multiset.map_cons, Multiset.mem_cons, not_or]
    exact ⟨fun he ↦ hm (he ▸ hissued), hdecided⟩
  | decided hb hl ha hi hc =>
    rw [hb, Multiset.map_add, Multiset.mem_add, not_or] at hdecided
    exact ⟨by rwa [hc], by rw [hc]; exact hdecided.2⟩

theorem Absent.step (hid : Absent g id) (p : Progress g a g') : Absent g' id := by
  refine ⟨hid.toHandled.step p, ?_⟩
  obtain ⟨⟨-, hdecided⟩, hunstored⟩ := hid
  cases p with
  | idle hs hc | refused hm hs hc | taken ha hm hs hc | answered hr hs hc => rwa [hs]
  | store hop hs hc | reset hop hs hc => exact find?_eq_none_of_step hs hop hunstored
  | decided hb hl ha hi hc =>
    rw [hb, Multiset.map_add, Multiset.mem_add, not_or] at hdecided
    rw [Table.find?_append hi.rows, hunstored, Option.none_or, List.find?_eq_none]
    intro r hr
    obtain ⟨m, hm, rfl⟩ := List.mem_map.mp hr
    simp only [decide_eq_true_eq]
    rintro rfl
    exact hdecided.1 (Multiset.mem_map_of_mem _ (Multiset.mem_coe.mpr (stored_subset hm)))

/-- The messages of a batch and the rest of the undecided ones differ. -/
theorem InCustody.batch_nodup (hg : InCustody g) {batch : List PreparedMessage}
    {rest : Multiset PreparedMessage} (hb : (custody g).alive = ↑batch + rest) :
    (batch.map (·.id)).Nodup ∧ ∀ m ∈ batch, m.id ∉ rest.map (·.id) := by
  have hle : (custody g).alive.map (·.id) ≤ (custody g).submitted :=
    hg.accounted ▸ Multiset.le_add_left _ _
  have hnodup := Multiset.nodup_of_le hle hg.nodup
  rw [hb, Multiset.map_add, Multiset.map_coe, Multiset.nodup_add] at hnodup
  obtain ⟨hbatch, -, hdisjoint⟩ := hnodup
  refine ⟨Multiset.coe_nodup.mp hbatch, fun m hm hrest ↦ ?_⟩
  exact Multiset.disjoint_left.mp hdisjoint (Multiset.mem_coe.mpr (List.mem_map_of_mem hm)) hrest

theorem InCustody.accounted_step (hg : InCustody g) (p : Progress g a g') :
    (custody g').decided.map (·.1) + (custody g').alive.map (·.id) = (custody g').submitted := by
  cases p with
  | idle hs hc | store hop hs hc => rw [hc, hg.accounted]
  | reset hop hs hc => simp [hc]
  | refused hm hs hc | answered hr hs hc => rw [hc]; exact hg.accounted
  | taken ha hm hs hc => rw [hc, Multiset.map_cons, Multiset.add_cons, hg.accounted]
  | @decided batch rest results now hb hl ha hi hc =>
    rw [hc, Multiset.map_add, Multiset.map_coe, map_decision hl, add_assoc, ← hg.accounted, hb,
      Multiset.map_add, Multiset.map_coe]

/-- A message that a batch refused has no row after it. -/
theorem InCustody.absent_of_refused (hg : InCustody g) {batch : List PreparedMessage}
    {rest : Multiset PreparedMessage} {results : List InsertResult} {now : Time} {reason : String}
    (hb : (custody g).alive = ↑batch + rest) (hl : results.length = batch.length)
    (hi : Inserted now g.store.db g'.store.db (stored (batch.zip results)))
    (hc : custody g' = { custody g with
      alive := rest
      decided := (custody g).decided + ↑((batch.zip results).map decision) })
    (hid : (id, .refused reason) ∈ (batch.zip results).map decision) : Absent g' id := by
  obtain ⟨⟨m, result⟩, hm, he⟩ := List.mem_map.mp hid
  obtain ⟨rfl, rfl⟩ := Prod.mk.inj he
  obtain ⟨hnodup, hdisjoint⟩ := hg.batch_nodup hb
  have hbatch : m ∈ batch := (List.of_mem_zip hm).1
  have halive : m ∈ (custody g).alive := by
    rw [hb]
    exact Multiset.mem_add.mpr (.inl hbatch)
  refine ⟨⟨by rw [hc]; exact hg.alive_issued halive, by rw [hc]; exact hdisjoint m hbatch⟩, ?_⟩
  rw [Table.find?_append hi.rows, hg.fresh m halive, Option.none_or, List.find?_eq_none]
  intro r hr
  obtain ⟨m', hm', rfl⟩ := List.mem_map.mp hr
  obtain ⟨⟨m', result⟩, ho, rfl⟩ := List.mem_map.mp hm'
  obtain ⟨ho, hstored⟩ := List.mem_filter.mp ho
  -- Equal identifiers would be at the same place of the batch, with one result.
  simp only [decide_eq_true_eq] at hstored ⊢
  intro hsame
  rw [← map_decision hl, List.map_map] at hnodup
  have he := List.inj_on_of_nodup_map hnodup ho hm hsame
  simp [hstored] at he

theorem InCustody.rows_step (hg : InCustody g) (p : Progress g a g') {r : Row}
    (hr : g'.store.db.messages.find? id = some r) : id ∈ (custody g').issued := by
  have hold : ∀ r', g.store.db.messages.find? id = some r' → id ∈ (custody g).issued :=
    fun r' ↦ hg.rows id r'
  have hstep : ∀ {op : Op}, ¬ op.Inserts → g.store.step op = some g'.store →
      id ∈ (custody g).issued := by
    intro op hop hs
    cases hn : g.store.db.messages.find? id with
    | none => simp [find?_eq_none_of_step hs hop hn] at hr
    | some r' => exact hold r' hn
  cases p with
  | idle hs hc | answered hx hs hc => rw [hc]; exact hold r (hs ▸ hr)
  | store hop hs hc | reset hop hs hc => rw [hc]; exact hstep hop hs
  | refused hm hs hc | taken ha hm hs hc =>
    rw [hc]
    exact List.mem_append_left _ (hold r (hs ▸ hr))
  | @decided batch rest results now hb hl ha hi hc =>
    rw [hc]
    rw [Table.find?_append hi.rows] at hr
    cases hn : g.store.db.messages.find? id with
    | some r' => exact hold r' hn
    | none =>
      rw [hn, Option.none_or] at hr
      obtain ⟨m, hm, rfl⟩ := List.mem_map.mp (List.mem_of_find?_eq_some hr)
      have hid : (queuedRow now m).id = id := by simpa using List.find?_some hr
      rw [← hid]
      refine hg.alive_issued (m := m) ?_
      rw [hb]
      exact Multiset.mem_add.mpr (.inl (stored_subset hm))

theorem InCustody.fresh_step (hg : InCustody g) (p : Progress g a g') {m : PreparedMessage}
    (hm : m ∈ (custody g').alive) : g'.store.db.messages.find? m.id = none := by
  cases p with
  | idle hs hc | refused hm' hs hc | answered hr hs hc =>
    rw [hc] at hm
    rw [hs]
    exact hg.fresh m hm
  | store hop hs hc =>
    rw [hc] at hm
    exact find?_eq_none_of_step hs hop (hg.fresh m hm)
  | reset hop hs hc => simp [hc] at hm
  | @taken m' ha hm' hs hc =>
    rw [hc] at hm
    rw [hs]
    rcases Multiset.mem_cons.mp (show m ∈ m' ::ₘ (custody g).alive from hm) with rfl | hm
    · cases hn : g.store.db.messages.find? m.id with
      | none => rfl
      | some r => exact absurd (hg.rows _ r hn) hm'
    · exact hg.fresh m hm
  | @decided batch rest results now hb hl ha hi hc =>
    rw [hc] at hm
    have halive : m ∈ (custody g).alive := by
      rw [hb]
      exact Multiset.mem_add.mpr (.inr hm)
    rw [Table.find?_append hi.rows, hg.fresh m halive, Option.none_or, List.find?_eq_none]
    intro r hr
    obtain ⟨m', hm', rfl⟩ := List.mem_map.mp hr
    simp only [decide_eq_true_eq]
    intro he
    refine (hg.batch_nodup hb).2 m' (stored_subset hm') ?_
    rw [show m'.id = m.id from he]
    exact Multiset.mem_map_of_mem _ hm

theorem InCustody.refused_step (hg : InCustody g) (p : Progress g a g') {reason : String}
    (hid : (id, .refused reason) ∈ (custody g').decided) : Absent g' id := by
  have hold : (id, .refused reason) ∈ (custody g).decided → Absent g' id :=
    fun h ↦ (hg.refused id reason h).step p
  cases p with
  | idle hs hc | store hop hs hc | refused hm hs hc | taken ha hm hs hc | answered hr hs hc =>
    rw [hc] at hid
    exact hold hid
  | reset hop hs hc => simp [hc] at hid
  | decided hb hl ha hi hc =>
    have hid' := hid
    rw [hc] at hid'
    rcases Multiset.mem_add.mp hid' with hid' | hid'
    · exact hold hid'
    · exact hg.absent_of_refused hb hl hi hc hid'

theorem InCustody.deferred_step (hg : InCustody g) (p : Progress g a g')
    (hid : .deferred id ∈ (custody g').replies) : Absent g' id := by
  have hold : .deferred id ∈ (custody g).replies → Absent g' id :=
    fun h ↦ (hg.deferred id h).step p
  cases p with
  | idle hs hc | store hop hs hc | reset hop hs hc | taken ha hm hs hc | decided hb hl ha hi hc =>
    rw [hc] at hid
    exact hold hid
  | @refused m hm hs hc =>
    have hid' := hid
    rw [hc] at hid'
    rcases List.mem_append.mp hid' with hid' | hid'
    · exact hold hid'
    obtain rfl : id = m.id := by simpa using hid'
    refine ⟨⟨by simp [hc], ?_⟩, ?_⟩
    · rw [hc]
      intro halive
      obtain ⟨m', hm', he⟩ := Multiset.mem_map.mp halive
      exact hm (he ▸ hg.alive_issued hm')
    · rw [hs]
      cases hn : g.store.db.messages.find? m.id with
      | none => rfl
      | some r => exact absurd (hg.rows _ r hn) hm
  | @answered id' result hr hs hc =>
    rw [hc] at hid
    rcases List.mem_append.mp hid with hid | hid
    · exact hold hid
    cases result with
    | stored => simp [answer] at hid
    | refused reason =>
      obtain rfl : id = id' := by simpa [answer] using hid
      have p : Progress g a g' := .answered hr hs hc
      exact (hg.refused id reason hr).step p

theorem InCustody.submitted_step (hg : InCustody g) (p : Progress g a g') :
    (custody g').submitted.Nodup ∧ ∀ id ∈ (custody g').submitted, id ∈ (custody g').issued := by
  cases p with
  | idle hs hc | store hop hs hc | answered hr hs hc | decided hb hl ha hi hc =>
    rw [hc]
    exact ⟨hg.nodup, hg.issued⟩
  | reset hop hs hc => simp [hc]
  | refused hm hs hc =>
    rw [hc]
    exact ⟨hg.nodup, fun id hid ↦ List.mem_append_left _ (hg.issued id hid)⟩
  | @taken m ha hm hs hc =>
    rw [hc]
    refine ⟨Multiset.nodup_cons.mpr ⟨fun hid ↦ hm (hg.issued _ hid), hg.nodup⟩, fun id hid ↦ ?_⟩
    rcases Multiset.mem_cons.mp (show id ∈ m.id ::ₘ (custody g).submitted from hid) with rfl | hid
    · exact List.mem_append_right _ (List.mem_singleton_self _)
    · exact List.mem_append_left _ (hg.issued id hid)

theorem InCustody.step (hg : InCustody g) (p : Progress g a g') : InCustody g' :=
  ⟨(hg.submitted_step p).1, hg.accounted_step p, (hg.submitted_step p).2,
    fun _ _ ↦ hg.rows_step p, fun _ ↦ hg.fresh_step p, fun _ _ ↦ hg.refused_step p,
    fun _ ↦ hg.deferred_step p⟩

end Step

theorem InCustody.of_runs {ops : List Action} (h : Runs Gateway.step {} ops g) : InCustody g := by
  refine h.invariant (fun _ _ _ hu ha ↦ hu.step (step_progress ha)) ?_
  constructor <;> simp [custody, Writer.uncommitted, Writer.outcomes]

end Gateway

end NoreplyGateway
