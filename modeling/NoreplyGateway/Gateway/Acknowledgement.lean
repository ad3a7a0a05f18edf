import NoreplyGateway.Gateway.Custody

namespace NoreplyGateway

open Machine Store

namespace Gateway

section Marker

def Writer.stopping : Writer → Bool
  | .committing _ stopping | .committed _ _ stopping => stopping
  | .ended => true
  | _ => false

/-- Nothing is put behind the shutdown marker, and nothing is left once the
writer has met it. -/
structure MarkerLast (i : Intake) : Prop where
  last : none ∉ i.pending.dropLast
  opened : i.closing ≠ .joining → none ∉ i.pending ∧ i.writer.stopping = false
  accepting : i.accepting = true → i.closing = .opened
  stopped : i.writer.stopping = true → i.pending = []

theorem last_of_append {before after : List (Option PreparedMessage)}
    (h : none ∉ (before ++ after).dropLast) : none ∉ after.dropLast := by
  cases after with
  | nil => simp
  | cons x after =>
    rw [List.dropLast_append_of_ne_nil (List.cons_ne_nil x after), List.mem_append, not_or] at h
    exact h.2

theorem nil_of_last {before after : List (Option PreparedMessage)}
    (h : none ∉ (before ++ none :: after).dropLast) : after = [] := by
  have hlast := last_of_append h
  cases after with
  | nil => rfl
  | cons x after => simp at hlast

variable {g g' : Gateway} {config : Config}

theorem MarkerLast.submit (hm : MarkerLast g.intake) (message : PreparedMessage) :
    MarkerLast (Gateway.submit g config message).intake := by
  simp only [Gateway.submit]
  split_ifs with h
  · exact hm
  simp only [not_or, Bool.not_eq_false] at h
  have hopened := hm.accepting h.1
  obtain ⟨hnone, hrunning⟩ := hm.opened (by simp [hopened])
  refine ⟨?_, fun _ ↦ ⟨?_, hrunning⟩, fun _ ↦ hopened, fun hs ↦ ?_⟩
  · rw [List.dropLast_concat]
    exact hnone
  · simp [hnone]
  · exact absurd (hrunning.symm.trans hs) Bool.false_ne_true

theorem MarkerLast.gather (hm : MarkerLast g.intake) {room : ℕ} {first : PreparedMessage} :
    MarkerLast { g.intake with
      pending := (Gateway.gather room g.intake.pending).2.2
      writer := .committing (first :: (Gateway.gather room g.intake.pending).1)
        (Gateway.gather room g.intake.pending).2.1 } := by
  have he := gather_eq room g.intake.pending
  have hlast := hm.last
  have hopened := hm.opened
  rw [he] at hlast hopened
  refine ⟨last_of_append (last_of_append hlast), fun hc ↦ ?_, hm.accepting, fun hs ↦ ?_⟩
  · have hnone := (hopened hc).1
    simp only [List.mem_append, not_or] at hnone
    refine ⟨hnone.2.2, ?_⟩
    cases hs : (Gateway.gather room g.intake.pending).2.1 with
    | false => rfl
    | true => simp [hs] at hnone
  · rw [show (Gateway.gather room g.intake.pending).2.1 = true from hs] at hlast
    exact nil_of_last hlast

theorem intake_markerLast {a : IntakeAction} (hm : MarkerLast g.intake)
    (h : intakeStep g config a = some g') : MarkerLast g'.intake := by
  cases a with
  | data message =>
    simp only [intakeStep] at h
    split_ifs at h
    cases h
    exact hm.submit message
  | reply id =>
    simp only [intakeStep] at h
    split_ifs at h
    obtain ⟨result, -, rfl⟩ := Option.map_eq_some_iff.mp h
    exact ⟨hm.last, hm.opened, hm.accepting, hm.stopped⟩
  | disconnect id =>
    cases h
    exact ⟨hm.last, hm.opened, hm.accepting, hm.stopped⟩
  | take =>
    simp only [intakeStep] at h
    split at h
    · next pending hw hp =>
      cases h
      have hlast := hm.last
      rw [hp] at hlast
      obtain rfl : pending = [] := nil_of_last (List.nil_append (none :: pending) ▸ hlast)
      refine ⟨by simp, fun hc ↦ ?_, hm.accepting, fun _ ↦ rfl⟩
      have hnone := (hm.opened hc).1
      simp [hp] at hnone
    · next first pending hw hp =>
      cases h
      have hlast := hm.last
      rw [hp, ← List.singleton_append] at hlast
      refine ⟨last_of_append hlast, fun hc ↦ ⟨?_, rfl⟩, hm.accepting, fun hs ↦ ?_⟩
      · have hnone := (hm.opened hc).1
        rw [hp] at hnone
        exact fun hmem ↦ hnone (List.mem_cons_of_mem _ hmem)
      · exact absurd hs Bool.false_ne_true
    · cases h
  | batch =>
    simp only [intakeStep] at h
    split at h
    · next first hw =>
      cases h
      exact hm.gather
    · cases h
  | commit free now =>
    simp only [intakeStep] at h
    split at h
    · next batch stopping hw =>
      have hstopping : g.intake.writer.stopping = stopping := by rw [hw]; rfl
      obtain ⟨hlast, hopened, haccepting, hstopped⟩ := hm
      rw [hstopping] at hopened hstopped
      split at h <;> cases h <;> exact ⟨hlast, hopened, haccepting, hstopped⟩
    · cases h
  | fault =>
    simp only [intakeStep] at h
    split at h
    · next batch stopping hw =>
      have hstopping : g.intake.writer.stopping = stopping := by rw [hw]; rfl
      obtain ⟨hlast, hopened, haccepting, hstopped⟩ := hm
      rw [hstopping] at hopened hstopped
      cases h
      exact ⟨hlast, hopened, haccepting, hstopped⟩
    · cases h
  | resolve =>
    simp only [intakeStep] at h
    split at h
    · next batch results stopping hw =>
      have hstopping : g.intake.writer.stopping = stopping := by rw [hw]; rfl
      obtain ⟨hlast, hopened, haccepting, hstopped⟩ := hm
      rw [hstopping] at hopened hstopped
      cases h
      cases stopping <;> exact ⟨hlast, hopened, haccepting, hstopped⟩
    · cases h
  | close =>
    simp only [intakeStep] at h
    split_ifs at h with hc
    cases h
    have hopened := hm.opened (by simp [hc])
    exact ⟨hm.last, fun _ ↦ hopened, fun ha ↦ absurd ha Bool.false_ne_true, hm.stopped⟩
  | closePut =>
    simp only [intakeStep] at h
    split_ifs at h with hc
    cases h
    obtain ⟨hnone, hrunning⟩ := hm.opened (by simp [hc.1])
    refine ⟨?_, fun hne ↦ absurd rfl hne, fun ha ↦ ?_, fun hs ↦ ?_⟩
    · rw [List.dropLast_concat]
      exact hnone
    · have hopened := hm.accepting ha
      simp [hopened] at hc
    · exact absurd (hrunning.symm.trans hs) Bool.false_ne_true

theorem MarkerLast.empty : MarkerLast {} := by
  constructor <;> simp

theorem MarkerLast.step {a : Action} (hm : MarkerLast g.intake) (h : g.step a = some g') :
    MarkerLast g'.intake := by
  cases a with
  | start config now =>
    obtain ⟨store, -, rfl⟩ := Option.map_eq_some_iff.mp h
    constructor <;> simp [started, Writer.stopping]
  | crash =>
    obtain ⟨store, -, rfl⟩ := Option.map_eq_some_iff.mp h
    exact .empty
  | intake action =>
    obtain ⟨config, -, h⟩ := Option.bind_eq_some_iff.mp h
    exact intake_markerLast hm h
  | delivery action =>
    obtain ⟨config, -, h⟩ := Option.bind_eq_some_iff.mp h
    rw [(delivery_frame h).intake]
    exact hm

theorem MarkerLast.of_runs {ops : List Action} (h : Runs Gateway.step {} ops g) :
    MarkerLast g.intake :=
  h.invariant (P := fun g ↦ MarkerLast g.intake) (fun _ _ _ hu ha ↦ hu.step ha) .empty

end Marker

section Trace

variable {g g' : Gateway} {ops : List Action} {id : String}

/-- One row with the message's own body and recipients, where there was none. -/
structure Commits (m : PreparedMessage) (u v : Gateway) : Prop where
  before : u.store.db.messages.find? m.id = none
  after : ∃ row, v.store.db.messages.rows.filter (·.id = m.id) = [row] ∧
    row.mime = some m.mime ∧ row.recipients = Json.dumps m.recipients

/-- A batch of the run committed the message that DATA submitted under the
identifier. -/
def CommittedIn (ops : List Action) (id : String) : Prop :=
  ∃ before free now after u v m, ops = before ++ .intake (.commit free now) :: after ∧
    Runs Gateway.step {} before u ∧ u.step (.intake (.commit free now)) = some v ∧
    .intake (.data m) ∈ before ∧ m.id = id ∧ Commits m u v

theorem CommittedIn.append (h : CommittedIn ops id) (ops' : List Action) :
    CommittedIn (ops ++ ops') id := by
  obtain ⟨before, free, now, after, u, v, m, rfl, hrest⟩ := h
  exact ⟨before, free, now, after ++ ops', u, v, m, by simp, hrest⟩

structure Traced (ops : List Action) (g : Gateway) : Prop where
  data : ∀ m ∈ (custody g).alive, .intake (.data m) ∈ ops
  decided : ∀ id, (id, .stored) ∈ (custody g).decided → CommittedIn ops id
  queued : ∀ id, .queued id ∈ (custody g).replies → CommittedIn ops id

theorem commits_of_stored (hg : InCustody g) {batch : List PreparedMessage}
    {rest : Multiset PreparedMessage} {results : List InsertResult} {now : Time}
    {m : PreparedMessage} (hb : (custody g).alive = ↑batch + rest)
    (hi : Inserted now g.store.db g'.store.db (stored (batch.zip results)))
    (hm : m ∈ stored (batch.zip results)) : Commits m g g' := by
  have halive : m ∈ (custody g).alive := by
    rw [hb]
    exact Multiset.mem_add.mpr (.inl (stored_subset hm))
  have hrow : queuedRow now m ∈ g'.store.db.messages.rows := by
    rw [hi.rows]
    exact List.mem_append_right _ (List.mem_map_of_mem hm)
  exact ⟨hg.fresh m halive, queuedRow now m, Table.filter_key (Table.find?_of_mem hrow), rfl, rfl⟩

theorem Traced.step {a : Action} (hr : Runs Gateway.step {} ops g) (ht : Traced ops g)
    (ha : g.step a = some g') : Traced (ops ++ [a]) g' := by
  have hg := InCustody.of_runs hr
  have hdata : ∀ m ∈ (custody g).alive, .intake (.data m) ∈ ops ++ [a] :=
    fun m hm ↦ List.mem_append_left _ (ht.data m hm)
  have hdecided : ∀ id, (id, .stored) ∈ (custody g).decided → CommittedIn (ops ++ [a]) id :=
    fun id hid ↦ (ht.decided id hid).append [a]
  have hqueued : ∀ id, .queued id ∈ (custody g).replies → CommittedIn (ops ++ [a]) id :=
    fun id hid ↦ (ht.queued id hid).append [a]
  cases step_progress ha with
  | idle hs hc | store hop hs hc =>
    exact ⟨by rwa [hc], by rwa [hc], by rwa [hc]⟩
  | reset hop hs hc => exact ⟨by simp [hc], by simp [hc], by rwa [hc]⟩
  | refused hm hs hc =>
    refine ⟨by rwa [hc], by rwa [hc], fun id hid ↦ ?_⟩
    rw [hc] at hid
    rcases List.mem_append.mp hid with hid | hid
    · exact hqueued id hid
    · simp at hid
  | @taken m ha hm hs hc =>
    refine ⟨fun m' hm' ↦ ?_, by rwa [hc], by rwa [hc]⟩
    rw [hc] at hm'
    rcases Multiset.mem_cons.mp (show m' ∈ m ::ₘ (custody g).alive from hm') with rfl | hm'
    · exact List.mem_append_right _ (ha ▸ List.mem_singleton_self _)
    · exact hdata m' hm'
  | @answered id result hresult hs hc =>
    refine ⟨by rwa [hc], by rwa [hc], fun id' hid' ↦ ?_⟩
    rw [hc] at hid'
    rcases List.mem_append.mp hid' with hid' | hid'
    · exact hqueued id' hid'
    · cases result with
      | stored =>
        obtain rfl : id' = id := by simpa [answer] using hid'
        exact hdecided id' hresult
      | refused => simp [answer] at hid'
  | @decided batch rest results now hb hl hcommit hi hc =>
    refine ⟨fun m hm ↦ hdata m ?_, fun id hid ↦ ?_, by rwa [hc]⟩
    · rw [hc] at hm
      rw [hb]
      exact Multiset.mem_add.mpr (.inr hm)
    · rw [hc] at hid
      rcases Multiset.mem_add.mp hid with hid | hid
      · exact hdecided id hid
      obtain ⟨⟨m, result⟩, ho, he⟩ := List.mem_map.mp hid
      obtain ⟨rfl, rfl⟩ := Prod.mk.inj he
      have hm : m ∈ stored (batch.zip results) :=
        List.mem_map.mpr ⟨_, List.mem_filter.mpr ⟨ho, by simp⟩, rfl⟩
      have halive : m ∈ (custody g).alive := by
        rw [hb]
        exact Multiset.mem_add.mpr (.inl (stored_subset hm))
      obtain ⟨free, rfl⟩ := hcommit (List.of_mem_zip ho).2
      exact ⟨ops, free, now, [], g, g', m, rfl, hr, ha, ht.data m halive, rfl,
        commits_of_stored hg hb hi hm⟩

theorem Traced.of_runs (h : Runs Gateway.step {} ops g) : Traced ops g := by
  refine h.trace_invariant ?_ (fun _ _ _ _ hr ht ha ↦ ht.step hr ha)
  constructor <;> simp [custody, Writer.uncommitted, Writer.outcomes]

end Trace

/-- Mail is acknowledged only after its row was committed, mail that was put off
has no row from then on, and a writer that has ended has resolved every
submission once. -/
theorem durable_acknowledgement {g : Gateway} {ops : List Action}
    (h : Runs Gateway.step {} ops g) :
    (∀ id, .queued id ∈ g.replies → CommittedIn ops id) ∧
    (∀ id, .deferred id ∈ g.replies → ∀ ops' g', Runs Gateway.step g ops' g' →
      g'.store.db.messages.find? id = none) ∧
    (g.intake.writer = .ended → g.intake.pending = [] ∧
      ∀ id ∈ g.intake.submitted, (g.intake.resolved.map (·.1)).count id = 1) := by
  have hg := InCustody.of_runs h
  refine ⟨(Traced.of_runs h).queued, fun id hid ops' g' hr ↦ ?_, fun hw ↦ ?_⟩
  · have habsent := hr.invariant (P := fun v ↦ InCustody v ∧ Absent v id)
      (fun _ _ _ hu ha ↦ ⟨hu.1.step (step_progress ha), hu.2.step (step_progress ha)⟩)
      ⟨hg, hg.deferred id hid⟩
    exact habsent.2.unstored
  · have hpending := (MarkerLast.of_runs h).stopped (by rw [hw]; rfl)
    refine ⟨hpending, fun id hid ↦ ?_⟩
    have haccounted := hg.accounted
    have hnodup := hg.nodup
    simp only [custody, hw, hpending, Writer.uncommitted, Writer.outcomes, List.map_nil,
      List.append_nil, List.reduceOption_nil, Multiset.coe_nil, Multiset.map_zero, add_zero,
      Multiset.map_coe, Multiset.coe_eq_coe, Multiset.coe_nodup] at haccounted hnodup
    rw [haccounted.count_eq, List.count_eq_one_of_mem hnodup hid]

theorem durable_acknowledgement_sample : ∃ g, Runs Gateway.step {} sampleActions g ∧
    .queued "m1" ∈ g.replies ∧ CommittedIn sampleActions "m1" := by
  have hreplies : (run Gateway.step sampleActions {}).any (fun g ↦ .queued "m1" ∈ g.replies) := by
    decide +kernel
  rw [Option.any_eq_true] at hreplies
  obtain ⟨g, hg, hreplies⟩ := hreplies
  have hqueued := of_decide_eq_true hreplies
  exact ⟨g, hg, hqueued, (durable_acknowledgement hg).1 "m1" hqueued⟩

end Gateway

end NoreplyGateway
