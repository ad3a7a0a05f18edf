import NoreplyGateway.Gateway.Custody

namespace NoreplyGateway

open Machine Store

namespace Gateway

/-- The step records an attempt on the message as uncertain, or it interrupts
the attempt while the message is in flight. -/
inductive Ambiguous (m : String) (g : Gateway) (a : Action) (g' : Gateway) : Prop
  | recorded {row row' : Row} (hs : g.store.Sending m)
      (hr : g'.store.db.messages.find? m = some row') (hu : row'.status = .uncertain)
  | cancelled {index : ℕ} {worker : Worker} {interrupted : Bool} (hs : g.store.Sending m)
      (ha : a = .delivery (.worker index .cancel))
      (hw : g.dispatcher.workers[index]? = some worker)
      (hh : worker.holds = some (m, interrupted))
  | crashed (hs : g.store.Sending m) (ha : a = .crash)

/-- An operator retry that acknowledges the risk of a duplicate. -/
def Acknowledged (m : String) (a : Action) : Prop :=
  ∃ clock, a = .delivery (.action m "retry" true clock)

/-- Every task that is still to end an attempt on the message was interrupted. -/
def Interrupted (m : String) (g : Gateway) : Prop :=
  ∀ interrupted, (m, interrupted) ∈ held g → interrupted = true

/-- Without the operator, the message does not come back to the queue. -/
structure Settled (m : String) (g : Gateway) : Prop extends Handled g m where
  status : ∀ row, g.store.db.messages.find? m = some row →
    AtRest row ∨ row.status = .sending ∧ Interrupted m g

variable {g g' : Gateway} {m : String} {a : Action}

theorem Settled.of_absent (h : Absent g m) : Settled m g :=
  ⟨h.toHandled, fun row hr ↦ by simp [h.unstored] at hr⟩

theorem Settled.status_step {row row' : Row} (hs : Settled m g) (e : Effect g a g')
    (hn : ¬ Acknowledged m a) (hrow : g.store.db.messages.find? m = some row)
    (hrow' : g'.store.db.messages.find? m = some row') :
    AtRest row' ∨ row'.status = .sending ∧ Interrupted m g' := by
  obtain rfl := Table.key_of_find? hrow
  have hstatus := hs.status row hrow
  have hchange : ∀ {op : Op}, g.store.step op = some g'.store →
      RowChange op (some row) (some row') := by
    intro op hop
    have h := step_row hop row.id
    rwa [hrow, hrow'] at h
  cases e with
  | frame hs hh =>
    obtain rfl : row = row' := Option.some.inj (hrow.symm.trans (hs ▸ hrow'))
    exact hstatus.imp_right (.imp_right (fun hi interrupted hmem ↦ hi interrupted (hh.subset hmem)))
  | interrupt hs hh hh' =>
    obtain rfl : row = row' := Option.some.inj (hrow.symm.trans (hs ▸ hrow'))
    refine hstatus.imp_right (.imp_right (fun hi interrupted hmem ↦ ?_))
    rcases List.mem_cons.mp (hh'.mem_iff.mp hmem) with he | hmem
    · exact (Prod.mk.inj he).2
    · exact hi interrupted (hh.mem_iff.mpr (List.mem_cons_of_mem _ hmem))
  | @quiet op hq hop hh =>
    rcases hstatus with hrest | ⟨hsending, hi⟩
    · refine .inl ((hchange hop).atRest hrest ?_)
      rintro clock rfl
      exact hn ⟨clock, hq⟩
    · have he := (hchange hop).eq_of_sending hsending (hq.not_ends row.id)
      obtain rfl : row = row' := (Option.some.inj he).symm
      exact .inr ⟨hsending, fun interrupted hmem ↦ hi interrupted (hh.mem_iff.mp hmem)⟩
  | @claim now hop hh =>
    rcases hstatus with hrest | ⟨hsending, hi⟩
    · exact .inl ((hchange hop).atRest hrest (by simp))
    · have he := (hchange hop).eq_of_sending hsending (by simp [Op.Ends])
      obtain rfl : row = row' := (Option.some.inj he).symm
      refine .inr ⟨hsending, fun interrupted hmem ↦ ?_⟩
      rcases List.mem_append.mp (hh.mem_iff.mp hmem) with hmem | hmem
      · rw [Option.toList_map] at hmem
        obtain ⟨r, hr, he⟩ := List.mem_map.mp hmem
        obtain ⟨hid, -⟩ := Prod.mk.inj he
        refine absurd ⟨row, ?_, hsending⟩ (not_sending_of_claimed (Option.mem_toList.mp hr))
        rwa [hid]
      · exact hi interrupted hmem
  | @finish id interrupted _ _ _ _ _ rest hop hh hh' hu =>
    rcases hstatus with hrest | ⟨hsending, hi⟩
    · exact .inl ((hchange hop).atRest hrest (by simp))
    have hrest : Interrupted row.id g' := fun interrupted' hmem ↦
      hi interrupted' (hh.mem_iff.mpr (List.mem_cons_of_mem _ (hh'.mem_iff.mp hmem)))
    have hend := (hchange hop).uncertain_of_sending hsending (by
      intro _ _ _ _ _ he
      obtain ⟨rfl, rfl, -⟩ := Op.finish.inj he
      exact hu (hi interrupted (hh.mem_iff.mpr (List.mem_cons_self ..))))
    rcases hend with rfl | huncertain
    · exact .inr ⟨hsending, hrest⟩
    · exact .inl (.inl huncertain)
  | @reset op hr hop hh =>
    rcases hstatus with hrest | ⟨hsending, -⟩
    · refine .inl ((hchange hop).atRest hrest ?_)
      rcases hr with rfl | ⟨config, now, rfl⟩ <;> simp
    have hi : Interrupted row.id g' := fun interrupted hmem ↦ by simp [hh] at hmem
    have hend := (hchange hop).uncertain_of_sending hsending (by
      rcases hr with rfl | ⟨config, now, rfl⟩ <;> simp)
    rcases hend with rfl | huncertain
    · exact .inr ⟨hsending, hi⟩
    · exact .inl (.inl huncertain)

theorem Settled.step (hs : Settled m g) (h : g.step a = some g') (hn : ¬ Acknowledged m a) :
    Settled m g' := by
  have p := step_progress h
  cases hrow : g.store.db.messages.find? m with
  | none =>
    have habsent : Absent g m := ⟨hs.toHandled, hrow⟩
    exact .of_absent (habsent.step p)
  | some row =>
    exact ⟨hs.toHandled.step p, fun row' ↦ hs.status_step (step_effect h) hn hrow⟩

theorem cancelled_frame {p : Worker} : (cancelled g p).1.store = g.store ∧
    (cancelled g p).1.dispatcher.workers = g.dispatcher.workers := by
  cases p <;> exact ⟨rfl, rfl⟩

theorem cancelled_holds {p : Worker} {interrupted : Bool}
    (h : (cancelled g p).2.holds = some (m, interrupted)) : interrupted = true := by
  cases p with
  | sending message => exact (Prod.mk.inj (Option.some.inj h)).2.symm
  | _ => simp [cancelled, Worker.holds] at h

/-- A cancelled worker leaves no task behind that could record anything but an
uncertain attempt. -/
theorem interrupted_of_cancel (hg : Holding g) {config : Config} {index : ℕ} {worker : Worker}
    {interrupted : Bool} (hw : g.dispatcher.workers[index]? = some worker)
    (hh : worker.holds = some (m, interrupted))
    (h : deliveryStep g config (.worker index .cancel) = some g') :
    g'.store = g.store ∧ Interrupted m g' := by
  have hstep : workerStep g config worker .cancel = some (cancelled g worker) := by
    cases worker with
    | ended => simp [Worker.holds] at hh
    | claimed message => cases message <;> rfl
    | _ => rfl
  simp only [deliveryStep, hw, hstep, Option.map_some, Option.some.injEq] at h
  subst h
  obtain ⟨hstore, hworkers⟩ := cancelled_frame (g := g) (p := worker)
  refine ⟨hstore, fun interrupted' hmem ↦ ?_⟩
  obtain ⟨rest, hrest⟩ := heldBy_set hw
  have hdistinct := ((hrest g.dispatcher.shielded).1.map (·.1)).nodup_iff.mp hg.distinct
  rw [hh] at hdistinct
  have hnew : (m, interrupted') ∉ rest := by
    intro hr
    refine (List.nodup_cons.mp hdistinct).1 (List.mem_map.mpr ⟨(m, interrupted'), ?_, rfl⟩)
    exact List.mem_append_right [] (List.mem_append_left _ hr)
  rw [held, hworkers] at hmem
  have hmem := ((hrest (cancelled g worker).1.dispatcher.shielded).2 _).mem_iff.mp hmem
  rcases List.mem_append.mp hmem with hmem | hmem
  · exact cancelled_holds (Option.mem_toList.mp hmem)
  rcases List.mem_append.mp hmem with hmem | hmem
  · exact absurd hmem hnew
  · obtain ⟨id, -, he⟩ := List.mem_map.mp hmem
    exact (Prod.mk.inj he).2.symm

theorem Ambiguous.settled (hc : InCustody g) (hg : Holding g) (h : g.step a = some g')
    (ha : Ambiguous m g a g') : Settled m g' := by
  have p := step_progress h
  have hhandled : g.store.Sending m → Handled g' m := by
    rintro ⟨row, hrow, -⟩
    refine Handled.step ⟨hc.rows m row hrow, fun halive ↦ ?_⟩ p
    obtain ⟨message, hmessage, rfl⟩ := Multiset.mem_map.mp halive
    simp [hc.fresh message hmessage] at hrow
  cases ha with
  | recorded hs hr hu =>
    refine ⟨hhandled hs, fun row hrow ↦ ?_⟩
    obtain rfl := Option.some.inj (hr.symm.trans hrow)
    exact .inl (.inl hu)
  | @cancelled index worker interrupted hs ha hw hh =>
    refine ⟨hhandled hs, fun row hrow ↦ ?_⟩
    subst ha
    obtain ⟨config, -, hstep⟩ := Option.bind_eq_some_iff.mp h
    obtain ⟨hstore, hi⟩ := interrupted_of_cancel hg hw hh hstep
    obtain ⟨row', hrow', hsending⟩ := hs
    obtain rfl : row' = row := Option.some.inj (hrow'.symm.trans (hstore ▸ hrow))
    exact .inr ⟨hsending, hi⟩
  | crashed hs ha =>
    refine ⟨hhandled hs, fun row hrow ↦ ?_⟩
    subst ha
    obtain ⟨store, hstep, rfl⟩ := Option.map_eq_some_iff.mp h
    obtain ⟨row', hrow', hsending⟩ := hs.step hstep (by simp [Op.Ends])
    obtain rfl := Option.some.inj (hrow'.symm.trans hrow)
    exact .inr ⟨hsending, fun interrupted hmem ↦ absurd hmem List.not_mem_nil⟩

theorem not_claims_of_settled {row : Row} (hs : Settled m g) (h : Claims g a row) : row.id ≠ m := by
  obtain ⟨index, now, -, -, hclaimed⟩ := h
  obtain ⟨config, r, -, hclaim, rfl⟩ := claimed_eq_some hclaimed
  have hready := candidate_ready hclaim.candidate
  rintro rfl
  have hstate := hready.state
  rcases hs.status r hready.found with (hr | hr | hr) | ⟨hr, -⟩ <;> simp [hr] at hstate

/-- After an ambiguous attempt no claim returns the message before an operator
has acknowledged the risk of a duplicate. Other retries leave an uncertain row
as it is, and every action leaves a row in flight as it is. -/
theorem no_automatic_retry :
    (∀ before a after u v w m, Runs Gateway.step {} before u → u.step a = some v →
      Ambiguous m u a v → Runs Gateway.step v after w →
      ∀ c row, Claims w c row → row.id = m → ∃ b ∈ after, Acknowledged m b) ∧
    ∀ (s t : Session) id verb acknowledgeDuplicate clock m row,
      s.step (.action id verb acknowledgeDuplicate clock) = some t →
      s.db.messages.find? m = some row →
      row.status = .sending ∨ row.status = .uncertain ∧ verb = "retry" ∧
        acknowledgeDuplicate = false →
      t.db.messages.find? m = some row := by
  refine ⟨fun before a after u v w m hu ha hm hw c row hc hid ↦ ?_, ?_⟩
  · have hsettled := hm.settled (.of_runs hu) (.of_runs hu) ha
    rcases hw.until (P := Settled m) (E := fun _ ↦ Acknowledged m)
      (fun _ _ _ hs hn hstep ↦ hs.step hstep hn) hsettled with hs | ⟨k, b, k', x, rfl, -, -, hb⟩
    · exact absurd hid (not_claims_of_settled hs hc)
    · exact ⟨b, by simp, hb⟩
  · intro s t id verb acknowledgeDuplicate clock m row h hrow hstatus
    obtain rfl := Table.key_of_find? hrow
    have hchange := step_row h row.id
    rw [hrow] at hchange
    rcases hstatus with hsending | ⟨huncertain, rfl, rfl⟩
    · exact hchange.eq_of_sending hsending not_false
    · exact hchange.eq_of_unacknowledged huncertain

/-- A second worker claims the message whose attempt was interrupted, after an
operator has acknowledged the risk. -/
def retryActions : List Action :=
  [.delivery (.worker 0 (.interruptJob 3)), .delivery (.action "m1" "retry" true ⟨4, 4, 4⟩),
    .delivery (.worker 1 (.loop 5)), .delivery (.worker 1 (.permit 5 0))]

theorem no_automatic_retry_sample : ∃ u v w row,
    Runs Gateway.step {} sampleActions u ∧ u.step (.delivery (.worker 0 .cancel)) = some v ∧
    Runs Gateway.step v retryActions w ∧
    Claims w (.delivery (.worker 1 (.claimJob 5))) row ∧
    ∃ b ∈ retryActions, Acknowledged "m1" b := by
  have hu : (run Gateway.step sampleActions {}).any (fun u ↦
      (u.store.db.messages.find? "m1").any (·.status = .sending) ∧
        (u.dispatcher.workers[0]?.bind Worker.holds) = some ("m1", false)) := by decide +kernel
  have hw : (run Gateway.step
      (sampleActions ++ .delivery (.worker 0 .cancel) :: retryActions) {}).any (fun w ↦
      w.dispatcher.workers[1]?.any (· matches .claiming) ∧
        (w.store.claimed 5).any (·.id = "m1")) := by decide +kernel
  rw [Option.any_eq_true] at hu hw
  obtain ⟨u, hu, hsample⟩ := hu
  obtain ⟨w, hw, hclaim⟩ := hw
  obtain ⟨u', hu', hw⟩ := runs_append.mp hw
  obtain rfl := hu'.deterministic hu
  obtain ⟨v, hv, hw⟩ := runs_cons.mp hw
  obtain ⟨hrow, hworker⟩ := of_decide_eq_true hsample
  obtain ⟨row, hrow, hsending⟩ := (Option.any_eq_true ..).mp hrow
  obtain ⟨worker, hworker, hholds⟩ := Option.bind_eq_some_iff.mp hworker
  obtain ⟨hclaiming, hclaimed⟩ := of_decide_eq_true hclaim
  obtain ⟨worker', hclaiming, hmatch⟩ := (Option.any_eq_true ..).mp hclaiming
  obtain ⟨row', hclaimed, hid⟩ := (Option.any_eq_true ..).mp hclaimed
  obtain rfl : worker' = .claiming := by
    cases worker' <;> first | rfl | cases hmatch
  have hambiguous : Ambiguous "m1" u' (.delivery (.worker 0 .cancel)) v :=
    .cancelled ⟨row, hrow, of_decide_eq_true hsending⟩ rfl hworker hholds
  have hc : Claims w (.delivery (.worker 1 (.claimJob 5))) row' := ⟨1, 5, rfl, hclaiming, hclaimed⟩
  exact ⟨u', v, w, row', hu, hv, hw, hc, no_automatic_retry.1 _ _ _ _ _ _ _ hu hv hambiguous hw
    _ _ hc (of_decide_eq_true hid)⟩

end Gateway

end NoreplyGateway
