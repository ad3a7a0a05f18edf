import NoreplyGateway.Message
import NoreplyGateway.Store.Rows

namespace NoreplyGateway

open Machine Store

inductive Connection
  | legacy
  | additional
  deriving DecidableEq

section Sender

variable (email : EmailPackage) (config : Config)

/-- `AdditionalSender.is_additional`, which raises when there is no From
mailbox to read. -/
def isAdditional (mime : Octets) : Option Bool :=
  let head := ((splitHead mime).map (·.1)).getD mime
  (email.fromHeader (head ++ [13, 10, 13, 10])).bind fun header ↦
    header.addresses.head?.map fun address ↦
      decide (casefold address ≠ casefold config.account.sender)

/-- The backend that `AdditionalSender.send` hands the message to. There is
none when it raises first. -/
def handOver (credentialPresent : Bool) (mime : Octets) : Option Connection :=
  (isAdditional email config mime).bind fun additional ↦
    if additional = false then some .legacy
    else if credentialPresent = false then none
    else some .additional

end Sender

variable {email : EmailPackage}

/-- The connection is a function of the From address and of the sender, up to
case. -/
theorem handOver_congr {config config' : Config} {credentialPresent : Bool} {mime : Octets}
    (h : casefold config.account.sender = casefold config'.account.sender) :
    handOver email config credentialPresent mime = handOver email config' credentialPresent mime := by
  simp only [handOver, isAdditional, h]

/-- The configuration of the last process that was started. -/
def lastStart (ops : List Op) : Option Config :=
  (ops.filterMap (fun op ↦ match op with | .start config _ => some config | _ => none)).getLast?

/-- A restart with a retained body keeps the sender, up to case. -/
def RefusesChange (ops : List Op) : Prop :=
  ∀ k config now k' u config₀, ops = k ++ .start config now :: k' → Runs Session.step {} k u →
    retained u.db ≠ [] → lastStart k = some config₀ →
    casefold config.account.sender = casefold config₀.account.sender

/-- A message that stays in the queue until a claim returns it is handed to
the connection that the configuration at its acceptance stands for. -/
def RoutesAlike (email : EmailPackage) (ops : List Op) : Prop :=
  ∀ k healthy free now batch k' now' k'' u v w config config' m row,
    ops = k ++ .insertBatch healthy free now batch :: (k' ++ .claim now' :: k'') →
    Runs Session.step {} k u → u.running = some config →
    u.step (.insertBatch healthy free now batch) = some v →
    m ∈ batch → u.db.messages.find? m.id = none → v.db.messages.find? m.id = some (queuedRow now m) →
    Runs Session.step v k' w → Throughout Session.step
      (fun x _ ↦ (x.db.messages.find? m.id).isSome) v k' →
    w.running = some config' → w.claimed now' = some row → row.id = m.id →
    row.mime = some m.mime ∧ ∀ credentialPresent,
      handOver email config' credentialPresent m.mime = handOver email config credentialPresent m.mime

/-- A process that starts where no sender is recorded, with a body retained,
has no sender either. -/
def KeepsSenderless (s : Session) (op : Op) : Prop :=
  ∀ config now, op = .start config now → retained s.db ≠ [] →
    s.db.settings.sender.getD "" = "" → casefold config.account.sender = ""

variable {s t : Session} {op : Op}

theorem settings_sender (h : Transition s op t) (hop : ∀ config now, op ≠ .start config now) :
    t.db.settings.sender = s.db.settings.sender := by
  cases h with
  | start hr ho => exact absurd rfl (hop _ _)
  | crash | refused | idle | expired | claimed => rfl
  | inserted hr hi => rw [hi.settings]
  | @finished config status error delay globalCooldown => cases globalCooldown <;> rfl
  | retried | cancelled | housekeeping => rfl
  | @setSetting config setting hr => cases setting <;> rfl

theorem lastStart_concat (ops : List Op) (op : Op) : lastStart (ops ++ [op]) =
    match op with | .start config _ => some config | _ => lastStart ops := by
  cases op <;> simp [lastStart]

/-- The recorded sender is that of the last start. -/
theorem recorded_sender {ops : List Op} (h : Runs Session.step {} ops s) :
    s.db.settings.sender = (lastStart ops).map (casefold ·.account.sender) := by
  refine h.trace_invariant
    (P := fun k u ↦ u.db.settings.sender = (lastStart k).map (casefold ·.account.sender)) rfl ?_
  intro k u op v _ hu hstep
  have hv := settings_sender (transition_of_step hstep)
  rw [lastStart_concat]
  cases op with
  | start config now =>
    cases transition_of_step hstep
    rfl
  | _ => exact (hv (by simp)).trans hu

theorem running_sender {config : Config} {ops : List Op} (h : Runs Session.step {} ops s)
    (hr : s.running = some config) :
    s.db.settings.sender = some (casefold config.account.sender) := by
  refine h.invariant (P := fun u ↦ ∀ config, u.running = some config →
    u.db.settings.sender = some (casefold config.account.sender)) ?_ (fun _ hr ↦ by cases hr) config hr
  intro u op v hu hstep config hv
  have htrans := transition_of_step hstep
  rcases htrans.running hv with hu' | ⟨now, rfl⟩
  · rw [settings_sender htrans, hu config hu']
    rintro config' now rfl
    cases htrans
    simp_all
  · cases htrans
    cases hv
    rfl

/-- Nothing happens before the first start. -/
theorem retained_of_no_start {ops : List Op} (h : Runs Session.step {} ops s)
    (hl : lastStart ops = none) : retained s.db = [] := by
  have hs : s = {} := by
    refine h.trace_invariant (P := fun k u ↦ lastStart k = none → u = {}) (fun _ ↦ rfl) ?_ hl
    intro k u op v _ hu hstep hk
    rw [lastStart_concat] at hk
    have htrans := transition_of_step hstep
    cases htrans with
    | start => cases hk
    | crash hr => simp [hu hk] at hr
    | refused hr => simp [hu hk] at hr
    | inserted hr => simp [hu hk] at hr
    | idle hr => simp [hu hk] at hr
    | expired hr => simp [hu hk] at hr
    | claimed hr => simp [hu hk] at hr
    | finished hr => simp [hu hk] at hr
    | retried hr => simp [hu hk] at hr
    | cancelled hr => simp [hu hk] at hr
    | setSetting hr => simp [hu hk] at hr
    | housekeeping hr => simp [hu hk] at hr
  rw [hs]
  rfl

theorem retained_ne_nil {id : String} {r : Row} (h : s.db.messages.find? id = some r)
    (hm : r.mime ≠ none) : retained s.db ≠ [] :=
  List.ne_nil_of_mem (List.mem_filter.mpr
    ⟨Table.mem_of_find? h, Option.isSome_iff_ne_none.mpr hm⟩)

theorem refusesChange_iff {ops : List Op} (h : Runs Session.step {} ops s) :
    RefusesChange ops ↔ Throughout Session.step KeepsSenderless {} ops := by
  constructor
  · rintro hc k op k' u rfl hu config now rfl hret hs
    cases hl : lastStart k with
    | none => exact absurd (retained_of_no_start hu hl) hret
    | some config₀ =>
      rw [recorded_sender hu, hl] at hs
      exact (hc k config now k' u config₀ rfl hu hret hl).trans hs
  · rintro hk k config now k' u config₀ rfl hu hret hl
    obtain ⟨v, hv, hv'⟩ := runs_append.mp h
    obtain rfl := hv.deterministic hu
    obtain ⟨w, hw, -⟩ := runs_cons.mp hv'
    have hsender := recorded_sender hu
    rw [hl] at hsender
    have htrans := transition_of_step hw
    cases htrans with
    | start hr ho =>
      rw [hsender] at ho
      rcases ho with ho | ho | ho
      · have hempty := hk k _ k' v rfl hu config now rfl hret (by rw [hsender]; exact ho)
        exact hempty.trans ho.symm
      · exact ho.symm
      · exact absurd ho hret

/-- While the row of a message is there, it has its body and the sender is the
one recorded at its acceptance, or the body is gone for good. -/
def Routed (id : String) (body : Octets) (sender : String) (s : Session) : Prop :=
  ∀ r, s.db.messages.find? id = some r →
    r.mime = some body ∧ s.db.settings.sender = some sender ∨ r.mime = none

theorem Routed.step {id sender : String} {body : Octets} (hs : Routed id body sender s)
    (hk : KeepsSenderless s op) (hp : (s.db.messages.find? id).isSome) (h : s.step op = some t) :
    Routed id body sender t := by
  intro r' hr'
  obtain ⟨r, hr⟩ := Option.isSome_iff_exists.mp hp
  have hrow := step_row h id
  rw [hr, hr'] at hrow
  have htrans := transition_of_step h
  rcases hs r hr with ⟨hm, hsender⟩ | hm
  · rcases hrow.mime with he | he
    · refine .inl ⟨he.trans hm, ?_⟩
      by_cases hop : ∀ config now, op ≠ .start config now
      · rw [settings_sender htrans hop, hsender]
      · push Not at hop
        obtain ⟨config, now, rfl⟩ := hop
        have hret := retained_ne_nil hr (by simp [hm])
        cases htrans with
        | start _ ho =>
          rw [hsender] at ho
          rcases ho with ho | ho | ho
          · have hempty := hk config now rfl hret (by rw [hsender]; exact ho)
            exact congrArg some (hempty.trans ho.symm)
          · exact congrArg some ho.symm
          · exact absurd ho hret
    · exact .inr he
  · exact .inr (hrow.mime.elim (·.trans hm) (·))

theorem routesAlike_of_keeps {ops : List Op} (h : Runs Session.step {} ops s)
    (hk : Throughout Session.step KeepsSenderless {} ops) : RoutesAlike email ops := by
  intro k healthy free now batch k' now' k'' u v w config config' m row hops hu hconfig hv hm hnew
    hrow hw hpresent hconfig' hclaim hid
  subst hops
  have hkv : Runs Session.step {} (k ++ [.insertBatch healthy free now batch]) v :=
    runs_concat.mpr ⟨u, hu, hv⟩
  have hkw := runs_append.mpr ⟨v, hkv, hw⟩
  have hsender : v.db.settings.sender = some (casefold config.account.sender) := by
    rw [settings_sender (transition_of_step hv) (by simp), running_sender hu hconfig]
  have hthrough : Throughout Session.step
      (fun x op ↦ KeepsSenderless x op ∧ (x.db.messages.find? m.id).isSome) v k' := by
    rintro l op l' x rfl hx
    refine ⟨?_, hpresent l op l' x rfl hx⟩
    exact hk (k ++ .insertBatch healthy free now batch :: l) op (l' ++ .claim now' :: k'') x
      (by simp) (by simpa using runs_append.mpr ⟨v, hkv, hx⟩)
  have hrouted : Routed m.id m.mime (casefold config.account.sender) w := by
    refine hw.invariant_of_throughout (fun x op y hx hc hy ↦ hx.step hc.1 hc.2 hy) hthrough ?_
    intro r hr
    rw [hrow] at hr
    cases hr
    exact .inl ⟨rfl, hsender⟩
  obtain ⟨config₁, r, hr₁, hc, rfl⟩ := claimed_eq_some hclaim
  have hready := candidate_ready hc.candidate
  have hbody := bodyOk_of_runs hkw r (Table.mem_of_find? hready.found)
  have hmime : r.mime ≠ none := by
    intro hn
    have hstate := hready.state
    rcases hbody.gone.mp hn with he | he <;> simp [he] at hstate
  have hfound := hready.found
  rw [show r.id = m.id from hid] at hfound
  obtain ⟨he, hs⟩ := (hrouted r hfound).resolve_right hmime
  refine ⟨he, fun credentialPresent ↦ handOver_congr ?_⟩
  rw [running_sender hkw hconfig'] at hs
  exact Option.some.inj hs

/-- Queued mail is routed as it was accepted, and a sender change is refused
while a body is retained, in exactly the runs in which no process that has a
sender takes over retained bodies from one that had none. -/
theorem routing_stability {ops : List Op} (h : Runs Session.step {} ops s) :
    RefusesChange ops ∧ RoutesAlike email ops ↔
      Throughout Session.step KeepsSenderless {} ops :=
  ⟨fun hs ↦ (refusesChange_iff h).mp hs.1,
    fun hk ↦ ⟨(refusesChange_iff h).mpr hk, routesAlike_of_keeps h hk⟩⟩

theorem routing_stability_sample : ∃ s, Runs Session.step {} sampleRun s ∧
    RefusesChange sampleRun ∧ RoutesAlike plainEmail sampleRun := by
  obtain ⟨s, hs⟩ := sampleRun_runs
  refine ⟨s, hs, (routing_stability hs).mpr ?_⟩
  have hempty : retained ({} : Session).db = [] := rfl
  simp [sampleRun, KeepsSenderless, hempty]

def connectedMessage : PreparedMessage where
  id := "m1"
  mime := ascii "From: a@b.c\r\n\r\nHello\r\n"
  recipients := ["user@example.com"]
  envelopeSender := "app@example.com"
  originalFrom := "a@b.c"
  subject := ""
  messageId := "<m1@example.com>"
  nat := false

/-- A process without a sender accepts a message for its additional address,
and a later process has that address as its sender. -/
def senderlessRun : List Op :=
  [.start {} 0, .insertBatch true 1000000000 1 [connectedMessage], .crash,
    .start { account := { sender := "a@b.c" } } 2, .claim 3]

theorem routing_changes_with_first_sender :
    (∃ s, Runs Session.step {} senderlessRun s) ∧
    effectiveFrom plainEmail {} "a@b.c" (plainEmail.fromHeader connectedMessage.mime) =
      .ok ("a@b.c", false) ∧
    ¬ RefusesChange senderlessRun ∧ ¬ RoutesAlike plainEmail senderlessRun := by
  obtain ⟨s, hs⟩ : ∃ s, Runs Session.step {} senderlessRun s :=
    Option.isSome_iff_exists.mp (by decide +kernel)
  refine ⟨⟨s, hs⟩, by decide +kernel, fun hc ↦ ?_, fun hc ↦ ?_⟩
  · have hret : (run Session.step (senderlessRun.take 3) {}).all
        (fun u ↦ (retained u.db).length = 1) := by decide +kernel
    obtain ⟨u, hu, -⟩ := runs_append.mp (show Runs Session.step {}
      (senderlessRun.take 3 ++ senderlessRun.drop 3) s from hs)
    rw [hu, Option.all_some, decide_eq_true_iff] at hret
    have he := hc (senderlessRun.take 3) { account := { sender := "a@b.c" } } 2 [.claim 3] u {}
      rfl hu (by intro hn; simp [hn] at hret) rfl
    revert he
    decide
  · simp only [senderlessRun, runs_cons] at hs
    obtain ⟨u, hu, v, hv, x, hx, w, hw, -⟩ := hs
    have hu' : Runs Session.step {} (senderlessRun.take 1) u :=
      runs_cons.mpr ⟨u, hu, runs_nil.mpr rfl⟩
    have hv' : Runs Session.step {} (senderlessRun.take 2) v := runs_concat.mpr ⟨u, hu', hv⟩
    have hw' : Runs Session.step {} (senderlessRun.take 4) w :=
      runs_concat.mpr ⟨x, runs_concat.mpr ⟨v, hv', hx⟩, hw⟩
    have hnone : (run Session.step (senderlessRun.take 1) {}).all
        (fun u ↦ (u.db.messages.find? "m1").isNone) := by decide +kernel
    have hsome : (run Session.step (senderlessRun.take 2) {}).all
        (fun v ↦ (v.db.messages.find? "m1").isSome) := by decide +kernel
    have hclaim : (run Session.step (senderlessRun.take 4) {}).all
        (fun w ↦ (w.claimed 3).any (·.id = "m1")) := by decide +kernel
    rw [hu', Option.all_some, Option.isNone_iff_eq_none] at hnone
    rw [hv', Option.all_some] at hsome
    rw [hw', Option.all_some, Option.any_eq_true] at hclaim
    obtain ⟨row, hrow, hid⟩ := hclaim
    have hfound : v.db.messages.find? "m1" = some (queuedRow 1 connectedMessage) := by
      obtain ⟨r, hr⟩ := Option.isSome_iff_exists.mp hsome
      have hchange := step_row hv "m1"
      rw [hnone, hr] at hchange
      cases hchange with
      | inserted hm => rw [hr, List.mem_singleton.mp hm]
    have hpresent : Throughout Session.step (fun x _ ↦ (x.db.messages.find? "m1").isSome) v
        [.crash, .start { account := { sender := "a@b.c" } } 2] := by
      simp only [throughout_cons, throughout_nil, implies_true, and_true]
      refine ⟨hsome, fun y hy ↦ ?_⟩
      cases transition_of_step hy
      exact hsome
    have hrunning : u.running = some {} := by
      cases transition_of_step hu
      rfl
    have hrunning' : w.running = some { account := { sender := "a@b.c" } } := by
      cases transition_of_step hw
      rfl
    have he := (hc (senderlessRun.take 1) true 1000000000 1 [connectedMessage]
      [.crash, .start { account := { sender := "a@b.c" } } 2] 3 [] u v w _ _ connectedMessage row
      rfl hu' hrunning hv (List.mem_singleton_self _) hnone hfound
      (runs_cons.mpr ⟨x, hx, runs_cons.mpr ⟨w, hw, runs_nil.mpr rfl⟩⟩) hpresent hrunning' hrow
      (of_decide_eq_true hid)).2 true
    revert he
    decide +kernel

end NoreplyGateway
