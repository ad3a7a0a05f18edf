import NoreplyGateway.Web.Admissions

namespace NoreplyGateway.Web

open Gateway Machine Store Upstream

open AdminUI

/-- The persisted settings, and the flags of the dispatcher. -/
def AdminUI.controls (s : AdminUI) : Settings × Bool × ℚ :=
  (s.gateway.store.db.settings, s.gateway.dispatcher.paused, s.gateway.dispatcher.rate)

/-- The request takes this step itself. -/
def Event.own (task : ℕ) : Event → Bool
  | .body t .. | .password t .. | .job t _ | .fault t | .resume t => t = task
  | _ => false

/-- The steps of others leave the settings and the request alone. -/
def Undisturbed (env : Environment) (task : ℕ) (s : AdminUI) (e : Event) : Prop :=
  e.own task = false → ∀ t, s.step env e = some t →
    t.controls = s.controls ∧ t.requests.lookup task = s.requests.lookup task

/-- A request to control the delivery is handled, from its body to its answer. -/
structure Handled (env : Environment) (s : AdminUI) (task : ℕ) (fields : Fields) (reply : Reply)
    (t : AdminUI) : Prop where
  waits : s.requests.lookup task = some .controlBody
  steps : ∃ now events last u,
    (events ++ [last]).head? = some (.body task (.ok (.object fields)) now) ∧
    Runs (AdminUI.step env) s events u ∧ Throughout (AdminUI.step env) (Undisturbed env task) s events ∧
    last.own task = true ∧ u.perform env last = some (t, some (task, reply))

/-- The valid rate that a request asks for. -/
def requestedRate (env : Environment) (fields : Fields) : Option ℚ :=
  match fields.lookup "rate" with
  | none | some (.bool _) => none
  | some value =>
    match value.float env.lib with
    | .ok x => rate? x
    | .error _ => none

/-- The settings and flags with this rate in force. -/
def withRate (q : ℚ) (c : Settings × Bool × ℚ) : Settings × Bool × ℚ :=
  ({ c.1 with rate := some q }, c.2.1, q)

def withPaused (b : Bool) (c : Settings × Bool × ℚ) : Settings × Bool × ℚ :=
  ({ c.1 with paused := some b }, b, c.2.2)

/-- The settings and flags after the part of the handler that is about the rate. -/
inductive RateSet (env : Environment) (fields : Fields) (c : Settings × Bool × ℚ) :
    Settings × Bool × ℚ → Prop
  | unasked (h : fields.lookup "rate" = none) : RateSet env fields c c
  | asked {q : ℚ} (h : requestedRate env fields = some q) : RateSet env fields c (withRate q c)

/-- How far the request is. -/
inductive Phase (env : Environment) (fields : Fields) (task : ℕ) (c : Settings × Bool × ℚ)
    (u : AdminUI) : Prop
  | answered (h : u.requests.lookup task = none)
  | storingRate {q : ℚ} (h : requestedRate env fields = some q)
      (hw : u.requests.lookup task = some (.setting (.rate q) false (.paused fields)))
      (hc : u.controls = c)
  | storedRate {q : ℚ} (h : requestedRate env fields = some q)
      (hw : u.requests.lookup task = some (.setting (.rate q) true (.paused fields)))
      (hc : u.controls = ({ c.1 with rate := some q }, c.2))
  | storingPaused {b : Bool} {c' : Settings × Bool × ℚ} (h : RateSet env fields c c')
      (hp : fields.lookup "paused" = some (.bool b))
      (hw : u.requests.lookup task = some (.setting (.paused b) false .done))
      (hc : u.controls = c')
  | storedPaused {b : Bool} {c' : Settings × Bool × ℚ} (h : RateSet env fields c c')
      (hp : fields.lookup "paused" = some (.bool b))
      (hw : u.requests.lookup task = some (.setting (.paused b) true .done))
      (hc : u.controls = ({ c'.1 with paused := some b }, c'.2))

/-- What the answer says about the settings. A request is split if its rate is in
force and its other field is refused. -/
inductive Outcome (env : Environment) (fields : Fields) (c c' : Settings × Bool × ℚ) (status : ℕ) :
    Prop
  | refused (h : status = 400 ∨ status = 500) (hc : c' = c)
  | failed (h : status = 500)
  | split {q : ℚ} {v : Value} (hs : status = 400) (h : requestedRate env fields = some q)
      (hp : fields.lookup "paused" = some v) (hv : ∀ b, v ≠ .bool b) (hc : c' = withRate q c)
  | rated (hs : status = 200) (h : RateSet env fields c c') (hp : fields.lookup "paused" = none)
  | paused {b : Bool} {c₁ : Settings × Bool × ℚ} (hs : status = 200) (h : RateSet env fields c c₁)
      (hp : fields.lookup "paused" = some (.bool b)) (hc : c' = withPaused b c₁)

variable {env : Environment} {s t u : AdminUI} {task : ℕ} {e : Event} {fields : Fields}
  {c c' : Settings × Bool × ℚ} {out : Option (ℕ × Reply)} {g g' : NoreplyGateway.Gateway}
  {setting : Setting}

theorem set_frame (h : g.step (.delivery (.set setting)) = some g') :
    g'.store.db = setSetting setting g.store.db ∧ g'.dispatcher.paused = g.dispatcher.paused ∧
      g'.dispatcher.rate = g.dispatcher.rate := by
  obtain ⟨config, -, h⟩ := Option.bind_eq_some_iff.mp h
  simp only [deliveryStep] at h
  split_ifs at h
  obtain ⟨store, hstore, rfl⟩ := Option.map_eq_some_iff.mp h
  obtain ⟨config', -, rfl⟩ := Option.map_eq_some_iff.mp hstore
  exact ⟨rfl, rfl, rfl⟩

theorem setResume_frame (h : g.step (.delivery (.setResume setting)) = some g') :
    g'.store = g.store ∧ ∃ resuming,
      g'.dispatcher = enforce { g.dispatcher with resuming := resuming } setting := by
  obtain ⟨config, -, h⟩ := Option.bind_eq_some_iff.mp h
  simp only [deliveryStep] at h
  split_ifs at h
  obtain rfl := Option.some.inj h
  exact ⟨rfl, _, rfl⟩

theorem lookup_reply (s : AdminUI) (task : ℕ) (reply : Reply) :
    (s.reply task reply).1.requests.lookup task = none := by
  rw [List.lookup_eq_none_iff]
  intro x hx
  obtain ⟨-, hne⟩ := List.mem_filter.mp hx
  exact bne_iff_ne.mpr (Ne.symm (of_decide_eq_true hne))

/-- A step of the request leads to a phase, or to an answer with its outcome. -/
structure Advances (env : Environment) (fields : Fields) (task : ℕ) (c : Settings × Bool × ℚ)
    (r : Result) : Prop where
  phase : Phase env fields task c r.1
  outcome : ∀ reply, r.2 = some (task, reply) →
    Outcome env fields c r.1.controls reply.status

theorem reply_advances {reply : Reply} (h : Outcome env fields c u.controls reply.status) :
    Advances env fields task c (u.reply task reply) := by
  refine ⟨.answered (lookup_reply _ _ _), fun reply' h' ↦ ?_⟩
  obtain rfl : reply = reply' := by simpa [AdminUI.reply] using h'
  exact h

theorem wait_advances {w : Wait} (h : Phase env fields task c (u.wait task w).1) :
    Advances env fields task c (u.wait task w) := ⟨h, fun _ h' ↦ nomatch h'⟩

theorem controlPaused_advances (h : RateSet env fields c u.controls) :
    Advances env fields task c (u.controlPaused task fields) := by
  unfold controlPaused
  split
  · next hp => exact reply_advances (.rated rfl h hp)
  · next b hp => exact wait_advances (.storingPaused h hp (lookup_wait _ _ _) rfl)
  · next v hp hv =>
    refine reply_advances ?_
    generalize u.controls = c' at h ⊢
    cases h with
    | unasked => exact .refused (.inl rfl) rfl
    | asked hq => exact .split rfl hq hv (fun b hb ↦ hp b hb) rfl

theorem control_advances (env : Environment) (fields : Fields) (task : ℕ) (hc : u.controls = c) :
    Advances env fields task c (u.control env task (.object fields)) := by
  have hrefused {reply : Reply} (h : reply.status = 400 ∨ reply.status = 500) :
      Advances env fields task c (u.reply task reply) := reply_advances (.refused h hc)
  unfold AdminUI.control
  dsimp only
  cases hrate : fields.lookup "rate" with
  | none => exact controlPaused_advances (hc ▸ .unasked hrate)
  | some value =>
    split
    · next h => cases h
    · exact hrefused (.inl rfl)
    · next value' hbool heq =>
      obtain rfl := Option.some.inj heq
      split
      · next name _ =>
        refine hrefused ?_
        split_ifs
        · exact .inl rfl
        · exact .inr rfl
      · next x hx =>
        split
        · exact hrefused (.inl rfl)
        · next q hq =>
          have hrequested : requestedRate env fields = some q := by
            unfold requestedRate
            rw [hrate]
            cases value with
            | bool b => exact absurd rfl (hbool b)
            | _ => simp only [hx, hq]
          exact wait_advances (.storingRate hrequested (lookup_wait _ _ _) hc)

theorem setResume_controls (h : g.step (.delivery (.setResume setting)) = some g') (s : AdminUI) :
    ({ s with gateway := g' } : AdminUI).controls =
      (g.store.db.settings, (enforce g.dispatcher setting).paused,
        (enforce g.dispatcher setting).rate) := by
  obtain ⟨hstore, resuming, hdispatcher⟩ := setResume_frame h
  unfold AdminUI.controls
  dsimp only
  rw [hstore, hdispatcher]
  cases setting <;> rfl

theorem own_advances {r : Result} (h : Phase env fields task c u) (ho : e.own task = true)
    (hp : u.perform env e = some r) : Advances env fields task c r := by
  have htask {t' : ℕ} (h : decide (t' = task) = true) : t' = task := of_decide_eq_true h
  cases e with
  | request | tokens | written | gateway => cases ho
  | body task' payload now =>
    obtain rfl := htask ho
    obtain ⟨w, hw, hbody⟩ := Option.bind_eq_some_iff.mp hp
    cases h with
    | answered h => cases h.symm.trans hw
    | storingRate _ h | storedRate _ h | storingPaused _ _ h | storedPaused _ _ h =>
      obtain rfl := Option.some.inj (h.symm.trans hw)
      cases payload <;> cases hbody
  | password task' verified secrets =>
    obtain rfl := htask ho
    simp only [AdminUI.perform] at hp
    split at hp
    · next start hw =>
      cases h with
      | answered h => cases h.symm.trans hw
      | storingRate _ h | storedRate _ h | storingPaused _ _ h | storedPaused _ _ h =>
        cases h.symm.trans hw
    · cases hp
  | fault task' =>
    obtain rfl := htask ho
    simp only [AdminUI.perform] at hp
    split at hp <;> cases hp <;> exact reply_advances (.failed rfl)
  | job task' clock =>
    obtain rfl := htask ho
    obtain ⟨w, hw, hjob⟩ := Option.bind_eq_some_iff.mp hp
    cases h with
    | answered h => cases h.symm.trans hw
    | storedRate _ h | storedPaused _ _ h =>
      obtain rfl := Option.some.inj (h.symm.trans hw)
      cases hjob
    | @storingRate q hq h hc =>
      obtain rfl := Option.some.inj (h.symm.trans hw)
      obtain ⟨g', hg, rfl⟩ := Option.map_eq_some_iff.mp hjob
      obtain ⟨hdb, hpaused, hrate⟩ := set_frame hg
      refine wait_advances (.storedRate hq (lookup_wait _ _ _) ?_)
      subst hc
      unfold AdminUI.controls
      simp only [AdminUI.wait, hdb, hpaused, hrate, setSetting]
    | @storingPaused b c' hset hpaused h hc =>
      obtain rfl := Option.some.inj (h.symm.trans hw)
      obtain ⟨g', hg, rfl⟩ := Option.map_eq_some_iff.mp hjob
      obtain ⟨hdb, hp, hrate⟩ := set_frame hg
      refine wait_advances (.storedPaused hset hpaused (lookup_wait _ _ _) ?_)
      subst hc
      unfold AdminUI.controls
      simp only [AdminUI.wait, hdb, hp, hrate, setSetting]
  | resume task' =>
    obtain rfl := htask ho
    obtain ⟨w, hw, hresume⟩ := Option.bind_eq_some_iff.mp hp
    cases h with
    | answered h => cases h.symm.trans hw
    | storingRate _ h | storingPaused _ _ h =>
      obtain rfl := Option.some.inj (h.symm.trans hw)
      cases hresume
    | @storedRate q hq h hc =>
      obtain rfl := Option.some.inj (h.symm.trans hw)
      obtain ⟨g', hg, rfl⟩ := Option.map_eq_some_iff.mp hresume
      refine controlPaused_advances ?_
      rw [setResume_controls hg]
      obtain ⟨hsettings, hpaused, -⟩ : u.gateway.store.db.settings = { c.1 with rate := some q } ∧
          u.gateway.dispatcher.paused = c.2.1 ∧ u.gateway.dispatcher.rate = c.2.2 := by
        simpa [AdminUI.controls, Prod.ext_iff] using hc
      simp only [enforce, hsettings, hpaused]
      exact .asked hq
    | @storedPaused b c' hset hpaused h hc =>
      obtain rfl := Option.some.inj (h.symm.trans hw)
      obtain ⟨g', hg, rfl⟩ := Option.map_eq_some_iff.mp hresume
      obtain ⟨hsettings, -, hrate⟩ : u.gateway.store.db.settings = { c'.1 with paused := some b } ∧
          u.gateway.dispatcher.paused = c'.2.1 ∧ u.gateway.dispatcher.rate = c'.2.2 := by
        simpa [AdminUI.controls, Prod.ext_iff] using hc
      refine reply_advances (.paused rfl hset hpaused ?_)
      rw [setResume_controls hg]
      simp only [enforce, hsettings, hrate]
      rfl

theorem Phase.transport (h : Phase env fields task c u) (hc : t.controls = u.controls)
    (hl : t.requests.lookup task = u.requests.lookup task) : Phase env fields task c t := by
  cases h with
  | answered h => exact .answered (hl.trans h)
  | storingRate hq hw hcu => exact .storingRate hq (hl.trans hw) (hc.trans hcu)
  | storedRate hq hw hcu => exact .storedRate hq (hl.trans hw) (hc.trans hcu)
  | storingPaused hr hp hw hcu => exact .storingPaused hr hp (hl.trans hw) (hc.trans hcu)
  | storedPaused hr hp hw hcu => exact .storedPaused hr hp (hl.trans hw) (hc.trans hcu)

theorem perform_body {now : Time} (hw : s.requests.lookup task = some .controlBody) :
    s.perform env (.body task (.ok (.object fields)) now) =
      some (s.control env task (.object fields)) := by
  simp only [AdminUI.perform, hw, Option.bind_some, receiveBody]

/-- The outcome of every handling of the request. -/
theorem outcome_of_handled {reply : Reply} (h : Handled env s task fields reply t) :
    Outcome env fields s.controls t.controls reply.status := by
  obtain ⟨hw, now, events, last, u, hhead, hrun, hquiet, hown, hlast⟩ := h
  cases events with
  | nil =>
    obtain rfl := runs_nil.mp hrun
    obtain rfl := Option.some.inj hhead
    rw [perform_body hw] at hlast
    have hadvances := control_advances env fields task (rfl : s.controls = s.controls)
    rw [Option.some.inj hlast] at hadvances
    exact hadvances.outcome reply rfl
  | cons e events =>
    obtain rfl : e = _ := Option.some.inj hhead
    obtain ⟨s₁, hs₁, hrun⟩ := runs_cons.mp hrun
    have hquiet := (throughout_cons.mp hquiet).2 s₁ hs₁
    obtain ⟨r, hr, rfl⟩ := Option.map_eq_some_iff.mp hs₁
    rw [perform_body hw] at hr
    have hphase := (control_advances env fields task (rfl : s.controls = s.controls)).phase
    rw [Option.some.inj hr] at hphase
    have hu : Phase env fields task s.controls u := by
      refine hrun.invariant_of_throughout (fun v e v' hv hquiet hstep ↦ ?_) hquiet hphase
      cases ho : e.own task with
      | true =>
        obtain ⟨r, hr, rfl⟩ := Option.map_eq_some_iff.mp hstep
        exact (own_advances hv ho hr).phase
      | false =>
        obtain ⟨hc, hl⟩ := hquiet ho v' hstep
        exact hv.transport hc hl
    exact (own_advances hu hown hlast).outcome reply rfl

theorem control_of_requested {q : ℚ} (h : requestedRate env fields = some q) :
    s.control env task (.object fields) =
      s.wait task (.setting (.rate q) false (.paused fields)) ∧ Allowed (.rate q) := by
  unfold requestedRate at h
  unfold AdminUI.control
  split at h
  · cases h
  · cases h
  · next value hbool hrate =>
    dsimp only
    rw [hrate]
    split at h
    · next x hx =>
      have hallowed : Allowed (.rate q) := by
        unfold rate? at h
        split at h
        · split at h
          · split_ifs at h with hallowed
            obtain rfl := Option.some.inj h
            exact hallowed
          · cases h
        · cases h
      refine ⟨?_, hallowed⟩
      split
      · next heq => cases heq
      · next b heq => exact absurd (Option.some.inj heq) (hbool b ·)
      · next value' _ heq =>
        obtain rfl := Option.some.inj heq
        simp only [hx, h]
    · cases h

/-- A refused request changes nothing, and after a successful one its fields are in
force. -/
def Atomic (env : Environment) (s : AdminUI) (task : ℕ) (fields : Fields) : Prop :=
  ∀ reply t, Handled env s task fields reply t →
    (400 ≤ reply.status ∧ reply.status < 500 → t.controls = s.controls) ∧
    (reply.status = 200 →
      (∀ v, fields.lookup "rate" = some v → ∃ q, requestedRate env fields = some q ∧
        t.gateway.store.db.settings.rate = some q ∧ t.gateway.dispatcher.rate = q) ∧
      ∀ v, fields.lookup "paused" = some v → ∃ b, v = .bool b ∧
        t.gateway.store.db.settings.paused = some b ∧ t.gateway.dispatcher.paused = b)

theorem rateSet_inForce {v : Value} (h : RateSet env fields c c')
    (hv : fields.lookup "rate" = some v) :
    ∃ q, requestedRate env fields = some q ∧ c'.1.rate = some q ∧ c'.2.2 = q := by
  cases h with
  | unasked hnone => cases hnone.symm.trans hv
  | @asked q hq => exact ⟨q, hq, rfl, rfl⟩

theorem settings_of_controls (h : t.controls = c) : t.gateway.store.db.settings = c.1 ∧
    t.gateway.dispatcher.paused = c.2.1 ∧ t.gateway.dispatcher.rate = c.2.2 := by
  subst h
  exact ⟨rfl, rfl, rfl⟩

/-- The request that leaves its rate in force when its other field is refused. -/
theorem splits {q : ℚ} {v : Value} (hw : s.requests.lookup task = some .controlBody)
    (hrunning : s.gateway.store.running.isSome) (hq : requestedRate env fields = some q)
    (hp : fields.lookup "paused" = some v) (hv : ∀ b, v ≠ .bool b) :
    ∃ t, Handled env s task fields (.valueError "paused must be a boolean") t ∧
      t.controls = withRate q s.controls := by
  obtain ⟨hcontrol, hallowed⟩ : s.control env task (.object fields) =
      s.wait task (.setting (.rate q) false (.paused fields)) ∧ Allowed (.rate q) :=
    control_of_requested hq
  obtain ⟨config, hconfig⟩ := Option.isSome_iff_exists.mp hrunning
  let g₁ : NoreplyGateway.Gateway := { s.gateway with
    store := { s.gateway.store with db := setSetting (.rate q) s.gateway.store.db }
    dispatcher := { s.gateway.dispatcher with
      resuming := s.gateway.dispatcher.resuming ++ [.rate q] } }
  have hset : s.gateway.step (.delivery (.set (.rate q))) = some g₁ := by
    simp only [Gateway.step, hconfig, Option.bind_some, deliveryStep, if_pos hallowed,
      Session.step, Option.map_some, g₁]
  obtain ⟨g₂, hresume⟩ : ∃ g₂, g₁.step (.delivery (.setResume (.rate q))) = some g₂ := by
    have hconfig₁ : g₁.store.running = some config := hconfig
    have hmem : Setting.rate q ∈ g₁.dispatcher.resuming :=
      List.mem_append_right _ (List.mem_singleton_self _)
    simp only [Gateway.step, hconfig₁, Option.bind_some, deliveryStep, if_pos hmem]
    exact ⟨_, rfl⟩
  let s₁ := (s.wait task (.setting (.rate q) false (.paused fields))).1
  let s₂ := ({ s₁ with gateway := g₁ }.wait task (.setting (.rate q) true (.paused fields))).1
  have hbody : s.step env (.body task (.ok (.object fields)) 0) = some s₁ := by
    rw [AdminUI.step, perform_body hw, hcontrol]
    rfl
  have hjob : s₁.step env (.job task ⟨0, 0, 0⟩) = some s₂ := by
    have hw₁ : s₁.requests.lookup task = some (.setting (.rate q) false (.paused fields)) :=
      lookup_wait _ _ _
    have hset₁ : s₁.gateway.step (.delivery (.set (.rate q))) = some g₁ := hset
    simp only [AdminUI.step, AdminUI.perform, hw₁, Option.bind_some, runJob, hset₁, Option.map_some,
      s₂]
  have hlast : s₂.perform env (.resume task) =
      some ({ s₂ with gateway := g₂ }.reply task (.valueError "paused must be a boolean")) := by
    have hw₂ : s₂.requests.lookup task = some (.setting (.rate q) true (.paused fields)) :=
      lookup_wait _ _ _
    have hresume₂ : s₂.gateway.step (.delivery (.setResume (.rate q))) = some g₂ := hresume
    simp only [AdminUI.perform, hw₂, Option.bind_some, AdminUI.resume, hresume₂, Option.map_some,
      controlPaused, hp]
  refine ⟨_, ⟨hw, 0, [.body task (.ok (.object fields)) 0, .job task ⟨0, 0, 0⟩], .resume task, s₂,
    rfl, ?_, ?_, decide_eq_true rfl, hlast⟩, ?_⟩
  · exact runs_cons.mpr ⟨s₁, hbody, runs_cons.mpr ⟨s₂, hjob, runs_nil.mpr rfl⟩⟩
  · refine throughout_cons.mpr ⟨fun ho ↦ ?_, fun u hu ↦ throughout_cons.mpr ⟨fun ho ↦ ?_, fun u hu ↦
      throughout_nil⟩⟩
    · cases (decide_eq_true rfl : decide (task = task) = true).symm.trans ho
    · cases (decide_eq_true rfl : decide (task = task) = true).symm.trans ho
  · exact setResume_controls hresume s₂

/-- Control requests are atomic unless they come with a valid rate, which is not in
force yet, and a `paused` that is not a boolean. -/
theorem control_atomic_iff (hw : s.requests.lookup task = some .controlBody)
    (hrunning : s.gateway.store.running.isSome) :
    Atomic env s task fields ↔
      ¬∃ q v, requestedRate env fields = some q ∧ fields.lookup "paused" = some v ∧
        (∀ b, v ≠ .bool b) ∧ ¬(s.gateway.store.db.settings.rate = some q ∧
          s.gateway.dispatcher.rate = q) := by
  constructor
  · rintro hatomic ⟨q, v, hq, hp, hv, hnot⟩
    obtain ⟨t, hhandled, ht⟩ := splits hw hrunning hq hp hv
    have hsame := (hatomic _ t hhandled).1 (by decide)
    obtain ⟨hsettings, -, hrate⟩ := settings_of_controls (hsame.symm.trans ht)
    exact hnot ⟨by rw [hsettings]; rfl, hrate⟩
  · intro hcond reply t hhandled
    have houtcome := outcome_of_handled hhandled
    cases houtcome with
    | refused hs hc => exact ⟨fun _ ↦ hc, fun h ↦ by omega⟩
    | failed hs => exact ⟨fun h ↦ by omega, fun h ↦ by omega⟩
    | @split q v hs hq hp hv hc =>
      refine ⟨fun _ ↦ hc.trans ?_, fun h ↦ by omega⟩
      obtain ⟨hsettings, hrate⟩ := not_not.mp fun hnot ↦ hcond ⟨q, v, hq, hp, hv, hnot⟩
      unfold withRate AdminUI.controls
      rw [← hsettings, ← hrate]
    | rated hs hr hp =>
      refine ⟨fun h ↦ by omega, fun _ ↦ ⟨fun v hv ↦ ?_, fun v hv ↦ by cases hp.symm.trans hv⟩⟩
      exact rateSet_inForce hr hv
    | @paused b c₁ hs hr hp hc =>
      refine ⟨fun h ↦ by omega, fun _ ↦ ⟨fun v hv ↦ ?_, fun v hv ↦ ?_⟩⟩
      · obtain ⟨hsettings, -, hrate⟩ := settings_of_controls hc
        obtain ⟨q, hq, hr₁, hr₂⟩ := rateSet_inForce hr hv
        exact ⟨q, hq, by rw [hsettings]; exact hr₁, hrate.trans hr₂⟩
      · obtain rfl := Option.some.inj (hp.symm.trans hv)
        obtain ⟨hsettings, hpaused, -⟩ := settings_of_controls hc
        exact ⟨b, rfl, by rw [hsettings]; rfl, hpaused⟩

/-- The pages of a gateway whose library reads the number 2. -/
def controlEnvironment : Environment :=
  { sampleEnvironment with
    lib := { Oauth.sampleLibrary with float := fun text ↦ if text = "2" then some (2 : ℚ) else none } }

/-- An administrator signs in and sends a control request. -/
def controlRun : List Event :=
  signIn ++ [.request (samplePost "/api/control" (some "cookie") (some "token")) 1 sampleSecrets]

def halfValid : Fields := [("rate", .number "2"), ("paused", .string "yes")]

def isControlBody : Option Wait → Bool
  | some .controlBody => true
  | _ => false

/-- The request is refused, and the rate is changed. -/
theorem control_split : ∃ s t, Runs (AdminUI.step controlEnvironment) samplePages controlRun s ∧
    Handled controlEnvironment s 1 halfValid (.valueError "paused must be a boolean") t ∧
    t.controls ≠ s.controls ∧ ¬Atomic controlEnvironment s 1 halfValid := by
  have hrun : (run (AdminUI.step controlEnvironment) controlRun samplePages).any (fun s ↦
      isControlBody (s.requests.lookup 1) = true ∧
      s.gateway.dispatcher.rate ≠ 2 ∧ s.gateway.store.running.isSome) := by decide +kernel
  obtain ⟨s, hs, hrest⟩ := (Option.any_eq_true ..).mp hrun
  obtain ⟨hw, hrate, hrunning⟩ := of_decide_eq_true hrest
  have hw : s.requests.lookup 1 = some .controlBody := by
    unfold isControlBody at hw
    split at hw
    · assumption
    · cases hw
  have hq : requestedRate controlEnvironment halfValid = some 2 := by decide +kernel
  obtain ⟨t, hhandled, ht⟩ := splits hw hrunning hq (v := .string "yes") rfl (by simp)
  have hne : t.controls ≠ s.controls := by
    intro hsame
    obtain ⟨-, -, hrate'⟩ := settings_of_controls (hsame.symm.trans ht)
    exact hrate hrate'
  exact ⟨s, t, hs, hhandled, hne, fun hatomic ↦ hne ((hatomic _ t hhandled).1 (by decide))⟩

def bothFields : Fields := [("rate", .number "2"), ("paused", .bool true)]

theorem control_atomic_iff_sample : ∃ s,
    Runs (AdminUI.step controlEnvironment) samplePages controlRun s ∧
    Atomic controlEnvironment s 1 bothFields := by
  have hrun : (run (AdminUI.step controlEnvironment) controlRun samplePages).any (fun s ↦
      isControlBody (s.requests.lookup 1) = true ∧
      s.gateway.store.running.isSome) := by decide +kernel
  obtain ⟨s, hs, hrest⟩ := (Option.any_eq_true ..).mp hrun
  obtain ⟨hw, hrunning⟩ := of_decide_eq_true hrest
  have hw : s.requests.lookup 1 = some .controlBody := by
    unfold isControlBody at hw
    split at hw
    · assumption
    · cases hw
  refine ⟨s, hs, (control_atomic_iff hw hrunning).mpr ?_⟩
  rintro ⟨q, v, -, hv, hbool, -⟩
  exact hbool true (Option.some.inj hv).symm

end NoreplyGateway.Web
