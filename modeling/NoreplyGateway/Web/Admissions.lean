import NoreplyGateway.History
import NoreplyGateway.Web.Authority
import NoreplyGateway.Web.SignIns

namespace NoreplyGateway.Web

open Assoc Machine SlidingWindow Upstream

open AdminUI Attempts

/-- A sign-in request that has passed the limits. -/
structure Admission where
  task : ℕ
  key : String
  instant : Time
  deriving DecidableEq

/-- What happened to the sign-ins: the requests that passed the limits and those
whose password was verified, in their order, and the last reading of the clock. -/
structure Logins where
  admissions : List Admission := []
  verified : List ℕ := []
  clock : Option Time := none

def Logins.log (l : Logins) : List (String × Time) := l.admissions.map fun x ↦ (x.key, x.instant)

def Logins.note (env : Environment) (l : Logins) (s : AdminUI) (e : Event) (t : AdminUI) : Logins :=
  match e with
  | .request req now _ =>
    let clock := if resolve env.pathPrefix req.method req.path = some (.post .login) then some now
      else l.clock
    match t.requests.lookup s.arrived, clientKey env.urls env.config req with
    | some (.loginBody _), .ok key =>
      { l with admissions := l.admissions ++ [⟨s.arrived, key, now⟩], clock := clock }
    | _, _ => { l with clock := clock }
  | .password task .. => { l with verified := l.verified ++ [task] }
  | _ => l

/-- The clock does not run backwards between sign-in requests. -/
def Monotone (env : Environment) (w : AdminUI × Logins) (e : Event) : Prop :=
  match e with
  | .request req now _ => resolve env.pathPrefix req.method req.path = some (.post .login) →
    ∀ c ∈ w.2.clock, c ≤ now
  | _ => True

instance (env : Environment) (w : AdminUI × Logins) (e : Event) : Decidable (Monotone env w e) :=
  match e with
  | .request req now _ => inferInstanceAs (Decidable
    (resolve env.pathPrefix req.method req.path = some (.post .login) → ∀ c ∈ w.2.clock, c ≤ now))
  | .body .. | .password .. | .job .. | .fault .. | .resume .. | .tokens .. | .written ..
  | .gateway .. => .isTrue trivial

/-- A request verifies one password, and only if it was admitted. -/
structure Verifies (l : Logins) (s : AdminUI) : Prop where
  pending : ∀ task w, w.signsIn = true → (task, w) ∈ s.requests →
    (∃ x ∈ l.admissions, x.task = task) ∧ task ∉ l.verified
  tasks : ∀ x ∈ l.admissions, x.task < s.arrived
  distinct : (l.admissions.map Admission.task).Nodup
  once : l.verified.Nodup
  admitted : ∀ task ∈ l.verified, ∃ x ∈ l.admissions, x.task = task

/-- The recorded attempts are the admissions of the window, and the limits are
kept. -/
structure Limited (l : Logins) (s : AdminUI) : Prop where
  holds : ∃ θ, s.attempts.Holds l.log θ ∧ ∀ c ∈ l.clock, θ ≤ c - windowSeconds
  fresh : l.clock = none → l.log = [] ∧ s.attempts = []
  ordered : Ordered l.log
  past : ∀ x ∈ l.log, ∀ c ∈ l.clock, x.2 ≤ c
  client : ∀ key, Spaced (windowSeconds : Time) perClientLimit (instants key l.log)
  all : Spaced (windowSeconds : Time) globalLimit (l.log.map Prod.snd)

variable {env : Environment} {s t u : AdminUI} {task : ℕ} {e : Event} {l : Logins}
  {out : Option (ℕ × Reply)} {req : Request} {now : Time} {secrets : Secrets}

theorem lookup_wait (s : AdminUI) (task : ℕ) (w : Wait) :
    (s.wait task w).1.requests.lookup task = some w := by
  have hnone : (s.requests.filter (·.1 ≠ task)).lookup task = none := by
    rw [List.lookup_eq_none_iff]
    intro x hx
    obtain ⟨-, hne⟩ := List.mem_filter.mp hx
    exact bne_iff_ne.mpr (Ne.symm (of_decide_eq_true hne))
  simp only [AdminUI.wait, List.lookup_append, hnone]
  simp

/-- The clock is read at a request for the sign-in route. -/
def Reading (env : Environment) (l : Logins) (req : Request) (now : Time) (clock : Option Time) :
    Prop :=
  clock = some now ∧ resolve env.pathPrefix req.method req.path = some (.post .login) ∨
    clock = l.clock

/-- A request that does not begin to wait is not an admission. -/
theorem note_request (env : Environment) (l : Logins) (req : Request) (now : Time)
    (secrets : Secrets) (h : ∀ w, w.signsIn = true → (s.arrived, w) ∉ t.requests) :
    ∃ clock, l.note env s (.request req now secrets) t = { l with clock := clock } ∧
      Reading env l req now clock ∧ (Reaches env s req now → clock = some now) := by
  refine ⟨if resolve env.pathPrefix req.method req.path = some (.post .login) then some now
    else l.clock, ?_, ?_, fun hr ↦ if_pos hr.2⟩
  · unfold Logins.note
    dsimp only
    split
    · next hw _ => exact absurd (mem_of_lookup hw) (h _ rfl)
    · rfl
  · by_cases hroute : resolve env.pathPrefix req.method req.path = some (.post .login)
    · rw [if_pos hroute]
      exact .inl ⟨rfl, hroute⟩
    · rw [if_neg hroute]
      exact .inr rfl

theorem clientKey_of_throttle {attempts : Attempts}
    (h : (throttle env.urls env.config attempts req now).2 = none) :
    ∃ key, clientKey env.urls env.config req = .ok key := by
  unfold throttle at h
  cases hk : clientKey env.urls env.config req with
  | ok key => exact ⟨key, rfl⟩
  | error reply =>
    rw [hk] at h
    cases h

theorem note_admitted {key : String} (hr : Reaches env s req now)
    (hk : clientKey env.urls env.config req = .ok key)
    (ht : t.requests.lookup s.arrived = some (.loginBody now)) :
    l.note env s (.request req now secrets) t = { l with
      admissions := l.admissions ++ [⟨s.arrived, key, now⟩], clock := some now } := by
  unfold Logins.note
  dsimp only
  rw [ht, hk, hr.2, if_pos rfl]

theorem Verifies.fresh (h : Verifies l s) {w : Wait} (hw : w.signsIn = true) :
    (s.arrived, w) ∉ s.requests := by
  intro hmem
  obtain ⟨⟨x, hx, htask⟩, -⟩ := h.pending _ _ hw hmem
  exact absurd (h.tasks x hx) (by omega)

theorem Verifies.plain (h : Verifies l s) (hp : Plain s t) : Verifies l t :=
  ⟨fun task w hw hmem ↦ h.pending task w hw (hp.waits task w hw hmem),
    fun x hx ↦ hp.arrived.symm ▸ h.tasks x hx, h.distinct, h.once, h.admitted⟩

theorem Verifies.arrive (h : Verifies l s) (clock : Option Time) :
    Verifies { l with clock := clock } { s with arrived := s.arrived + 1 } :=
  ⟨h.pending, fun x hx ↦ Nat.lt_succ_of_lt (h.tasks x hx), h.distinct, h.once, h.admitted⟩

theorem Verifies.step (h : Verifies l s) (hs : SignIn env s e t out) :
    Verifies (l.note env s e t) t := by
  cases hs with
  | other he hp hplain =>
    have hnote : l.note env s e t = l := by
      cases e with
      | request req now secrets => exact absurd rfl (he req now secrets)
      | password task verified secrets => exact absurd rfl (hp task verified secrets)
      | _ => rfl
    rw [hnote]
    exact h.plain hplain
  | elsewhere hr hplain =>
    obtain ⟨clock, hnote, -⟩ := note_request env l _ _ _
      fun w hw hmem ↦ h.fresh hw (hplain.waits _ w hw hmem)
    rw [hnote]
    exact (h.arrive clock).plain hplain
  | throttled hr hl =>
    obtain ⟨clock, hnote, -⟩ := note_request env l _ _ _
      fun w hw hmem ↦ (reply_requests hmem).2 rfl
    rw [hnote]
    exact ⟨fun task w hw hmem ↦ h.pending task w hw (reply_requests hmem).1, (h.arrive clock).tasks,
      h.distinct, h.once, h.admitted⟩
  | @admitted req now secrets sessions hr hl =>
    obtain ⟨key, hk⟩ := clientKey_of_throttle hl
    rw [note_admitted hr hk (lookup_wait _ _ _)]
    have hnew : ∀ x ∈ l.admissions, x.task ≠ s.arrived := fun x hx ↦ (h.tasks x hx).ne
    refine ⟨fun task w hw hmem ↦ ?_, fun x hx ↦ ?_, ?_, h.once, fun task htask ↦ ?_⟩
    · obtain ⟨hmem, -⟩ | ⟨rfl, -⟩ := wait_requests hmem
      · obtain ⟨⟨x, hx, hxt⟩, hv⟩ := h.pending task w hw hmem
        exact ⟨⟨x, List.mem_append_left _ hx, hxt⟩, hv⟩
      · refine ⟨⟨_, List.mem_append_right _ (List.mem_singleton_self _), rfl⟩, fun hv ↦ ?_⟩
        obtain ⟨x, hx, hxt⟩ := h.admitted _ hv
        exact hnew x hx hxt
    · rcases List.mem_append.mp hx with hx | hx
      · exact Nat.lt_succ_of_lt (h.tasks x hx)
      · obtain rfl := List.mem_singleton.mp hx
        exact Nat.lt_succ_self _
    · rw [List.map_append]
      refine List.Nodup.append h.distinct (List.nodup_singleton _) ?_
      intro task hold hnew'
      obtain rfl := List.mem_singleton.mp hnew'
      obtain ⟨x, hx, hxt⟩ := List.mem_map.mp hold
      exact hnew x hx hxt
    · obtain ⟨x, hx, hxt⟩ := h.admitted task htask
      exact ⟨x, List.mem_append_left _ hx, hxt⟩
  | submitted hw =>
    refine ⟨fun task w hsign hmem ↦ ?_, h.tasks, h.distinct, h.once, h.admitted⟩
    obtain ⟨hmem, -⟩ | ⟨rfl, -⟩ := wait_requests hmem
    · exact h.pending task w hsign hmem
    · exact h.pending _ _ rfl (mem_of_lookup hw)
  | @verified task verified secrets start t out hw hplain hdone =>
    obtain ⟨hadmitted, hv⟩ := h.pending _ _ rfl (mem_of_lookup hw)
    refine ⟨fun task' w hsign hmem ↦ ?_, (h.plain hplain).tasks, h.distinct, ?_, fun task' ht ↦ ?_⟩
    · obtain ⟨hadmitted', hv'⟩ := h.pending task' w hsign (hplain.waits task' w hsign hmem)
      refine ⟨hadmitted', fun hmem' ↦ ?_⟩
      rcases List.mem_append.mp hmem' with hmem' | hmem'
      · exact hv' hmem'
      · obtain rfl := List.mem_singleton.mp hmem'
        exact hdone w hmem
    · refine List.Nodup.append h.once (List.nodup_singleton _) ?_
      intro task' hold hnew
      obtain rfl := List.mem_singleton.mp hnew
      exact hv hold
    · rcases List.mem_append.mp ht with ht | ht
      · exact h.admitted task' ht
      · obtain rfl := List.mem_singleton.mp ht
        exact hadmitted

theorem Limited.of_attempts (h : Limited l s) (ha : t.attempts = s.attempts) : Limited l t :=
  ⟨ha.symm ▸ h.holds, fun hc ↦ ⟨(h.fresh hc).1, ha.trans (h.fresh hc).2⟩, h.ordered, h.past,
    h.client, h.all⟩

/-- The attempts before a request, whose reading of the clock is not earlier. -/
theorem Limited.recent (h : Limited l s) (hm : ∀ c ∈ l.clock, c ≤ now) :
    (∃ θ, s.attempts.Holds l.log θ ∧ θ ≤ now - windowSeconds) ∧ ∀ x ∈ l.log, x.2 ≤ now := by
  cases hc : l.clock with
  | none =>
    obtain ⟨hlog, hattempts⟩ := h.fresh hc
    rw [hlog, hattempts]
    exact ⟨⟨_, ⟨List.nodup_nil, fun key ↦ rfl⟩, le_rfl⟩, by simp⟩
  | some c =>
    obtain ⟨θ, hholds, hθ⟩ := h.holds
    have hle : c ≤ now := hm c hc
    exact ⟨⟨θ, hholds, (hθ c hc).trans (sub_le_sub_right hle _)⟩,
      fun x hx ↦ (h.past x hx c hc).trans hle⟩

/-- A request that is not admitted leaves attempts that hold the same log. -/
theorem Limited.read (h : Limited l s) {attempts : Attempts} {clock : Option Time}
    (hm : ∀ c ∈ l.clock, c ≤ now) (hclock : clock = some now)
    (hholds : attempts.Holds l.log (now - windowSeconds)) (hattempts : t.attempts = attempts) :
    Limited { l with clock := clock } t := by
  subst hclock hattempts
  refine ⟨⟨_, hholds, ?_⟩, fun hc ↦ ?_, h.ordered, ?_, h.client, h.all⟩
  · rintro c ⟨⟩
    exact le_rfl
  · cases hc
  · rintro x hx c ⟨⟩
    exact (h.recent hm).2 x hx

/-- Attempts that are refused leave the recent admissions. -/
theorem throttle_refused {attempts : Attempts} {log : List (String × Time)} {θ : Time}
    {reply : Reply} (h : attempts.Holds log θ) (ho : Ordered log) (hθ : θ ≤ now - windowSeconds)
    (hl : (throttle env.urls env.config attempts req now).2 = some reply) :
    (throttle env.urls env.config attempts req now).1.Holds log (now - windowSeconds) := by
  cases hk : clientKey env.urls env.config req with
  | error reply' =>
    have hpruned : (throttle env.urls env.config attempts req now).1 = attempts.prune now := by
      unfold throttle
      rw [hk]
    rw [hpruned]
    exact h.prune ho hθ
  | ok key =>
    by_cases hx : Exceeds log key now
    · exact (throttle_exceeds h ho hθ hk hx).1
    · rw [(throttle_admits h ho hθ hk hx).1] at hl
      cases hl

theorem throttle_passed {attempts : Attempts} {log : List (String × Time)} {θ : Time}
    {key : String} (h : attempts.Holds log θ) (ho : Ordered log) (hθ : θ ≤ now - windowSeconds)
    (hk : clientKey env.urls env.config req = .ok key)
    (hl : (throttle env.urls env.config attempts req now).2 = none) : ¬Exceeds log key now := by
  intro hx
  rw [(throttle_exceeds h ho hθ hk hx).2] at hl
  cases hl

theorem log_append (l : Logins) (x : Admission) (clock : Option Time) :
    ({ l with admissions := l.admissions ++ [x], clock := clock } : Logins).log =
      l.log ++ [(x.key, x.instant)] := by
  simp [Logins.log]

theorem Limited.step (h : Limited l s) (hv : Verifies l s) (hm : Monotone env (s, l) e)
    (hs : SignIn env s e t out) : Limited (l.note env s e t) t := by
  cases hs with
  | other he hp hplain =>
    have hnote : l.note env s e t = l := by
      cases e with
      | request req now secrets => exact absurd rfl (he req now secrets)
      | password task verified secrets => exact absurd rfl (hp task verified secrets)
      | _ => rfl
    rw [hnote]
    exact h.of_attempts hplain.attempts
  | verified hw hplain hdone =>
    have hplain := h.of_attempts hplain.attempts
    exact ⟨hplain.holds, hplain.fresh, h.ordered, h.past, h.client, h.all⟩
  | submitted hw => exact ⟨h.holds, h.fresh, h.ordered, h.past, h.client, h.all⟩
  | @elsewhere req now secrets t out hr hplain =>
    obtain ⟨clock, hnote, hreading, -⟩ := note_request env l _ _ _
      fun w hw hmem ↦ hv.fresh hw (hplain.waits _ w hw hmem)
    rw [hnote]
    obtain ⟨rfl, hroute⟩ | rfl := hreading
    · obtain ⟨⟨θ, hholds, hθ⟩, hpast⟩ := h.recent (hm hroute)
      have hattempts : t.attempts = s.attempts := hplain.attempts
      refine ⟨⟨θ, hattempts.symm ▸ hholds, ?_⟩, fun hc ↦ ?_, h.ordered, ?_, h.client, h.all⟩
      · rintro c ⟨⟩
        exact hθ
      · cases hc
      · rintro x hx c ⟨⟩
        exact hpast x hx
    · exact h.of_attempts hplain.attempts
  | @throttled req now secrets sessions reply hr hl =>
    obtain ⟨clock, hnote, -, hclock⟩ := note_request env l _ _ _
      fun w hw hmem ↦ (reply_requests hmem).2 rfl
    rw [hnote]
    obtain ⟨⟨θ, hholds, hθ⟩, -⟩ := h.recent (hm hr.2)
    exact h.read (hm hr.2) (hclock hr) (throttle_refused hholds h.ordered hθ hl) rfl
  | @admitted req now secrets sessions hr hl =>
    obtain ⟨key, hk⟩ := clientKey_of_throttle hl
    rw [note_admitted hr hk (lookup_wait _ _ _)]
    obtain ⟨⟨θ, hholds, hθ⟩, hpast⟩ := h.recent (hm hr.2)
    have hx := throttle_passed hholds h.ordered hθ hk hl
    have hnew := (throttle_admits hholds h.ordered hθ hk hx).2
    have hall : ({ l with
        admissions := l.admissions ++ [⟨s.arrived, key, now⟩]
        clock := some now } : Logins).log.map Prod.snd = l.log.map Prod.snd ++ [now] := by
      rw [log_append, List.map_append]
      rfl
    refine ⟨⟨_, by rw [log_append]; exact hnew, ?_⟩, fun hc ↦ ?_, ?_, ?_, fun k ↦ ?_, ?_⟩
    · rintro c ⟨⟩
      exact le_rfl
    · cases hc
    · rw [Ordered, hall, List.pairwise_append]
      refine ⟨h.ordered, List.pairwise_singleton _ _, fun a ha b hb ↦ ?_⟩
      obtain rfl := List.mem_singleton.mp hb
      obtain ⟨x, hx, rfl⟩ := List.mem_map.mp ha
      exact hpast x hx
    · rintro x hx c ⟨⟩
      rw [log_append] at hx
      rcases List.mem_append.mp hx with hx | hx
      · exact hpast x hx
      · obtain rfl := List.mem_singleton.mp hx
        exact le_rfl
    · rw [log_append, instants_append, instants_singleton]
      by_cases hkey : key = k
      · rw [if_pos hkey]
        subst hkey
        exact (h.client key).concat (not_le.mp fun hle ↦ hx (.inl hle))
      · rw [if_neg hkey, List.append_nil]
        exact h.client k
    · rw [hall]
      exact h.all.concat (not_le.mp fun hle ↦ hx (.inr hle))

/-- The sign-ins of a process that has just started. -/
theorem opened_limited (env : Environment) (g : Gateway) (vault : Oauth.Record)
    (additional : Option (Oauth.Record × Option Additional.Choice)) :
    Verifies {} (.opened env g vault additional) ∧ Limited {} (.opened env g vault additional) := by
  refine ⟨⟨fun task w hw hmem ↦ ?_, ?_, List.nodup_nil, List.nodup_nil, ?_⟩,
    ⟨⟨0, ⟨List.nodup_nil, fun key ↦ rfl⟩, ?_⟩, fun _ ↦ ⟨rfl, rfl⟩, List.Pairwise.nil, ?_,
      fun key ↦ .nil, .nil⟩⟩
  · cases hmem
  · intro x hx
    cases hx
  · intro x hx
    cases hx
  · intro c hc
    cases hc
  · intro x hx
    cases hx

/-- The machine of the administration pages with the sign-ins it has seen. -/
abbrev observed (env : Environment) := observe (AdminUI.step env) (Logins.note env)

theorem limited_of_runs {w w' : AdminUI × Logins} {events : List Event}
    (h₀ : Verifies w.2 w.1 ∧ Limited w.2 w.1) (hrun : Runs (observed env) w events w')
    (hm : Throughout (observed env) (Monotone env) w events) :
    Verifies w'.2 w'.1 ∧ Limited w'.2 w'.1 := by
  refine hrun.invariant_of_throughout (C := Monotone env)
    (P := fun w ↦ Verifies w.2 w.1 ∧ Limited w.2 w.1) (fun u e v hu hmono hstep ↦ ?_) hm h₀
  obtain ⟨hstep, hnote⟩ := observe_eq_some.mp hstep
  obtain ⟨r, hr, ht⟩ := Option.map_eq_some_iff.mp hstep
  have hs := signIn_of_perform hr
  rw [ht] at hs
  rw [hnote]
  exact ⟨hu.1.step hs, hu.2.step hu.1 hmono hs⟩

/-- In every window the admissions are within the limits, one password at most is
verified for each of them and none for another request, and the recorded attempts
are the admissions of the window. -/
theorem login_limits {g : Gateway} {vault : Oauth.Record}
    {additional : Option (Oauth.Record × Option Additional.Choice)} {events : List Event}
    (hrun : Runs (observed env) (.opened env g vault additional, {}) events (s, l))
    (hm : Throughout (observed env) (Monotone env) (.opened env g vault additional, {}) events) :
    (∀ key (a : Time), ((instants key l.log).filter fun x ↦
      a ≤ x ∧ x ≤ a + windowSeconds).length ≤ perClientLimit) ∧
    (∀ a : Time, ((l.log.map Prod.snd).filter fun x ↦
      a ≤ x ∧ x ≤ a + windowSeconds).length ≤ globalLimit) ∧
    (l.admissions.map Admission.task).Nodup ∧ l.verified.Nodup ∧
    (∀ task ∈ l.verified, ∃ x ∈ l.admissions, x.task = task) ∧
    ∀ c ∈ l.clock, ∀ key, since (c - windowSeconds) ((s.attempts.lookup key).getD []) =
      since (c - windowSeconds) (instants key l.log) := by
  obtain ⟨hv, hl⟩ := limited_of_runs (opened_limited env g vault additional) hrun hm
  refine ⟨fun key ↦ (hl.client key).window, hl.all.window, hv.distinct, hv.once, hv.admitted, ?_⟩
  intro c hc key
  obtain ⟨θ, hholds, hθ⟩ := hl.holds
  rw [hholds.lookup]
  exact since_since (hθ c hc)

theorem login_limits_sample : ∃ s l,
    Runs (observed sampleEnvironment) (samplePages, {}) signIn (s, l) ∧ l.verified = [0] ∧
    (∀ a : Time, ((l.log.map Prod.snd).filter fun x ↦
      a ≤ x ∧ x ≤ a + windowSeconds).length ≤ globalLimit) ∧
    ∀ task ∈ l.verified, ∃ x ∈ l.admissions, x.task = task := by
  have hrun : (run (observed sampleEnvironment) signIn (samplePages, {})).any (fun w ↦
      w.2.verified = [0]) := by decide +kernel
  have hm : Throughout (observed sampleEnvironment) (Monotone sampleEnvironment) (samplePages, {})
      signIn := by decide +kernel
  obtain ⟨⟨s, l⟩, hs, hverified⟩ := (Option.any_eq_true ..).mp hrun
  obtain ⟨-, hall, -, -, hadmitted, -⟩ := login_limits hs hm
  exact ⟨s, l, hs, of_decide_eq_true hverified, hall, hadmitted⟩

end NoreplyGateway.Web
