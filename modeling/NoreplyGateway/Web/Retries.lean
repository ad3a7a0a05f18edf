import NoreplyGateway.Web.Admissions

namespace NoreplyGateway.Web

open Machine SlidingWindow Upstream

open AdminUI Attempts

variable {env : Environment} {s t u : AdminUI} {task : ℕ} {e : Event} {l : Logins}
  {req req' : Request} {now now' : Time} {secrets : Secrets} {key : String}

theorem segments_of_login {l : List String} (h : postRoute l = some .login) :
    l = ["", "api", "login"] := by
  unfold postRoute at h
  split at h <;> first | rfl | (split_ifs at h <;> cases h) | cases h

theorem path_of_login {base path : String} {method : Method}
    (h : resolve base method path = some (.post .login)) : path = base ++ "/api/login" := by
  have hpost := post_of_resolve h
  subst hpost
  obtain ⟨l, hl, hroute⟩ := Option.bind_eq_some_iff.mp h
  obtain ⟨route, hroute, hlogin⟩ := Option.map_eq_some_iff.mp hroute
  obtain rfl : route = .login := by simpa using hlogin
  have hlist := segments_of_login hroute
  unfold segments at hl
  by_cases hprefix : base.toList <+: path.toList
  · rw [if_pos hprefix] at hl
    obtain ⟨rest, hrest⟩ := hprefix
    have hdrop : path.toList.drop base.length = rest := by
      rw [← hrest, ← String.length_toList, List.drop_left]
    rw [hdrop] at hl
    cases rest with
    | nil =>
      dsimp only at hl
      split_ifs at hl
      cases hl
      cases hlist
    | cons c rest =>
      have hsegments := Option.some.inj hl
      have hsplit : (c :: rest).splitOn '/' = [[], "api".toList, "login".toList] := by
        have hmap := congrArg (List.map String.toList) (hsegments.trans hlist)
        rw [List.map_map] at hmap
        have hid : String.toList ∘ String.ofList = id := funext fun x ↦ String.toList_ofList
        rw [hid, List.map_id] at hmap
        exact hmap
      have hjoin : ['/'].intercalate ((c :: rest).splitOn '/') = c :: rest :=
        List.intercalate_splitOn '/'
      rw [hsplit] at hjoin
      refine String.toList_injective ?_
      rw [← hrest, ← hjoin, String.toList_append]
      rfl
  · rw [if_neg hprefix] at hl
    cases hl

/-- The middleware lets a sign-in request pass whatever the state and the time. -/
theorem reaches_congr (h : Reaches env s req now) (t : AdminUI) (now' : Time) :
    Reaches env t req now' := by
  obtain ⟨⟨session, hok⟩, hroute⟩ := h
  refine ⟨?_, hroute⟩
  have hpath := path_of_login hroute
  have hpublic : req.path ∈ env.publicPaths := by
    rw [hpath]
    exact List.mem_append_left _ (List.mem_map.mpr ⟨"/api/login", by simp, rfl⟩)
  have hreads : req.method.reads = false := by
    rw [post_of_resolve hroute]
    rfl
  have hentered (session' : Option (ℕ × AdminSession)) :
      admitRequest env req session' =
        if req.origin ≠ some env.origin then
          .error { status := 403, error := some "Same-origin request required" }
        else if req.contentType ≠ "application/json" then
          .error { status := 415, error := some "Use application/json" }
        else .ok session' := by
    unfold admitRequest
    rw [if_neg fun hne ↦ hne.1 hpublic, hreads, if_neg Bool.false_ne_true, if_pos hpath]
  unfold boundary at hok ⊢
  split_ifs at hok ⊢
  dsimp only at hok ⊢
  rw [hentered] at hok ⊢
  split_ifs at hok ⊢
  exact ⟨_, rfl⟩

/-- A sign-in request that reaches its handler is answered at once, or waits for
its body. -/
theorem perform_login (hr : Reaches env s req now) (hd : secrets.Drawn) :
    ∃ r, s.perform env (.request req now secrets) = some r ∧
      r.2 = ((throttle env.urls env.config s.attempts req now).2).map (s.arrived, ·) := by
  obtain ⟨⟨session, hok⟩, hroute⟩ := reaches_congr hr { s with arrived := s.arrived + 1 } now
  obtain ⟨sessions, hb⟩ := boundary_eq env s req now
  simp only [AdminUI.perform, if_pos hd, receive, hok, hroute, hb, handlePost]
  cases (throttle env.urls env.config s.attempts req now).2 <;> exact ⟨_, rfl, rfl⟩

section Expiry

variable {log : List (String × Time)} {b : Time}

theorem retryAfter_bounds (hb : b ≤ now) :
    1 ≤ Attempts.retryAfter now b ∧ Attempts.retryAfter now b ≤ windowSeconds := by
  refine ⟨le_max_left _ _, max_le (by decide) (Int.ceil_le.mpr ?_)⟩
  have hnonneg : 0 ≤ now - b := sub_nonneg.mpr hb
  push_cast
  linarith

/-- The announced time is enough unless it is a whole number of seconds. -/
theorem expires_of_fraction (hb : now - windowSeconds ≤ b) (hpast : b ≤ now)
    (hfraction : ∀ k : ℕ, k < windowSeconds → now ≠ b + k)
    (hle : now + Attempts.retryAfter now b ≤ now') : b < now' - windowSeconds := by
  have hwindow : ((windowSeconds : ℕ) : ℚ) = 900 := by norm_num [windowSeconds]
  unfold Attempts.retryAfter at hle
  rw [hwindow] at hb hle ⊢
  by_cases hzero : (900 : ℚ) - (now - b) = 0
  · have hone : ((max 1 ⌈(900 : ℚ) - (now - b)⌉ : ℤ) : ℚ) = 1 := by
      rw [hzero]
      norm_num
    rw [hone] at hle
    linarith
  · have hpos : 0 < (900 : ℚ) - (now - b) := lt_of_le_of_ne (by linarith) (Ne.symm hzero)
    have hceil := Int.le_ceil ((900 : ℚ) - (now - b))
    have hmax : (⌈(900 : ℚ) - (now - b)⌉ : ℚ) ≤ (max 1 ⌈(900 : ℚ) - (now - b)⌉ : ℤ) := by
      exact_mod_cast le_max_right _ _
    have hne : (⌈(900 : ℚ) - (now - b)⌉ : ℚ) ≠ 900 - (now - b) := by
      intro he
      obtain ⟨m, hm⟩ := Int.eq_ofNat_of_zero_le (Int.ceil_nonneg hpos.le)
      rw [hm] at he
      rw [Int.cast_natCast] at he
      have hm0 : 0 < m := by
        have : (0 : ℚ) < m := he ▸ hpos
        exact_mod_cast this
      have hm900 : m ≤ 900 := by
        have : (m : ℚ) ≤ 900 := by linarith
        exact_mod_cast this
      refine hfraction (900 - m) (Nat.sub_lt (by decide) hm0) ?_
      rw [Nat.cast_sub hm900, he]
      push_cast
      ring
    have hlt := lt_of_le_of_ne hceil (Ne.symm hne)
    linarith

/-- A whole number of seconds later the blocking admission is still in the window. -/
theorem whole_seconds {k : ℕ} (hk : k < windowSeconds) (hb : now = b + k) :
    now + Attempts.retryAfter now b - windowSeconds = b := by
  have hrest : (windowSeconds : ℚ) - (now - b) = ((windowSeconds - k : ℕ) : ℤ) := by
    rw [hb, Int.cast_natCast, Nat.cast_sub hk.le]
    ring
  have hr : Attempts.retryAfter now b = ((windowSeconds - k : ℕ) : ℤ) := by
    unfold Attempts.retryAfter
    rw [hrest, Int.ceil_intCast]
    exact max_eq_right (by omega)
  rw [hr, hb, Int.cast_natCast, Nat.cast_sub hk.le]
  ring

theorem clientWindow_sublist : (clientWindow log key now).Sublist (window log now) :=
  instants_sublist.filter _

theorem blocking_mem (hb : b ∈ blocking log key now) : b ∈ window log now := by
  unfold blocking at hb
  split_ifs at hb
  · exact clientWindow_sublist.subset (List.mem_of_head? hb)
  · exact List.mem_of_head? hb

theorem blocking_isSome (hseen : clientWindow log key now ≠ []) :
    ∃ b, blocking log key now = some b := by
  obtain ⟨c, rest, hclient⟩ := List.exists_cons_of_ne_nil hseen
  have hc : c ∈ clientWindow log key now := by simp [hclient]
  have hmem : c ∈ window log now := clientWindow_sublist.subset hc
  obtain ⟨a, rest', hwindow⟩ := List.exists_cons_of_ne_nil (List.ne_nil_of_mem hmem)
  unfold blocking
  rw [hclient, hwindow]
  split_ifs <;> exact ⟨_, rfl⟩

/-- The limits are kept until the blocking admission leaves the window. -/
theorem exceeds_of_le (ho : Ordered log) (hx : Exceeds log key now) (hb : b ∈ blocking log key now)
    (hle : now' - windowSeconds ≤ b) (hnow : now ≤ now') : Exceeds log key now' := by
  have hθ := sub_le_sub_right hnow (windowSeconds : Time)
  by_cases hclient : perClientLimit ≤ (clientWindow log key now).length
  · rw [blocking, if_pos hclient] at hb
    have hsame : clientWindow log key now' = clientWindow log key now :=
      since_of_le_head (ho.instants key) hb hle hθ
    exact .inl (hsame.symm ▸ hclient)
  · rw [blocking, if_neg hclient] at hb
    have hsame : window log now' = window log now := since_of_le_head ho hb hle hθ
    exact .inr (hsame.symm ▸ hx.resolve_left hclient)

/-- Without the blocking admission there is room for one more. -/
theorem not_exceeds_of_lt (ho : Ordered log)
    (hclient : (clientWindow log key now).length ≤ perClientLimit)
    (hwindow : (window log now).length ≤ globalLimit) (hb : b ∈ blocking log key now)
    (hlt : b < now' - windowSeconds) (hnow : now ≤ now') : ¬Exceeds log key now' := by
  have hθ := sub_le_sub_right hnow (windowSeconds : Time)
  have hwindow' : (window log now').length < globalLimit := by
    cases ha : (window log now).head? with
    | none =>
      rw [List.head?_eq_none_iff] at ha
      have hmem := blocking_mem hb
      rw [ha] at hmem
      cases hmem
    | some a =>
      obtain ⟨rest, hrest⟩ := List.head?_eq_some_iff.mp ha
      have hle : a ≤ b := by
        have hmem := blocking_mem hb
        have hsorted := since_sorted (θ := now - windowSeconds) ho
        rw [← window, hrest] at hsorted
        rw [hrest] at hmem
        rcases List.mem_cons.mp hmem with rfl | hlater
        · exact le_rfl
        · exact (List.pairwise_cons.mp hsorted).1 b hlater
      exact (length_since_lt ha (hle.trans_lt hlt) hθ).trans_le hwindow
  have hclient' : (clientWindow log key now').length < perClientLimit := by
    by_cases hfull : perClientLimit ≤ (clientWindow log key now).length
    · rw [blocking, if_pos hfull] at hb
      exact (length_since_lt hb hlt hθ).trans_le hclient
    · have hle : (clientWindow log key now').length ≤ (clientWindow log key now).length := by
        unfold clientWindow
        rw [← since_since hθ]
        exact List.length_filter_le _ _
      omega
  rintro (hle | hle) <;> omega

end Expiry

theorem Limited.counts (h : Limited l s) (hpast : ∀ x ∈ l.log, x.2 ≤ now) (key : String) :
    (clientWindow l.log key now).length ≤ perClientLimit ∧
      (window l.log now).length ≤ globalLimit := by
  have hsame {instants : List Time} (hinstants : ∀ x ∈ instants, x ≤ now) :
      instants.filter (fun x ↦ now - (windowSeconds : Time) ≤ x ∧ x ≤ now - windowSeconds +
        windowSeconds) = since (now - windowSeconds) instants := by
    refine List.filter_congr fun x hx ↦ ?_
    simp only [sub_add_cancel, hinstants x hx, and_true]
  have hall : ∀ x ∈ l.log.map Prod.snd, x ≤ now := by
    intro x hx
    obtain ⟨y, hy, rfl⟩ := List.mem_map.mp hx
    exact hpast y hy
  constructor
  · unfold clientWindow
    rw [← hsame fun x hx ↦ hall x (instants_sublist.subset hx)]
    exact (h.client key).window _
  · unfold window
    rw [← hsame hall]
    exact h.all.window _

theorem SignIn.arrived {out : Option (ℕ × Reply)} (h : SignIn env s e t out) :
    s.arrived ≤ t.arrived := by
  cases h with
  | other _ _ hplain => exact hplain.arrived.ge
  | elsewhere _ hplain => exact (Nat.le_succ _).trans hplain.arrived.ge
  | throttled | admitted => exact Nat.le_succ _
  | submitted => exact le_rfl
  | verified _ hplain => exact hplain.arrived.ge

theorem note_admissions (l : Logins) (s : AdminUI) (e : Event) (t : AdminUI) :
    ∀ x ∈ (l.note env s e t).admissions, x ∈ l.admissions ∨ x.task = s.arrived := by
  intro x hx
  unfold Logins.note at hx
  split at hx
  · dsimp only at hx
    split at hx
    · rcases List.mem_append.mp hx with hx | hx
      · exact .inl hx
      · obtain rfl := List.mem_singleton.mp hx
        exact .inr rfl
    · exact .inl hx
  · exact .inl hx
  · exact .inl hx

/-- A request that was not admitted verifies no password later. -/
theorem unadmitted_of_runs {w w' : AdminUI × Logins} {events : List Event}
    (hrun : Runs (observed env) w events w')
    (h : task < w.1.arrived ∧ ∀ x ∈ w.2.admissions, x.task ≠ task) :
    ∀ x ∈ w'.2.admissions, x.task ≠ task := by
  refine (hrun.invariant (P := fun w ↦ task < w.1.arrived ∧ ∀ x ∈ w.2.admissions, x.task ≠ task)
    (fun u e v hu hstep ↦ ?_) h).2
  obtain ⟨hstep, hnote⟩ := observe_eq_some.mp hstep
  obtain ⟨r, hr, ht⟩ := Option.map_eq_some_iff.mp hstep
  have hs := signIn_of_perform hr
  rw [ht] at hs
  refine ⟨hu.1.trans_le hs.arrived, fun x hx ↦ ?_⟩
  rw [hnote] at hx
  rcases note_admissions u.2 u.1 e v.1 x hx with hx | hx
  · exact hu.2 x hx
  · rw [hx]
    exact hu.1.ne'

/-- The answer to a request that exceeds the limits. -/
def refusal (log : List (String × Time)) (key : String) (now : Time) : Reply :=
  ((if clientWindow log key now = [] then none else blocking log key now).map
    (tooMany now)).getD .internal

theorem SignIn.refused {reply : Reply}
    (h : SignIn env s (.request req now secrets) t (some (s.arrived, reply)))
    (hr : Reaches env s req now) :
    t.arrived = s.arrived + 1 ∧ ∀ w, (s.arrived, w) ∉ t.requests := by
  cases h with
  | other he _ _ => exact absurd rfl (he req now secrets)
  | elsewhere hnot _ => exact absurd hr hnot
  | throttled _ _ => exact ⟨rfl, fun w hmem ↦ (reply_requests hmem).2 rfl⟩

theorem perform_exceeds (h : Limited l s) (hr : Reaches env s req now)
    (hclock : ∀ c ∈ l.clock, c ≤ now) (hk : clientKey env.urls env.config req = .ok key)
    (hx : Exceeds l.log key now) (hd : secrets.Drawn) :
    ∃ t, s.perform env (.request req now secrets) =
        some (t, some (s.arrived, refusal l.log key now)) ∧ t.arrived = s.arrived + 1 ∧
      l.note env s (.request req now secrets) t = { l with clock := some now } := by
  obtain ⟨⟨θ, hholds, hθ⟩, -⟩ := h.recent hclock
  obtain ⟨⟨t, out⟩, hp, hout⟩ := perform_login hr hd
  have hl := (throttle_exceeds hholds h.ordered hθ hk hx).2
  rw [hl] at hout
  obtain rfl : out = _ := hout
  obtain ⟨harrived, hgone⟩ := (signIn_of_perform hp).refused hr
  obtain ⟨clock, hnote, -, hnow⟩ := note_request env l req now secrets fun w _ ↦ hgone w
  rw [hnow hr] at hnote
  exact ⟨t, hp, harrived, hnote⟩

/-- Without more admissions the client's next request passes exactly if the log
does not exceed the limits then. -/
theorem perform_next {log : List (String × Time)} (h : Limited l s) (hlog : l.log = log)
    (hr : Reaches env s req now) (hclock : ∀ c ∈ l.clock, c ≤ now)
    (hk : clientKey env.urls env.config req = .ok key) (hd : secrets.Drawn) :
    (∃ t, s.perform env (.request req now secrets) = some (t, none)) ↔ ¬Exceeds log key now := by
  subst hlog
  constructor
  · rintro ⟨t, ht⟩ hx
    obtain ⟨t', ht', -⟩ := perform_exceeds h hr hclock hk hx hd
    rw [ht] at ht'
    cases ht'
  · intro hx
    obtain ⟨⟨θ, hholds, hθ⟩, -⟩ := h.recent hclock
    obtain ⟨⟨t, out⟩, hp, hout⟩ := perform_login hr hd
    rw [(throttle_admits hholds h.ordered hθ hk hx).1] at hout
    obtain rfl : out = none := hout
    exact ⟨t, hp⟩

/-- The answer announces when the client may try again: it verifies no password,
and the client's next request from then on is admitted unless another one was. -/
def SoundRetryAfter (env : Environment) (s : AdminUI) (l : Logins) (req : Request) (now : Time)
    (secrets : Secrets) (key : String) : Prop :=
  ∃ t reply r, s.perform env (.request req now secrets) = some (t, some (s.arrived, reply)) ∧
    reply.status = 429 ∧ reply.retryAfter = some r ∧ 1 ≤ r ∧ r ≤ windowSeconds ∧
    ∀ events u l', Runs (observed env) (t, l.note env s (.request req now secrets) t) events (u, l') →
      Throughout (observed env) (Monotone env)
        (t, l.note env s (.request req now secrets) t) events →
      s.arrived ∉ l'.verified ∧
      (l'.admissions = l.admissions → ∀ req' now' secrets', Reaches env u req' now' →
        clientKey env.urls env.config req' = .ok key → secrets'.Drawn →
        (∀ c ∈ l'.clock, c ≤ now') → now + r ≤ now' →
        ∃ v, u.perform env (.request req' now' secrets') = some (v, none))

/-- The announced time is sound exactly for a client with a recent admission,
unless the blocking admission is a whole number of seconds old. -/
theorem retryAfter_sound_iff {g : Gateway} {vault : Oauth.Record}
    {additional : Option (Oauth.Record × Option Additional.Choice)} {events : List Event}
    (hrun : Runs (observed env) (.opened env g vault additional, {}) events (s, l))
    (hm : Throughout (observed env) (Monotone env) (.opened env g vault additional, {}) events)
    (hr : Reaches env s req now) (hclock : ∀ c ∈ l.clock, c ≤ now) (hd : secrets.Drawn)
    (hk : clientKey env.urls env.config req = .ok key) (hx : Exceeds l.log key now) :
    SoundRetryAfter env s l req now secrets key ↔
      clientWindow l.log key now ≠ [] ∧
        ∀ b ∈ blocking l.log key now, ∀ k : ℕ, k < windowSeconds → now ≠ b + k := by
  obtain ⟨hv, hl⟩ := limited_of_runs (opened_limited env g vault additional) hrun hm
  obtain ⟨t, hp, harrived, hnote⟩ := perform_exceeds hl hr hclock hk hx hd
  have hs := signIn_of_perform hp
  have hpast := (hl.recent hclock).2
  have hbpast : ∀ b ∈ blocking l.log key now, b ≤ now := by
    intro b hb
    obtain ⟨x, hx, rfl⟩ := List.mem_map.mp (List.mem_of_mem_filter (blocking_mem hb))
    exact hpast x hx
  have hmono : Monotone env (s, l) (.request req now secrets) := fun _ ↦ hclock
  have hv' := hv.step hs
  have hl' := hl.step hv hmono hs
  rw [hnote] at hv' hl'
  unfold SoundRetryAfter
  constructor
  · rintro ⟨t', reply, r, hp', hstatus, hretry, -, -, hlater⟩
    rw [hp] at hp'
    obtain ⟨rfl, rfl⟩ : t = t' ∧ refusal l.log key now = reply := by simpa using hp'
    have hseen : clientWindow l.log key now ≠ [] := by
      intro hempty
      rw [refusal, if_pos hempty] at hstatus
      cases hstatus
    refine ⟨hseen, fun b hb k hk900 hwhole ↦ ?_⟩
    rw [refusal, if_neg hseen, hb] at hretry
    obtain rfl : Attempts.retryAfter now b = r := Option.some.inj hretry
    obtain ⟨-, hnext⟩ := hlater [] t _ (runs_nil.mpr rfl) throughout_nil
    rw [hnote] at hnext
    have hr_pos := (retryAfter_bounds (hbpast b hb)).1
    have hnow : now ≤ now + (Attempts.retryAfter now b : ℚ) := by
      have : (0 : ℚ) ≤ Attempts.retryAfter now b := by exact_mod_cast (by omega)
      linarith
    have hlast : ∀ c ∈ some now, c ≤ now + (Attempts.retryAfter now b : ℚ) := by
      rintro c ⟨⟩
      exact hnow
    have hagain := hnext rfl req _ secrets (reaches_congr hr t _) hk hd hlast le_rfl
    refine (perform_next hl' rfl (reaches_congr hr t _) hlast hk hd).mp hagain ?_
    exact exceeds_of_le hl.ordered hx hb (whole_seconds hk900 hwhole).le hnow
  · rintro ⟨hseen, hfraction⟩
    obtain ⟨b, hb⟩ := blocking_isSome hseen
    obtain ⟨hpos, hle⟩ := retryAfter_bounds (hbpast b hb)
    have hrefusal : refusal l.log key now = tooMany now b := by
      rw [refusal, if_neg hseen, hb]
      rfl
    rw [hrefusal] at hp
    refine ⟨t, _, _, hp, rfl, rfl, hpos, hle, fun events u l' hrun' hm' ↦ ?_⟩
    rw [hnote] at hrun' hm'
    obtain ⟨hv'', hl''⟩ := limited_of_runs ⟨hv', hl'⟩ hrun' hm'
    constructor
    · intro hverified
      obtain ⟨x, hx, htask⟩ := hv''.admitted _ hverified
      refine absurd htask (unadmitted_of_runs hrun' ⟨?_, fun y hy ↦ (hv.tasks y hy).ne⟩ x hx)
      rw [harrived]
      exact Nat.lt_succ_self _
    · intro hsame req' now' secrets' hr' hk' hd' hclock' hlater
      have hlog : l'.log = l.log := congrArg (List.map fun x : Admission ↦ (x.key, x.instant)) hsame
      refine (perform_next hl'' hlog hr' hclock' hk' hd').mpr ?_
      have hnow : now ≤ now' := by
        have : (0 : ℚ) ≤ Attempts.retryAfter now b := by exact_mod_cast (by omega)
        linarith
      obtain ⟨hclient, hwindow⟩ := hl.counts hpast key
      refine not_exceeds_of_lt hl.ordered hclient hwindow hb ?_ hnow
      refine expires_of_fraction ?_ (hbpast b hb) (hfraction b hb) hlater
      exact of_decide_eq_true (List.mem_filter.mp (blocking_mem hb)).2

instance {log : List (String × Time)} : Decidable (Exceeds log key now) :=
  inferInstanceAs (Decidable (_ ∨ _))

def samplePeer (peer : String) : Request :=
  { samplePost "/api/login" none none with remote := some peer }

theorem samplePeer_reaches (s : AdminUI) (peer : String) (now : Time) :
    Reaches sampleEnvironment s (samplePeer peer) now := by
  have hok : (samplePages.boundary sampleEnvironment (samplePost "/api/login" none none) 0).2.isOk =
      true := by decide +kernel
  have hreaches : Reaches sampleEnvironment samplePages (samplePost "/api/login" none none) 0 := by
    refine ⟨?_, by decide +kernel⟩
    cases hb : (samplePages.boundary sampleEnvironment (samplePost "/api/login" none none) 0).2 with
    | ok session => exact ⟨session, rfl⟩
    | error reply =>
      rw [hb] at hok
      cases hok
  have hpeer : Reaches sampleEnvironment samplePages (samplePeer peer) 0 := hreaches
  exact reaches_congr hpeer s now

/-- Five requests of one client. -/
def fiveRequests (peer : String) : List Event :=
  List.replicate 5 (.request (samplePeer peer) 0 sampleSecrets)

/-- A client that was never seen before meets the global limit. -/
theorem retryAfter_unseen : ∃ s l,
    Runs (observed sampleEnvironment) (samplePages, {}) (["192.0.2.1", "192.0.2.2", "192.0.2.3",
      "192.0.2.4", "192.0.2.5", "192.0.2.6", "192.0.2.7", "192.0.2.8"].flatMap fiveRequests) (s, l) ∧
    Reaches sampleEnvironment s (samplePeer "192.0.2.9") 1 ∧ (∀ c ∈ l.clock, c ≤ 1) ∧
    clientKey sampleEnvironment.urls sampleEnvironment.config (samplePeer "192.0.2.9") =
      .ok "192.0.2.9" ∧ Exceeds l.log "192.0.2.9" 1 ∧
    ¬SoundRetryAfter sampleEnvironment s l (samplePeer "192.0.2.9") 1 sampleSecrets "192.0.2.9" := by
  have hrun : (run (observed sampleEnvironment) (["192.0.2.1", "192.0.2.2", "192.0.2.3",
      "192.0.2.4", "192.0.2.5", "192.0.2.6", "192.0.2.7", "192.0.2.8"].flatMap fiveRequests)
      (samplePages, {})).any (fun w ↦ (∀ c ∈ w.2.clock, c ≤ 1) ∧ Exceeds w.2.log "192.0.2.9" 1 ∧
        (w.1.perform sampleEnvironment (.request (samplePeer "192.0.2.9") 1 sampleSecrets)).any
          (fun r ↦ r.2 = some (w.1.arrived, .internal))) := by decide +kernel
  obtain ⟨⟨s, l⟩, hs, hrest⟩ := (Option.any_eq_true ..).mp hrun
  obtain ⟨hclock, hx, hanswer⟩ := of_decide_eq_true hrest
  obtain ⟨r, hr, hreply⟩ := (Option.any_eq_true ..).mp hanswer
  refine ⟨s, l, hs, samplePeer_reaches _ _ _, hclock, by decide +kernel, hx, ?_⟩
  rintro ⟨t, reply, time, hp, hstatus, -⟩
  rw [hp] at hr
  obtain rfl := Option.some.inj hr
  obtain rfl : reply = .internal := by simpa using of_decide_eq_true hreply
  cases hstatus

theorem retryAfter_sound_iff_sample : ∃ s l,
    Runs (observed sampleEnvironment) (samplePages, {}) (fiveRequests "192.0.2.1") (s, l) ∧
    SoundRetryAfter sampleEnvironment s l (samplePeer "192.0.2.1") (1 / 2) sampleSecrets
      "192.0.2.1" := by
  have hrun : (run (observed sampleEnvironment) (fiveRequests "192.0.2.1") (samplePages, {})).any
      (fun w ↦ (∀ c ∈ w.2.clock, c ≤ 1 / 2) ∧ Exceeds w.2.log "192.0.2.1" (1 / 2) ∧
        clientWindow w.2.log "192.0.2.1" (1 / 2) ≠ [] ∧
        blocking w.2.log "192.0.2.1" (1 / 2) = some 0) := by decide +kernel
  have hm : Throughout (observed sampleEnvironment) (Monotone sampleEnvironment) (samplePages, {})
      (fiveRequests "192.0.2.1") := by decide +kernel
  obtain ⟨⟨s, l⟩, hs, hrest⟩ := (Option.any_eq_true ..).mp hrun
  obtain ⟨hclock, hx, hseen, hb⟩ := of_decide_eq_true hrest
  refine ⟨s, l, hs, (retryAfter_sound_iff hs hm (samplePeer_reaches _ _ _) hclock
    (by decide +kernel) (by decide +kernel) hx).mpr ⟨hseen, fun b hb' k _ hwhole ↦ ?_⟩⟩
  rw [hb] at hb'
  obtain rfl := Option.some.inj hb'
  have hcast : ((2 * k : ℕ) : ℚ) = (1 : ℕ) := by
    push_cast
    linarith
  have := Nat.cast_injective hcast
  omega

end NoreplyGateway.Web
