import NoreplyGateway.History
import NoreplyGateway.Oauth.Turns
import NoreplyGateway.Oauth.Persistence

namespace NoreplyGateway.Oauth

open Machine Upstream

/-- An access token that was installed: by a login, or by the refresh that was
requested with the given step. -/
structure Issue where
  token : String
  refresh : Option ℕ
  deriving DecidableEq

/-- What happened to the access tokens of a manager. -/
structure Generations where
  steps : ℕ := 0
  /-- The step that requested the last refresh. -/
  requested : ℕ := 0
  /-- The step that counted a rejection first, since the count was last reset. -/
  counted : ℕ := 0
  /-- The newest comes first. -/
  issued : List Issue := []

/-- The access token that the step installs. -/
def Session.installs (s : Session) : Event → Option (Caller × String)
  | .saved .done _ =>
    match s.holder with
    | some (.saving caller _ token) => some (caller, token)
    | _ => none
  | _ => none

def Caller.requested (request : ℕ) : Caller → Option ℕ
  | .refresh => some request
  | .login .. => none

def Generations.note (g : Generations) (s : Session) (e : Event) (t : Session) : Generations where
  steps := g.steps + 1
  requested := match e with
    | .getToken _ => if t.holder.isSome then g.steps + 1 else g.requested
    | _ => g.requested
  counted := match e with
    | .rejected _ =>
      if s.manager.rejections = 0 ∧ t.manager.rejections = 1 then g.steps + 1 else g.counted
    | _ => g.counted
  issued := ((s.installs e).map fun install ↦
    ⟨install.2, install.1.requested g.requested⟩).toList ++ g.issued

/-- A newer token was installed after this one. -/
def Generations.Superseded (g : Generations) (token : String) : Prop :=
  ∃ issue ∈ g.issued.tail, issue.token = token

/-- The issued tokens are distinct. -/
def Generations.Distinct (g : Generations) : Prop := (g.issued.map Issue.token).Nodup

/-- A token is installed, or this one was the last to be counted and no other. -/
def Session.Tolerates (lib : Library) (s : Session) (token : String) : Prop :=
  s.manager.accessToken ≠ "" ∨
    lib.sha256 token = s.manager.rejectedDigest ∧ s.manager.rejections ≤ 1

/-- The lifetime of the token of a login that is being saved is no number. -/
def Session.unreadable (lib : Library) (s : Session) : Bool :=
  match s.holder with
  | some (.saving (.login ..) result _) =>
    !(((result.lookup "expires_in").getD (.number "3600")).float lib).toBool
  | _ => false

/-- A rejected token was issued, and is tolerated if it is superseded. The token
of a login comes with a readable lifetime. -/
def Orderly (lib : Library) (w : Session × Generations) (e : Event) : Prop :=
  match e with
  | .rejected token => (∃ issue ∈ w.2.issued, issue.token = token) ∧
    (w.2.Superseded token → w.1.Tolerates lib token)
  | .saved .done _ => w.1.unreadable lib = false
  | _ => True

variable {lib : Library} {email : EmailPackage} {setup : Setup} {s t : Session} {e : Event}
  {out : Option Output} {g : Generations} {token : String}

/-- The installed token is the one that was issued last. -/
def Generations.Current (g : Generations) (s : Session) : Prop :=
  s.manager.accessToken = "" ∨
    ∃ issue older, g.issued = issue :: older ∧ issue.token = s.manager.accessToken

theorem Generations.note_authorizes (he : e.authorizes = true) :
    g.note s e t = { g with steps := g.steps + 1 } := by
  cases e with
  | enter | exchanged | verified | profiled => rfl
  | _ => cases he

theorem Generations.note_saved {caller : Caller} {result : Fields} {now : Time}
    (hh : s.holder = some (.saving caller result token)) : g.note s (.saved .done now) t =
      { g with
        steps := g.steps + 1
        issued := ⟨token, caller.requested g.requested⟩ :: g.issued } := by
  simp [Generations.note, Session.installs, hh]

theorem Generations.Current.step (hc : g.Current s) (h : Turn lib setup s e t out) :
    (g.note s e t).Current t := by
  cases h with
  | refused | cached | refreshing | refreshRead | asked | unsaved | accepted | disconnecting
  | undisconnected => exact hc
  | @unread _ _ _ _ error | @unusable _ _ _ _ _ error =>
    obtain ⟨needsLogin, lastError, hm⟩ := refreshFailed_frame s.manager error
    rw [hm]
    exact hc
  | authorizing he | loginRead he =>
    rw [note_authorizes he]
    exact hc
  | uninstalled hh | renewed hh | loggedIn hh =>
    rw [note_saved hh]
    exact .inr ⟨_, _, rfl, rfl⟩
  | @rejected token =>
    have hcases := rejectedToken_cases lib s.manager.toTokens token
    generalize rejectedToken lib s.manager.toTokens token = r at hcases
    obtain ⟨error, m⟩ := r
    cases hcases with
    | older => exact hc
    | known | counted | forced => exact .inl rfl
  | disconnected => exact .inl rfl

/-- A token that `get_token` returns is the one that was issued last. -/
theorem Generations.Current.returned (hc : g.Current s)
    (h : Turn lib setup s e t (some (.token (.ok token)))) :
    ∃ issue older, (g.note s e t).issued = issue :: older ∧ issue.token = token := by
  obtain ⟨now, rfl, rfl, -, hg⟩ | ⟨now, result, rfl, hh, -⟩ := h.returned
  · obtain ⟨hcached, hne, -⟩ | ⟨⟨data, hdata⟩, -⟩ := getToken_cases hg
    · obtain rfl := Sum.inl.inj hcached
      exact hc.resolve_left hne
    · cases hdata
  · rw [note_saved hh]
    exact ⟨_, _, rfl, rfl⟩

/-- The invariant of orderly runs. Once a rejection is counted, the token that
was issued last was renewed since, or it is the one that was counted. -/
structure Generations.Counts (lib : Library) (g : Generations) (s : Session) : Prop where
  counted : g.counted ≤ g.steps
  requested : ∀ p ∈ s.holder, p.renews = true → 0 < s.manager.rejections → g.counted < g.requested
  last : 0 < s.manager.rejections →
    (∃ token request older, g.issued = ⟨token, some request⟩ :: older ∧ g.counted < request) ∨
    s.manager.accessToken = "" ∧ s.manager.rejections = 1 ∧
      ∃ issue older, g.issued = issue :: older ∧
        lib.sha256 issue.token = s.manager.rejectedDigest

theorem Generations.Counts.install (hc : g.Counts lib s) {result : Fields}
    (hh : s.holder = some (.saving .refresh result token)) (ht : t.holder = none)
    (hr : t.manager.rejections = s.manager.rejections) :
    Generations.Counts lib { g with
      steps := g.steps + 1
      issued := ⟨token, some g.requested⟩ :: g.issued } t := by
  refine ⟨Nat.le_succ_of_le hc.counted, ?_, ?_⟩
  · intro p hp
    rw [ht] at hp
    cases hp
  · intro hpos
    rw [hr] at hpos
    exact .inl ⟨_, _, _, rfl, hc.requested _ hh rfl hpos⟩

/-- In an orderly run a rejection that counts is one of the last token. -/
theorem Generations.Current.last (hcur : g.Current s) (ho : Orderly lib (s, g) (.rejected token))
    (h : s.manager.accessToken = "" ∨ s.manager.accessToken = token)
    (hne : lib.sha256 token ≠ s.manager.rejectedDigest ∨ 1 < s.manager.rejections) :
    ∃ issue older, g.issued = issue :: older ∧ issue.token = token := by
  obtain ⟨⟨issue, hissue, htoken⟩, htolerated⟩ := ho
  by_cases hempty : s.manager.accessToken = ""
  · have hnew : ¬g.Superseded token := by
      intro hold
      obtain hinstalled | ⟨hdigest, hfew⟩ := htolerated hold
      · exact hinstalled hempty
      · exact hne.elim (fun hd ↦ hd hdigest) (fun hm ↦ hfew.not_gt hm)
    cases hissued : g.issued with
    | nil => rw [hissued] at hissue; cases hissue
    | cons head older =>
      rw [hissued] at hissue
      obtain rfl | holds := List.mem_cons.mp hissue
      · exact ⟨_, _, rfl, htoken⟩
      · exact absurd ⟨issue, by rwa [hissued], htoken⟩ hnew
  · obtain ⟨head, older, hissued, hhead⟩ := hcur.resolve_left hempty
    exact ⟨head, older, hissued, hhead.trans (h.resolve_left hempty)⟩

/-- In an orderly run the rejection that asks for a login is one of a token that
was renewed since the rejection that was counted first. -/
theorem Generations.Counts.forced (hc : g.Counts lib s) (hcur : g.Current s)
    (ho : Orderly lib (s, g) (.rejected token)) {n : ℕ}
    (h : s.manager.accessToken = "" ∨ s.manager.accessToken = token)
    (hd : lib.sha256 token = s.manager.rejectedDigest ∧ n = s.manager.rejections ∨
      lib.sha256 token ≠ s.manager.rejectedDigest ∧ n = s.manager.rejections + 1) (hn : 1 < n) :
    ∃ request older, g.issued = ⟨token, some request⟩ :: older ∧ g.counted < request := by
  have hne : lib.sha256 token ≠ s.manager.rejectedDigest ∨ 1 < s.manager.rejections :=
    hd.elim (fun hsame ↦ .inr (hsame.2 ▸ hn)) (fun hother ↦ .inl hother.1)
  obtain ⟨issue, older, hissued, rfl⟩ := hcur.last ho h hne
  obtain ⟨token', request, older', hrenewed, hlt⟩ | ⟨-, hone, issue', older', hcounted, hdigest⟩ :=
    hc.last (by omega)
  · obtain ⟨rfl, -⟩ := List.cons.inj (hissued.symm.trans hrenewed)
    exact ⟨request, older', hrenewed, hlt⟩
  · obtain ⟨rfl, -⟩ := List.cons.inj (hissued.symm.trans hcounted)
    exact hne.elim (fun hd ↦ absurd hdigest hd) (fun hm ↦ by omega)

theorem Generations.note_rejected (hr : ¬(s.manager.rejections = 0 ∧ t.manager.rejections = 1)) :
    g.note s (.rejected token) t = { g with steps := g.steps + 1 } := by
  simp only [note, if_neg hr]
  rfl

theorem Generations.Counts.rejected (hc : g.Counts lib s) (hcur : g.Current s)
    (ho : Orderly lib (s, g) (.rejected token)) (hh : s.holder = none) {error : DeliveryError}
    {m : Tokens} (h : Rejection lib s.manager.toTokens token error m) :
    let t : Session := { s with manager := { s.manager with toTokens := m } }
    (g.note s (.rejected token) t).Counts lib t := by
  intro t
  have hcounted := Nat.le_succ_of_le hc.counted
  have hidle : ∀ {P : Phase → Prop}, ∀ p ∈ s.holder, P p := by
    intro P p hp
    rw [hh] at hp
    cases hp
  cases h with
  | older =>
    rw [note_rejected (by simp only [t]; omega)]
    exact ⟨hcounted, hidle, hc.last⟩
  | known =>
    rw [note_rejected (by simp only [t]; omega)]
    refine ⟨hcounted, hidle, fun hpos ↦ (hc.last hpos).imp_right fun hlast ↦ ?_⟩
    exact ⟨rfl, hlast.2⟩
  | counted hcurrent hdigest hnone =>
    obtain ⟨issue, older, hissued, rfl⟩ := hcur.last ho hcurrent (.inl hdigest)
    refine ⟨?_, hidle, fun _ ↦ .inr ⟨rfl, rfl, issue, older, hissued, rfl⟩⟩
    have hfirst : s.manager.rejections = 0 ∧ t.manager.rejections = 1 := ⟨hnone, rfl⟩
    simp only [note, if_pos hfirst]
    exact le_rfl
  | forced hcurrent hcount hmany =>
    obtain ⟨request, older, hissued, hlt⟩ := hc.forced hcur ho hcurrent hcount hmany
    rw [note_rejected (by simp only [t]; omega)]
    exact ⟨hcounted, hidle, fun _ ↦ .inl ⟨token, request, older, hissued, hlt⟩⟩

theorem Generations.Counts.step (hc : g.Counts lib s) (hcur : g.Current s)
    (ho : Orderly lib (s, g) e) (h : Turn lib setup s e t out) :
    (g.note s e t).Counts lib t := by
  have hcounted := Nat.le_succ_of_le hc.counted
  have idle : ∀ {holder : Option Phase} {P : Phase → Prop}, holder = none →
      ∀ p ∈ holder, P p := by
    intro holder P hnone p hp
    rw [hnone] at hp
    cases hp
  cases h with
  | refused hh | cached hh => exact ⟨hcounted, idle hh, hc.last⟩
  | refreshing => exact ⟨hcounted, fun _ _ _ _ ↦ Nat.lt_succ_of_le hc.counted, hc.last⟩
  | @unread _ _ _ _ error | @unusable _ _ _ _ _ error =>
    obtain ⟨needsLogin, lastError, hm⟩ := refreshFailed_frame s.manager error
    rw [hm]
    exact ⟨hcounted, idle rfl, hc.last⟩
  | refreshRead hh =>
    exact ⟨hcounted, fun _ _ _ ↦ hc.requested _ hh rfl, hc.last⟩
  | asked => exact ⟨hcounted, hc.requested, hc.last⟩
  | authorizing he hh hh' =>
    rw [note_authorizes he]
    refine ⟨hcounted, fun p hp hrenews ↦ ?_, hc.last⟩
    have hauthorizing := hh' p hp
    cases p <;> simp [Phase.renews, Phase.authorizing] at hrenews hauthorizing
  | loginRead he =>
    rw [note_authorizes he]
    refine ⟨hcounted, fun p hp hrenews ↦ ?_, hc.last⟩
    obtain rfl := Option.some.inj hp
    cases hrenews
  | unsaved => exact ⟨hcounted, idle rfl, hc.last⟩
  | @uninstalled caller result token _ _ hh hl =>
    rw [note_saved hh]
    cases caller with
    | refresh => exact hc.install hh rfl rfl
    | login =>
      simp [Orderly, Session.unreadable, hh, hl, Except.toBool] at ho
  | renewed hh =>
    rw [note_saved hh]
    exact hc.install hh rfl rfl
  | loggedIn => exact ⟨hcounted, idle rfl, fun hpos ↦ absurd hpos (lt_irrefl 0)⟩
  | rejected hh => exact hc.rejected hcur ho hh (rejectedToken_cases ..)
  | accepted =>
    exact ⟨hcounted, fun _ _ _ hpos ↦ absurd hpos (lt_irrefl 0),
      fun hpos ↦ absurd hpos (lt_irrefl 0)⟩
  | disconnecting =>
    refine ⟨hcounted, fun p hp hrenews ↦ ?_, hc.last⟩
    obtain rfl := Option.some.inj hp
    cases hrenews
  | undisconnected => exact ⟨hcounted, idle rfl, hc.last⟩
  | disconnected =>
    refine ⟨hcounted, idle rfl, fun hpos ↦ (hc.last hpos).imp_right fun hcounted ↦ ?_⟩
    exact ⟨rfl, hcounted.2⟩

section Runs

variable (lib email setup) in
/-- A session with the generations of its tokens. -/
abbrev stepIssued : Session × Generations → Event → Option (Session × Generations) :=
  observe (Session.step lib email setup) Generations.note

variable {vault : Record} {events : List Event} {w w' : Session × Generations}

theorem Generations.Current.observed (hc : w.2.Current w.1)
    (h : stepIssued lib email setup w e = some w') : w'.2.Current w'.1 := by
  obtain ⟨hstep, hnote⟩ := observe_eq_some.mp h
  obtain ⟨t, out, -, hturn, ht⟩ := turn_of_step hstep
  have hnext := hc.step hturn
  rw [hnote, ht]
  exact hnext

theorem Generations.Counts.observed (hc : w.2.Counts lib w.1 ∧ w.2.Current w.1)
    (ho : Orderly lib w e) (h : stepIssued lib email setup w e = some w') :
    w'.2.Counts lib w'.1 ∧ w'.2.Current w'.1 := by
  refine ⟨?_, hc.2.observed h⟩
  obtain ⟨hstep, hnote⟩ := observe_eq_some.mp h
  obtain ⟨t, out, -, hturn, ht⟩ := turn_of_step hstep
  have hnext := hc.1.step hc.2 ho hturn
  rw [hnote, ht]
  exact ⟨hnext.counted, hnext.requested, hnext.last⟩

end Runs

instance : Decidable (g.Superseded token) := by unfold Generations.Superseded; infer_instance

instance : Decidable g.Distinct := by unfold Generations.Distinct; infer_instance

instance : Decidable (s.Tolerates lib token) := by unfold Session.Tolerates; infer_instance

instance {w : Session × Generations} : Decidable (Orderly lib w e) := by
  unfold Orderly
  split <;> infer_instance

end NoreplyGateway.Oauth
