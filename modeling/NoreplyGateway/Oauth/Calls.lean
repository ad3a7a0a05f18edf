import NoreplyGateway.Oauth.Session

namespace NoreplyGateway.Oauth

open Upstream

/-- The call of `complete_login` that has the lock. -/
def Phase.login? : Phase → Option Login
  | .exchanging login _ | .verifying login _ | .profiling login _ _ => some login
  | .saving caller _ _ => caller.task?
  | .refreshing .. | .disconnecting _ => none

/-- The calls of `complete_login` that are going on. -/
def Session.logins (s : Session) : List Login := s.waiting ++ (s.holder.bind Phase.login?).toList

/-- The manager has a call of this task. -/
def Session.Serves (s : Session) (task : ℕ) : Prop :=
  (∃ login ∈ s.logins, login.task = task) ∨ s.holder = some (.disconnecting task)

/-- The task whose call has ended. -/
def Output.ended : Output → Option ℕ
  | .login task _ | .disconnected task _ => some task
  | .token _ | .rejected _ => none

/-- The task that a step is a part of. Refreshes, rejections and acceptances are
parts of the delivery of mail. -/
def Session.author (s : Session) : Event → Option ℕ
  | .completeLogin task .. | .disconnect task => some task
  | .enter login => some login.task
  | .exchanged _ | .verified .. | .profiled .. | .saved .. | .disconnectWritten .. =>
    match s.holder with
    | some (.disconnecting task) => some task
    | holder => (holder.bind Phase.login?).map (·.task)
  | .getToken _ | .refreshed .. | .rejected _ | .accepted => none

variable {lib : Library} {email : EmailPackage} {setup : Setup} {s t : Session} {e : Event}
  {r : Session × Option Output} {login : Login} {task : ℕ}

theorem mem_logins : login ∈ s.logins ↔
    login ∈ s.waiting ∨ ∃ phase, s.holder = some phase ∧ phase.login? = some login := by
  rw [Session.logins, List.mem_append, Option.mem_toList, Option.bind_eq_some_iff]

/-- The result of a call that had the lock: the calls that wait go on, and the
call itself goes on or ends. -/
structure Proceeds (s : Session) (caller : Option Login) (r : Session × Option Output) : Prop where
  waiting : r.1.waiting = s.waiting
  holder : r.1.holder = none ∨ ∃ phase, r.1.holder = some phase ∧ phase.login? = caller ∧
    ∀ task, phase ≠ .disconnecting task
  output : ∀ output task, r.2 = some output → output.ended = some task →
    caller.map (·.task) = some task

theorem fail_proceeds (s : Session) (caller : Option Login) (error : DeliveryError) :
    Proceeds s caller (s.fail caller error) := by
  cases caller with
  | none =>
    refine ⟨rfl, .inl rfl, ?_⟩
    rintro _ _ ⟨⟩ h
    cases h
  | some login =>
    refine ⟨rfl, .inl rfl, ?_⟩
    rintro _ _ ⟨⟩ h
    exact h

theorem save_proceeds {caller : Caller} {result : Fields} {mode username defaultSender : String}
    {now : Time} (h : s.save setup caller result mode username defaultSender now = .ok t) :
    t.waiting = s.waiting ∧ ∃ token, t.holder = some (.saving caller result token) := by
  unfold Session.save at h
  cases hr : saveResult setup s.manager.record result mode username defaultSender now with
  | error e => simp [hr, Except.map] at h
  | ok saved =>
    simp only [hr, Except.map, Except.ok.injEq] at h
    subst h
    exact ⟨rfl, _, rfl⟩

theorem saveLogin_proceeds (s : Session) (login : Login) (result claims : Fields) (address : String)
    (now : Time) :
    Proceeds s (some login) (s.saveLogin setup login result claims address now) := by
  unfold Session.saveLogin
  dsimp only
  split
  · next hsave =>
    obtain ⟨hwaiting, token, hholder⟩ := save_proceeds hsave
    exact ⟨hwaiting, .inr ⟨_, hholder, rfl, by simp⟩, by rintro _ _ ⟨⟩⟩
  · exact fail_proceeds _ _ _

theorem identify_proceeds (s : Session) (login : Login) (result claims : Fields) (now : Time) :
    Proceeds s (some login) (s.identify setup login result claims now) := by
  unfold Session.identify
  split_ifs
  · exact fail_proceeds _ _ _
  · split
    · exact fail_proceeds _ _ _
    · refine ⟨rfl, .inr ⟨_, rfl, rfl, by simp⟩, ?_⟩
      rintro _ _ ⟨⟩
    · exact fail_proceeds _ _ _
  · exact saveLogin_proceeds _ _ _ _ _ _

theorem persisted_proceeds (s : Session) (caller : Caller) (result : Fields) (token : String)
    (write : Write) (now : Time) :
    Proceeds s caller.task? (s.persisted lib caller result token write now) := by
  unfold Session.persisted
  cases write with
  | failed replaced =>
    have hfail (replaced : Bool) := fail_proceeds
      (if replaced then { s with vault := s.manager.record } else s) caller.task?
      (.retryable "Cannot persist renewed account credentials" (30 : ℚ) true)
    refine ⟨(hfail replaced).waiting.trans ?_, (hfail replaced).holder, (hfail replaced).output⟩
    cases replaced <;> rfl
  | done =>
    dsimp only
    split
    · obtain ⟨hwaiting, hholder, houtput⟩ := fail_proceeds { s with
        vault := s.manager.record
        manager := (install lib s.manager result token now).1
        tokenChain := s.recordChain } caller.task? _
      exact ⟨hwaiting, hholder, houtput⟩
    · cases caller with
      | refresh =>
        refine ⟨rfl, .inl rfl, ?_⟩
        rintro _ _ ⟨⟩ h
        cases h
      | login login address =>
        refine ⟨rfl, .inl rfl, ?_⟩
        rintro _ _ ⟨⟩ h
        exact h

/-- The calls after a step: none is new, except one that begins with it, and a
call that ends was going on. -/
structure Continues (s : Session) (e : Event) (r : Session × Option Output) : Prop where
  logins : ∀ login ∈ r.1.logins, login ∈ s.logins ∨ ∃ response now,
    e = .completeLogin login.task login.flow response now ∧
      checkResponse login.flow response now = .ok login.code
  disconnecting : ∀ task, r.1.holder = some (.disconnecting task) →
    s.holder = some (.disconnecting task) ∨ e = .disconnect task
  output : ∀ output task, r.2 = some output → output.ended = some task →
    s.Serves task ∨ ∃ flow response now, e = .completeLogin task flow response now

theorem Proceeds.continues {phase : Phase} {caller : Option Login}
    (h : Proceeds s caller r) (hs : s.holder = some phase) (hp : phase.login? = caller) :
    Continues s e r := by
  refine ⟨fun login hl ↦ .inl ?_, fun task ht ↦ ?_, fun output task ho he ↦ ?_⟩
  · rcases mem_logins.mp hl with hw | ⟨phase', hp', hl'⟩
    · exact mem_logins.mpr (.inl (h.waiting ▸ hw))
    · rcases h.holder with hnone | ⟨phase'', hsome, hcaller, -⟩
      · cases hnone.symm.trans hp'
      · obtain rfl := Option.some.inj (hsome.symm.trans hp')
        exact mem_logins.mpr (.inr ⟨phase, hs, hp.trans (hcaller.symm.trans hl')⟩)
  · rcases h.holder with hnone | ⟨phase', hsome, -, hne⟩
    · cases hnone.symm.trans ht
    · exact absurd (Option.some.inj (hsome.symm.trans ht)) (hne task)
  · obtain ⟨login, rfl, rfl⟩ := Option.map_eq_some_iff.mp (h.output output task ho he)
    exact .inl (.inl ⟨login, mem_logins.mpr (.inr ⟨phase, hs, hp⟩), rfl⟩)

/-- A step that begins no call and ends none. -/
theorem Continues.of_eq (hw : r.1.waiting = s.waiting)
    (hh : r.1.holder = s.holder ∨
      ∃ phase, r.1.holder = some phase ∧ phase.login? = none ∧ ∀ task, phase ≠ .disconnecting task)
    (ho : ∀ output, r.2 = some output → output.ended = none) : Continues s e r := by
  refine ⟨fun login hl ↦ .inl ?_, fun task ht ↦ .inl ?_, fun output task hr he ↦ ?_⟩
  · rcases mem_logins.mp hl with hl | ⟨phase, hp, hl⟩
    · exact mem_logins.mpr (.inl (hw ▸ hl))
    · rcases hh with hh | ⟨phase', hp', hnone, -⟩
      · exact mem_logins.mpr (.inr ⟨phase, hh ▸ hp, hl⟩)
      · obtain rfl := Option.some.inj (hp'.symm.trans hp)
        cases hnone.symm.trans hl
  · rcases hh with hh | ⟨phase', hp', -, hne⟩
    · exact hh ▸ ht
    · exact absurd (Option.some.inj (hp'.symm.trans ht)) (hne task)
  · cases (ho output hr).symm.trans he

theorem continues_of_perform (h : s.perform lib email setup e = some r) : Continues s e r := by
  cases e with
  | getToken now =>
    simp only [Session.perform] at h
    split_ifs at h
    split at h <;> cases h
    · exact .of_eq rfl (.inl rfl) (by rintro _ ⟨⟩; rfl)
    · exact .of_eq rfl (.inl rfl) (by rintro _ ⟨⟩; rfl)
    · exact .of_eq rfl (.inr ⟨_, rfl, rfl, by simp⟩) (by rintro _ ⟨⟩)
  | refreshed post now =>
    simp only [Session.perform] at h
    split at h
    · next hholder =>
      split at h
      · obtain rfl := Option.some.inj h
        exact (fail_proceeds s none _).continues hholder rfl
      · split at h
        · obtain rfl := Option.some.inj h
          exact (fail_proceeds s none _).continues hholder rfl
        · next hsave =>
          cases h
          obtain ⟨hwaiting, token, hholder⟩ := save_proceeds hsave
          exact .of_eq hwaiting (.inr ⟨_, hholder, rfl, by simp⟩) (by rintro _ ⟨⟩)
    · cases h
  | completeLogin task flow response now =>
    simp only [Session.perform] at h
    split at h
    · cases h
      refine ⟨fun login hl ↦ .inl hl, fun task ht ↦ .inl ht, ?_⟩
      rintro _ _ ⟨⟩ ⟨⟩
      exact .inr ⟨_, _, _, rfl⟩
    · next code hcode =>
      cases h
      refine ⟨fun login hl ↦ ?_, fun task ht ↦ .inl ht, by rintro _ _ ⟨⟩⟩
      rcases mem_logins.mp hl with hl | hl
      · rcases List.mem_append.mp hl with hl | hl
        · exact .inl (mem_logins.mpr (.inl hl))
        · obtain rfl := List.mem_singleton.mp hl
          exact .inr ⟨_, _, rfl, hcode⟩
      · exact .inl (mem_logins.mpr (.inr hl))
  | enter login =>
    simp only [Session.perform] at h
    split_ifs at h with hfree
    rw [not_or, Bool.not_eq_true, Option.isSome_eq_false_iff, Option.isNone_iff_eq_none,
      not_not] at hfree
    obtain ⟨hholder, hmem⟩ := hfree
    have hlogin : login ∈ s.logins := mem_logins.mpr (.inl hmem)
    have hrest (login' : Login) (hl : login' ∈ s.waiting.erase login) : login' ∈ s.logins :=
      mem_logins.mpr (.inl (List.mem_of_mem_erase hl))
    split at h <;> cases h
    · refine ⟨fun login' hl ↦ .inl ?_, fun task ht ↦ ?_, ?_⟩
      · rcases mem_logins.mp hl with hl | ⟨_, hp, _⟩
        · exact hrest login' hl
        · cases hp
      · cases ht
      · rintro _ _ ⟨⟩ ⟨⟩
        exact .inl (.inl ⟨login, hlogin, rfl⟩)
    · refine ⟨fun login' hl ↦ .inl ?_, fun task ht ↦ ?_, by rintro _ _ ⟨⟩⟩
      · rcases mem_logins.mp hl with hl | ⟨_, ⟨⟩, ⟨⟩⟩
        · exact hrest login' hl
        · exact hlogin
      · cases ht
  | exchanged post =>
    simp only [Session.perform] at h
    split at h
    · next hholder =>
      split at h
      · obtain rfl := Option.some.inj h
        exact (fail_proceeds _ _ _).continues hholder rfl
      · cases h
        exact Proceeds.continues ⟨rfl, .inr ⟨_, rfl, rfl, by simp⟩, by rintro _ _ ⟨⟩⟩ hholder rfl
    · cases h
  | verified claims now =>
    simp only [Session.perform] at h
    split at h
    · next hholder =>
      split at h
      · obtain rfl := Option.some.inj h
        exact (fail_proceeds _ _ _).continues hholder rfl
      · obtain rfl := Option.some.inj h
        exact (identify_proceeds _ _ _ _ _).continues hholder rfl
    · cases h
  | profiled post now =>
    simp only [Session.perform] at h
    split at h
    · next hholder =>
      split at h
      · obtain rfl := Option.some.inj h
        exact (fail_proceeds _ _ _).continues hholder rfl
      · obtain rfl := Option.some.inj h
        exact (saveLogin_proceeds _ _ _ _ _ _).continues hholder rfl
    · cases h
  | saved write now =>
    simp only [Session.perform] at h
    split at h
    · next hholder =>
      obtain rfl := Option.some.inj h
      exact (persisted_proceeds _ _ _ _ _ _).continues hholder rfl
    · cases h
  | rejected token =>
    simp only [Session.perform] at h
    split_ifs at h
    cases h
    exact .of_eq rfl (.inl rfl) (by rintro _ ⟨⟩; rfl)
  | accepted =>
    cases h
    exact .of_eq rfl (.inl rfl) (by rintro _ ⟨⟩)
  | disconnect task =>
    simp only [Session.perform] at h
    split_ifs at h with hfree
    cases h
    refine ⟨fun login hl ↦ .inl ?_, ?_, by rintro _ _ ⟨⟩⟩
    · rcases mem_logins.mp hl with hl | ⟨_, ⟨⟩, ⟨⟩⟩
      exact mem_logins.mpr (.inl hl)
    · rintro _ ⟨⟩
      exact .inr rfl
  | disconnectWritten write now =>
    simp only [Session.perform] at h
    split at h
    · next task hholder =>
      split at h <;> cases h
      all_goals
        refine ⟨fun login hl ↦ .inl ?_, by rintro _ ⟨⟩, ?_⟩
        · rcases mem_logins.mp hl with hl | ⟨_, ⟨⟩, _⟩
          exact mem_logins.mpr (.inl hl)
        · rintro _ _ ⟨⟩ ⟨⟩
          exact .inl (.inr hholder)
    · cases h

/-- A call waits for the lock from its beginning until it enters. -/
theorem waiting_of_perform (h : s.perform lib email setup e = some r) :
    r.1.waiting = s.waiting ∨
    (∃ login, e = .enter login ∧ login ∈ s.waiting ∧ r.1.waiting = s.waiting.erase login) ∨
    ∃ task flow response now code, e = .completeLogin task flow response now ∧
      checkResponse flow response now = .ok code ∧
      r.1.waiting = s.waiting ++ [⟨task, flow, code⟩] := by
  cases e with
  | getToken now =>
    simp only [Session.perform] at h
    split_ifs at h
    split at h <;> cases h <;> exact .inl rfl
  | refreshed post now =>
    simp only [Session.perform] at h
    split at h
    · split at h
      · obtain rfl := Option.some.inj h
        exact .inl (fail_proceeds _ _ _).waiting
      · split at h
        · obtain rfl := Option.some.inj h
          exact .inl (fail_proceeds _ _ _).waiting
        · next hsave =>
          cases h
          exact .inl (save_proceeds hsave).1
    · cases h
  | completeLogin task flow response now =>
    simp only [Session.perform] at h
    split at h
    · cases h
      exact .inl rfl
    · next code hcode =>
      cases h
      exact .inr (.inr ⟨_, _, _, _, code, rfl, hcode, rfl⟩)
  | enter login =>
    simp only [Session.perform] at h
    split_ifs at h with hfree
    rw [not_or, not_not] at hfree
    split at h <;> cases h <;> exact .inr (.inl ⟨login, rfl, hfree.2, rfl⟩)
  | exchanged post =>
    simp only [Session.perform] at h
    split at h
    · split at h <;> cases h <;> exact .inl rfl
    · cases h
  | verified claims now =>
    simp only [Session.perform] at h
    split at h
    · split at h
      · obtain rfl := Option.some.inj h
        exact .inl (fail_proceeds _ _ _).waiting
      · obtain rfl := Option.some.inj h
        exact .inl (identify_proceeds _ _ _ _ _).waiting
    · cases h
  | profiled post now =>
    simp only [Session.perform] at h
    split at h
    · split at h
      · obtain rfl := Option.some.inj h
        exact .inl (fail_proceeds _ _ _).waiting
      · obtain rfl := Option.some.inj h
        exact .inl (saveLogin_proceeds _ _ _ _ _ _).waiting
    · cases h
  | saved write now =>
    simp only [Session.perform] at h
    split at h
    · obtain rfl := Option.some.inj h
      exact .inl (persisted_proceeds _ _ _ _ _ _).waiting
    · cases h
  | rejected token =>
    simp only [Session.perform] at h
    split_ifs at h
    cases h
    exact .inl rfl
  | accepted =>
    cases h
    exact .inl rfl
  | disconnect task =>
    simp only [Session.perform] at h
    split_ifs at h
    cases h
    exact .inl rfl
  | disconnectWritten write now =>
    simp only [Session.perform] at h
    split at h
    · split at h <;> cases h <;> exact .inl rfl
    · cases h

end NoreplyGateway.Oauth
