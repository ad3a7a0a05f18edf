import NoreplyGateway.Upstream.Rejections

namespace NoreplyGateway.Upstream

/-- The delays that a throttling response asks for, by its header or in an EWS
body. -/
inductive Asks (lib : Library) (kind : BackendKind) (now : Time) (response : Response) :
    PyFloat → Prop
  | retryAfter : Asks lib kind now response (retryAfter lib now response.retryAfter)
  | backOff {content : Octets} {root value : Xml} {x : PyFloat}
      (hews : IsEws kind response content) (hroot : lib.fromstring content = some root)
      (hvalue : value ∈ root.iter) (hname : value.get "Name" = some "BackOffMilliseconds")
      (hx : lib.float (if value.text.getD "" = "" then "0" else value.text.getD "") = some x) :
      Asks lib kind now response (x.divBy 1000)

variable {lib : Library} {kind : BackendKind} {tokens : Tokens} {token text : String} {now : Time}
  {asked : PyFloat} {cooldown : Bool}

theorem retryAfter_num (lib : Library) (now : Time) (value : Option String) : ∃ x, retryAfter lib now value = .num x := by
  unfold retryAfter
  split
  · exact ⟨_, rfl⟩
  · split
    · next delay _ =>
      split_ifs
      · cases delay with
        | nan => simp_all [PyFloat.le]
        | num x => exact ⟨x, rfl⟩
      · exact ⟨_, rfl⟩
    · split
      · exact ⟨_, PyFloat.max_num _ _⟩
      · exact ⟨_, rfl⟩

/-- The step of the loop in `backOff`. -/
def backOffStep (lib : Library) (delay : PyFloat) (value : Xml) : PyFloat :=
  if value.get "Name" = some "BackOffMilliseconds" then
    match lib.float (if value.text.getD "" = "" then "0" else value.text.getD "") with
    | some x => PyFloat.max delay (x.divBy 1000)
    | none => delay
  else delay

theorem backOffStep_num (lib : Library) (x : Extended) (value : Xml) :
    ∃ y, backOffStep lib (.num x) value = .num y ∧ x ≤ y := by
  by_cases hname : value.get "Name" = some "BackOffMilliseconds"
  · rw [backOffStep, if_pos hname]
    generalize lib.float _ = z
    rcases z with _ | _ | z
    · exact ⟨x, rfl, le_rfl⟩
    · exact ⟨x, rfl, le_rfl⟩
    · exact ⟨_, PyFloat.max_num _ _, le_sup_left⟩
  · exact ⟨x, if_neg hname, le_rfl⟩

theorem backOff_foldl (lib : Library) (l : List Xml) (x : Extended) :
    ∃ y, l.foldl (backOffStep lib) (.num x) = .num y ∧ x ≤ y := by
  induction l generalizing x with
  | nil => exact ⟨x, rfl, le_rfl⟩
  | cons value l ih =>
    obtain ⟨y, hy, hxy⟩ := backOffStep_num lib x value
    obtain ⟨z, hz, hyz⟩ := ih y
    exact ⟨z, by rw [List.foldl_cons, hy, hz], hxy.trans hyz⟩

theorem not_lt_of_le {x y : Extended} {z : PyFloat} (hxy : x ≤ y)
    (h : PyFloat.lt (.num x) z = false) : PyFloat.lt (.num y) z = false := by
  cases z with
  | nan => rfl
  | num z =>
    simp only [PyFloat.lt, decide_eq_false_iff_not, not_lt] at h ⊢
    exact h.trans hxy

theorem backOff_value (l : List Xml) (x : Extended) {value : Xml} {z : PyFloat} (hv : value ∈ l)
    (hname : value.get "Name" = some "BackOffMilliseconds")
    (hz : lib.float (if value.text.getD "" = "" then "0" else value.text.getD "") = some z) :
    PyFloat.lt (l.foldl (backOffStep lib) (.num x)) (z.divBy 1000) = false := by
  obtain ⟨before, after, rfl⟩ := List.append_of_mem hv
  obtain ⟨y, hy, -⟩ := backOff_foldl lib before x
  obtain ⟨w, hw, -⟩ := backOffStep_num lib y value
  obtain ⟨v, hv, hwv⟩ := backOff_foldl lib after w
  rw [List.foldl_append, hy, List.foldl_cons, hw, hv]
  refine not_lt_of_le hwv ?_
  rw [← hw, backOffStep, if_pos hname, hz]
  exact PyFloat.not_max_lt_right _ _

theorem backOff_eq (root : Xml) (delay : PyFloat) :
    backOff lib root delay = root.iter.foldl (backOffStep lib) delay := rfl

theorem retryable_of_interpretEws {status : ℕ} {content : Octets} {delay : PyFloat}
    (h : interpretEws lib status content delay = .error (.retryable text asked cooldown)) :
    ∃ root, lib.fromstring content = some root ∧
      (asked = backOff lib root delay ∨ asked = PyFloat.max (backOff lib root delay) (3600 : ℚ)) := by
  unfold interpretEws at h
  split at h
  · cases h
  next root hroot =>
    refine ⟨root, hroot, ?_⟩
    split at h
    · dsimp only at h
      split_ifs at h <;> cases h
      · exact .inl rfl
      · exact .inr rfl
    · cases h

theorem graphCode_error {content : Octets} {e : DeliveryError}
    (h : graphCode lib content = .error e) : ∃ name, e = .unexpected name := by
  unfold graphCode at h
  split at h <;> cases h
  exact ⟨_, rfl⟩

theorem accessDenied_ne {content : Octets} :
    accessDenied lib kind content ≠ .retryable text asked cooldown := by
  intro h
  unfold accessDenied at h
  cases kind with
  | ews => cases h
  | graph =>
    dsimp only at h
    split at h
    next e he =>
      obtain ⟨name, rfl⟩ := graphCode_error he
      cases h
    · cases h
    · cases h

theorem clientFailure_ne {status : ℕ} {content : Octets} :
    clientFailure lib kind status content ≠ .retryable text asked cooldown := by
  intro h
  unfold clientFailure at h
  dsimp only at h
  split at h
  next e he =>
    cases kind with
    | ews => cases he
    | graph =>
      dsimp only at he
      cases hc : graphCode lib content with
      | error e' =>
        obtain ⟨name, rfl⟩ := graphCode_error hc
        rw [hc] at he
        cases he
        cases h
      | ok v =>
        rw [hc] at he
        simp only [Except.bind, textOf] at he
        split at he <;> cases he
        cases h
  · cases h

/-- Unless the token was rejected, an answered request is put off for as long
as the response asks. -/
theorem not_lt_of_asks {response : Response} {z : PyFloat} (hs : response.status ≠ 401)
    (h : (respond lib kind tokens token now response).1 = .error (.retryable text asked cooldown))
    (hz : Asks lib kind now response z) : PyFloat.lt asked z = false := by
  obtain ⟨x, hx⟩ := retryAfter_num lib now response.retryAfter
  unfold respond at h
  split at h
  · cases h
  next content hcontent =>
    simp only [if_neg hs] at h
    split_ifs at h with h₂ h₃ h₄ h₅ h₆
    · exact absurd (Except.error.inj h) accessDenied_ne
    · cases h
      cases hz with
      | retryAfter => simp [hx, PyFloat.lt]
      | backOff hews =>
        have hstatus := hews.2.2
        simp [h₃] at hstatus
    · split at h
      · cases h
      next e he =>
        cases h
        obtain ⟨root, hroot, hasked⟩ := retryable_of_interpretEws he
        obtain ⟨y, hy, hxy⟩ := backOff_foldl lib root.iter x
        have hkept : PyFloat.lt (backOff lib root (.num x)) z = false → PyFloat.lt asked z = false := by
          intro hb
          rw [hx, backOff_eq, hy] at hasked
          rw [backOff_eq, hy] at hb
          rcases hasked with rfl | rfl
          · exact hb
          · rw [PyFloat.max_num]
            exact not_lt_of_le le_sup_left hb
        refine hkept ?_
        cases hz with
        | retryAfter =>
          rw [hx, backOff_eq, hy]
          simpa [PyFloat.lt] using hxy
        | @backOff content' root' value z hews hroot' hvalue hname hz =>
          obtain rfl := Option.some.inj (hcontent.symm.trans hews.1)
          obtain rfl := Option.some.inj (hroot.symm.trans hroot')
          exact backOff_value root.iter x hvalue hname hz
    · cases h
    · exact absurd (Except.error.inj h) clientFailure_ne
    · cases h

section Finite

/-- The delay that an outcome asks the dispatcher for. -/
def DeliveryError.delay : DeliveryError → PyFloat
  | .retryable _ delay _ => delay
  | _ => (0 : ℚ)

/-- A back-off that `float()` reads as infinite. -/
def Unbounded (lib : Library) (value : Xml) : Prop :=
  value.get "Name" = some "BackOffMilliseconds" ∧
    lib.float (if value.text.getD "" = "" then "0" else value.text.getD "") = some PyFloat.inf

def throttleCodes : List String := ["ErrorServerBusy", "ErrorExceededConnectionCount",
  "ErrorMailboxStoreUnavailable", "ErrorInsufficientResources",
  "ErrorInternalServerTransientError"]

def quotaCodes : List String :=
  ["ErrorQuotaExceeded", "ErrorMessageSubmissionBlocked", "ErrorSendQuotaExceeded"]

/-- The document puts the message off for an infinite time. -/
def EndlessDocument (lib : Library) (content : Octets) : Prop :=
  ∃ root item, lib.fromstring content = some root ∧ responseMessages root = [item] ∧
    (responseCode item ∈ throttleCodes ∨ responseCode item ∈ quotaCodes) ∧
    ∃ value ∈ root.iter, Unbounded lib value

def Endless (lib : Library) (kind : BackendKind) (response : Response) : Prop :=
  ∃ content, IsEws kind response content ∧ EndlessDocument lib content

end Finite

end NoreplyGateway.Upstream
