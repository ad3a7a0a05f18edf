import NoreplyGateway.Oauth.Turns
import NoreplyGateway.Upstream.Delays

namespace NoreplyGateway.Oauth

open Upstream

variable {lib : Library} {email : EmailPackage} {setup : Setup} {m : TokenManager} {now : Time}
  {e : DeliveryError} {s t : Session} {event : Event}

theorem addClientSecret_error {data : Fields}
    (h : addClientSecret setup data = .error e) : ∃ message, e = .authenticationRequired message := by
  unfold addClientSecret at h
  dsimp only at h
  split_ifs at h
  exact ⟨_, (Except.error.inj h).symm⟩

theorem getToken_error (h : getToken setup m now = .error e) :
    ∃ message, e = .authenticationRequired message := by
  unfold getToken at h
  by_cases hlogin : m.needsLogin = true ∨ (m.record.refreshToken.getD .null).truthy = false
  · rw [if_pos hlogin] at h
    exact ⟨_, (Except.error.inj h).symm⟩
  rw [if_neg hlogin] at h
  split_ifs at h
  cases hdata : refreshData setup m.record with
  | ok data => simp [hdata, Except.map] at h
  | error e' =>
    simp only [hdata, Except.map, Except.error.injEq] at h
    subst h
    exact addClientSecret_error hdata

theorem saveResult_error {record : Record} {result : Fields} {mode username address : String}
    (h : saveResult setup record result mode username address now = .error e) :
    ∃ message, e = .authenticationRequired message := by
  unfold saveResult at h
  split at h
  · exact ⟨_, (Except.error.inj h).symm⟩
  · dsimp only at h
    split_ifs at h
    exact ⟨_, (Except.error.inj h).symm⟩

theorem readJson_error {post : PostResult} (h : readJson lib post = .error e) :
    (∃ message, e = .authenticationRequired message) ∨
    (∃ message, e = .retryable message (30 : ℚ) true) ∨ ∃ name, e = .unexpected name := by
  unfold readJson at h
  split at h
  · exact .inr (.inr ⟨_, (Except.error.inj h).symm⟩)
  · exact .inr (.inl ⟨_, (Except.error.inj h).symm⟩)
  · split at h
    · exact .inl ⟨_, (Except.error.inj h).symm⟩
    · split_ifs at h
      · exact .inr (.inl ⟨_, (Except.error.inj h).symm⟩)
      · split at h
        · exact .inl ⟨_, (Except.error.inj h).symm⟩
        · exact .inr (.inr ⟨_, (Except.error.inj h).symm⟩)
        · split_ifs at h
          split at h
          · exact .inr (.inr ⟨_, (Except.error.inj h).symm⟩)
          · exact .inr (.inr ⟨_, (Except.error.inj h).symm⟩)
          · exact .inl ⟨_, (Except.error.inj h).symm⟩
        · exact .inl ⟨_, (Except.error.inj h).symm⟩

/-- A token request ends in a way that `_read_json` does not provide for: with an
exception of another kind than the two it catches, with a body on which the JSON
parser fails otherwise than by a ValueError, or with an error that has no text. -/
def Unforeseen (lib : Library) : PostResult → Prop
  | .raised error _ => ∃ name, error = .other name
  | .answered response => ∃ content, readLimited 1048576 response.parts = some content ∧
      response.status ∉ [429, 500, 502, 503, 504] ∧
      ((∃ name, lib.loads content = .error (.other name)) ∨
        ∃ result, lib.loads content = .ok (.object result) ∧
          (response.status ≥ 300 ∨ (result.lookup "error").isSome) ∧
          ∃ error, lib.str ((result.lookup "error").getD (.string "identity_request_failed")) =
            .error error)

/-- The step ends `get_token` in a way it does not provide for. -/
def Escapes (lib : Library) (s : Session) : Event → Prop
  | .refreshed post _ => Unforeseen lib post
  | .saved .done _ => ∃ result token name, s.holder = some (.saving .refresh result token) ∧
      ((result.lookup "expires_in").getD (.number "3600")).float lib = .error name
  | _ => False

/-- What `get_token` may end with, by the way it ended. -/
inductive Ending (lib : Library) (s : Session) : Event → Except DeliveryError String → Prop
  | token {event : Event} {token : String} (hn : ¬Escapes lib s event) :
      Ending lib s event (.ok token)
  | refused {event : Event} {message : String} (he : ∀ post now, event ≠ .refreshed post now)
      (he' : ∀ write now, event ≠ .saved write now) :
      Ending lib s event (.error (.authenticationRequired message))
  | unread {mode : String} {data : Fields} {post : PostResult} {now : Time} {e : DeliveryError}
      (hh : s.holder = some (.refreshing mode data)) (hr : readJson lib post = .error e) :
      Ending lib s (.refreshed post now) (.error e)
  | unusable {post : PostResult} {now : Time} {message : String} {result : Fields}
      (hr : readJson lib post = .ok result) :
      Ending lib s (.refreshed post now) (.error (.authenticationRequired message))
  | unsaved {replaced : Bool} {now : Time} {message : String} :
      Ending lib s (.saved (.failed replaced) now) (.error (.retryable message (30 : ℚ) true))
  | uninstalled {result : Fields} {token name : String} {now : Time}
      (hh : s.holder = some (.saving .refresh result token))
      (hl : ((result.lookup "expires_in").getD (.number "3600")).float lib = .error name) :
      Ending lib s (.saved .done now) (.error (.unexpected name))

theorem ending_of_perform {r : Except DeliveryError String}
    (h : s.perform lib email setup event = some (t, some (.token r))) : Ending lib s event r := by
  generalize hout : some (Output.token r) = out at h
  cases turn_of_perform h with
  | refused _ hg =>
    cases hout
    obtain ⟨message, rfl⟩ := getToken_error hg
    exact .refused (by simp) (by simp)
  | cached =>
    cases hout
    exact .token id
  | @renewed result token _ _ hh hl =>
    cases hout
    refine .token ?_
    rintro ⟨result', token', name, hh', hl'⟩
    obtain ⟨-, rfl, rfl⟩ := Phase.saving.inj (Option.some.inj (hh.symm.trans hh'))
    rw [hl] at hl'
    cases hl'
  | unread hh hr =>
    cases hout
    exact .unread hh hr
  | unusable _ hr hs =>
    cases hout
    obtain ⟨message, rfl⟩ := saveResult_error hs
    exact .unusable hr
  | @unsaved caller =>
    cases caller <;> cases hout
    exact .unsaved
  | @uninstalled caller _ _ _ _ hh hl =>
    cases caller <;> cases hout
    exact .uninstalled hh hl
  | asked ho | authorizing _ _ _ _ ho => exact absurd hout.symm (ho _)
  | _ => cases hout

theorem error_of_ending (h : Ending lib s event (.error e)) :
    (∃ message, e = .authenticationRequired message) ∨
    (∃ message, e = .retryable message (30 : ℚ) true) ∨ ∃ name, e = .unexpected name := by
  cases h with
  | refused | unusable => exact .inl ⟨_, rfl⟩
  | unread _ hr => exact readJson_error hr
  | unsaved => exact .inr (.inl ⟨_, rfl⟩)
  | uninstalled => exact .inr (.inr ⟨_, rfl⟩)

theorem readJson_unforeseen {post : PostResult} (h : Unforeseen lib post) :
    ∃ name, readJson lib post = .error (.unexpected name) := by
  cases post with
  | raised error written =>
    obtain ⟨name, rfl⟩ := h
    exact ⟨name, rfl⟩
  | answered response =>
    obtain ⟨content, hparts, hstatus, ⟨name, hloads⟩ | ⟨result, hloads, hfailed, error, hstr⟩⟩ := h
    · exact ⟨name, by simp only [readJson, hparts, if_neg hstatus, hloads]⟩
    · simp only [readJson, hparts, if_neg hstatus, hloads, if_pos hfailed, hstr]
      cases error <;> exact ⟨_, rfl⟩

theorem unforeseen_of_readJson {post : PostResult} {name : String}
    (h : readJson lib post = .error (.unexpected name)) : Unforeseen lib post := by
  unfold readJson at h
  split at h
  · exact ⟨_, rfl⟩
  · cases h
  next response =>
    split at h
    · cases h
    next content hparts =>
      split_ifs at h with hstatus
      · cases h
      refine ⟨content, hparts, hstatus, ?_⟩
      split at h
      · cases h
      next name hloads => exact .inl ⟨name, hloads⟩
      next result hloads =>
        split_ifs at h with hfailed
        split at h
        next hstr => exact .inr ⟨result, hloads, hfailed, _, hstr⟩
        next hstr => exact .inr ⟨result, hloads, hfailed, _, hstr⟩
        · cases h
      · cases h

theorem unforeseen_iff {post : PostResult} :
    Unforeseen lib post ↔ ∃ name, readJson lib post = .error (.unexpected name) :=
  ⟨readJson_unforeseen, fun ⟨_, h⟩ ↦ unforeseen_of_readJson h⟩

/-- A token, or one of the two exceptions that `_attempt` takes for a failure
before the POST. -/
def Expected : Except DeliveryError String → Prop
  | .ok _ | .error (.authenticationRequired _) | .error (.retryable ..) => True
  | _ => False

theorem expected_iff {r : Except DeliveryError String}
    (h : s.perform lib email setup event = some (t, some (.token r))) :
    Expected r ↔ ¬Escapes lib s event := by
  cases ending_of_perform h with
  | token hn => exact iff_of_true trivial hn
  | refused he he' =>
    refine iff_of_true trivial ?_
    cases event with
    | refreshed post now => exact absurd rfl (he post now)
    | saved write now => exact absurd rfl (he' write now)
    | _ => exact id
  | @unread _ _ post _ e _ hr =>
    rw [Escapes, unforeseen_iff, hr]
    obtain ⟨message, rfl⟩ | ⟨message, rfl⟩ | ⟨name, rfl⟩ := readJson_error hr <;> simp [Expected]
  | unusable hr =>
    rw [Escapes, unforeseen_iff, hr]
    simp [Expected]
  | unsaved => exact iff_of_true trivial id
  | uninstalled hh hl => exact iff_of_false id (fun hn ↦ hn ⟨_, _, _, hh, hl⟩)

theorem definite_iff (h : s.perform lib email setup event = some (t, some (.token (.error e)))) :
    e.Definite ↔ ¬Escapes lib s event := by
  rw [← expected_iff h]
  obtain ⟨message, rfl⟩ | ⟨message, rfl⟩ | ⟨name, rfl⟩ := error_of_ending (ending_of_perform h) <;>
    exact Iff.rfl

end NoreplyGateway.Oauth
