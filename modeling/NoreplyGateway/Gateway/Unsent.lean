import NoreplyGateway.Gateway.Exchanges
import NoreplyGateway.Oauth.Persistence

namespace NoreplyGateway.Gateway

open Machine Store Upstream

variable {lib : Library} {email : EmailPackage}

/-- No POST of the message is issued. -/
def Exchange.Unsent : Exchange lib email → Prop
  | .legacy _ call | .additional call => NotTransmitted call.token call.post
  | .disconnected => True

/-- Whatever keeps the POST from being issued is something the code provides
for. -/
def Call.Foreseen (call : Call lib email) : Prop :=
  ¬Oauth.Escapes lib call.manager call.event ∧
  ∀ token error, call.token = .ok token → call.post = .raised error false →
    error = .clientConnectorError ∨ error = .connectionTimeoutError

def Exchange.Foreseen : Exchange lib email → Prop
  | .legacy _ call | .additional call => call.Foreseen
  | .disconnected => True

theorem Call.definite_iff {call : Call lib email} (h : NotTransmitted call.token call.post)
    (kind : BackendKind) :
    ∃ e, call.result kind = .error e ∧ (e.Definite ↔ call.Foreseen) := by
  obtain ⟨setup, manager, event, after, token, ends, tokens, now, post⟩ := call
  cases token with
  | error e =>
    refine ⟨e, rfl, (Oauth.definite_iff ends).trans ⟨fun hn ↦ ⟨hn, ?_⟩, fun hf ↦ hf.1⟩⟩
    intro token error htoken
    cases htoken
  | ok token =>
    obtain ⟨e, he⟩ | ⟨error, hpost⟩ := h
    · cases he
    dsimp only at hpost
    subst hpost
    have hforeseen : ¬Oauth.Escapes lib manager event := (Oauth.expected_iff ends).mp trivial
    cases error with
    | clientConnectorError =>
      refine ⟨_, rfl, iff_of_true trivial ⟨hforeseen, fun _ _ _ he ↦ ?_⟩⟩
      cases he
      exact .inl rfl
    | connectionTimeoutError =>
      refine ⟨_, rfl, iff_of_true trivial ⟨hforeseen, fun _ _ _ he ↦ ?_⟩⟩
      cases he
      exact .inr rfl
    | _ =>
      refine ⟨_, rfl, iff_of_false id (fun hf ↦ ?_)⟩
      rcases hf.2 token _ rfl rfl with he | he <;> cases he

theorem Exchange.definite_iff {x : Exchange lib email} (h : x.Unsent) :
    ∃ e, x.result = .error e ∧ (e.Definite ↔ x.Foreseen) := by
  cases x with
  | disconnected => exact ⟨_, rfl, Iff.rfl⟩
  | legacy kind call => exact Call.definite_iff h kind
  | additional call =>
    obtain ⟨e, he, hiff⟩ := Call.definite_iff h .graph
    cases e with
    | authenticationRequired message =>
      exact ⟨.additionalAuthenticationRequired message, by rw [Exchange.result, he]; rfl, hiff⟩
    | _ => exact ⟨_, by rw [Exchange.result, he]; rfl, hiff⟩

def Event.Foreseen : Event lib email → Prop
  | .attempt _ exchange _ _ => exchange.Foreseen
  | .other .. => False

variable {u v : Gateway} {index : ℕ} {message : Row}

end NoreplyGateway.Gateway
