import NoreplyGateway.Upstream.Backend

namespace NoreplyGateway.Upstream

/-- The outcomes after which a message may be sent again without asking. -/
def DeliveryError.Definite : DeliveryError → Prop
  | .retryable .. | .authenticationRequired _ | .additionalAuthenticationRequired _
  | .permanent _ => True
  | .uncertain _ | .unexpected _ => False

/-- aiohttp raises its two connection errors only before a request is written. -/
def ConnectsFirst (post : PostResult) : Prop :=
  ∀ error written, post = .raised error written →
    error = .clientConnectorError ∨ error = .connectionTimeoutError → written = false

/-- No POST was transmitted. -/
def NotTransmitted (getToken : Except DeliveryError String) (post : PostResult) : Prop :=
  (∃ e, getToken = .error e) ∨ ∃ error, post = .raised error false

/-- A response that is interpreted as EWS, and its body. -/
def IsEws (kind : BackendKind) (response : Response) (content : Octets) : Prop :=
  readLimited 1048576 response.parts = some content ∧ isXml kind content = true ∧
    response.status ∉ [401, 403, 429]

/-- The one response message of an EWS body. -/
def SingleMessage (lib : Library) (content : Octets) (item : Xml) : Prop :=
  ∃ root, lib.fromstring content = some root ∧ responseMessages root = [item]

/-- The response rejects the message in so many words. -/
def ExplicitRejection (lib : Library) (kind : BackendKind) (response : Response) : Prop :=
  response.status ∈ [401, 403, 429] ∨
  (300 ≤ response.status ∧ response.status < 500 ∧ ¬∃ content, IsEws kind response content) ∨
  ∃ content item, IsEws kind response content ∧ SingleMessage lib content item ∧
    responseCode item ∉ ["NoError", ""]

/-- A response that is interpreted as EWS and whose response code is NoError,
under another status than 200 or in another class than Success. -/
def Contradictory (lib : Library) (kind : BackendKind) (response : Response) : Prop :=
  ∃ content item, IsEws kind response content ∧ SingleMessage lib content item ∧
    responseCode item = "NoError" ∧
    ¬(response.status = 200 ∧ item.get "ResponseClass" = some "Success")

variable {lib : Library} {kind : BackendKind} {tokens : Tokens} {token : String} {now : Time}

theorem IsEws.unique {response : Response} {content content' : Octets}
    (h : IsEws kind response content) (h' : IsEws kind response content') : content = content' :=
  Option.some.inj (h.1.symm.trans h'.1)

theorem SingleMessage.unique {content : Octets} {item item' : Xml}
    (h : SingleMessage lib content item) (h' : SingleMessage lib content item') : item = item' := by
  obtain ⟨root, hr, hm⟩ := h
  obtain ⟨root', hr', hm'⟩ := h'
  obtain rfl := Option.some.inj (hr.symm.trans hr')
  exact List.singleton_inj.mp (hm.symm.trans hm')

/-- The interpretation is definite only for one message with a code, and
accepts only the triple of status, class and code. -/
theorem interpretEws_definite {status : ℕ} {content : Octets} {delay : PyFloat} {e : DeliveryError}
    (h : interpretEws lib status content delay = .error e) (hd : e.Definite) :
    ∃ item, SingleMessage lib content item ∧ responseCode item ≠ "" ∧
      ¬(status = 200 ∧ item.get "ResponseClass" = some "Success" ∧
        responseCode item = "NoError") := by
  unfold interpretEws at h
  split at h
  · cases h
    exact hd.elim
  next root hroot =>
    split at h
    next item hitem =>
      refine ⟨item, ⟨root, hroot, hitem⟩, ?_⟩
      dsimp only at h
      split_ifs at h with hs h₁ h₂ h₃ h₄
      · exact ⟨by intro hn; simp [hn] at h₁, hs⟩
      · exact ⟨by intro hn; simp [hn] at h₂, hs⟩
      · exact ⟨by intro hn; simp [hn] at h₃, hs⟩
      · cases h
        exact hd.elim
      · cases h
        exact hd.elim
      · exact ⟨by intro hn; simp [hn] at h₄, hs⟩
    · cases h
      exact hd.elim

/-- A body with the code NoError is accepted or taken for a rejection. -/
theorem interpretEws_noError {status : ℕ} {content : Octets} {delay : PyFloat} {item : Xml}
    (hi : SingleMessage lib content item) (hc : responseCode item = "NoError") :
    interpretEws lib status content delay =
      if status = 200 ∧ item.get "ResponseClass" = some "Success" then .ok ()
      else .error (.permanent "EWS NoError") := by
  obtain ⟨root, hroot, hitem⟩ := hi
  have hsafe : safeCode ['_'] "NoError" = "NoError" := by decide
  by_cases hs : status = 200 ∧ item.get "ResponseClass" = some "Success"
  · simp [interpretEws, hroot, hitem, hc, hs]
  · simp [interpretEws, hroot, hitem, hc, hs, hsafe]

/-- A definite outcome of a response is an explicit rejection, or the response
contradicts itself. -/
theorem respond_definite {response : Response} {e : DeliveryError}
    (h : (respond lib kind tokens token now response).1 = .error e) (hd : e.Definite) :
    ExplicitRejection lib kind response ∨ Contradictory lib kind response := by
  unfold respond at h
  split at h
  · cases h
    exact hd.elim
  next content hcontent =>
    dsimp only at h
    split_ifs at h with h₁ h₂ h₃ h₄ h₅ h₆ h₇
    · exact .inl (.inl (by simp [h₁]))
    · exact .inl (.inl (by simp [h₂]))
    · exact .inl (.inl (by simp [h₃]))
    · have hews : IsEws kind response content := ⟨hcontent, h₅, by simp [h₁, h₂, h₃]⟩
      split at h
      · cases h
      next e' he =>
        cases h
        obtain ⟨item, hitem, hempty, haccepted⟩ := interpretEws_definite he hd
        by_cases hc : responseCode item = "NoError"
        · exact .inr ⟨content, item, hews, hitem, hc, fun hs ↦ haccepted ⟨hs.1, hs.2, hc⟩⟩
        · exact .inl (.inr (.inr ⟨content, item, hews, hitem, by simp [hc, hempty]⟩))
    · cases h
      exact hd.elim
    · refine .inl (.inr (.inl ⟨h₇, not_le.mp h₆, ?_⟩))
      rintro ⟨content', hbody, hxml, -⟩
      rw [hcontent] at hbody
      obtain rfl := Option.some.inj hbody
      exact h₅ hxml
    · cases h
      exact hd.elim

theorem respond_ews (lib : Library) (tokens : Tokens) (token : String) (now : Time)
    {response : Response} {content : Octets} (h : IsEws kind response content) :
    ∃ delay, (respond lib kind tokens token now response).1 =
      interpretEws lib response.status content delay := by
  obtain ⟨hbody, hxml, hstatus⟩ := h
  simp only [List.mem_cons, List.not_mem_nil, or_false, not_or] at hstatus
  obtain ⟨h₁, h₂, h₃⟩ := hstatus
  have hkind : ¬(kind = .graph ∧ response.status = 202) := by
    rintro ⟨rfl, -⟩
    simp [isXml] at hxml
  refine ⟨retryAfter lib now response.retryAfter, ?_⟩
  rw [respond, hbody]
  simp only [h₁, h₂, h₃, if_false, hkind, hxml, if_true]
  split <;> next he => rw [he]

/-- Definite outcomes are definite, and a NoError response is a success or in
doubt, exactly when no response says NoError and contradicts it. -/
theorem definite_rejections {getToken : Except DeliveryError String} {post : PostResult}
    (hpost : ConnectsFirst post) :
    ((∀ e, (send lib kind getToken tokens now post).1 = .error e → e.Definite →
        NotTransmitted getToken post ∨
          ∃ response, post = .answered response ∧ ExplicitRejection lib kind response) ∧
      ∀ response content item, (∃ token, getToken = .ok token) → post = .answered response →
        IsEws kind response content → SingleMessage lib content item →
        responseCode item = "NoError" →
        (send lib kind getToken tokens now post).1 = .ok () ∨
          ∃ message, (send lib kind getToken tokens now post).1 = .error (.uncertain message)) ↔
    ¬((∃ token, getToken = .ok token) ∧
      ∃ response, post = .answered response ∧ Contradictory lib kind response) := by
  constructor
  · rintro ⟨-, hcode⟩ ⟨⟨token, rfl⟩, response, rfl, content, item, hews, hitem, hc, hs⟩
    obtain ⟨delay, hr⟩ := respond_ews lib tokens token now hews
    have := hcode response content item ⟨token, rfl⟩ rfl hews hitem hc
    simp [send, hr, interpretEws_noError hitem hc, hs] at this
  · intro hcon
    refine ⟨fun e he hd ↦ ?_, ?_⟩
    · cases getToken with
      | error e' => exact .inl (.inl ⟨e', rfl⟩)
      | ok token =>
        cases post with
        | answered response =>
          rcases respond_definite he hd with hr | hr
          · exact .inr ⟨response, rfl, hr⟩
          · exact absurd ⟨⟨token, rfl⟩, response, rfl, hr⟩ hcon
        | raised error written =>
          have hwritten := hpost error written rfl
          cases error with
          | clientConnectorError | connectionTimeoutError =>
            exact .inl (.inr ⟨_, by rw [hwritten (by simp)]⟩)
          | clientError | timeoutError | other =>
            cases he
            exact hd.elim
    · rintro response content item ⟨token, rfl⟩ rfl hews hitem hc
      obtain ⟨delay, hr⟩ := respond_ews lib tokens token now hews
      by_cases hs : response.status = 200 ∧ item.get "ResponseClass" = some "Success"
      · exact .inl (by simp [send, hr, interpretEws_noError hitem hc, hs])
      · exact absurd ⟨⟨token, rfl⟩, response, rfl, content, item, hews, hitem, hc, hs⟩ hcon

/-- An EWS body whose one message has the class Warning and the code NoError. -/
def warningBody : Octets := ascii
  ("<m:r xmlns:m='http://schemas.microsoft.com/exchange/services/2006/messages'>" ++
    "<m:CreateItemResponseMessage ResponseClass='Warning'>" ++
    "<m:ResponseCode>NoError</m:ResponseCode></m:CreateItemResponseMessage></m:r>")

def warningMessage : Xml :=
  .element (messagesNamespace ++ "CreateItemResponseMessage") [("ResponseClass", "Warning")] none
    [.element (messagesNamespace ++ "ResponseCode") [] (some "NoError") []]

def warningRoot : Xml := .element (messagesNamespace ++ "r") [] none [warningMessage]

/-- A library that knows no document but this one. -/
def warningLibrary : Library where
  float text := if text = "0" then some (0 : ℚ) else none
  timestamp _ := none
  loads _ := .error .valueError
  str _ := .ok ""
  fromstring content := if content = warningBody then some warningRoot else none
  sha256 text := text

theorem definite_rejections_sample : ∃ post, ConnectsFirst post ∧
    ∀ e, (send warningLibrary .ews (.ok "token") {} 0 post).1 = .error e → e.Definite →
      NotTransmitted (.ok "token") post ∨
        ∃ response, post = .answered response ∧ ExplicitRejection warningLibrary .ews response := by
  have hpost : ConnectsFirst (.raised .clientConnectorError false) := by
    intro error written h _
    cases h
    rfl
  refine ⟨_, hpost, ((definite_rejections hpost).mpr ?_).1⟩
  intro h
  obtain ⟨-, response, h, -⟩ := h
  cases h

theorem warning_noError_misfiled :
    ∃ e, (send warningLibrary .ews (.ok "token") {} 0
        (.answered ⟨200, none, [warningBody]⟩)).1 = .error e ∧ e.Definite ∧
      ¬ NotTransmitted (.ok "token") (.answered ⟨200, none, [warningBody]⟩) ∧
      ¬ ExplicitRejection warningLibrary .ews ⟨200, none, [warningBody]⟩ := by
  have hbody : readLimited 1048576 [warningBody] = some warningBody := by decide +kernel
  have hews : IsEws .ews ⟨200, none, [warningBody]⟩ warningBody :=
    ⟨hbody, by decide +kernel, by decide⟩
  have hmessage : SingleMessage warningLibrary warningBody warningMessage := by
    refine ⟨warningRoot, by simp only [warningLibrary, if_true], ?_⟩
    simp [responseMessages, Xml.findall, Xml.children, Xml.iterAll, Xml.iter, warningRoot,
      warningMessage, Xml.tag, messagesNamespace]
  have hcode : responseCode warningMessage = "NoError" := by
    simp [responseCode, Xml.findtext, warningMessage, Xml.children, Xml.tag, Xml.text]
  obtain ⟨delay, hr⟩ := respond_ews warningLibrary {} "token" 0 hews
  refine ⟨.permanent "EWS NoError", ?_, trivial, ?_, ?_⟩
  · rw [send, hr, interpretEws_noError hmessage hcode, if_neg]
    simp [warningMessage, Xml.get]
  · rintro (⟨e, h⟩ | ⟨error, h⟩) <;> cases h
  · rintro (h | ⟨h, -⟩ | ⟨content, item, hews', hmessage', hcode'⟩)
    · simp at h
    · simp at h
    · obtain rfl := hews.unique hews'
      obtain rfl := hmessage.unique hmessage'
      simp [hcode] at hcode'

end NoreplyGateway.Upstream
