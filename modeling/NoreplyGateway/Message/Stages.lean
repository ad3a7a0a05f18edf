import NoreplyGateway.Message.Prepare

namespace NoreplyGateway

open Distinct Fields Outcome

variable {email : EmailPackage} {registry : HeaderRegistry} {config : Config}
  {fields fields' : List Field} {name : String}

section Resent

/-- The headers of a name once Resent headers have taken their place. -/
def resolved (registry : HeaderRegistry) (fields : List Field) (name : String) : List Header :=
  if ofName fields ("Resent-" ++ name) = [] then headers registry fields name
  else (headers registry fields ("Resent-" ++ name)).filterMap
    (fun header ↦ registry.header name header.text)

end Resent

section Sender

/-- One field of the name, and what the email package reads there. -/
def Single (registry : HeaderRegistry) (fields : List Field) (name : String) (header : Header) :
    Prop := ∃ f, ofName fields name = [f] ∧ f.read registry = some header

theorem Single.congr {header : Header} (h : Single registry fields name header)
    (ho : ofName fields' name = ofName fields name) : Single registry fields' name header := by
  obtain ⟨f, hf⟩ := h
  exact ⟨f, by rw [ho]; exact hf.1, hf.2⟩

end Sender

section Recipients

/-- The recipients are merged from `envelope`, without its repetitions, and from
`shown`, the addresses of the headers. -/
structure Merged (email : EmailPackage) (registry : HeaderRegistry) (config : Config)
    (fields : List Field) (recipients envelope : List String) (shown : List (List String))
    (fields' : List Field) (effective : List String) : Prop where
  mailboxes : List.Forall₂ (fun recipient m ↦ mailbox email recipient false = .ok m)
    recipients envelope
  shows : List.Forall₂ (fun name addresses ↦
    headerRecipients email registry fields name = .ok addresses) recipientNames shown
  nonempty : envelope ≠ []
  strict : config.account.recipientPolicy = .envelopeStrict →
    ∀ recipient ∈ (Table.empty.putMany shown.flatten : Table casefold).rows,
      casefold recipient ∈ (distinct id envelope).map casefold
  adds : addMissing registry fields ((distinct id envelope).filter (fun recipient ↦
    casefold recipient ∉ (Table.empty.putMany shown.flatten : Table casefold).rows.map casefold)) =
      .ok fields'
  rows : effective =
    ((Table.empty.putMany shown.flatten : Table casefold).putMany (distinct id envelope)).rows
  limit : effective.length ≤ config.smtp.maxRecipients
  domains : config.account.allowedRecipientDomains ≠ [] →
    ∀ recipient ∈ effective, checkDomain config (casefold recipient) = .ok ()

end Recipients

section Complete

end Complete

section Prepare

/-- The stages that a message has passed. -/
structure Stages (email : EmailPackage) (registry : HeaderRegistry) (config : Config) (raw : Octets)
    (recipients : List String) (queueId additionalSender date : String) (p : PreparedMessage)
    (parsed resent enforced merged final : List Field) (body : Octets) : Prop where
  parse : parseHead registry config raw = .ok (parsed, body)
  resolve : resentNames.foldlM (resolveResent registry) parsed = .ok resent
  enforce : enforceSender email registry config resent additionalSender =
    .ok (enforced, p.originalFrom, p.nat)
  merge : mergeRecipients email registry config enforced recipients = .ok (merged, p.recipients)
  complete : completeFields registry config merged queueId date = .ok final
  written : serialize registry final body = .ok p.mime
  size : p.mime.length ≤ config.smtp.maxMessageBytes
  additional : checkAdditional registry final additionalSender p.mime = .ok ()

theorem prepareMessage_eq_ok {raw : Octets} {recipients : List String}
    {envelopeSender queueId additionalSender date : String} {p : PreparedMessage}
    (h : prepareMessage email registry config raw recipients envelopeSender queueId additionalSender
      date = .ok p) :
    ∃ parsed resent enforced merged final body, Stages email registry config raw recipients queueId
      additionalSender date p parsed resent enforced merged final body := by
  obtain ⟨⟨parsed, body⟩, hparse, h⟩ := do_eq_ok.mp h
  obtain ⟨resent, hresolve, h⟩ := do_eq_ok.mp h
  obtain ⟨⟨enforced, originalFrom, nat⟩, henforce, h⟩ := do_eq_ok.mp h
  obtain ⟨⟨merged, effective⟩, hmerge, h⟩ := do_eq_ok.mp h
  obtain ⟨final, hcomplete, h⟩ := do_eq_ok.mp h
  obtain ⟨identifier, -, h⟩ := do_eq_ok.mp h
  obtain ⟨mime, hwritten, h⟩ := do_eq_ok.mp h
  obtain ⟨hsize, h⟩ := guard_eq_ok.mp h
  obtain ⟨_, hadditional, h⟩ := do_eq_ok.mp h
  obtain ⟨subject, -, h⟩ := do_eq_ok.mp h
  obtain rfl := pure_eq_ok.mp h
  exact ⟨parsed, resent, enforced, merged, final, body, hparse, hresolve, henforce, hmerge,
    hcomplete, hwritten, Nat.le_of_not_lt hsize, hadditional⟩

end Prepare

end NoreplyGateway
