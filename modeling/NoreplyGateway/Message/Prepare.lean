import NoreplyGateway.Distinct
import NoreplyGateway.Message.Fields
import NoreplyGateway.PyText
import NoreplyGateway.Store.Schema

namespace NoreplyGateway

open Distinct Fields PyText

def crlfcrlf : Octets := [13, 10, 13, 10]

/-- A CR or LF that is not part of a CRLF. -/
def bareNewline : Octets → Bool
  | [] => false
  | 10 :: _ => true
  | 13 :: 10 :: l => bareNewline l
  | 13 :: _ => true
  | _ :: l => bareNewline l

/-- `str.replace` of the marker by nothing. The number is that of the characters
of the marker still to be left out. -/
def removeFrom (marker : List Char) : ℕ → List Char → List Char
  | _, [] => []
  | n + 1, _ :: text => removeFrom marker n text
  | 0, c :: text =>
    if marker.isPrefixOf (c :: text) then removeFrom marker (marker.length - 1) text
    else c :: removeFrom marker 0 text

def removeAll (marker text : String) : String :=
  if marker = "" then text else String.ofList (removeFrom marker.toList 0 text.toList)

variable (email : EmailPackage) (registry : HeaderRegistry) (config : Config)

def asRejection {α : Type*} : Except String α → Except Rejection α
  | .ok a => .ok a
  | .error message => .error (.rejected message)

/-- Resent headers take the place of those that they repeat. -/
def resolveResent (fields : List Field) (name : String) : Except Rejection (List Field) := do
  let values ← getAll registry fields ("Resent-" ++ name)
  if values.isEmpty then return fields
  else
    let fields := delete (delete fields name) ("Resent-" ++ name)
    values.foldlM (fun fields value ↦ setItem registry fields name value.text) fields

def resentNames : List String := ["From", "To", "Cc", "Bcc", "Message-ID"]

def singleNames : List String := ["From", "Subject", "Sender", "Message-ID"]

def checkSingle (fields : List Field) (name : String) : Except Rejection Unit := do
  let values ← getAll registry fields name
  if values.length > 1 then throw (.rejected ("Duplicate " ++ name ++ " header"))

/-- The subject tells the sender that a rewritten message came from. -/
def rewriteSender (fields : List Field) (originalFrom : String) :
    Except Rejection (List Field) := do
  let original := removeAll config.account.natMarker originalFrom
  let subject := ((← get registry fields "Subject").map (·.text)).getD "null"
  let fields ← setItem registry (delete fields "Subject") "Subject"
    (subject ++ " (Sender: " ++ original ++ ")")
  replaceHeader registry "From" config.account.sender fields

/-- The first address of From, in normal form. -/
def fromMailbox (fields : List Field) : Except Rejection String := do
  match ← get registry fields "From" with
  | none => throw (.raised "TypeError")
  | some header =>
    match header.addresses with
    | [] => throw (.raised "IndexError")
    | address :: _ => asRejection (mailbox email address false)

def checkSender (fields : List Field) : Except Rejection Unit := do
  match ← get registry fields "Sender" with
  | none => return
  | some ⟨_, false, [address]⟩ =>
    if casefold address ≠ casefold (← fromMailbox email registry fields) then
      throw (.rejected "Sender header must match the configured mailbox")
  | some _ => throw (.rejected "Sender header must match the configured mailbox")

/-- The fields with the effective sender, the text of From, and whether the marker
was in it. -/
def enforceSender (fields : List Field) (additionalSender : String) :
    Except Rejection (List Field × String × Bool) := do
  singleNames.forM (checkSingle registry fields)
  let header ← get registry fields "From"
  let (_, nat) ← asRejection (effectiveFrom email config additionalSender header)
  let originalFrom := (header.map (·.text)).getD ""
  let fields ← if nat then rewriteSender registry config fields originalFrom else pure fields
  checkSender email registry fields
  return (fields, originalFrom, nat)

def recipientNames : List String := ["To", "Cc", "Bcc"]

/-- The addresses of the headers of a name, in normal form. -/
def headerRecipients (fields : List Field) (name : String) : Except Rejection (List String) := do
  let headers ← getAll registry fields name
  let recipients ← headers.mapM (fun header ↦
    if header.defective then .error (.rejected ("Malformed " ++ name ++ " header"))
    else header.addresses.mapM (fun address ↦ asRejection (mailbox email address false)))
  return recipients.flatten

/-- A recipient that no header shows is added to Bcc. -/
def addMissing (fields : List Field) (missing : List String) : Except Rejection (List Field) := do
  if missing.isEmpty then return fields
  else
    let previous ← getAll registry fields "Bcc"
    setItem registry (delete fields "Bcc") "Bcc"
      (", ".intercalate (previous.map (·.text) ++ missing))

def checkDomain (recipient : String) : Except Rejection Unit :=
  match afterAt recipient.toList with
  | none => .error (.raised "IndexError")
  | some domain =>
    if casefold (String.ofList domain) ∈ config.account.allowedRecipientDomains.map casefold then
      .ok ()
    else .error (.rejected "Recipient domain is not allowed")

/-- The fields that reach every recipient, and the effective recipients. -/
def mergeRecipients (fields : List Field) (recipients : List String) :
    Except Rejection (List Field × List String) := do
  let envelope := distinct id
    (← recipients.mapM (fun recipient ↦ asRejection (mailbox email recipient false)))
  if envelope.isEmpty then throw (.rejected "At least one recipient is required")
  let shown ← recipientNames.mapM (headerRecipients email registry fields)
  let visible : Table casefold := Table.empty.putMany shown.flatten
  if config.account.recipientPolicy = .envelopeStrict ∧
      ∃ recipient ∈ visible.rows, casefold recipient ∉ envelope.map casefold then
    throw (.rejected "Header recipients must also appear in SMTP RCPT TO")
  let fields ← addMissing registry fields
    (envelope.filter (fun recipient ↦ casefold recipient ∉ visible.rows.map casefold))
  let effective := visible.putMany envelope
  if effective.rows.length > config.smtp.maxRecipients then
    throw (.rejected "Too many effective recipients (headers plus envelope)")
  if config.account.allowedRecipientDomains ≠ [] then
    (effective.rows.map casefold).forM (checkDomain config)
  return (fields, effective.rows)

def staleNames : List String := ["Return-Path", "Authentication-Results", "DKIM-Signature",
  "ARC-Seal", "ARC-Message-Signature", "ARC-Authentication-Results"]

def setDefault (fields : List Field) (name value : String) : Except Rejection (List Field) := do
  match ← get registry fields name with
  | some _ => return fields
  | none => setItem registry fields name value

def completeFields (fields : List Field) (queueId date : String) :
    Except Rejection (List Field) := do
  let fields := staleNames.foldl delete fields
  let fields ← setDefault registry fields "Message-ID"
    ("<" ++ queueId ++ "@" ++ config.smtp.hostname ++ ">")
  setDefault registry fields "Date" date

/-- The header block of what the generator writes, in front of the body. -/
def serialize (fields : List Field) (body : Octets) : Except Rejection Octets :=
  match registry.asBytes fields with
  | none => .error (.raised "Exception")
  | some octets => .ok (((splitHead octets).map (·.1)).getD octets ++ crlfcrlf ++ body)

/-- The limit of an additional sender, which goes by the address as From has it. -/
def checkAdditional (fields : List Field) (additionalSender : String) (mime : Octets) :
    Except Rejection Unit := do
  if additionalSender ≠ "" then
    match ← get registry fields "From" with
    | none => throw (.raised "TypeError")
    | some header =>
      match header.addresses with
      | [] => throw (.raised "IndexError")
      | address :: _ =>
        if casefold address = casefold additionalSender ∧ mime.length > 2500000 then
          throw (.rejected
            "Additional Graph sender is limited to 2,500,000-byte MIME messages")

def parseHead (raw : Octets) : Except Rejection (List Field × Octets) :=
  if raw.length > config.smtp.maxMessageBytes then .error (.rejected "Message too large")
  else match splitHead raw with
    | none => .error (.rejected "Missing, oversized, or invalid message headers")
    | some (head, body) =>
      if head.length > config.smtp.maxHeaderBytes ∨ 0 ∈ head then
        .error (.rejected "Missing, oversized, or invalid message headers")
      else if bareNewline head then .error (.rejected "Headers require CRLF line endings")
      else
        let (fields, defective) := registry.parsebytes (head ++ crlfcrlf)
        if defective then .error (.rejected "Malformed headers") else .ok (fields, body)

/-- `prepare_message`, with the date that `formatdate` gives. -/
def prepareMessage (raw : Octets) (recipients : List String)
    (envelopeSender queueId additionalSender date : String) : Except Rejection PreparedMessage := do
  let (fields, body) ← parseHead registry config raw
  let fields ← resentNames.foldlM (resolveResent registry) fields
  let (fields, originalFrom, nat) ← enforceSender email registry config fields additionalSender
  let (fields, effective) ← mergeRecipients email registry config fields recipients
  let fields ← completeFields registry config fields queueId date
  let messageId := ((← get registry fields "Message-ID").map (·.text)).getD "None"
  let mime ← serialize registry fields body
  if mime.length > config.smtp.maxMessageBytes then
    throw (.rejected "Rewritten message exceeds the configured size limit")
  checkAdditional registry fields additionalSender mime
  let subject := ((← get registry fields "Subject").map (·.text)).getD ""
  return {
    id := queueId
    mime := mime
    recipients := effective
    envelopeSender := envelopeSender
    originalFrom := originalFrom
    subject := subject
    messageId := messageId
    nat := nat }

end NoreplyGateway
