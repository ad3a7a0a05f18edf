import NoreplyGateway.Machine
import NoreplyGateway.Message
import NoreplyGateway.PyText
import NoreplyGateway.Smtp.Data

namespace NoreplyGateway.Smtp

open PyText

/-- The commands that change a transaction, as they are accepted. -/
inductive Command
  | greeting (extended : Bool)
  | reset
  | mail (sender : String)
  | rcpt (recipient : String)
  | data
  deriving DecidableEq

/-- The variables of `_connection`. -/
structure Session where
  greeted : Bool := false
  extended : Bool := false
  sender : Option String := none
  recipients : List String := []
  commandCount : ℕ := 0

/-- What `_connection` does with a line: it replies, with the command that it
accepts and its variables from then on; or it closes; or it reads a message; or
an exception closes the connection. -/
inductive Verdict
  | reply (text : String) (accepted : Option Command) (session : Session)
  | close (text : String)
  | data (sender : String) (recipients : List String)
  | raised

section Patterns

/-- The name of the argument, in either case, and the blanks behind it. -/
def keyword (name : List Char) (argument : List Char) : Option (List Char) :=
  if upper (argument.take name.length) = name then
    some ((argument.drop name.length).dropWhile isSpace)
  else none

/-- An address in angle brackets, and what follows it. -/
def bracketed : List Char → Option (List Char × List Char)
  | '<' :: text =>
    let inner := text.takeWhile (fun c ↦ c ≠ '<' ∧ c ≠ '>')
    match text.drop inner.length with
    | '>' :: rest => some (inner, rest)
    | _ => none
  | _ => none

/-- The match of the argument of MAIL: the address, and the parameters. -/
def matchMail (argument : List Char) : Option (String × List (List Char)) :=
  match (keyword "FROM:".toList argument).bind bracketed with
  | some (address, []) => some (String.ofList address, [])
  | some (address, c :: rest) =>
    if isSpace c ∧ rest ≠ [] then some (String.ofList address, split rest) else none
  | none => none

/-- The match of the argument of RCPT. -/
def matchRcpt (argument : List Char) : Option String :=
  match (keyword "TO:".toList argument).bind bracketed with
  | some (address, []) => if address = [] then none else some (String.ofList address)
  | _ => none

end Patterns

variable (config : Config) (email : EmailPackage)

structure MailOptions where
  declaredSize : ℕ := 0
  seen : List (List Char) := []

/-- One parameter of MAIL. -/
def mailOption (extended : Bool) (options : MailOptions) (option : List Char) :
    Except String MailOptions :=
  let (name, separator, value) := partition '=' (upper option)
  if extended = false ∨ separator = false ∨ name ∈ options.seen ∨
      name ∉ ["SIZE".toList, "BODY".toList] then
    .error "Unsupported or duplicate MAIL parameter"
  else
    let seen := name :: options.seen
    if name = "SIZE".toList then
      if isDecimal value then .ok { declaredSize := toNat value, seen := seen }
      else .error "Invalid SIZE"
    else if value ∉ ["7BIT".toList, "8BITMIME".toList] then .error "Unsupported BODY encoding"
    else .ok { options with seen := seen }

/-- MAIL outside of a transaction: the sender, or the reply that rejects it. -/
def mail (extended available : Bool) (argument : List Char) : Except String String :=
  match matchMail argument with
  | none => .error "501 5.5.2 Expected MAIL FROM:<address>"
  | some (address, words) =>
    match mailbox email address true with
    | .error message => .error ("555 5.5.4 " ++ message)
    | .ok sender =>
      match words.foldlM (mailOption extended) {} with
      | .error message => .error ("555 5.5.4 " ++ message)
      | .ok options =>
        if options.declaredSize > config.smtp.maxMessageBytes then
          .error "552 5.3.4 Declared message size exceeds limit"
        else if available = false then .error "451 4.3.0 Queue is unavailable"
        else .ok sender

/-- RCPT in a transaction: the recipient, or the reply that rejects it. An address
without a domain raises, which gives no reply. -/
def rcpt (count : ℕ) (argument : List Char) : Except (Option String) String :=
  match matchRcpt argument with
  | none => .error "501 5.5.2 Expected RCPT TO:<address> without extension parameters"
  | some address =>
    match mailbox email address false with
    | .error _ => .error "501 5.1.3 Invalid recipient mailbox"
    | .ok recipient =>
      if config.smtp.maxRecipients ≤ count then .error "452 4.5.3 Too many recipients"
      else if config.account.allowedRecipientDomains = [] then .ok recipient
      else match afterAt recipient.toList with
        | none => .error none
        | some domain =>
          if casefold (String.ofList domain) ∈ config.account.allowedRecipientDomains.map casefold then
            .ok recipient
          else .error "550 5.7.1 Recipient domain is not allowed"

def addRecipient (recipients : List String) (recipient : String) : List String :=
  if casefold recipient ∈ recipients.map casefold then recipients else recipients ++ [recipient]

def greeting (extended : Bool) : String :=
  if extended then "250-" ++ config.smtp.hostname ++ "\r\n250-SIZE " ++
    toString config.smtp.maxMessageBytes ++ "\r\n250 8BITMIME"
  else "250 " ++ config.smtp.hostname

/-- A command and its argument. -/
def execute (s : Session) (available : Bool) (command argument : List Char) : Verdict :=
  if command = "QUIT".toList then .close "221 2.0.0 Closing connection"
  else if command = "EHLO".toList ∨ command = "HELO".toList then
    if argument = [] then .reply "501 5.5.2 Greeting domain required" none s
    else
      let extended : Bool := command = "EHLO".toList
      .reply (greeting config extended) (some (.greeting extended))
        { s with greeted := true, extended := extended, sender := none, recipients := [] }
  else if command = "AUTH".toList then
    .reply "502 5.5.1 AUTH is not supported; this listener uses a client-network allowlist" none s
  else if command = "NOOP".toList then .reply "250 2.0.0 OK" none s
  else if command = "RSET".toList then
    .reply "250 2.0.0 Reset" (some .reset) { s with sender := none, recipients := [] }
  else if command = "VRFY".toList then .reply "252 2.5.2 Cannot verify user" none s
  else if command = "MAIL".toList then
    if s.greeted = false ∨ s.sender.isSome then
      .reply "503 5.5.1 Send EHLO/HELO, and RSET before a new transaction" none s
    else match mail config email s.extended available argument with
      | .error text => .reply text none s
      | .ok sender =>
        .reply "250 2.1.0 Sender accepted; message From will be validated" (some (.mail sender))
          { s with sender := some sender, recipients := [] }
  else if command = "RCPT".toList then
    if s.sender.isNone then .reply "503 5.5.1 MAIL FROM is required first" none s
    else match rcpt config email s.recipients.length argument with
      | .error (some text) => .reply text none s
      | .error none => .raised
      | .ok recipient =>
        .reply "250 2.1.5 Recipient accepted" (some (.rcpt recipient))
          { s with recipients := addRecipient s.recipients recipient }
  else if command = "DATA".toList then
    match s.sender with
    | none => .reply "503 5.5.1 MAIL and RCPT must precede DATA, without arguments" none s
    | some sender =>
      if argument ≠ [] ∨ s.recipients = [] then
        .reply "503 5.5.1 MAIL and RCPT must precede DATA, without arguments" none s
      else .data sender s.recipients
  else .reply "502 5.5.1 Command not implemented" none s

/-- A line that the reader returned. -/
def interpret (s : Session) (available : Bool) (line : Octets) : Verdict :=
  if line.length > 512 ∨ ¬[13, 10] <:+ line ∨ 0 ∈ line then
    .close "500 5.5.2 Invalid command framing or length"
  else if ¬line.all (· < 128) then .close "500 5.5.2 SMTP commands must be ASCII"
  else
    let text := (line.take (line.length - 2)).map (fun b ↦ Char.ofNat b.toNat)
    let (command, _, argument) := partition ' ' text
    let s := { s with commandCount := s.commandCount + 1 }
    if s.commandCount > 100000 then .close "421 4.7.0 Please reconnect"
    else execute config email s available (upper command) (strip argument)

/-- A message that was handed to `prepare_message`. -/
structure Handed where
  sender : String
  recipients : List String
  content : Octets
  deriving DecidableEq

/-- A connection, with the lines that are left in its stream. The program does
not keep the last two fields: the commands that were accepted, and the messages
that were handed over. -/
structure Connection where
  stream : List Octets
  session : Session := {}
  closed : Bool := false
  accepted : List Command := []
  handed : List Handed := []

/-- One turn of the loop: whether the server goes on and a line arrives in time,
whether the store takes messages, whether the reply to the command is sent, and
for DATA the waits of `_data`, the end of preparing and submitting the message,
and of its own reply. -/
structure Turn where
  arrives : Bool := true
  available : Bool := true
  replied : Bool := true
  waits : ℕ → Except ConnectionEnd ℕ := fun _ ↦ .ok 0
  deliver : Octets → Except ConnectionEnd String := fun _ ↦ .ok "250"
  reply : String → Except ConnectionEnd Unit := fun _ ↦ .ok ()

namespace Connection

variable (c : Connection)

def close : Connection := { c with closed := true }

/-- The message that `_data` hands over, if the loop reaches its end without a
failure. -/
def handover (turn : Turn) (sender : String) (recipients : List String) : List Handed :=
  match dataLoop config.smtp turn.waits {} c.stream with
  | .ok (d, _) => if d.failure = "" then [⟨sender, recipients, d.content⟩] else []
  | .error _ => []

/-- The transaction is over whatever becomes of the message. -/
def receive (turn : Turn) (sender : String) (recipients : List String) : Connection :=
  let after := { c with
    session := { c.session with sender := none, recipients := [] }
    accepted := c.accepted ++ [Command.data]
    handed := c.handed ++ c.handover config turn sender recipients }
  match data config.smtp turn.waits turn.deliver turn.reply c.stream with
  | .ok (_, rest) => { after with stream := rest }
  | .error _ => after.close

/-- The loop goes by what it makes of a line. A reply that is not sent ends it. -/
def respond (turn : Turn) : Verdict → Connection
  | .reply _ accepted session =>
    let c := { c with session := session, accepted := c.accepted ++ accepted.toList }
    if turn.replied then c else c.close
  | .close _ | .raised => c.close
  | .data sender recipients =>
    let c := { c with session := { c.session with commandCount := c.session.commandCount + 1 } }
    if turn.replied then c.receive config turn sender recipients else c.close

/-- One turn of the loop of `_connection`. -/
def step (turn : Turn) : Option Connection :=
  if c.closed then none
  else if turn.arrives = false then some c.close
  else match c.stream with
    | [] => some c.close
    | line :: rest =>
      let c := { c with stream := rest }
      some (if overLimit line then c.close
        else c.respond config turn (interpret config email c.session turn.available line))

end Connection

end NoreplyGateway.Smtp
