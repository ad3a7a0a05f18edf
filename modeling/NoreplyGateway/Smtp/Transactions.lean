import NoreplyGateway.Distinct
import NoreplyGateway.Smtp.Session

namespace NoreplyGateway.Smtp

open Distinct Machine

variable {config : Config} {email : EmailPackage}

/-- What a command does to the session, with what it found there. -/
inductive Accepts (config : Config) (s : Session) : Option Command → Session → Prop
  | rejected : Accepts config s none s
  | greeting (extended : Bool) : Accepts config s (some (.greeting extended))
      { s with greeted := true, extended := extended, sender := none, recipients := [] }
  | reset : Accepts config s (some .reset) { s with sender := none, recipients := [] }
  | mail (sender : String) : s.sender = none → Accepts config s (some (.mail sender))
      { s with sender := some sender, recipients := [] }
  | rcpt (sender recipient : String) : s.sender = some sender →
      s.recipients.length < config.smtp.maxRecipients → Accepts config s (some (.rcpt recipient))
      { s with recipients := addRecipient s.recipients recipient }

theorem Accepts.eq_of_none {s s' : Session} (h : Accepts config s none s') : s' = s := by
  cases h
  rfl

section Commands

variable {s s' : Session} {available : Bool} {command argument : List Char} {line : Octets}
  {text : String} {accepted : Option Command} {sender : String} {recipients : List String}

theorem length_lt_of_rcpt {count : ℕ} {recipient : String}
    (h : rcpt config email count argument = .ok recipient) : count < config.smtp.maxRecipients := by
  unfold rcpt at h
  split at h
  · cases h
  · split at h
    · cases h
    · split_ifs at h with hc <;> exact Nat.lt_of_not_le hc

theorem mail_error {extended : Bool} (h : mail config email extended available argument = .error text) :
    text.toList.head? ≠ some '2' := by
  unfold mail at h
  split at h
  · cases h; decide
  · split at h
    · cases h; simp
    · split at h
      · cases h; simp
      · split_ifs at h <;> cases h <;> decide

theorem rcpt_error {count : ℕ} (h : rcpt config email count argument = .error (some text)) :
    text.toList.head? ≠ some '2' := by
  unfold rcpt at h
  split at h
  · cases h; decide
  · split at h
    · cases h; decide
    · split_ifs at h
      · cases h; decide
      · split at h
        · cases h
        · split_ifs at h; cases h; decide

/-- What a verdict means for the session. Of the replies to the commands that may
change a transaction, those that say so are the ones that begin with 2. -/
def Verdict.Sound (config : Config) (s : Session) (command : List Char) : Verdict → Prop
  | .reply text accepted s' => Accepts config s accepted s' ∧
      (command ≠ "NOOP".toList → command ≠ "VRFY".toList →
        (accepted.isSome ↔ text.toList.head? = some '2'))
  | .data sender recipients => s.sender = some sender ∧ s.recipients = recipients ∧ recipients ≠ []
  | .close _ | .raised => True

theorem execute_sound (s : Session) (available : Bool) (command argument : List Char) :
    (execute config email s available command argument).Sound config s command := by
  unfold execute
  split_ifs with hquit hgreet hdomain hauth hnoop hreset hvrfy hmail hopen hrcpt hsender hdata hready
  · trivial
  · exact ⟨.rejected, fun _ _ ↦ by simp⟩
  · refine ⟨.greeting _, fun _ _ ↦ ?_⟩
    simp only [greeting]
    split <;> simp
  · exact ⟨.rejected, fun _ _ ↦ by simp⟩
  · exact ⟨.rejected, fun h _ ↦ absurd hnoop h⟩
  · exact ⟨.reset, fun _ _ ↦ by simp⟩
  · exact ⟨.rejected, fun _ h ↦ absurd hvrfy h⟩
  · exact ⟨.rejected, fun _ _ ↦ by simp⟩
  · have hnone : s.sender = none := by simpa using (not_or.mp hopen).2
    split
    next hm => exact ⟨.rejected, fun _ _ ↦ by simpa using mail_error hm⟩
    · exact ⟨.mail _ hnone, fun _ _ ↦ by simp⟩
  · exact ⟨.rejected, fun _ _ ↦ by simp⟩
  · obtain ⟨sender, hs⟩ := Option.ne_none_iff_exists'.mp (by simpa using hsender)
    split
    next hr => exact ⟨.rejected, fun _ _ ↦ by simpa using rcpt_error hr⟩
    · trivial
    next hr => exact ⟨.rcpt sender _ hs (length_lt_of_rcpt hr), fun _ _ ↦ by simp⟩
  · split <;> exact ⟨.rejected, fun _ _ ↦ by simp⟩
  · split
    · exact ⟨.rejected, fun _ _ ↦ by simp⟩
    next hs => exact ⟨hs, rfl, fun hr ↦ hready (.inr hr)⟩
  · exact ⟨.rejected, fun _ _ ↦ by simp⟩

theorem interpret_sound (config : Config) (email : EmailPackage) (s : Session) (available : Bool) (line : Octets) :
    ∃ command, (interpret config email s available line).Sound config
      { s with commandCount := s.commandCount + 1 } command := by
  unfold interpret
  dsimp only
  split_ifs
  · exact ⟨[], trivial⟩
  · exact ⟨[], trivial⟩
  · exact ⟨_, execute_sound _ _ _ _⟩
  · exact ⟨[], trivial⟩

end Commands

/-- The last commands that were accepted are MAIL from the sender, and RCPT to
each of the addresses. -/
def Opened (accepted : List Command) (sender : String) (addresses : List String) : Prop :=
  ∃ before, accepted = before ++ .mail sender :: addresses.map .rcpt

/-- The session is in the transaction that the accepted commands have opened. -/
structure Isolated (config : Config) (accepted : List Command) (s : Session) : Prop where
  bounded : s.recipients.length ≤ config.smtp.maxRecipients
  idle : s.sender = none → s.recipients = []
  pending : ∀ sender, s.sender = some sender →
    ∃ addresses, Opened accepted sender addresses ∧ s.recipients = distinct casefold addresses

section Sessions

variable {s s' : Session} {accepted : List Command} {command : Option Command}

theorem Isolated.clear {cleared : Session} (hsender : cleared.sender = none)
    (hrecipients : cleared.recipients = []) : Isolated config accepted cleared where
  bounded := by simp [hrecipients]
  idle := fun _ ↦ hrecipients
  pending := by simp [hsender]

theorem Isolated.accepts (hs : Isolated config accepted s) (h : Accepts config s command s') :
    Isolated config (accepted ++ command.toList) s' := by
  cases h with
  | rejected => simpa using hs
  | greeting => exact .clear rfl rfl
  | reset => exact .clear rfl rfl
  | mail sender =>
    refine ⟨Nat.zero_le _, fun _ ↦ rfl, ?_⟩
    rintro _ ⟨⟩
    exact ⟨[], ⟨accepted, rfl⟩, rfl⟩
  | rcpt sender recipient hsender hlt =>
    refine ⟨length_add_le.trans hlt, ?_, ?_⟩
    · intro hnone
      simp [hsender] at hnone
    · intro sender' hs'
      obtain ⟨addresses, ⟨before, hbefore⟩, hdistinct⟩ := hs.pending sender' hs'
      refine ⟨addresses ++ [recipient], ⟨before, by simp [hbefore]⟩, ?_⟩
      rw [distinct_concat, ← hdistinct]
      rfl

end Sessions

section Turns

variable {c t : Connection} {s : Session} {turn : Turn}

/-- What a turn does, where `s` is the session with the command counted. -/
inductive Moves (config : Config) (c : Connection) (s : Session) (t : Connection) : Prop
  | command (command : Option Command) : Accepts config s command t.session →
      t.accepted = c.accepted ++ command.toList → t.handed = c.handed → Moves config c s t
  | message (sender : String) : s.sender = some sender → s.recipients ≠ [] →
      t.session = { s with sender := none, recipients := [] } → t.accepted = c.accepted ++ [.data] →
      (t.handed = c.handed ∨
        ∃ content, t.handed = c.handed ++ [⟨sender, s.recipients, content⟩]) → Moves config c s t

theorem handover_cases (c : Connection) (turn : Turn) (sender : String) (recipients : List String) :
    c.handover config turn sender recipients = [] ∨
      ∃ content, c.handover config turn sender recipients = [⟨sender, recipients, content⟩] := by
  unfold Connection.handover
  split
  · split_ifs
    · exact .inr ⟨_, rfl⟩
    · exact .inl rfl
  · exact .inl rfl

/-- Whatever becomes of a message, its transaction is over. -/
theorem Moves.receive (config : Config) (c : Connection) (turn : Turn) (sender : String) (hs : c.session.sender = some sender)
    (hr : c.session.recipients ≠ []) :
    Moves config c c.session (c.receive config turn sender c.session.recipients) := by
  have heffect : ∀ t, t = c.receive config turn sender c.session.recipients →
      t.session = { c.session with sender := none, recipients := [] } ∧
      t.accepted = c.accepted ++ [.data] ∧
      t.handed = c.handed ++ c.handover config turn sender c.session.recipients := by
    rintro t rfl
    unfold Connection.receive
    dsimp only
    split <;> exact ⟨rfl, rfl, rfl⟩
  obtain ⟨hsession, haccepted, hhanded⟩ := heffect _ rfl
  refine .message sender hs hr hsession haccepted ?_
  rcases handover_cases c turn sender c.session.recipients with hnone | ⟨content, hcontent⟩
  · exact .inl (by rw [hhanded, hnone, List.append_nil])
  · exact .inr ⟨content, by rw [hhanded, hcontent]⟩

theorem Moves.quiet (hsession : t.session = s) (haccepted : t.accepted = c.accepted)
    (hhanded : t.handed = c.handed) : Moves config c s t := by
  refine .command none ?_ (by simpa using haccepted) hhanded
  rw [hsession]
  exact .rejected

theorem moves_of_step (h : c.step config email turn = some t) :
    ∃ count, Moves config c { c.session with commandCount := count } t := by
  unfold Connection.step at h
  split_ifs at h
  · cases h
    exact ⟨c.session.commandCount, .quiet rfl rfl rfl⟩
  · split at h
    · cases h
      exact ⟨c.session.commandCount, .quiet rfl rfl rfl⟩
    next line rest hstream =>
      split_ifs at h
      · cases h
        exact ⟨c.session.commandCount, .quiet rfl rfl rfl⟩
      · obtain rfl := Option.some.inj h
        obtain ⟨command, hsound⟩ := interpret_sound config email c.session
          turn.available line
        cases hi : interpret config email c.session turn.available line with
        | reply text accepted session =>
          rw [hi] at hsound
          refine ⟨c.session.commandCount + 1, .command accepted ?_ ?_ ?_⟩ <;>
            simp only [Connection.respond]
          · split_ifs <;> exact hsound.1
          · split_ifs <;> rfl
          · split_ifs <;> rfl
        | close => exact ⟨c.session.commandCount, .quiet rfl rfl rfl⟩
        | raised => exact ⟨c.session.commandCount, .quiet rfl rfl rfl⟩
        | data sender recipients =>
          rw [hi] at hsound
          obtain ⟨hs, rfl, hne⟩ := hsound
          refine ⟨c.session.commandCount + 1, ?_⟩
          simp only [Connection.respond]
          split_ifs
          · have hmoves := Moves.receive config { c with
              stream := rest
              session := { c.session with commandCount := c.session.commandCount + 1 } }
              turn sender hs hne
            cases hmoves with
            | command command ha hc hh => exact .command command ha hc hh
            | message sender hs hr hsession hc hh => exact .message sender hs hr hsession hc hh
          · exact .quiet rfl rfl rfl

theorem Moves.isolated (h : Moves config c s t) (hs : Isolated config c.accepted s) :
    Isolated config t.accepted t.session := by
  cases h with
  | command command ha hc _ =>
    rw [hc]
    exact hs.accepts ha
  | message sender _ _ hsession => exact .clear (by rw [hsession]) (by rw [hsession])

theorem Isolated.count (hs : Isolated config c.accepted c.session) (count : ℕ) :
    Isolated config c.accepted { c.session with commandCount := count } := ⟨hs.1, hs.2, hs.3⟩

theorem isolated_of_runs {turns : List Turn} {stream : List Octets}
    (h : Runs (Connection.step config email) { stream := stream } turns c) :
    Isolated config c.accepted c.session := by
  refine h.invariant (P := fun c ↦ Isolated config c.accepted c.session) ?_ (.clear rfl rfl)
  intro c turn t hc hstep
  obtain ⟨count, hmoves⟩ := moves_of_step hstep
  exact hmoves.isolated (hc.count count)

end Turns

/-- The recipients stay within their limit, and there are none without MAIL. A
turn hands over a message only by an accepted DATA, with the sender of the last
accepted MAIL and the distinct recipients accepted since then; a turn that accepts
nothing changes nothing but the count of commands, and one that accepts DATA
leaves no transaction. -/
theorem transactions_isolated {turns : List Turn} {stream : List Octets} {c : Connection}
    (h : Runs (Connection.step config email) { stream := stream } turns c) :
    c.session.recipients.length ≤ config.smtp.maxRecipients ∧
    (c.session.sender = none → c.session.recipients = []) ∧
    ∀ turn t, c.step config email turn = some t →
      (t.handed = c.handed ∨ t.accepted = c.accepted ++ [.data] ∧ ∃ sender addresses content,
        Opened c.accepted sender addresses ∧ addresses ≠ [] ∧
        t.handed = c.handed ++ [⟨sender, distinct casefold addresses, content⟩]) ∧
      (t.accepted = c.accepted →
        t.session = { c.session with commandCount := t.session.commandCount }) ∧
      (t.accepted = c.accepted ++ [.data] → t.session.sender = none ∧ t.session.recipients = []) := by
  have hisolated := isolated_of_runs h
  refine ⟨hisolated.bounded, hisolated.idle, ?_⟩
  intro turn t hstep
  obtain ⟨count, hmoves⟩ := moves_of_step hstep
  cases hmoves with
  | command command ha hc hh =>
    refine ⟨.inl hh, ?_, ?_⟩
    · intro hnone
      rw [hnone] at hc
      obtain rfl : command = none := by simpa using hc
      rw [ha.eq_of_none]
    · intro hdata
      rw [hdata, List.append_cancel_left_eq] at hc
      obtain rfl : command = some .data := by simpa using hc.symm
      cases ha
  | message sender hs hr hsession hc hh =>
    refine ⟨?_, ?_, fun _ ↦ ?_⟩
    · rcases hh with hh | ⟨content, hh⟩
      · exact .inl hh
      · obtain ⟨addresses, hopened, hdistinct⟩ := hisolated.pending sender hs
        refine .inr ⟨hc, sender, addresses, content, hopened, ?_, hdistinct ▸ hh⟩
        rintro rfl
        exact hr hdistinct
    · intro hnone
      simp [hnone] at hc
    · rw [hsession]
      exact ⟨rfl, rfl⟩

/-- A client that greets a second time without a domain inside its transaction. -/
def greetingTwice : List Octets := [ascii "EHLO client\r\n", ascii "MAIL FROM:<>\r\n",
  ascii "RCPT TO:<user@example.net>\r\n", ascii "EHLO\r\n", ascii "DATA\r\n", ascii "Hello\r\n", dot]

theorem transactions_isolated_sample : ∃ c,
    Runs (Connection.step {} plainEmail) { stream := greetingTwice } [{}, {}, {}] c ∧
    c.session.recipients.length ≤ 500 ∧ (c.session.sender = none → c.session.recipients = []) ∧
    ∀ turn t, c.step {} plainEmail turn = some t →
      (t.handed = c.handed ∨ t.accepted = c.accepted ++ [.data] ∧ ∃ sender addresses content,
        Opened c.accepted sender addresses ∧ addresses ≠ [] ∧
        t.handed = c.handed ++ [⟨sender, distinct casefold addresses, content⟩]) ∧
      (t.accepted = c.accepted →
        t.session = { c.session with commandCount := t.session.commandCount }) ∧
      (t.accepted = c.accepted ++ [.data] →
        t.session.sender = none ∧ t.session.recipients = []) := by
  refine ⟨_, rfl, ?_⟩
  exact transactions_isolated (rfl : Runs (Connection.step {} plainEmail)
    { stream := greetingTwice } [{}, {}, {}] _)

/-- The second greeting is rejected, and the transaction goes on across it. -/
theorem transaction_across_greeting : ∃ c t,
    Runs (Connection.step {} plainEmail) { stream := greetingTwice } [{}, {}, {}] c ∧
    c.accepted = [.greeting true, .mail "", .rcpt "user@example.net"] ∧
    c.stream.head? = some (ascii "EHLO\r\n") ∧
    Runs (Connection.step {} plainEmail) c [{}, {}] t ∧
    t.handed = [⟨"", ["user@example.net"], ascii "Hello\r\n"⟩] := by
  have hopen : (run (Connection.step {} plainEmail) (List.replicate 3 {})
      { stream := greetingTwice }).map (fun c ↦ (c.accepted, c.stream.head?)) =
      some ([.greeting true, .mail "", .rcpt "user@example.net"], some (ascii "EHLO\r\n")) := by
    decide +kernel
  have hdone : (run (Connection.step {} plainEmail)
      (List.replicate 3 ({} : Turn) ++ List.replicate 2 ({} : Turn))
      { stream := greetingTwice }).map Connection.handed =
      some [⟨"", ["user@example.net"], ascii "Hello\r\n"⟩] := by
    decide +kernel
  obtain ⟨c, hc, hfields⟩ := Option.map_eq_some_iff.mp hopen
  obtain ⟨t, ht, hhanded⟩ := Option.map_eq_some_iff.mp hdone
  obtain ⟨u, hu, hut⟩ := runs_append.mp ht
  obtain rfl := hu.deterministic hc
  exact ⟨u, t, hc, congrArg Prod.fst hfields, congrArg Prod.snd hfields, hut, hhanded⟩

end NoreplyGateway.Smtp
