import NoreplyGateway.Machine
import NoreplyGateway.Smtp.Data
import NoreplyGateway.Table

namespace NoreplyGateway.Smtp

open Machine

/-- What `_data` waits for. -/
inductive DataWait
  | line
  | submission (identifier : String)
  | reply (text : String)
  deriving DecidableEq

/-- The variables of `_data` in one connection. -/
structure Transaction where
  connection : ℕ
  content : Octets := []
  retained : ℤ := 0
  failure : String := ""
  wait : DataWait := .line

structure Counters where
  accepted : ℕ := 0
  rejected : ℕ := 0
  deferred : ℕ := 0

/-- The server's buffer account, with the DATA transactions in progress. -/
structure Server where
  buffered : ℤ := 0
  counters : Counters := {}
  transactions : Table Transaction.connection := .empty

/-- A step of one connection in DATA. A line comes with what the rest of the loop
would find: the identifier it draws, and whether `prepare_message` returns.
`raised` is any exception in a wait: the connection is lost, a line is over the
limit of the reader, the time is over, or the task is cancelled. -/
inductive DataEvent
  | enter (connection : ℕ)
  | line (connection : ℕ) (line : Octets) (identifier : String) (prepared : Bool)
  | submitted (connection : ℕ) (queued : Bool)
  | sent (connection : ℕ)
  | raised (connection : ℕ)

def unstuff (line : Octets) : Octets := if line.head? = some 46 then line.tail else line

/-- The failure after the checks of one line. -/
def lineFailure (failure : String) (line : Octets) : String :=
  let inner := line.take (line.length - 2)
  let failure := if ¬[13, 10] <:+ line ∨ line.length > 1001 ∨ 13 ∈ inner ∨ 10 ∈ inner then
    "554 5.6.0 DATA requires CRLF and lines of at most 1000 octets" else failure
  if (unstuff line).length > 1000 then "554 5.6.0 DATA line is too long" else failure

namespace Transaction

/-- One line of DATA that does not end it, with the number of octets that it adds
to the buffer. -/
def receive (config : SMTPConfig) (buffered : ℤ) (line : Octets) (d : Transaction) :
    Transaction × ℤ :=
  if lineFailure d.failure line ≠ "" then ({ d with failure := lineFailure d.failure line }, 0)
  else if d.content.length + (unstuff line).length > config.maxMessageBytes then
    ({ d with failure := "552 5.3.4 Message too large" }, 0)
  else if buffered + (unstuff line).length > config.maxBufferBytes then
    ({ d with failure := "452 4.3.1 Message-buffer capacity exceeded" }, 0)
  else ({ d with
    content := d.content ++ unstuff line
    retained := d.retained + (unstuff line).length }, (unstuff line).length)

/-- The end of DATA, up to the next wait. -/
def conclude (identifier : String) (prepared : Bool) (d : Transaction) : Transaction :=
  if d.failure ≠ "" then { d with wait := .reply d.failure }
  else if prepared then { d with wait := .submission identifier }
  else { d with
    wait := .reply
      "554 5.7.1 Invalid message headers, sender, or effective recipients; see gateway policy" }

def answer (identifier : String) (queued : Bool) (d : Transaction) : Transaction :=
  if queued then { d with wait := .reply ("250 2.0.0 Durably queued as " ++ identifier) }
  else { d with wait := .reply "451 4.3.0 Unable to durably queue message; retry later" }

end Transaction

open Transaction

section Steps

variable (config : SMTPConfig) (s : Server) (d : Transaction)

theorem receive_connection (buffered : ℤ) (line : Octets) (d : Transaction) :
    (d.receive config buffered line).1.connection = d.connection := by
  unfold Transaction.receive
  split_ifs <;> rfl

theorem conclude_connection (identifier : String) (prepared : Bool) (d : Transaction) :
    (d.conclude identifier prepared).connection = d.connection := by
  unfold Transaction.conclude
  split_ifs <;> rfl

theorem answer_connection (identifier : String) (queued : Bool) (d : Transaction) :
    (d.answer identifier queued).connection = d.connection := by
  unfold Transaction.answer
  split_ifs <;> rfl

namespace Server

/-- The `finally` block of `_data`. -/
def leave : Server :=
  { s with
    buffered := s.buffered - d.retained
    transactions := s.transactions.delete (·.connection = d.connection) }

def receive (line : Octets) : Server :=
  { s with
    buffered := s.buffered + (d.receive config s.buffered line).2
    transactions := s.transactions.updateAt d.connection
      (fun d ↦ (d.receive config s.buffered line).1) (receive_connection config s.buffered line) }

def conclude (identifier : String) (prepared : Bool) : Server :=
  { s with
    counters := if d.failure ≠ "" ∨ prepared = false then
      { s.counters with rejected := s.counters.rejected + 1 } else s.counters
    transactions := s.transactions.updateAt d.connection (Transaction.conclude identifier prepared)
      (conclude_connection identifier prepared) }

def answer (identifier : String) (queued : Bool) : Server :=
  { s with
    counters := if queued then { s.counters with accepted := s.counters.accepted + 1 }
      else { s.counters with deferred := s.counters.deferred + 1 }
    transactions := s.transactions.updateAt d.connection (Transaction.answer identifier queued)
      (answer_connection identifier queued) }

def step : DataEvent → Option Server
  | .enter connection =>
    (s.transactions.insert { connection := connection }).map fun transactions ↦
      { s with transactions := transactions }
  | .line connection line identifier prepared =>
    (s.transactions.find? connection).bind fun d ↦
      if d.wait ≠ .line then none
      else if line = [] then some (s.leave d)
      else if line = dot then some (s.conclude d identifier prepared)
      else some (s.receive config d line)
  | .submitted connection queued =>
    (s.transactions.find? connection).bind fun d ↦
      match d.wait with
      | .submission identifier => some (s.answer d identifier queued)
      | _ => none
  | .sent connection =>
    (s.transactions.find? connection).bind fun d ↦
      match d.wait with
      | .reply _ => some (s.leave d)
      | _ => none
  | .raised connection => (s.transactions.find? connection).map s.leave

end Server

end Steps

/-- The octets that the transactions in progress hold. -/
def Server.held (s : Server) : ℤ := s.transactions.total fun d ↦ d.content.length

/-- The account is right, and the limits are kept. -/
structure Accounted (config : SMTPConfig) (s : Server) : Prop where
  buffered : s.buffered = s.held
  retained : ∀ d ∈ s.transactions.rows, d.retained = d.content.length
  capacity : s.buffered ≤ config.maxBufferBytes
  sizes : ∀ d ∈ s.transactions.rows, d.content.length ≤ config.maxMessageBytes

variable {config : SMTPConfig} {s t : Server} {d : Transaction} {e : DataEvent}

/-- A line is stored and counted, or neither. -/
theorem receive_cases (config : SMTPConfig) (buffered : ℤ) (line : Octets) (d : Transaction) :
    (d.receive config buffered line).2 = 0 ∧
      (d.receive config buffered line).1.content = d.content ∧
      (d.receive config buffered line).1.retained = d.retained ∨
    ∃ stored : Octets, (d.receive config buffered line).2 = stored.length ∧
      (d.receive config buffered line).1.content = d.content ++ stored ∧
      (d.receive config buffered line).1.retained = d.retained + stored.length ∧
      d.content.length + stored.length ≤ config.maxMessageBytes ∧
      buffered + stored.length ≤ config.maxBufferBytes := by
  unfold Transaction.receive
  by_cases hfailure : lineFailure d.failure line ≠ ""
  · rw [if_pos hfailure]
    exact .inl ⟨rfl, rfl, rfl⟩
  · rw [if_neg hfailure]
    split_ifs with hsize hcapacity
    · exact .inl ⟨rfl, rfl, rfl⟩
    · exact .inl ⟨rfl, rfl, rfl⟩
    · exact .inr ⟨unstuff line, rfl, rfl, rfl, not_lt.mp hsize, not_lt.mp hcapacity⟩

/-- The line of one connection is handled as by the loop over its lines alone, where
the rest of the account is what the others hold. -/
theorem receive_eq_dataLine {others : ℕ} {buffered : ℤ}
    (hbuffered : buffered = others + d.content.length) (line : Octets) :
    (⟨(d.receive config buffered line).1.content, (d.receive config buffered line).1.failure⟩ :
      DataState) = dataLine config others ⟨d.content, d.failure⟩ line := by
  have hcapacity : buffered + (unstuff line).length > config.maxBufferBytes ↔
      others + d.content.length + (unstuff line).length > config.maxBufferBytes := by
    rw [hbuffered]
    omega
  have hdata : dataLine config others ⟨d.content, d.failure⟩ line =
      if lineFailure d.failure line ≠ "" then ⟨d.content, lineFailure d.failure line⟩
      else if d.content.length + (unstuff line).length > config.maxMessageBytes then
        ⟨d.content, "552 5.3.4 Message too large"⟩
      else if others + d.content.length + (unstuff line).length > config.maxBufferBytes then
        ⟨d.content, "452 4.3.1 Message-buffer capacity exceeded"⟩
      else ⟨d.content ++ unstuff line, ""⟩ := rfl
  rw [hdata]
  unfold Transaction.receive
  by_cases hfailure : lineFailure d.failure line ≠ ""
  · rw [if_pos hfailure, if_pos hfailure]
  · have hnone : d.failure = "" := by
      unfold lineFailure at hfailure
      dsimp only at hfailure
      split_ifs at hfailure
      all_goals first
        | exact not_not.mp hfailure
        | exact absurd (by decide) hfailure
    rw [if_neg hfailure, if_neg hfailure]
    simp only [hcapacity]
    split_ifs
    · rfl
    · rfl
    · rw [hnone]

theorem held_updateAt {f : Transaction → Transaction} {hf : ∀ d, (f d).connection = d.connection}
    (h : s.transactions.find? d.connection = some d) :
    (s.transactions.updateAt d.connection f hf).total (fun d ↦ (d.content.length : ℤ)) =
      s.held - d.content.length + (f d).content.length := Table.total_updateAt h

theorem mem_updateAt {f : Transaction → Transaction} (hf : ∀ d, (f d).connection = d.connection)
    (h : s.transactions.find? d.connection = some d) {d' : Transaction}
    (hd : d' ∈ (s.transactions.updateAt d.connection f hf).rows) :
    d' ∈ s.transactions.rows ∨ d' = f d := by
  obtain ⟨d₀, hd₀, rfl⟩ := List.mem_map.mp hd
  by_cases hk : d₀.connection = d.connection
  · obtain rfl := Table.eq_of_key hd₀ (Table.mem_of_find? h) hk
    simp
  · simp [hk, hd₀]

/-- A step that leaves the content of the transactions alone. -/
theorem Accounted.update {f : Transaction → Transaction} (hs : Accounted config s)
    (hf : ∀ d, (f d).connection = d.connection)
    (h : s.transactions.find? d.connection = some d) (hcontent : (f d).content = d.content)
    (hretained : (f d).retained = d.retained) (hbuffered : t.buffered = s.buffered)
    (ht : t.transactions = s.transactions.updateAt d.connection f hf) : Accounted config t := by
  have hd := Table.mem_of_find? h
  refine ⟨?_, fun d' hd' ↦ ?_, hbuffered ▸ hs.capacity, fun d' hd' ↦ ?_⟩
  · unfold Server.held
    rw [ht, held_updateAt h, hcontent, hbuffered, hs.buffered]
    ring
  · rw [ht] at hd'
    rcases mem_updateAt hf h hd' with hd' | rfl
    · exact hs.retained d' hd'
    · rw [hcontent, hretained]
      exact hs.retained d hd
  · rw [ht] at hd'
    rcases mem_updateAt hf h hd' with hd' | rfl
    · exact hs.sizes d' hd'
    · rw [hcontent]
      exact hs.sizes d hd

theorem Accounted.leave (hs : Accounted config s)
    (h : s.transactions.find? d.connection = some d) : Accounted config (s.leave d) := by
  have hd := Table.mem_of_find? h
  have hbuffered : (s.leave d).buffered = (s.leave d).held := by
    unfold Server.held Server.leave
    dsimp only
    rw [Table.total_delete_key h, hs.retained d hd, hs.buffered]
    rfl
  refine ⟨hbuffered, fun d' hd' ↦ hs.retained d' (List.mem_of_mem_filter hd'), ?_,
    fun d' hd' ↦ hs.sizes d' (List.mem_of_mem_filter hd')⟩
  have hle : (s.leave d).buffered ≤ s.buffered := by
    unfold Server.leave
    dsimp only
    rw [hs.retained d hd]
    omega
  exact hle.trans hs.capacity

theorem Accounted.receive (hs : Accounted config s)
    (h : s.transactions.find? d.connection = some d) (line : Octets) :
    Accounted config (s.receive config d line) := by
  have hd := Table.mem_of_find? h
  obtain ⟨hsize, hcontent, hretained⟩ | ⟨stored, hsize, hcontent, hretained, hmessage, hbuffer⟩ :=
    receive_cases config s.buffered line d
  · exact hs.update (receive_connection config s.buffered line) h hcontent hretained
      (by simp [Server.receive, hsize]) rfl
  · refine ⟨?_, fun d' hd' ↦ ?_, ?_, fun d' hd' ↦ ?_⟩
    · unfold Server.held Server.receive
      dsimp only
      rw [held_updateAt h, hsize, hcontent, hs.buffered, List.length_append]
      push_cast
      ring
    · rcases mem_updateAt (receive_connection config s.buffered line) h hd' with hd' | rfl
      · exact hs.retained d' hd'
      · rw [hcontent, hretained, hs.retained d hd, List.length_append]
        push_cast
        rfl
    · unfold Server.receive
      dsimp only
      rw [hsize]
      exact hbuffer
    · rcases mem_updateAt (receive_connection config s.buffered line) h hd' with hd' | rfl
      · exact hs.sizes d' hd'
      · rw [hcontent, List.length_append]
        exact hmessage

theorem Accounted.step (hs : Accounted config s) (h : s.step config e = some t) :
    Accounted config t := by
  cases e with
  | enter connection =>
    obtain ⟨transactions, hinsert, rfl⟩ := Option.map_eq_some_iff.mp h
    obtain ⟨-, hrows⟩ := Table.insert_eq_some.mp hinsert
    have hmem {d : Transaction} (hd : d ∈ transactions.rows) :
        d ∈ s.transactions.rows ∨ d = { connection := connection } := by
      rw [hrows] at hd
      simpa using hd
    refine ⟨?_, fun d hd ↦ ?_, hs.capacity, fun d hd ↦ ?_⟩
    · unfold Server.held
      rw [Table.total_append hrows, hs.buffered]
      simp [Server.held]
    · rcases hmem hd with hd | rfl
      · exact hs.retained d hd
      · rfl
    · rcases hmem hd with hd | rfl
      · exact hs.sizes d hd
      · exact Nat.zero_le _
  | line connection line identifier prepared =>
    obtain ⟨d, hd, hstep⟩ := Option.bind_eq_some_iff.mp h
    obtain rfl := Table.key_of_find? hd
    split_ifs at hstep <;> obtain rfl := Option.some.inj hstep
    · exact hs.leave hd
    · refine hs.update (conclude_connection identifier prepared) hd ?_ ?_ rfl rfl
      all_goals
        unfold Transaction.conclude
        split_ifs <;> rfl
    · exact hs.receive hd line
  | submitted connection queued =>
    obtain ⟨d, hd, hstep⟩ := Option.bind_eq_some_iff.mp h
    obtain rfl := Table.key_of_find? hd
    split at hstep <;> cases hstep
    refine hs.update (answer_connection _ queued) hd ?_ ?_ rfl rfl
    all_goals
      unfold Transaction.answer
      split_ifs <;> rfl
  | sent connection =>
    obtain ⟨d, hd, hstep⟩ := Option.bind_eq_some_iff.mp h
    obtain rfl := Table.key_of_find? hd
    split at hstep <;> cases hstep
    exact hs.leave hd
  | raised connection =>
    obtain ⟨d, hd, rfl⟩ := Option.map_eq_some_iff.mp h
    obtain rfl := Table.key_of_find? hd
    exact hs.leave hd

/-- Whatever the order of the steps of the connections, the account is what the
transactions in progress hold, within the limits. -/
theorem data_buffers {events : List DataEvent} (h : Runs (Server.step config) {} events s) :
    s.buffered = s.held ∧ s.buffered ≤ config.maxBufferBytes ∧
    (∀ d ∈ s.transactions.rows, d.content.length ≤ config.maxMessageBytes) ∧
    (s.transactions.rows = [] → s.buffered = 0) := by
  have hs : Accounted config s := by
    refine h.invariant (fun u e v hu hstep ↦ hu.step hstep) ⟨rfl, ?_, Int.natCast_nonneg _, ?_⟩
    · intro d hd
      cases hd
    · intro d hd
      cases hd
  refine ⟨hs.buffered, hs.capacity, hs.sizes, fun hnone ↦ ?_⟩
  rw [hs.buffered, Server.held, Table.total, hnone]
  rfl

def sampleLimits : SMTPConfig := { maxMessageBytes := 8, maxBufferBytes := 10 }

/-- Two connections share the buffer; the second one finds it full, and the first
one is lost. -/
theorem data_buffers_sample : ∃ s,
    Runs (Server.step sampleLimits) {} [.enter 1, .enter 2, .line 1 (ascii "abcdef\r\n") "" true,
      .line 2 (ascii "xyz\r\n") "" true, .line 2 dot "" true, .raised 1, .sent 2] s ∧
    s.counters.rejected = 1 ∧ s.buffered = 0 := by
  have hrun : (run (Server.step sampleLimits) [.enter 1, .enter 2,
      .line 1 (ascii "abcdef\r\n") "" true, .line 2 (ascii "xyz\r\n") "" true,
      .line 2 dot "" true, .raised 1, .sent 2] {}).any
      (fun s ↦ s.counters.rejected = 1 ∧ s.transactions.rows.isEmpty) := by decide +kernel
  obtain ⟨s, hs, hrest⟩ := (Option.any_eq_true ..).mp hrun
  obtain ⟨hrejected, hempty⟩ := of_decide_eq_true hrest
  exact ⟨s, hs, hrejected, (data_buffers hs).2.2.2 (List.isEmpty_iff.mp hempty)⟩

end NoreplyGateway.Smtp
