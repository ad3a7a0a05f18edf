import NoreplyGateway.Store.Schema

namespace NoreplyGateway.Store

inductive StoreError
  | valueError (message : String)
  | runtimeError (message : String)
  | integrityError
  deriving DecidableEq

/-- The first `n` characters. -/
def truncate (s : String) (n : ℕ) : String := String.ofList (s.toList.take n)

/-- Rows whose body is retained. -/
def retained (db : Database) : List Row := db.messages.rows.filter (·.mime.isSome)

/-- The restart of a row that a stopped process left in flight. -/
def recoverRow (now : Time) (r : Row) : Row :=
  { r with
    status := .uncertain
    error := "Process stopped during an upstream attempt; review before retry"
    updated := now }

@[simp] theorem recoverRow_id (now : Time) (r : Row) : (recoverRow now r).id = r.id := rfl

/-- The rows that `Store._open` finds in flight. -/
def recovered (db : Database) : ℕ := (db.messages.rows.filter (·.status = .sending)).length

/-- What `Store._open` writes once it has accepted the data directory. -/
def reopen (config : Config) (now : Time) (db : Database) : Database where
  messages := db.messages.update (·.status = .sending) (recoverRow now) (recoverRow_id now)
  settings := { db.settings with sender := some (casefold config.account.sender) }
  counters :=
    let db₁ := (db.setCounter .retainedMessages (retained db).length).setCounter .retainedBytes
      (((retained db).map (·.size)).sum : ℕ)
    if recovered db ≠ 0 then (db₁.count .uncertain (recovered db)).counters else db₁.counters
  quota := db.quota.map (fun q ↦ { q with state := .counted })

/-- `Store._open`, after the schema is in place. -/
def openStore (config : Config) (now : Time) (db : Database) : Except StoreError Database :=
  let previous := db.settings.sender.getD ""
  if ¬(previous = "" ∨ previous = casefold config.account.sender) ∧ (retained db).length ≠ 0 then
    .error (.valueError "Cannot change sending mailbox while retained/unsent messages exist")
  else .ok (reopen config now db)

inductive InsertResult
  | stored
  | refused (reason : String)
  deriving DecidableEq

/-- The capacity check of a batch: one result for each message, and the
messages to be inserted. -/
def admission (queue : QueueConfig) : List PreparedMessage → ℤ → ℤ →
    List InsertResult × List PreparedMessage
  | [], _, _ => ([], [])
  | m :: batch, held, size =>
    if held ≥ queue.maxMessages ∨ size + m.mime.length > queue.maxBytes then
      let rest := admission queue batch held size
      (.refused "Durable queue capacity exceeded" :: rest.1, rest.2)
    else
      let rest := admission queue batch (held + 1) (size + m.mime.length)
      (.stored :: rest.1, m :: rest.2)

def queuedRow (now : Time) (m : PreparedMessage) : Row where
  id := m.id
  created := now
  cycleStarted := now
  updated := now
  status := .queued
  nextAttempt := ((now : WithTop ℚ) : Extended)
  attempts := 0
  envelopeSender := m.envelopeSender
  originalFrom := m.originalFrom
  recipients := Json.dumps m.recipients
  recipientCount := m.recipients.length
  subject := truncate m.subject 2000
  messageId := truncate m.messageId 1000
  nat := m.nat
  size := m.mime.length
  mime := some m.mime
  error := ""

/-- `Store._insert_batch`, with the health flag and the free disk space it
reads. -/
def insertBatch (config : Config) (healthy : Bool) (free : ℕ) (now : Time)
    (batch : List PreparedMessage) (db : Database) :
    Except StoreError (Database × List InsertResult) :=
  if healthy = false then
    .ok (db, batch.map (fun _ ↦ .refused "Queue needs operator attention"))
  else if free < config.queue.minFreeBytes + (batch.map (·.mime.length)).sum * 2 then
    .ok (db, batch.map (fun _ ↦ .refused "Insufficient free disk space"))
  else
    let admitted := admission config.queue batch (db.counters .retainedMessages)
      (db.counters .retainedBytes)
    let accepted := admitted.2
    match db.messages.insertMany (accepted.map (queuedRow now)) with
    | none => .error .integrityError
    | some messages =>
      let db₁ := { db with messages := messages }
      if accepted = [] then .ok (db₁, admitted.1)
      else
        let db₂ := (db₁.count .accepted accepted.length).count .nat (accepted.countP (·.nat))
        .ok ((db₂.count .retainedMessages accepted.length).count .retainedBytes
          ((accepted.map (·.mime.length)).sum : ℕ), admitted.1)

/-- The order of the claim query: by next attempt, then by creation. -/
def claimKey (r : Row) : Extended ×ₗ Time := toLex (r.nextAttempt, r.created)

/-- One index seek: the first ready row in the given state. -/
def ready (db : Database) (now : Time) (state : Status) : Option Row :=
  (db.messages.rows.filter
    (fun r ↦ r.status = state ∧ r.nextAttempt ≤ ((now : WithTop ℚ) : Extended))).argmin claimKey

def candidate (db : Database) (now : Time) : Option Row :=
  ([ready db now .queued, ready db now .retry].filterMap id).argmin claimKey

/-- The recipients that the ledger charges to the mailbox since `now - 86400`. -/
def used (config : Config) (now : Time) (db : Database) : ℕ :=
  ((db.quota.filter (fun q ↦
    q.mailbox = casefold config.account.sender ∧ q.instant > now - 86400)).map (·.recipients)).sum

def expireRow (now : Time) (r : Row) : Row :=
  { r with status := .failed, error := "Queue maximum age exceeded", updated := now }

@[simp] theorem expireRow_id (now : Time) (r : Row) : (expireRow now r).id = r.id := rfl

def expire (now : Time) (row : Row) (db : Database) : Database :=
  let messages := db.messages.updateAt row.id (expireRow now) (expireRow_id now)
  ({ db with messages := messages } : Database).count .failed 1

def claimRow (now : Time) (r : Row) : Row :=
  { r with status := .sending, attempts := r.attempts + 1, updated := now }

@[simp] theorem claimRow_id (now : Time) (r : Row) : (claimRow now r).id = r.id := rfl

def reserve (config : Config) (now : Time) (row : Row) (db : Database) : Database :=
  { db with
    messages := db.messages.updateAt row.id (claimRow now) (claimRow_id now)
    quota := db.quota ++ [{
      messageId := row.id
      mailbox := casefold config.account.sender
      instant := now
      recipients := row.recipientCount
      state := .reserved }] }

/-- `Store._claim`. The row it returns is the one it read, with the attempt
counted. -/
def claim (config : Config) (now : Time) (db : Database) : Database × Option Row :=
  if db.settings.paused.getD false = true ∨
      PyFloat.lt now (db.settings.cooldownUntil.getD (0 : ℚ)) then (db, none)
  else match candidate db now with
    | none => (db, none)
    | some row =>
      if now - row.cycleStarted > config.delivery.maxAgeHours * 3600 then (expire now row db, none)
      else if config.delivery.recipientLimit24h ≠ 0 ∧
          used config now db + row.recipientCount > config.delivery.recipientLimit24h then
        (db, none)
      else (reserve config now row db, some { row with attempts := row.attempts + 1 })

/-- The result states of an attempt, each with its lifetime counter. -/
def resultCounter : Status → Option Counter
  | .submitted => some .submitted
  | .retry => some .retry
  | .failed => some .failed
  | .uncertain => some .uncertain
  | _ => none

def settleQuota (identifier : String) (status : Status) (quota : List Quota) : List Quota :=
  if status = .submitted ∨ status = .uncertain then
    quota.map (fun q ↦ if q.messageId = identifier ∧ q.state = .reserved then
      { q with state := .counted } else q)
  else quota.filter (fun q ↦ ¬(q.messageId = identifier ∧ q.state = .reserved))

def finishRow (status : Status) (error : String) (now : Time) (next : Extended) (r : Row) : Row :=
  { r with
    status := status
    error := truncate error 500
    updated := now
    nextAttempt := next
    mime := if status = .submitted then none else r.mime }

@[simp] theorem finishRow_id (status : Status) (error : String) (now : Time) (next : Extended)
    (r : Row) : (finishRow status error now next r).id = r.id := rfl

/-- What `Store._finish` writes for a row it found in `sending`. -/
def settle (identifier : String) (status : Status) (error : String) (delay : PyFloat)
    (globalCooldown : Bool) (now : Time) (counter : Counter) (row : Row) (next : Extended)
    (db : Database) : Database where
  messages := db.messages.updateAt identifier (finishRow status error now next)
    (finishRow_id status error now next)
  settings := if globalCooldown then
      { db.settings with
        cooldownUntil := some (PyFloat.max (PyFloat.add now delay)
          (db.settings.cooldownUntil.getD (0 : ℚ))) }
    else db.settings
  counters :=
    let db₁ := if status = .submitted then
      (db.count .retainedMessages (-1)).count .retainedBytes (-row.size) else db
    (db₁.count counter 1).counters
  quota := settleQuota identifier status db.quota

/-- `Store._finish`. A next attempt that is nan would be stored as NULL, which
the column refuses. -/
def finish (identifier : String) (status : Status) (error : String) (delay : PyFloat)
    (globalCooldown : Bool) (now : Time) (db : Database) : Except StoreError Database :=
  match resultCounter status with
  | none => .error (.valueError "Invalid result state")
  | some counter =>
    match db.messages.find? identifier with
    | none => .error (.runtimeError "Attempt is no longer in sending state")
    | some row =>
      if row.status ≠ .sending then
        .error (.runtimeError "Attempt is no longer in sending state")
      else match (PyFloat.add now delay).toReal with
        | none => .error .integrityError
        | some next =>
          .ok (settle identifier status error delay globalCooldown now counter row next db)

/-- A value for one key of the settings table. -/
inductive Setting
  | paused (value : Bool)
  | rate (value : ℚ)
  deriving DecidableEq

/-- The transaction of `Store.set_setting`. -/
def setSetting (setting : Setting) (db : Database) : Database :=
  match setting with
  | .paused b => { db with settings := { db.settings with paused := some b } }
  | .rate q => { db with settings := { db.settings with rate := some q } }

/-- The three clock readings of an operator retry, in the order of the columns
they fill. -/
structure RetryClock where
  cycleStarted : Time
  updated : Time
  nextAttempt : Time

def retryRow (clock : RetryClock) (r : Row) : Row :=
  { r with
    status := .queued
    attempts := 0
    cycleStarted := clock.cycleStarted
    updated := clock.updated
    nextAttempt := ((clock.nextAttempt : WithTop ℚ) : Extended)
    error := "" }

@[simp] theorem retryRow_id (clock : RetryClock) (r : Row) : (retryRow clock r).id = r.id := rfl

def cancelRow (now : Time) (r : Row) : Row :=
  { r with status := .cancelled, mime := none, updated := now }

@[simp] theorem cancelRow_id (now : Time) (r : Row) : (cancelRow now r).id = r.id := rfl

def requeue (clock : RetryClock) (row : Row) (db : Database) : Database :=
  let messages := db.messages.updateAt row.id (retryRow clock) (retryRow_id clock)
  ({ db with messages := messages } : Database).count .manualRetry 1

def cancel (now : Time) (row : Row) (db : Database) : Database :=
  let messages := db.messages.updateAt row.id (cancelRow now) (cancelRow_id now)
  let db₁ := ({ db with messages := messages } : Database)
  ((db₁.count .retainedMessages (-1)).count .retainedBytes (-row.size)).count .cancelled 1

/-- `Store._action`. -/
def action (identifier : String) (verb : String) (acknowledgeDuplicate : Bool)
    (clock : RetryClock) (db : Database) : Except StoreError Database :=
  match db.messages.find? identifier with
  | none => .error (.valueError "Unknown queue ID")
  | some row =>
    if row.status = .sending ∨ row.status = .submitted ∨ row.status = .cancelled then
      .error (.valueError "This message cannot be changed in its current state")
    else if verb = "retry" then
      if row.status = .uncertain ∧ acknowledgeDuplicate = false then
        .error (.valueError
          "Retrying an uncertain send requires explicit duplicate-risk acknowledgement")
      else .ok (requeue clock row db)
    else if verb = "cancel" then .ok (cancel clock.updated row db)
    else .error (.valueError "Unknown action")

/-- The order in which a scan without ORDER BY meets the rows of a table. SQL
leaves it open. -/
structure ScanOrder where
  order : List Row → List Row
  perm : ∀ l, (order l).Perm l

/-- Rows that housekeeping may delete. -/
def historic (config : Config) (now : Time) (r : Row) : Bool :=
  (r.status = .submitted ∨ r.status = .cancelled) ∧
    r.updated < now - config.queue.historyDays * 86400

/-- `Store.housekeeping`, less the buckets. -/
def housekeeping (config : Config) (now : Time) (scan : ScanOrder) (db : Database) : Database :=
  let doomed := ((scan.order (db.messages.rows.filter (historic config now))).take 10000).map (·.id)
  { db with
    messages := db.messages.delete (fun r ↦ r.id ∈ doomed)
    quota := db.quota.filter (fun q ↦ ¬(q.instant < now - 86400 ∧ q.state = .counted)) }

end NoreplyGateway.Store
