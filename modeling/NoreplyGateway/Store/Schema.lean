import NoreplyGateway.Config
import NoreplyGateway.Json
import NoreplyGateway.Table

namespace NoreplyGateway

/-- The message that `prepare_message` returns. -/
structure PreparedMessage where
  id : String
  mime : Octets
  recipients : List String
  envelopeSender : String
  originalFrom : String
  subject : String
  messageId : String
  nat : Bool

inductive Status
  | queued
  | sending
  | submitted
  | retry
  | failed
  | uncertain
  | cancelled
  deriving DecidableEq

/-- A row of the `messages` table. The body is gone when `mime` is `none`. -/
structure Row where
  id : String
  created : Time
  cycleStarted : Time
  updated : Time
  status : Status
  nextAttempt : Extended
  attempts : ℕ
  envelopeSender : String
  originalFrom : String
  recipients : String
  recipientCount : ℕ
  subject : String
  messageId : String
  nat : Bool
  size : ℕ
  mime : Option Octets
  error : String

/-- The `settings` table, one optional value for each key the program writes.
A flag or a float stands for its text. -/
structure Settings where
  sender : Option String := none
  paused : Option Bool := none
  rate : Option ℚ := none
  cooldownUntil : Option PyFloat := none

/-- The keys of the `counters` table. A counter without a row reads as zero
wherever the program reads it. -/
inductive Counter
  | accepted
  | nat
  | retainedMessages
  | retainedBytes
  | submitted
  | retry
  | failed
  | uncertain
  | manualRetry
  | cancelled
  deriving DecidableEq

inductive QuotaState
  | reserved
  | counted
  deriving DecidableEq

/-- A row of the `quota` ledger; `instant` is its column `at`. -/
structure Quota where
  messageId : String
  mailbox : String
  instant : Time
  recipients : ℕ
  state : QuotaState

structure Database where
  messages : Table Row.id := Table.empty
  settings : Settings := {}
  counters : Counter → ℤ := fun _ ↦ 0
  quota : List Quota := []

namespace Database

variable (db : Database)

/-- `_count`, less the per-minute buckets that only the statistics read. -/
def count (key : Counter) (value : ℤ) : Database :=
  { db with counters := Function.update db.counters key (db.counters key + value) }

def setCounter (key : Counter) (value : ℤ) : Database :=
  { db with counters := Function.update db.counters key value }

variable (key : Counter) (value : ℤ)

@[simp] theorem count_messages : (db.count key value).messages = db.messages := rfl

@[simp] theorem count_settings : (db.count key value).settings = db.settings := rfl

@[simp] theorem count_quota : (db.count key value).quota = db.quota := rfl

@[simp] theorem count_counters : (db.count key value).counters =
    Function.update db.counters key (db.counters key + value) := rfl

@[simp] theorem setCounter_messages : (db.setCounter key value).messages = db.messages := rfl

@[simp] theorem setCounter_settings : (db.setCounter key value).settings = db.settings := rfl

@[simp] theorem setCounter_quota : (db.setCounter key value).quota = db.quota := rfl

@[simp] theorem setCounter_counters : (db.setCounter key value).counters =
    Function.update db.counters key value := rfl

end Database

end NoreplyGateway
