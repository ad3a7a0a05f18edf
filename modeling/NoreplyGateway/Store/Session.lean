import NoreplyGateway.Machine
import NoreplyGateway.Store.Transactions

namespace NoreplyGateway.Store

/-- An upstream attempt, from the claim of its message. It has no end while it
is in flight. -/
structure Attempt where
  message : String
  began : Time
  recipients : ℕ
  ended : Option Status

def Attempt.finish (identifier : String) (status : Status) (a : Attempt) : Attempt :=
  if a.message = identifier ∧ a.ended = none then { a with ended := some status } else a

def Attempt.recover (a : Attempt) : Attempt :=
  if a.ended = none then { a with ended := some .uncertain } else a

/-- The data directory, the configuration of the process that runs on it, and
the history of the upstream attempts. The program does not keep the history. -/
structure Session where
  running : Option Config := none
  db : Database := {}
  attempts : List Attempt := []

inductive Op
  | start (config : Config) (now : Time)
  | crash
  | insertBatch (healthy : Bool) (free : ℕ) (now : Time) (batch : List PreparedMessage)
  | claim (now : Time)
  | finish (identifier : String) (status : Status) (error : String) (delay : PyFloat)
      (globalCooldown : Bool) (now : Time)
  | action (identifier : String) (verb : String) (acknowledgeDuplicate : Bool) (clock : RetryClock)
  | setSetting (setting : Setting)
  | housekeeping (now : Time) (scan : ScanOrder)

/-- The message that a claim made now would return. -/
def Session.claimed (s : Session) (now : Time) : Option Row :=
  s.running.bind (fun config ↦ (claim config now s.db).2)

/-- One committed transaction, or the end of the process. A transaction that
raises is rolled back, so it is not a step. -/
def Session.step (s : Session) : Op → Option Session
  | .start config now =>
    match s.running, openStore config now s.db with
    | none, .ok db =>
      some { running := some config, db := db, attempts := s.attempts.map Attempt.recover }
    | _, _ => none
  | .crash => s.running.map (fun _ ↦ { s with running := none })
  | .insertBatch healthy free now batch =>
    s.running.bind fun config ↦
      match Store.insertBatch config healthy free now batch s.db with
      | .ok (db, _) => some { s with db := db }
      | .error _ => none
  | .claim now =>
    s.running.map fun config ↦
      let began := (s.claimed now).map (fun r ↦ ⟨r.id, now, r.recipientCount, none⟩)
      { s with db := (Store.claim config now s.db).1, attempts := s.attempts ++ began.toList }
  | .finish identifier status error delay globalCooldown now =>
    s.running.bind fun _ ↦
      match Store.finish identifier status error delay globalCooldown now s.db with
      | .ok db =>
        some { s with db := db, attempts := s.attempts.map (Attempt.finish identifier status) }
      | .error _ => none
  | .action identifier verb acknowledgeDuplicate clock =>
    s.running.bind fun _ ↦
      match Store.action identifier verb acknowledgeDuplicate clock s.db with
      | .ok db => some { s with db := db }
      | .error _ => none
  | .setSetting setting => s.running.map (fun _ ↦ { s with db := Store.setSetting setting s.db })
  | .housekeeping now scan =>
    s.running.map (fun config ↦ { s with db := Store.housekeeping config now scan s.db })

/-- An attempt on the message is in progress in the running process. -/
def Session.InProgress (s : Session) (identifier : String) : Prop :=
  s.running.isSome ∧ ∃ a ∈ s.attempts, a.message = identifier ∧ a.ended = none

def sampleConfig : Config := { account := { sender := "noreply@example.com" } }

def sampleMessage (id recipient : String) : PreparedMessage where
  id := id
  mime := ascii "From: noreply@example.com\r\n\r\nHello\r\n"
  recipients := [recipient]
  envelopeSender := "app@example.com"
  originalFrom := "noreply@example.com"
  subject := "Hello"
  messageId := "<" ++ id ++ "@example.com>"
  nat := false

/-- Two messages are stored; the first one is submitted and the second one is
left in flight. -/
def sampleRun : List Op :=
  [.start sampleConfig 0,
    .insertBatch true 1000000000 1
      [sampleMessage "m1" "a@example.com", sampleMessage "m2" "b@example.com"],
    .claim 2,
    .finish "m1" .submitted "" (0 : ℚ) false 3,
    .claim 4]

theorem sampleRun_runs : ∃ s, Machine.Runs Session.step {} sampleRun s :=
  Option.isSome_iff_exists.mp (by decide +kernel)

end NoreplyGateway.Store
