import NoreplyGateway.Store.Session
import NoreplyGateway.Upstream.Backend

namespace NoreplyGateway.Gateway

open Store Upstream

/-- The task `Store._writer`, by the wait it is in. What a batch job gave is
`none` when it raised. -/
inductive Writer
  | waiting
  | gathering (first : PreparedMessage)
  | committing (batch : List PreparedMessage) (stopping : Bool)
  | committed (batch : List PreparedMessage) (results : Option (List InsertResult))
      (stopping : Bool)
  | ended

inductive Closing
  | opened
  | putting
  | joining
  deriving DecidableEq

/-- The intake side of the store. The shutdown marker in `pending` is `none`;
`submitted` and `resolved` record the submissions and the ends of their
futures, and `waiting` the DATA transactions that await one. -/
structure Intake where
  accepting : Bool := false
  pending : List (Option PreparedMessage) := []
  writer : Writer := .ended
  closing : Closing := .joining
  submitted : List String := []
  resolved : List (String × InsertResult) := []
  waiting : List String := []

inductive Reply
  | queued (id : String)
  | deferred (id : String)
  deriving DecidableEq

def Reply.text : Reply → String
  | .queued id => "250 2.0.0 Durably queued as " ++ id
  | .deferred _ => "451 4.3.0 Unable to durably queue message; retry later"

/-- What `_attempt` passes to `finish`. -/
structure Verdict where
  status : Status
  error : String
  delay : PyFloat
  cooldown : Bool

/-- A delivery worker, by the wait it is in. A job of the database thread is
waited for before and after it has run; once it has begun it counts as run. -/
inductive Worker
  | ready
  | queued
  | pacing
  | claiming
  | claimed (message : Option Row)
  | sending (message : Row)
  | pausing (message : Row) (error : String)
  | paused (message : Row) (error : String)
  | finishing (id : String) (verdict : Verdict)
  | finished
  | interrupted (id : String)
  | failed
  | ended

inductive Housekeeper
  | sleeping
  | queued
  | failed
  | ended

inductive Boot
  | waiting
  | read (settings : Settings)
  | running

/-- The dispatcher. `shielded` are the messages whose interrupted attempt is
still to be recorded after its worker is gone, and `resuming` the settings that
are stored and not yet in force. -/
structure Dispatcher where
  boot : Boot := .waiting
  paused : Bool := false
  rate : ℚ := 0
  cooldownUntil : PyFloat := (0 : ℚ)
  stopping : Bool := false
  nextPermit : ℚ := 0
  workers : List Worker := []
  shielded : List String := []
  housekeeper : Housekeeper := .ended
  resuming : List Setting := []

end Gateway

open Gateway in
/-- The process and its data directory. `issued` and `replies` record the
identifiers given to messages and the answers to DATA, over all processes. -/
structure Gateway where
  store : Store.Session := {}
  healthy : Bool := true
  intake : Intake := {}
  dispatcher : Dispatcher := {}
  issued : List String := []
  replies : List Reply := []

end NoreplyGateway
