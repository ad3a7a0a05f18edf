import NoreplyGateway.Gateway.State

namespace NoreplyGateway.Gateway

open Store

inductive IntakeAction
  | data (message : PreparedMessage)
  | reply (id : String)
  | disconnect (id : String)
  | take
  | batch
  | commit (free : ℕ) (now : Time)
  | fault
  | resolve
  | close
  | closePut

/-- `asyncio.Queue.full`. -/
def full (config : Config) (pending : List (Option PreparedMessage)) : Bool :=
  0 < config.queue.pendingSubmissions ∧ config.queue.pendingSubmissions ≤ pending.length

/-- The messages that `_writer` adds to a batch with this much room, whether it
met the shutdown marker, and what is left in the queue. -/
def gather : ℕ → List (Option PreparedMessage) →
    List PreparedMessage × Bool × List (Option PreparedMessage)
  | 0, pending => ([], false, pending)
  | _ + 1, [] => ([], false, [])
  | _ + 1, none :: pending => ([], true, pending)
  | room + 1, some m :: pending =>
    let rest := gather room pending
    (m :: rest.1, rest.2)

/-- The result for each message of a batch whose job has ended. -/
def outcomes (batch : List PreparedMessage) (results : Option (List InsertResult)) :
    List (PreparedMessage × InsertResult) :=
  match results with
  | some results => batch.zip results
  | none => batch.map (·, .refused "Durable queue commit failed")

def answer (id : String) : InsertResult → Reply
  | .stored => .queued id
  | .refused _ => .deferred id

/-- `Store.submit`, with the answer of `_data` when it raises at once. -/
def submit (g : Gateway) (config : Config) (message : PreparedMessage) : Gateway :=
  let g := { g with issued := g.issued ++ [message.id] }
  if g.intake.accepting = false ∨ g.healthy = false ∨ full config g.intake.pending then
    { g with replies := g.replies ++ [.deferred message.id] }
  else
    { g with intake := { g.intake with
        pending := g.intake.pending ++ [some message]
        submitted := g.intake.submitted ++ [message.id]
        waiting := g.intake.waiting ++ [message.id] } }

/-- `_writer` after its batch job. -/
def resolve (g : Gateway) (batch : List PreparedMessage) (results : Option (List InsertResult))
    (stopping : Bool) : Gateway :=
  { g with
    healthy := g.healthy && results.isSome
    intake := { g.intake with
      resolved := g.intake.resolved ++ (outcomes batch results).map (fun o ↦ (o.1.id, o.2))
      writer := if stopping then .ended else .waiting } }

/-- One step of a DATA transaction, the writer or `Store.close`. -/
def intakeStep (g : Gateway) (config : Config) : IntakeAction → Option Gateway
  | .data message => if message.id ∈ g.issued then none else some (submit g config message)
  | .reply id =>
    if id ∈ g.intake.waiting then
      (g.intake.resolved.lookup id).map fun result ↦
        { g with
          intake := { g.intake with waiting := g.intake.waiting.erase id }
          replies := g.replies ++ [answer id result] }
    else none
  | .disconnect id =>
    some { g with intake := { g.intake with waiting := g.intake.waiting.erase id } }
  | .take =>
    match g.intake.writer, g.intake.pending with
    | .waiting, none :: pending =>
      some { g with intake := { g.intake with pending := pending, writer := .ended } }
    | .waiting, some first :: pending =>
      some { g with intake := { g.intake with pending := pending, writer := .gathering first } }
    | _, _ => none
  | .batch =>
    match g.intake.writer with
    | .gathering first =>
      let rest := gather (config.queue.batchSize - 1) g.intake.pending
      some { g with intake := { g.intake with
        pending := rest.2.2
        writer := .committing (first :: rest.1) rest.2.1 } }
    | _ => none
  | .commit free now =>
    match g.intake.writer with
    | .committing batch stopping =>
      match Store.insertBatch config g.healthy free now batch g.store.db with
      | .ok (db, results) =>
        some { g with
          store := { g.store with db := db }
          intake := { g.intake with writer := .committed batch (some results) stopping } }
      | .error _ =>
        some { g with intake := { g.intake with writer := .committed batch none stopping } }
    | _ => none
  | .fault =>
    match g.intake.writer with
    | .committing batch stopping =>
      some { g with intake := { g.intake with writer := .committed batch none stopping } }
    | _ => none
  | .resolve =>
    match g.intake.writer with
    | .committed batch results stopping => some (resolve g batch results stopping)
    | _ => none
  | .close =>
    if g.intake.closing = .opened then
      some { g with intake := { g.intake with accepting := false, closing := .putting } }
    else none
  | .closePut =>
    if g.intake.closing = .putting ∧ full config g.intake.pending = false then
      some { g with intake := { g.intake with
        pending := g.intake.pending ++ [none]
        closing := .joining } }
    else none

end NoreplyGateway.Gateway
