import NoreplyGateway.Gateway.State

namespace NoreplyGateway.Gateway

open Store Upstream

inductive WorkerAction
  | loop (now : Time)
  | acquire
  | permit (now monotonic : Time)
  | claimJob (now : Time)
  | deliver
  | outcome (result : Except DeliveryError Unit) (jitter : ℚ) (now : Time)
  | pauseJob
  | resume
  | finishJob (now : Time)
  | conclude
  | interruptJob (now : Time)
  | fault
  | recover
  | cancel

/-- What `_attempt` makes of the end of `send`. -/
def judge (config : DeliveryConfig) (attempts : ℕ) (jitter : ℚ) :
    Except DeliveryError Unit → Verdict
  | .ok () => ⟨.submitted, "", (0 : ℚ), false⟩
  | .error (.additionalAuthenticationRequired message) => ⟨.retry, message, (300 : ℚ), false⟩
  | .error (.authenticationRequired message) => ⟨.retry, message, (60 : ℚ), false⟩
  | .error (.retryable message delay cooldown) =>
    let exponent := min (attempts - 1) 16
    let backoff := min config.retryMaxSeconds (config.retryBaseSeconds * 2 ^ exponent)
    let delay := PyFloat.max delay (backoff * jitter : ℚ)
    if attempts ≥ config.maxAttempts then
      ⟨.failed, message ++ "; maximum attempts reached", delay, cooldown⟩
    else ⟨.retry, message, delay, cooldown⟩
  | .error (.permanent message) => ⟨.failed, message, (0 : ℚ), false⟩
  | .error (.uncertain message) => ⟨.uncertain, message, (0 : ℚ), false⟩
  | .error (.unexpected name) =>
    ⟨.uncertain, "Unexpected backend error (" ++ name ++ "); review before retry", (0 : ℚ), false⟩

/-- `_attempt` after `send`, up to the wait that comes next. Only a legacy
authentication failure pauses delivery first. -/
def attempt (g : Gateway) (config : Config) (message : Row) (jitter : ℚ) (now : Time)
    (result : Except DeliveryError Unit) : Gateway × Worker :=
  let verdict := judge config.delivery message.attempts jitter result
  let healthy := match result with
    | .error (.unexpected _) => false
    | _ => g.healthy
  let cooldownUntil := if verdict.cooldown then
      PyFloat.max g.dispatcher.cooldownUntil (PyFloat.add now verdict.delay)
    else g.dispatcher.cooldownUntil
  let next := match result with
    | .error (.authenticationRequired error) => Worker.pausing message error
    | _ => .finishing message.id verdict
  ({ g with healthy := healthy, dispatcher := { g.dispatcher with cooldownUntil := cooldownUntil } },
    next)

def interruption : String := "Shutdown interrupted an attempt; review before retry"

/-- A worker that is cancelled in its wait. Inside `send` the handler waits for
one more job, which is shielded from a second cancellation. -/
def cancelled (g : Gateway) : Worker → Gateway × Worker
  | .sending message => (g, .interrupted message.id)
  | .interrupted id =>
    ({ g with dispatcher := { g.dispatcher with shielded := id :: g.dispatcher.shielded } }, .ended)
  | _ => (g, .ended)

def locked (g : Gateway) : Bool := g.dispatcher.workers.any (· matches .pacing)

/-- One step of a worker. A job that raises leaves the worker with the exception,
which the supervisor answers by declaring the store unhealthy. -/
def workerStep (g : Gateway) (config : Config) : Worker → WorkerAction → Option (Gateway × Worker)
  | .ready, .loop now =>
    if g.dispatcher.stopping then some (g, .ended)
    else if g.dispatcher.paused = true ∨ g.healthy = false ∨
        PyFloat.lt now g.dispatcher.cooldownUntil then some (g, .ready)
    else if locked g then some (g, .queued)
    else some (g, .pacing)
  | .queued, .acquire => if locked g then none else some (g, .pacing)
  | .pacing, .permit now monotonic =>
    let g := { g with dispatcher := { g.dispatcher with
      nextPermit := monotonic + 1 / g.dispatcher.rate } }
    if g.dispatcher.stopping = true ∨ g.dispatcher.paused = true ∨
        PyFloat.lt now g.dispatcher.cooldownUntil then some (g, .ready)
    else some (g, .claiming)
  | .claiming, .claimJob now =>
    (g.store.step (.claim now)).map fun store ↦
      ({ g with store := store }, .claimed (g.store.claimed now))
  | .claimed none, .deliver => some (g, .ready)
  | .claimed (some message), .deliver => some (g, .sending message)
  | .sending message, .outcome result jitter now =>
    some (attempt g config message jitter now result)
  | .pausing message error, .pauseJob =>
    (g.store.step (.setSetting (.paused true))).map fun store ↦
      ({ g with store := store }, .paused message error)
  | .paused message error, .resume =>
    some ({ g with dispatcher := { g.dispatcher with paused := true } },
      .finishing message.id ⟨.retry, error, (60 : ℚ), false⟩)
  | .finishing id verdict, .finishJob now =>
    match g.store.step (.finish id verdict.status verdict.error verdict.delay verdict.cooldown now) with
    | some store => some ({ g with store := store }, .finished)
    | none => some (g, .failed)
  | .finished, .conclude => some (g, .ready)
  | .interrupted id, .interruptJob now =>
    match g.store.step (.finish id .uncertain interruption (0 : ℚ) false now) with
    | some store => some ({ g with store := store }, .ended)
    | none => some (g, .failed)
  | .claiming, .fault | .pausing _ _, .fault | .finishing _ _, .fault | .interrupted _, .fault =>
    some (g, .failed)
  | .failed, .recover => some ({ g with healthy := false }, .ready)
  | .ended, .cancel => none
  | worker, .cancel => some (cancelled g worker)
  | _, _ => none

inductive DeliveryAction
  | readSettings
  | boot
  | worker (index : ℕ) (action : WorkerAction)
  | shieldedJob (id : String) (now : Time)
  | shieldedFault (id : String)
  | tick
  | housekeeping (now : Time) (scan : ScanOrder)
  | housekeepingFault
  | housekeepingRecover
  | housekeepingCancel
  | stop
  | set (setting : Setting)
  | setResume (setting : Setting)
  | setDrop (setting : Setting)
  | action (id verb : String) (acknowledgeDuplicate : Bool) (clock : RetryClock)

/-- The range that `set_rate` checks. -/
def Allowed : Setting → Prop
  | .paused _ => True
  | .rate q => 1 / 100 ≤ q ∧ q ≤ 1000

instance : DecidablePred Allowed := fun s ↦ by
  cases s <;> unfold Allowed <;> infer_instance

def enforce (d : Dispatcher) : Setting → Dispatcher
  | .paused b => { d with paused := b }
  | .rate q => { d with rate := q }

/-- One step of the dispatcher, its tasks or the operator. -/
def deliveryStep (g : Gateway) (config : Config) : DeliveryAction → Option Gateway
  | .readSettings =>
    match g.dispatcher.boot with
    | .waiting =>
      some { g with dispatcher := { g.dispatcher with boot := .read g.store.db.settings } }
    | _ => none
  | .boot =>
    match g.dispatcher.boot with
    | .read settings =>
      some { g with dispatcher := { g.dispatcher with
        boot := .running
        paused := settings.paused.getD false
        rate := settings.rate.getD g.dispatcher.rate
        cooldownUntil := settings.cooldownUntil.getD (0 : ℚ)
        workers := List.replicate config.delivery.workers .ready
        housekeeper := .sleeping } }
    | _ => none
  | .worker index action =>
    match g.dispatcher.workers[index]? with
    | none => none
    | some worker =>
      (workerStep g config worker action).map fun (g', worker') ↦
        { g' with dispatcher := { g'.dispatcher with
            workers := g'.dispatcher.workers.set index worker' } }
  | .shieldedJob id now =>
    if id ∈ g.dispatcher.shielded then
      let g' := { g with dispatcher :=
        { g.dispatcher with shielded := g.dispatcher.shielded.erase id } }
      match g.store.step (.finish id .uncertain interruption (0 : ℚ) false now) with
      | some store => some { g' with store := store }
      | none => some g'
    else none
  | .shieldedFault id =>
    if id ∈ g.dispatcher.shielded then
      some { g with dispatcher :=
        { g.dispatcher with shielded := g.dispatcher.shielded.erase id } }
    else none
  | .tick =>
    match g.dispatcher.housekeeper with
    | .sleeping =>
      some { g with dispatcher := { g.dispatcher with
        housekeeper := if g.dispatcher.stopping then .ended else .queued } }
    | _ => none
  | .housekeeping now scan =>
    match g.dispatcher.housekeeper with
    | .queued =>
      (g.store.step (.housekeeping now scan)).map fun store ↦
        { g with store := store, dispatcher := { g.dispatcher with housekeeper := .sleeping } }
    | _ => none
  | .housekeepingFault =>
    match g.dispatcher.housekeeper with
    | .queued => some { g with dispatcher := { g.dispatcher with housekeeper := .failed } }
    | _ => none
  | .housekeepingRecover =>
    match g.dispatcher.housekeeper with
    | .failed =>
      some { g with healthy := false, dispatcher := { g.dispatcher with housekeeper := .sleeping } }
    | _ => none
  | .housekeepingCancel => some { g with dispatcher := { g.dispatcher with housekeeper := .ended } }
  | .stop => some { g with dispatcher := { g.dispatcher with stopping := true } }
  | .set setting =>
    if Allowed setting then
      (g.store.step (.setSetting setting)).map fun store ↦
        { g with store := store, dispatcher :=
          { g.dispatcher with resuming := g.dispatcher.resuming ++ [setting] } }
    else none
  | .setResume setting =>
    if setting ∈ g.dispatcher.resuming then
      let rest := g.dispatcher.resuming.erase setting
      some { g with dispatcher := enforce { g.dispatcher with resuming := rest } setting }
    else none
  | .setDrop setting =>
    if setting ∈ g.dispatcher.resuming then
      some { g with dispatcher :=
        { g.dispatcher with resuming := g.dispatcher.resuming.erase setting } }
    else none
  | .action id verb acknowledgeDuplicate clock =>
    (g.store.step (.action id verb acknowledgeDuplicate clock)).map fun store ↦
      { g with store := store }

end NoreplyGateway.Gateway
