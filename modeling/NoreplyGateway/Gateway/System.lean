import NoreplyGateway.Gateway.Delivery
import NoreplyGateway.Gateway.Intake
import NoreplyGateway.Store.Attempts

namespace NoreplyGateway

open Machine Store

namespace Gateway

inductive Action
  | start (config : Config) (now : Time)
  | crash
  | intake (action : IntakeAction)
  | delivery (action : DeliveryAction)

/-- A process that has opened its data directory, with its dispatcher not yet
started. -/
def started (g : Gateway) (config : Config) (store : Session) : Gateway :=
  { g with
    store := store
    healthy := true
    intake := { accepting := true, writer := .waiting, closing := .opened }
    dispatcher := { rate := config.delivery.messagesPerSecond } }

/-- What is left when a process has ended. -/
def down (g : Gateway) (store : Session) : Gateway :=
  { g with store := store, healthy := true, intake := {}, dispatcher := {} }

end Gateway

open Gateway

def Gateway.step (g : Gateway) : Action → Option Gateway
  | .start config now => (g.store.step (.start config now)).map (started g config)
  | .crash => (g.store.step .crash).map (down g)
  | .intake action => g.store.running.bind (fun config ↦ intakeStep g config action)
  | .delivery action => g.store.running.bind (fun config ↦ deliveryStep g config action)

/-- The step is a worker's claim, and it returns this row. -/
def Gateway.Claims (g : Gateway) (a : Action) (row : Row) : Prop :=
  ∃ index now, a = .delivery (.worker index (.claimJob now)) ∧
    g.dispatcher.workers[index]? = some .claiming ∧ g.store.claimed now = some row

end NoreplyGateway
