import WaslaCore.Eventing.WithinBudget
import WaslaCore.Interleaving.Batch

/-!
The worker that drains due deliveries over the transport. It decides each claimed row at
the moment of sending: suppressed where its subscription is no longer active, given up
where it cannot be built, and otherwise sent and acknowledged by what came back. Any
number of such workers share the depot, and anything else may happen around them.
-/

namespace WaslaCore.Eventing

open Data Interleaving

/-! ### The depot -/

/-- A subscription with what only its delivery reads. -/
structure DeliverySubscription extends EventSubscription where
  endpointUrl : String
  signingSecret : String
  deriving DecidableEq, Repr

structure Depot where
  now : Int
  subscriptions : Table DeliverySubscription
  outbox : Table EventEnvelope
  deliveries : DeliveryQueue

/-- What goes to an endpoint: the event is the body, the secret signs it. -/
structure TransportRequest where
  url : String
  body : EventEnvelope
  signingSecret : String
  attempt : Nat
  timeoutMs : Nat
  deriving DecidableEq, Repr

/-- What the worker awaits; `acknowledge` is `markFailed`, `markDead` or `markSuppressed`. -/
inductive DeliveryAction where
  | clock
  | reclaimExpired (now : Int) (maxReclaims limit : Nat)
  | claimDue (now : Int) (limit : Nat)
  | getSubscription (subscriptionId : String)
  | getEvent (eventId : String)
  | send (request : TransportRequest)
  | markDelivered (deliveryId : String) (fence : Fence) (status : Nat)
  | acknowledge (deliveryId : String) (fence : Fence) (how : DeliveryAcknowledgement)
  deriving DecidableEq

def DeliveryAction.Value : DeliveryAction → Type
  | .clock => Int
  | .reclaimExpired _ _ _ => EventQueue.ReclaimOutcome
  | .claimDue _ _ => List EventDelivery
  | .getSubscription _ => Option DeliverySubscription
  | .getEvent _ => Option EventEnvelope
  | .send _ => TransportResponse
  | .markDelivered _ _ _ => Bool
  | .acknowledge _ _ _ => Bool

abbrev DeliveryAction.Answer (action : DeliveryAction) : Type := Except String action.Value

/-- What the depot does not decide, and what happens around the workers. -/
inductive DepotTurn where
  | proceed
  | failing (message : String)
  | drawn (token : String)
  | response (response : TransportResponse)
  | elapsed (milliseconds : Nat)
  | subscribed (row : DeliverySubscription)
  | appended (event : EventEnvelope)
  | pruned (eventId : String)
  | queued (row : EventDelivery)
  | revived (deliveryId : String)

def Depot.acknowledge (depot : Depot) (deliveryId : String) (fence : Fence)
    (how : DeliveryAcknowledgement) : Bool × Depot :=
  ((DeliveryQueue.acknowledge depot.deliveries deliveryId fence how).1,
    { depot with deliveries := (DeliveryQueue.acknowledge depot.deliveries deliveryId fence how).2 })

/-- An action that goes through: its value and the depot after it. -/
def DeliveryAction.effect :
    (action : DeliveryAction) → DepotTurn → Depot → Option (action.Value × Depot)
  | .clock, .proceed, depot => some (depot.now, depot)
  | .reclaimExpired now maxReclaims limit, .proceed, depot =>
      some ((DeliveryQueue.reclaimExpired depot.deliveries now maxReclaims limit).1,
        { depot with
          deliveries := (DeliveryQueue.reclaimExpired depot.deliveries now maxReclaims limit).2 })
  | .claimDue now limit, .drawn token, depot =>
      some ((DeliveryQueue.claimDue depot.deliveries now limit token).1,
        { depot with deliveries := (DeliveryQueue.claimDue depot.deliveries now limit token).2 })
  | .getSubscription subscriptionId, .proceed, depot =>
      some (depot.subscriptions.get subscriptionId, depot)
  | .getEvent eventId, .proceed, depot => some (depot.outbox.get eventId, depot)
  | .send _, .response response, depot => some (response, depot)
  | .markDelivered deliveryId fence status, .proceed, depot =>
      some (depot.acknowledge deliveryId fence (.delivered status depot.now))
  | .acknowledge deliveryId fence how, .proceed, depot =>
      some (depot.acknowledge deliveryId fence how)
  | _, _, _ => none

/-- Any action may throw instead, and then nothing happened. -/
def performDelivery (action : DeliveryAction) (turn : DepotTurn) (depot : Depot) :
    Option (action.Answer × Depot) :=
  match turn with
  | .failing message => some (.error message, depot)
  | other => (action.effect other depot).map (fun done => (.ok done.1, done.2))

def Depot.happen (depot : Depot) : DepotTurn → Option Depot
  | .elapsed milliseconds => some { depot with now := depot.now + milliseconds }
  | .subscribed row =>
      some { depot with subscriptions := depot.subscriptions.put row.subscriptionId row }
  | .appended event => some { depot with outbox := depot.outbox.put event.eventId event }
  | .pruned eventId => some { depot with outbox := depot.outbox.erase eventId }
  | .queued row =>
      match queueDelivery depot.deliveries row with
      | .ok (_, deliveries) => some { depot with deliveries := deliveries }
      | .error _ => none
  | .revived deliveryId =>
      some { depot with deliveries := DeliveryQueue.revive depot.deliveries deliveryId depot.now }
  | _ => none

/-- The depot as its workers see it. -/
def delivering : System Depot DeliveryAction DeliveryAction.Answer DepotTurn where
  perform := performDelivery
  tick := fun turn depot => depot.happen turn

/-! ### The worker -/

abbrev DeliveryCall (β : Type) := Process DeliveryAction DeliveryAction.Answer String β

abbrev DeliverySeen := History DeliveryAction DeliveryAction.Answer

def askDepot (action : DeliveryAction) : DeliveryCall action.Value :=
  .act action fun answer =>
    match answer with
    | .ok value => .done value
    | .error message => .fail message

structure DeliveryWorkerResult where
  delivered : Nat
  failed : Nat
  dead : Nat
  reclaimed : Nat
  reclaimExhausted : Nat
  fenced : Nat
  suppressed : Nat
  deriving DecidableEq, Repr

/-- The worker as configured. -/
structure DeliveryWorker where
  settings : WorkerSettings := { maxAttempts := 8 }
  timeoutMs : Nat := 5000
  deriving DecidableEq, Repr

/-- What an acknowledgement is for. -/
inductive DeliveryOutcome where
  | delivered
  | failed
  | dead
  | suppressed
  deriving DecidableEq, Repr

def DeliveryAcknowledgement.outcome : DeliveryAcknowledgement → DeliveryOutcome
  | .delivered _ _ => .delivered
  | .failed _ _ _ => .failed
  | .dead _ _ => .dead
  | .suppressed _ => .suppressed

/-- One more of what was acknowledged, if the store applied it; `countFenced` if not. -/
def DeliveryWorkerResult.count (result : DeliveryWorkerResult) (applied : Bool)
    (outcome : DeliveryOutcome) : DeliveryWorkerResult :=
  match applied, outcome with
  | false, _ => { result with fenced := result.fenced + 1 }
  | true, .delivered => { result with delivered := result.delivered + 1 }
  | true, .failed => { result with failed := result.failed + 1 }
  | true, .dead => { result with dead := result.dead + 1 }
  | true, .suppressed => { result with suppressed := result.suppressed + 1 }

namespace DeliveryWorker

def acknowledge (row : EventDelivery) (how : DeliveryAcknowledgement)
    (result : DeliveryWorkerResult) : DeliveryCall DeliveryWorkerResult := do
  let applied : Bool ← askDepot (.acknowledge row.deliveryId row.claimToken how)
  pure (result.count applied how.outcome)

def markDelivered (row : EventDelivery) (status : Nat) (result : DeliveryWorkerResult) :
    DeliveryCall DeliveryWorkerResult := do
  let applied : Bool ← askDepot (.markDelivered row.deliveryId row.claimToken status)
  pure (result.count applied .delivered)

/-- The request, and the acknowledgement its response asks for. -/
def send (worker : DeliveryWorker) (now : Int) (row : EventDelivery)
    (subscription : DeliverySubscription) (event : EventEnvelope)
    (result : DeliveryWorkerResult) : DeliveryCall DeliveryWorkerResult := do
  let response : TransportResponse ← askDepot (.send
    ⟨subscription.endpointUrl, event, subscription.signingSecret, row.attempts + 1,
      worker.timeoutMs⟩)
  if isSuccess response.status then markDelivered row (response.status.getD 0) result
  else acknowledge row (worker.settings.refusal now row response) result

def deliverRow (worker : DeliveryWorker) (now : Int) (row : EventDelivery)
    (result : DeliveryWorkerResult) : DeliveryCall DeliveryWorkerResult := do
  let subscription : Option DeliverySubscription ← askDepot (.getSubscription row.subscriptionId)
  if subscription.any (fun found => !found.active) then
    acknowledge row (.suppressed ("subscription " ++ row.subscriptionId ++
      " is not active; delivery suppressed")) result
  else
    let event : Option EventEnvelope ← askDepot (.getEvent row.eventId)
    match subscription, event with
    | some subscription, some event => worker.send now row subscription event result
    | some _, none => acknowledge row (.dead "event no longer in the outbox" none) result
    | none, _ => acknowledge row (.dead "subscription no longer exists" none) result

def drainOnce (worker : DeliveryWorker) (limit : Nat) : DeliveryCall DeliveryWorkerResult := do
  let now : Int ← askDepot .clock
  let reclaim : EventQueue.ReclaimOutcome ←
    askDepot (.reclaimExpired now worker.settings.maxReclaims limit)
  let due : List EventDelivery ← askDepot (.claimDue now limit)
  workEach (worker.deliverRow now) due ⟨0, 0, 0, reclaim.reclaimed, reclaim.dead, 0, 0⟩

end DeliveryWorker

/-- Any number of workers, each configured in its own way. -/
def deliveryDrains (call : DeliveryCall DeliveryWorkerResult) : Prop :=
  ∃ (worker : DeliveryWorker) (limit : Nat), call = worker.drainOnce limit

end WaslaCore.Eventing
