import WaslaCore.Eventing.Bus

/-!
The workers that move rows from a queue onto the bus: the inbound dispatcher and
the outbox relay with its two fan-outs. Both recover abandoned rows, claim due
ones, publish each, and acknowledge under the claim they hold.
-/

namespace WaslaCore.Eventing

open Interleaving Notification

/-- What a drain reports. `finished` counts rows processed or published. -/
structure DrainResult where
  finished : Nat
  failed : Nat
  dead : Nat
  reclaimed : Nat
  reclaimExhausted : Nat
  fenced : Nat
  deriving DecidableEq, Repr

/-- The tuning both workers share. -/
structure WorkerSettings where
  maxAttempts : Nat := 5
  baseBackoffMs : Nat := 1000
  maxReclaims : Nat := defaultMaxReclaims
  deriving DecidableEq, Repr

/-- The acknowledgement of a row whose publish failed. -/
def WorkerSettings.afterFailure (settings : WorkerSettings) (now : Int) (row : QueueRow)
    (message : String) : Acknowledgement :=
  if settings.maxAttempts ≤ row.attempts + 1 then .dead message
  else .failed message (now + settings.baseBackoffMs * 2 ^ row.attempts)

/-- The rows one after another, and the counts so far. -/
def drainRows (each : QueueRow → DrainResult → Call DrainResult) :
    List QueueRow → DrainResult → Call DrainResult
  | [], result => pure result
  | row :: rest, result => do
      let result ← each row result
      drainRows each rest result

/-- Recover, claim, and hand over each row. -/
def drainQueue (name : QueueName) (settings : WorkerSettings)
    (each : Int → QueueRow → DrainResult → Call DrainResult) (limit : Nat) : Call DrainResult := do
  let now : Int ← await .clock
  let reclaim : EventQueue.ReclaimOutcome ←
    await (.reclaimExpired name now settings.maxReclaims limit)
  let due : List QueueRow ← await (.claimDue name now limit)
  drainRows (each now) due ⟨0, 0, 0, reclaim.reclaimed, reclaim.dead, 0⟩

/-! ### The inbound dispatcher -/

structure InboundDispatcher where
  bus : LocalEventBus
  settings : WorkerSettings

namespace InboundDispatcher

/-- A refused acknowledgement is counted and dropped. -/
def markProcessed (row : QueueRow) (result : DrainResult) : Call DrainResult := do
  let applied : Bool ←
    await (.acknowledge .inbound row.event.eventId row.claimToken (.finished .processed))
  pure (if applied then { result with finished := result.finished + 1 }
    else { result with fenced := result.fenced + 1 })

def markUnprocessed (dispatcher : InboundDispatcher) (now : Int) (row : QueueRow)
    (result : DrainResult) (message : String) : Call DrainResult := do
  let how := dispatcher.settings.afterFailure now row message
  let applied : Bool ← await (.acknowledge .inbound row.event.eventId row.claimToken how)
  pure (match applied, how with
    | false, _ => { result with fenced := result.fenced + 1 }
    | true, .dead _ => { result with dead := result.dead + 1 }
    | true, _ => { result with failed := result.failed + 1 })

def dispatchRow (dispatcher : InboundDispatcher) (now : Int) (row : QueueRow)
    (result : DrainResult) : Call DrainResult :=
  tryCatch (do
    dispatcher.bus.publish row.event
    markProcessed row result) fun error =>
      dispatcher.markUnprocessed now row result error.message

def drainOnce (dispatcher : InboundDispatcher) (limit : Nat) : Call DrainResult :=
  drainQueue .inbound dispatcher.settings dispatcher.dispatchRow limit

end InboundDispatcher

/-! ### The fan-outs -/

/-- The follow-on work a relay can be configured with. -/
inductive FanOut where
  | delivery
  | notification
  deriving DecidableEq, Repr

/-- What a fan-out reports; the relay does not read it. -/
structure FanOutResult where
  queued : Nat
  alreadyQueued : Nat
  unroutable : Nat
  deriving DecidableEq, Repr

namespace DeliveryFanOut

/-- One insert for each subscription, in order. -/
def queueEach (event : EventEnvelope) (now : Int) :
    List EventSubscription → List Staged → FanOutResult → Call (List Staged × FanOutResult)
  | [], staged, result => pure (staged, result)
  | subscription :: rest, staged, result => do
      let deliveryId : String ← await .newId
      let row := Staged.delivery
        (.queued deliveryId event.eventId subscription.subscriptionId now)
      let queued : Bool ← await (.queue row)
      queueEach event now rest (staged ++ [row])
        (if queued then { result with queued := result.queued + 1 }
          else { result with alreadyQueued := result.alreadyQueued + 1 })

def queueFor (event : EventEnvelope) (staged : List Staged) :
    Call (List Staged × FanOutResult) := do
  let subscriptions : List EventSubscription ← await (.subscriptionsFor event.eventType)
  let now : Int ← await .clock
  queueEach event now subscriptions staged ⟨0, 0, 0⟩

end DeliveryFanOut

namespace NotificationFanOut

/-- One insert for each recipient, to the address verified at that moment. -/
def queueEach (event : EventEnvelope) (organizationId : Option String)
    (rendered : RenderedMessage) (now : Int) :
    List NotificationRecipient → List Staged → FanOutResult → Call (List Staged × FanOutResult)
  | [], staged, result => pure (staged, result)
  | recipient :: rest, staged, result => do
      let address : Option String ←
        await (.verifiedAddress recipient.identityId recipient.channel)
      let notificationId : String ← await .newId
      let row := Staged.notification
        (queuedNotification notificationId event.eventId organizationId recipient address rendered now)
      let queued : Bool ← await (.queue row)
      queueEach event organizationId rendered now rest (staged ++ [row])
        (if !queued then { result with alreadyQueued := result.alreadyQueued + 1 }
          else if address.isNone then { result with unroutable := result.unroutable + 1 }
          else { result with queued := result.queued + 1 })

/-- Rendered first: an event nobody is messaged about costs no lookup. -/
def queueFor (event : EventEnvelope) (staged : List Staged) :
    Call (List Staged × FanOutResult) :=
  match renderMessage event.eventType event.payload with
  | none => pure (staged, ⟨0, 0, 0⟩)
  | some rendered => do
      let organizationId := organizationScope event.payload
      let recipients : List NotificationRecipient ←
        await (.recipientsFor event.eventType organizationId)
      let now : Int ← await .clock
      queueEach event organizationId rendered now recipients staged ⟨0, 0, 0⟩

end NotificationFanOut

def FanOut.queueFor : FanOut → EventEnvelope → List Staged → Call (List Staged × FanOutResult)
  | .delivery => DeliveryFanOut.queueFor
  | .notification => NotificationFanOut.queueFor

/-! ### The outbox relay -/

/-- `boundary` says whether the relay was given a transaction boundary. -/
structure OutboxPublisher where
  bus : LocalEventBus
  fanOuts : List FanOut
  boundary : Bool
  settings : WorkerSettings

namespace OutboxPublisher

def stageAll (event : EventEnvelope) : List FanOut → List Staged → Call (List Staged)
  | [], staged => pure staged
  | fanOut :: rest, staged => do
      let (staged, _) ← fanOut.queueFor event staged
      stageAll event rest staged

/-- The fan-outs and the mark as one transaction. A refused mark is thrown, which
rolls the inserts back. The mark's row stays locked until the commit, so the
fence is decided there. -/
def publishWithFanOut (relay : OutboxPublisher) (row : QueueRow) : Call Unit := do
  let staged ← stageAll row.event relay.fanOuts []
  let applied : Bool ← await (.commit ⟨staged, row.event.eventId, row.claimToken⟩)
  if applied then pure () else throw (.fenced row.event.eventId)

def markPublished (row : QueueRow) : Call Unit := do
  let applied : Bool ←
    await (.acknowledge .outbox row.event.eventId row.claimToken (.finished .published))
  if applied then pure () else throw (.fenced row.event.eventId)

def acknowledgePublish (relay : OutboxPublisher) (row : QueueRow) : Call Unit :=
  if !relay.fanOuts.isEmpty && relay.boundary then relay.publishWithFanOut row
  else markPublished row

/-- A fence is not a failed publish: no attempt is charged for it. -/
def afterError (relay : OutboxPublisher) (now : Int) (row : QueueRow) (result : DrainResult) :
    Failure → Call DrainResult
  | .fenced _ => pure { result with fenced := result.fenced + 1 }
  | .error message => do
      let how := relay.settings.afterFailure now row message
      let _ : Bool ← await (.acknowledge .outbox row.event.eventId row.claimToken how)
      pure (match how with
        | .dead _ => { result with dead := result.dead + 1 }
        | _ => { result with failed := result.failed + 1 })

def publishRow (relay : OutboxPublisher) (now : Int) (row : QueueRow) (result : DrainResult) :
    Call DrainResult :=
  tryCatch (do
    relay.bus.publish row.event
    relay.acknowledgePublish row
    pure { result with finished := result.finished + 1 }) (relay.afterError now row result)

def drainOnce (relay : OutboxPublisher) (limit : Nat) : Call DrainResult :=
  drainQueue .outbox relay.settings relay.publishRow limit

end OutboxPublisher

/-! ### What workers may run -/

/-- A call on the bus, or a drain of either queue, by any number of workers. -/
inductive Errand where
  | publish (event : EventEnvelope)
  | dispatch (settings : WorkerSettings) (limit : Nat)
  | relay (fanOuts : List FanOut) (boundary : Bool) (settings : WorkerSettings) (limit : Nat)

def Errand.call (bus : LocalEventBus) : Errand → Call Unit
  | .publish event => bus.publish event
  | .dispatch settings limit => do
      let _ ← InboundDispatcher.drainOnce ⟨bus, settings⟩ limit
      pure ()
  | .relay fanOuts boundary settings limit => do
      let _ ← OutboxPublisher.drainOnce ⟨bus, fanOuts, boundary, settings⟩ limit
      pure ()

/-- Every call that runs over one bus. -/
def errands (bus : LocalEventBus) (call : Call Unit) : Prop :=
  ∃ errand : Errand, call = errand.call bus

/-- An explicit schedule of workers. -/
abbrev Schedule := List (Move Action Action.Answer Turn Failure Unit)

/-- One worker performs its next actions in a row. -/
def works (index : Nat) (choices : List Choice) : Schedule := acts index (choices.map Sum.inl)

/-- One consumer of one event type. -/
def orderBus : LocalEventBus := { subs := [⟨"intake", "market.order.created"⟩] }

def orderCreated : EventEnvelope :=
  { eventId := "order-created", eventType := "market.order.created", entityType := "order"
    entityId := "order", payload := [] }

/-! ### What a drain owes -/

section Draining

variable {discipline : Discipline Action Action.Answer}

theorem drainRows_keeps {each : QueueRow → DrainResult → Call DrainResult} {rows : List QueueRow}
    {result : DrainResult} {seen : Seen}
    (heach : ∀ row ∈ rows, ∀ result later, seen <+: later →
      Keeps discipline anyEnd (each row result) later) :
    Keeps discipline anyEnd (drainRows each rows result) seen := by
  induction rows generalizing result seen with
  | nil => trivial
  | cons row rest ih =>
      have hfirst := heach row (by simp) result seen (List.prefix_refl seen)
      refine hfirst.grows.bind ?_ (fun _ _ _ => trivial)
      rintro later result' ⟨hgrown, -⟩
      exact ih fun other hother result final hfinal =>
        heach other (List.mem_cons_of_mem row hother) result final (hgrown.trans hfinal)

/-- A drain owes what its rows owe, each handed over after the claim that took it. -/
theorem drainQueue_keeps {name : QueueName} {settings : WorkerSettings}
    {each : Int → QueueRow → DrainResult → Call DrainResult} {limit : Nat} {seen : Seen}
    (hclock : ∀ later, discipline.owed later .clock)
    (hreclaim : ∀ later now, discipline.owed later
      (.reclaimExpired name now settings.maxReclaims limit))
    (hclaim : ∀ later now, discipline.owed later (.claimDue name now limit))
    (heach : ∀ (now : Int) (rows : List QueueRow) later,
      discipline.told (.claimDue name now limit) (.ok rows) →
      ⟨.claimDue name now limit, .ok rows⟩ ∈ later → ∀ row ∈ rows, ∀ result,
        Keeps discipline anyEnd (each now row result) later) :
    Keeps discipline anyEnd (drainQueue name settings each limit) seen := by
  unfold drainQueue
  refine keeps_await_bind (hclock _) ?_ (fun _ => trivial)
  intro (now : Int) _
  refine keeps_await_bind (hreclaim _ now) ?_ (fun _ => trivial)
  intro (reclaim : EventQueue.ReclaimOutcome) _
  refine keeps_await_bind (hclaim _ now) ?_ (fun _ => trivial)
  intro (due : List QueueRow) htold
  refine drainRows_keeps fun row hrow result later hlater => ?_
  exact heach now due later htold (hlater.subset (by simp)) row hrow result

end Draining

/-! ### What a fan-out may do -/

/-- The actions inside the relay's transaction before its commit. -/
def Staging : Action → Prop
  | .clock => True
  | .newId => True
  | .subscriptionsFor _ => True
  | .recipientsFor _ _ => True
  | .verifiedAddress _ _ => True
  | .queue _ => True
  | _ => False

section Stages

variable {shunned : Action → Prop}

theorem deliveryFanOut_avoids (hstaging : ∀ action, Staging action → ¬shunned action)
    (event : EventEnvelope) (staged : List Staged) :
    Avoids shunned (DeliveryFanOut.queueFor event staged) := by
  have hawait : ∀ action, Staging action → Avoids shunned (await action) :=
    fun action haction => avoids_await (hstaging action haction)
  unfold DeliveryFanOut.queueFor
  refine avoids_bind (hawait _ trivial) fun (subscriptions : List EventSubscription) => ?_
  refine avoids_bind (hawait _ trivial) fun (now : Int) => ?_
  generalize (⟨0, 0, 0⟩ : FanOutResult) = result
  induction subscriptions generalizing staged result with
  | nil => trivial
  | cons subscription rest ih =>
      unfold DeliveryFanOut.queueEach
      refine avoids_bind (hawait _ trivial) fun (deliveryId : String) => ?_
      exact avoids_bind (hawait _ trivial) fun (queued : Bool) => ih _ _

theorem notificationFanOut_avoids (hstaging : ∀ action, Staging action → ¬shunned action)
    (event : EventEnvelope) (staged : List Staged) :
    Avoids shunned (NotificationFanOut.queueFor event staged) := by
  have hawait : ∀ action, Staging action → Avoids shunned (await action) :=
    fun action haction => avoids_await (hstaging action haction)
  unfold NotificationFanOut.queueFor
  cases renderMessage event.eventType event.payload with
  | none => trivial
  | some rendered =>
      refine avoids_bind (hawait _ trivial) fun (recipients : List NotificationRecipient) => ?_
      refine avoids_bind (hawait _ trivial) fun (now : Int) => ?_
      generalize (⟨0, 0, 0⟩ : FanOutResult) = result
      induction recipients generalizing staged result with
      | nil => trivial
      | cons recipient rest ih =>
          unfold NotificationFanOut.queueEach
          refine avoids_bind (hawait _ trivial) fun (address : Option String) => ?_
          refine avoids_bind (hawait _ trivial) fun (notificationId : String) => ?_
          exact avoids_bind (hawait _ trivial) fun (queued : Bool) => ih _ _

/-- The fan-outs only stage: they claim, handle and acknowledge nothing. -/
theorem stageAll_avoids (hstaging : ∀ action, Staging action → ¬shunned action)
    (event : EventEnvelope) (fanOuts : List FanOut) (staged : List Staged) :
    Avoids shunned (OutboxPublisher.stageAll event fanOuts staged) := by
  induction fanOuts generalizing staged with
  | nil => trivial
  | cons fanOut rest ih =>
      unfold OutboxPublisher.stageAll
      refine avoids_bind ?_ fun _ => ih _
      cases fanOut with
      | delivery => exact deliveryFanOut_avoids hstaging event staged
      | notification => exact notificationFanOut_avoids hstaging event staged

end Stages

end WaslaCore.Eventing
