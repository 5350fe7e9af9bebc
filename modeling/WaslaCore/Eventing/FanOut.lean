import WaslaCore.Eventing.Queues
import WaslaCore.Notification.Domain

/-!
The tables a published event fans out over: which systems subscribe to it, which
people are told about it, and the rows queued for each. A unit of fan-out is
staged by the relay and committed with the row's `published` mark.
-/

namespace WaslaCore.Eventing

open Platform Data Notification

/-- A subscription of an external system, without the fields only its delivery
reads (endpoint and secret). -/
structure EventSubscription where
  subscriptionId : String
  subscriber : String
  eventType : String
  active : Bool
  deriving DecidableEq, Repr

inductive DeliveryStatus where
  | pending
  | delivered
  | dead
  deriving DecidableEq, Repr

structure EventDelivery where
  deliveryId : String
  eventId : String
  subscriptionId : String
  status : DeliveryStatus
  attempts : Nat
  lastError : Option String
  lastStatus : Option Nat
  nextAttemptAt : Int
  createdAt : Int
  deliveredAt : Option Int
  claimedAt : Option Int
  reclaims : Nat
  claimToken : Option String
  deriving DecidableEq, Repr

/-- Active subscriptions for one event type: the fan-out list. -/
def subscriptionsFor (subscriptions : Table EventSubscription) (eventType : String) :
    List EventSubscription :=
  orderedBy (fun row => [.text row.subscriber, .text row.subscriptionId])
    (subscriptions.values.filter (fun row => row.active && row.eventType = eventType))

/-- Active recipients of one event type, platform-wide ones and the tenant's own. -/
def recipientsFor (recipients : Table NotificationRecipient) (eventType : String)
    (organizationId : Option String) : List NotificationRecipient :=
  orderedBy (fun row => [.number row.createdAt, .text row.recipientId])
    (recipients.values.filter (fun row => row.active && row.eventType = eventType &&
      (row.organizationId.isNone || row.organizationId = organizationId)))

/-- The delivery row the fan-out queues. -/
def EventDelivery.queued (deliveryId eventId subscriptionId : String) (now : Int) : EventDelivery :=
  ⟨deliveryId, eventId, subscriptionId, .pending, 0, none, none, now, now, none, none, 0, none⟩

/-- `(event, recipient)` and nothing else. -/
def idempotencyKey (eventId recipientId : String) : String := eventId ++ ":" ++ recipientId

/-- The notification row the fan-out queues. -/
def queuedNotification (notificationId eventId : String) (organizationId : Option String)
    (recipient : NotificationRecipient) (address : Option String) (rendered : RenderedMessage)
    (now : Int) : Notification :=
  { notificationId := notificationId
    eventId := eventId
    recipientId := recipient.recipientId
    organizationId := organizationId
    channel := recipient.channel
    address := address
    template := rendered.template
    subject := rendered.subject
    body := rendered.body
    data := rendered.data
    idempotencyKey := idempotencyKey eventId recipient.recipientId
    status := if address.isNone then .failed else .pending
    attempts := 0
    lastError := if address.isNone then
      some ("no verified " ++ recipient.channel.name ++ " link for recipient") else none
    providerMessageId := none
    claimToken := none
    claimedAt := none
    nextAttemptAt := now
    createdAt := now
    acceptedAt := none
    deliveredAt := none
    failedAt := if address.isNone then some now else none }

def hasDelivery (deliveries : Table EventDelivery) (eventId subscriptionId : String) : Bool :=
  deliveries.values.any (fun row => row.eventId = eventId && row.subscriptionId = subscriptionId)

def hasNotification (notifications : Table Notification) (eventId recipientId : String) : Bool :=
  notifications.values.any (fun row => row.eventId = eventId && row.recipientId = recipientId)

/-- `insert … on conflict (event_id, subscription_id) do nothing`. -/
def queueDelivery (deliveries : Table EventDelivery) (row : EventDelivery) :
    Except String (Bool × Table EventDelivery) :=
  if hasDelivery deliveries row.eventId row.subscriptionId then .ok (false, deliveries)
  else if (deliveries.get row.deliveryId).isSome then
    .error "duplicate key value violates unique constraint \"event_delivery_pkey\""
  else .ok (true, deliveries.put row.deliveryId row)

/-- `insert … on conflict (event_id, recipient_id) do nothing`. Nothing absorbs a
repeated idempotency key of another message. -/
def queueNotification (notifications : Table Notification) (row : Notification) :
    Except String (Bool × Table Notification) :=
  if hasNotification notifications row.eventId row.recipientId then .ok (false, notifications)
  else if notifications.values.any (fun other => other.idempotencyKey = row.idempotencyKey) then
    .error "duplicate key value violates unique constraint \"notification_idempotency_key_key\""
  else if (notifications.get row.notificationId).isSome then
    .error "duplicate key value violates unique constraint \"notification_pkey\""
  else .ok (true, notifications.put row.notificationId row)

end WaslaCore.Eventing
