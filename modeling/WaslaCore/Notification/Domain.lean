import WaslaCore.Platform.UnitOfWork

/-!
Who is told about an event and in which words. A message is rendered from named
payload fields only, the set of events that mean something to a person is
closed, and money is never said to have moved unless the payload states it.
-/

namespace WaslaCore.Notification

open Platform

inductive NotificationChannelType where
  | telegram
  | email
  | phone
  deriving DecidableEq, Repr

def NotificationChannelType.name : NotificationChannelType → String
  | .telegram => "telegram"
  | .email => "email"
  | .phone => "phone"

/-- `organizationId` null is platform-wide: every tenant's events of this type. -/
structure NotificationRecipient where
  recipientId : String
  organizationId : Option String
  eventType : String
  identityId : String
  channel : NotificationChannelType
  active : Bool
  createdAt : Int
  deriving DecidableEq, Repr

inductive NotificationStatus where
  | pending
  | processing
  | accepted
  | delivered
  | failed
  deriving DecidableEq, Repr

inductive NotificationTemplate where
  | fulfillmentDispatched
  | fulfillmentCompleted
  | fulfillmentFailed
  | fulfillmentCancelled
  | subscriptionPastDue
  deriving DecidableEq, Repr

/-- One message to one recipient. `address` is null on a row born `failed`: the
recipient has no verified link on that channel. The claim token `mem-claim-n` is
kept as its number. -/
structure Notification where
  notificationId : String
  eventId : String
  recipientId : String
  organizationId : Option String
  channel : NotificationChannelType
  address : Option String
  template : NotificationTemplate
  subject : String
  body : String
  data : Payload
  idempotencyKey : String
  status : NotificationStatus
  attempts : Nat
  lastError : Option String
  providerMessageId : Option String
  claimToken : Option Nat
  claimedAt : Option Int
  nextAttemptAt : Int
  createdAt : Int
  acceptedAt : Option Int
  deliveredAt : Option Int
  failedAt : Option Int
  deriving DecidableEq, Repr

/-- A payload field, absent or not. -/
def field (payload : Payload) (name : String) : Option Scalar :=
  (payload.find? (fun item => item.1 = name)).map Prod.snd

/-- A text that is not empty. -/
def str : Option Scalar → Option String
  | some (.text value) => if value.isEmpty then none else some value
  | _ => none

def notifiableTemplate (eventType : String) (payload : Payload) : Option NotificationTemplate :=
  if eventType = "core.fulfillment.dispatched" then some .fulfillmentDispatched
  else if eventType = "core.fulfillment.completed" then
    if field payload "outcome" = some (.text "failed") then some .fulfillmentFailed
    else some .fulfillmentCompleted
  else if eventType = "core.fulfillment.cancelled" then some .fulfillmentCancelled
  else if eventType = "core.subscription.past_due" then some .subscriptionPastDue
  else none

/-- The tenant the payload names, or null: then only platform-wide recipients match. -/
def organizationScope (payload : Payload) : Option String :=
  match str (field payload "organization_id") with
  | some direct => some direct
  | none =>
      if field payload "owner_type" = some (.text "organization") then
        str (field payload "owner_id")
      else none

structure RenderedMessage where
  template : NotificationTemplate
  subject : String
  body : String
  data : Payload
  deriving DecidableEq, Repr

/-- The clause and the facts it adds to `data`. -/
def reasonClause (payload : Payload) : String × Payload :=
  match str (field payload "reason") with
  | none => ("", [])
  | some reason => (" (reason: " ++ reason ++ ")", [("reason", .text reason)])

/-- The sentence about money, or nothing, and the facts it adds to `data`. -/
def moneySentence (payload : Payload) : String × Payload :=
  let decisionRequired := field payload "financial_decision_required" = some (.flag true)
  let state := str (field payload "settlement_state")
  let facts := (state.map (fun value => ("settlement_state", Scalar.text value))).toList ++
    [("financial_decision_required", .flag decisionRequired)]
  if decisionRequired then
    (" A payment amount is held pending review; no refund or charge has been decided yet.", facts)
  else if state = some "released" then (" No payment was taken.", facts)
  else if state = some "captured" then (" The authorised payment was charged.", facts)
  else ("", facts)

def amountDue (payload : Payload) : String × Payload :=
  let currency := str (field payload "currency")
  let amount := match field payload "amount_minor" with
    | some (.number value) => some value
    | _ => none
  let facts := (currency.map (fun value => ("currency", Scalar.text value))).toList ++
    (amount.map (fun value => ("amount_minor", Scalar.number value))).toList
  match currency, amount with
  | some currency, some amount =>
      (" Amount due: " ++ toString amount ++ " " ++ currency ++ " (minor units).", facts)
  | _, _ => ("", facts)

/-- The message, or null where nobody is told about such an event. -/
def renderMessage (eventType : String) (payload : Payload) : Option RenderedMessage :=
  let reference := ((str (field payload "order_reference")).orElse
    (fun _ => str (field payload "fulfillment_id"))).getD ""
  let data : Payload := if reference.isEmpty then [] else [("reference", .text reference)]
  let reason := reasonClause payload
  let money := moneySentence payload
  match notifiableTemplate eventType payload with
  | none => none
  | some .fulfillmentDispatched =>
      some ⟨.fulfillmentDispatched, "Your request is on its way",
        "Request " ++ reference ++ " has been assigned and is now in progress.", data⟩
  | some .fulfillmentCompleted =>
      some ⟨.fulfillmentCompleted, "Your request is complete",
        "Request " ++ reference ++ " has been completed." ++ money.1, data ++ money.2⟩
  | some .fulfillmentFailed =>
      some ⟨.fulfillmentFailed, "Your request could not be completed",
        "Request " ++ reference ++ " could not be completed" ++ reason.1 ++ "." ++ money.1,
        data ++ reason.2 ++ money.2⟩
  | some .fulfillmentCancelled =>
      some ⟨.fulfillmentCancelled, "Your request was cancelled",
        "Request " ++ reference ++ " was cancelled" ++ reason.1 ++ "." ++ money.1,
        data ++ reason.2 ++ money.2⟩
  | some .subscriptionPastDue =>
      let subscription := (str (field payload "subscription_id")).getD ""
      let named : Payload :=
        if subscription.isEmpty then [] else [("subscription_id", .text subscription)]
      let period := (str (field payload "period_id")).map (fun value => ("period_id", Scalar.text value))
      let owed := amountDue payload
      some ⟨.subscriptionPastDue, "Payment for your subscription did not go through",
        "Subscription " ++ subscription ++
          " is past due and access may be limited until it is paid." ++ owed.1,
        data ++ named ++ period.toList ++ owed.2 ++ reason.2⟩

/-- Only the events that have a template are rendered. -/
theorem renderMessage_isSome (eventType : String) (payload : Payload) :
    (renderMessage eventType payload).isSome = (notifiableTemplate eventType payload).isSome := by
  unfold renderMessage
  cases notifiableTemplate eventType payload with
  | none => rfl
  | some template => cases template <;> rfl

end WaslaCore.Notification
