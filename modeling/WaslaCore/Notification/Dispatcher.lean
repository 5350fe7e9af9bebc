import WaslaCore.Eventing.FanOut
import WaslaCore.Interleaving.Process
import WaslaCore.Notification.Redaction
import WaslaCore.Notification.Repository

/-!
Dispatchers that drain due notifications over their channels, any number of them on
one store. A drain claims a whole batch, then sends its messages one after another and
records each result under its claim's token. The channels are the environment: a send
is in flight from its start until the channel answers, and time never passes the
instant by which a send must have ended.
-/

namespace WaslaCore.Notification

open Interleaving

/-- The text a channel error leaves behind. -/
def keptError (reason : String) (address : Option String) : String :=
  Data.textOf (sanitiseChannelError (Data.units reason) (address.map Data.units))

/-! ### Dispatching -/

/-- The message as a channel adapter receives it. -/
structure NotificationMessage where
  notificationId : String
  channel : NotificationChannelType
  address : String
  template : NotificationTemplate
  subject : String
  body : String
  data : Platform.Payload
  idempotencyKey : String
  attempt : Nat
  deriving DecidableEq, Repr

/-- What a channel adapter answers. -/
inductive ChannelResult where
  | accepted (providerMessageId : Option String)
  | delivered (providerMessageId : Option String)
  | retryable (reason : String) (retryAfterMs : Option Int) (providerMessageId : Option String)
  | permanent (reason : String) (providerMessageId : Option String)
  deriving DecidableEq, Repr

/-- What a dispatcher awaits. A send is two moments: it starts, and its channel answers
or throws. It carries the token of the claim it is made under. -/
inductive Effect where
  | clock
  | reclaimExpired (now : Int) (maxAttempts limit : Nat)
  | claimDue (now : Int) (limit : Nat) (leaseMs : Int)
  | send (message : NotificationMessage) (token : Nat)
  | answered (token : Nat)
  | mark (notificationId : String) (token : Nat) (how : Mark)
  deriving DecidableEq

@[reducible] def Effect.Answer : Effect → Type
  | .clock => Int
  | .reclaimExpired _ _ _ => Nat
  | .claimDue _ _ _ => List ClaimedNotification
  | .send _ _ => Unit
  | .answered _ => Except String ChannelResult
  | .mark _ _ _ => Bool

abbrev Dispatch (β : Type) := Process Effect Effect.Answer Unit β

def perform (effect : Effect) : Dispatch effect.Answer := .act effect .done

structure DispatchResult where
  accepted : Nat := 0
  delivered : Nat := 0
  retrying : Nat := 0
  failed : Nat := 0
  reclaimed : Nat := 0
  fenced : Nat := 0
  deriving DecidableEq, Repr

def DispatchResult.withFenced (result : DispatchResult) : DispatchResult :=
  { result with fenced := result.fenced + 1 }

structure NotificationDispatcher where
  channels : List NotificationChannelType
  maxAttempts : Nat := 6
  baseBackoffMs : Int := 1000
  leaseMs : Int := 30000
  deriving DecidableEq, Repr

namespace NotificationDispatcher

variable (dispatcher : NotificationDispatcher)

def markFailed (row : ClaimedNotification) (reason : String) (now : Int) (result : DispatchResult)
    (providerId : Option String) : Dispatch DispatchResult := do
  let applied : Bool ←
    perform (.mark row.notification.notificationId row.token (.failed reason now providerId))
  pure (if applied then { result with failed := result.failed + 1 } else result.withFenced)

/-- Schedules the next attempt, or gives up. -/
def retry (row : ClaimedNotification) (reason : String) (retryAfterMs : Option Int) (now : Int)
    (result : DispatchResult) (providerId : Option String) : Dispatch DispatchResult :=
  if dispatcher.maxAttempts ≤ row.notification.attempts then
    markFailed row ("attempts_exhausted after " ++ toString row.notification.attempts ++ ": " ++
      reason) now result providerId
  else do
    let delay := retryAfterMs.getD
      (dispatcher.baseBackoffMs * 2 ^ (row.notification.attempts - 1))
    let applied : Bool ← perform (.mark row.notification.notificationId row.token
      (.retrying reason (now + delay) providerId))
    pure (if applied then { result with retrying := result.retrying + 1 } else result.withFenced)

/-- What the channel's answer makes of the row. A throw says nothing about the message,
so it is retried like an answer that asks for it. -/
def recordOutcome (row : ClaimedNotification) (now : Int) (result : DispatchResult) :
    Except String ChannelResult → Dispatch DispatchResult
  | .error message =>
      dispatcher.retry row
        ("channel_threw: " ++ keptError message row.notification.address) none now result
        none
  | .ok (.delivered providerId) => do
      let applied : Bool ← perform
        (.mark row.notification.notificationId row.token (.delivered providerId now))
      pure (if applied then { result with delivered := result.delivered + 1 } else result.withFenced)
  | .ok (.accepted providerId) => do
      let applied : Bool ← perform
        (.mark row.notification.notificationId row.token (.accepted providerId now))
      pure (if applied then { result with accepted := result.accepted + 1 } else result.withFenced)
  | .ok (.retryable reason retryAfterMs providerId) =>
      dispatcher.retry row (keptError reason row.notification.address) retryAfterMs now
        result providerId
  | .ok (.permanent reason providerId) =>
      markFailed row ("permanent: " ++ keptError reason row.notification.address) now
        result providerId

def messageOf (notification : Notification) (address : String) : NotificationMessage :=
  { notificationId := notification.notificationId
    channel := notification.channel
    address := address
    template := notification.template
    subject := notification.subject
    body := notification.body
    data := notification.data
    idempotencyKey := notification.idempotencyKey
    attempt := notification.attempts }

/-- One claimed message: pick the adapter, send, and record the outcome. -/
def processClaimed (row : ClaimedNotification) (now : Int) (result : DispatchResult) :
    Dispatch DispatchResult :=
  if row.notification.channel ∉ dispatcher.channels then
    dispatcher.retry row "channel_adapter_not_configured" none now result none
  else
    match row.notification.address with
    | none => markFailed row "no address on notification" now result none
    | some address => do
        let _ : Unit ← perform (.send (messageOf row.notification address) row.token)
        let outcome : Except String ChannelResult ← perform (.answered row.token)
        dispatcher.recordOutcome row now result outcome

def processAll (now : Int) : List ClaimedNotification → DispatchResult → Dispatch DispatchResult
  | [], result => pure result
  | row :: rest, result => do
      let result ← dispatcher.processClaimed row now result
      processAll now rest result

def drainOnce (limit : Nat) : Dispatch DispatchResult := do
  let now : Int ← perform .clock
  let reclaimed : Nat ← perform (.reclaimExpired now dispatcher.maxAttempts limit)
  let claimed : List ClaimedNotification ← perform (.claimDue now limit dispatcher.leaseMs)
  dispatcher.processAll now claimed { reclaimed := reclaimed }

end NotificationDispatcher

/-! ### The channels and the store -/

/-- A send that has not ended. -/
structure Send where
  notificationId : String
  token : Nat
  startedAt : Int
  deriving DecidableEq, Repr

/-- The store, the sends in flight, and the notification of every send ever started. -/
structure MailRoom where
  now : Int
  store : NotificationStore
  inFlight : List Send
  started : List String

def MailRoom.empty (now : Int) : MailRoom := ⟨now, .empty, [], []⟩

/-- What the fan-out queues: one rendered message for one recipient. -/
structure QueuedMessage where
  notificationId : String
  eventId : String
  organizationId : Option String
  recipient : NotificationRecipient
  address : Option String
  rendered : RenderedMessage

/-- A clock may read any instant and a channel may answer anything. -/
inductive DispatchTurn where
  | proceed
  | reading (now : Int)
  | answer (result : Except String ChannelResult)
  | elapsed (milliseconds : Nat)
  | ended (token : Nat)
  | queued (message : QueuedMessage)

namespace MailRoom

def sendEnded (room : MailRoom) (token : Nat) : MailRoom :=
  { room with inFlight := room.inFlight.filter (fun send => send.token ≠ token) }

def answer (room : MailRoom) :
    (effect : Effect) → DispatchTurn → Option (effect.Answer × MailRoom)
  | .clock, .reading now => some (now, room)
  | .reclaimExpired now maxAttempts limit, .proceed =>
      let result := room.store.reclaimExpired now maxAttempts limit
      some (result.1, { room with store := result.2 })
  | .claimDue now limit leaseMs, .proceed =>
      let result := room.store.claimDue now limit leaseMs
      some (result.1, { room with store := result.2 })
  | .send message token, .proceed =>
      some ((), { room with
        inFlight := ⟨message.notificationId, token, room.now⟩ :: room.inFlight
        started := message.notificationId :: room.started })
  | .answered token, .answer result => some (result, room.sendEnded token)
  | .mark notificationId token how, .proceed =>
      let result := room.store.mark notificationId token how
      some (result.1, { room with store := result.2 })
  | _, _ => none

/-- The fan-out's insert. A repeat is absorbed, a clash leaves the store as it is. -/
def queue (room : MailRoom) (message : QueuedMessage) : MailRoom :=
  match Eventing.queueNotification room.store.notifications
      (Eventing.queuedNotification message.notificationId message.eventId message.organizationId
        message.recipient message.address message.rendered room.now) with
  | .ok (_, notifications) => { room with store := { room.store with notifications := notifications } }
  | .error _ => room

/-- Time passes only while every send in flight is within `leaseMs` of its start. A send
may end although its dispatcher is gone. -/
def happen (leaseMs : Int) (room : MailRoom) : DispatchTurn → Option MailRoom
  | .elapsed milliseconds =>
      if ∀ send ∈ room.inFlight, room.now + milliseconds ≤ send.startedAt + leaseMs then
        some { room with now := room.now + milliseconds }
      else none
  | .ended token => some (room.sendEnded token)
  | .queued message => some (room.queue message)
  | _ => none

end MailRoom

/-- Dispatchers on one store, with channels whose sends all end within `leaseMs`. -/
def dispatching (leaseMs : Int) : System MailRoom Effect Effect.Answer DispatchTurn where
  perform := fun effect turn room => room.answer effect turn
  tick := fun turn room => room.happen leaseMs turn

/-- Any number of dispatchers with one lease, each with its own channels and limits. -/
def dispatchers (leaseMs : Int) (call : Dispatch DispatchResult) : Prop :=
  ∃ (dispatcher : NotificationDispatcher) (limit : Nat),
    dispatcher.leaseMs = leaseMs ∧ call = dispatcher.drainOnce limit

end WaslaCore.Notification
