import WaslaCore.Eventing.FanOut
import WaslaCore.Interleaving.Logic

/-!
The shared stores behind the event workers and what one `await` of a worker does
to them. Every action is atomic, any number of other workers may act between two
of them, and a worker that crashed simply takes no further action. What a worker
stages inside the relay's transaction is seen by nobody before its commit, and
the rows it inserts and the mark it sets land together or not at all.
-/

namespace WaslaCore.Eventing

open Platform Data Interleaving Notification

/-- A row staged by a fan-out. -/
inductive Staged where
  | delivery (row : EventDelivery)
  | notification (row : Notification)
  deriving DecidableEq, Repr

/-- The relay's transaction: the inserts in the order they were issued, then the
mark of the event's row under the claim the relay holds. -/
structure FanOutWork where
  staged : List Staged
  eventId : String
  fence : Fence
  deriving DecidableEq, Repr

/-- The durable state. `completed` logs every handler that returned, in order. -/
structure EventStore where
  now : Int
  inbox : List (String × String)
  completed : List (String × EventEnvelope)
  inbound : EventQueue
  outbox : EventQueue
  subscriptions : Table EventSubscription
  deliveries : Table EventDelivery
  recipients : Table NotificationRecipient
  notifications : Table Notification

namespace EventStore

def empty (now : Int) : EventStore :=
  ⟨now, [], [], .empty, .empty, .empty, .empty, .empty, .empty⟩

def queue (store : EventStore) : QueueName → EventQueue
  | .inbound => store.inbound
  | .outbox => store.outbox

def withQueue (store : EventStore) (name : QueueName) (queue : EventQueue) : EventStore :=
  match name with
  | .inbound => { store with inbound := queue }
  | .outbox => { store with outbox := queue }

/-- One staged insert. -/
def insert (store : EventStore) : Staged → Except String (Bool × EventStore)
  | .delivery row =>
      match queueDelivery store.deliveries row with
      | .ok (queued, deliveries) => .ok (queued, { store with deliveries := deliveries })
      | .error message => .error message
  | .notification row =>
      match queueNotification store.notifications row with
      | .ok (queued, notifications) => .ok (queued, { store with notifications := notifications })
      | .error message => .error message

def insertAll (store : EventStore) : List Staged → Except String EventStore
  | [] => .ok store
  | row :: rest =>
      match store.insert row with
      | .ok (_, store') => store'.insertAll rest
      | .error message => .error message

/-- The relay's commit point. A refused mark or a failing insert rolls every
insert back. -/
def commit (store : EventStore) (work : FanOutWork) : Except String (Bool × EventStore) :=
  match store.insertAll work.staged with
  | .error message => .error message
  | .ok written =>
      match written.outbox.acknowledge work.eventId work.fence (.finished .published) with
      | (true, outbox) => .ok (true, { written with outbox := outbox })
      | (false, _) => .ok (false, store)

end EventStore

/-! ### Actions -/

/-- What a worker awaits. A claim, a release and a handler run carry the count of
attempts their delivery has made so far, and a release the error it follows, so
that a history shows which of them it was. -/
inductive Action where
  | clock
  | newId
  | claim (consumer : String) (event : EventEnvelope) (attempts : Nat)
  | handle (consumer : String) (event : EventEnvelope) (attempts : Nat)
  | release (consumer : String) (event : EventEnvelope) (attempts : Nat) (lastError : String)
  | reclaimExpired (queue : QueueName) (now : Int) (maxReclaims limit : Nat)
  | claimDue (queue : QueueName) (now : Int) (limit : Nat)
  | acknowledge (queue : QueueName) (eventId : String) (fence : Fence) (how : Acknowledgement)
  | subscriptionsFor (eventType : String)
  | recipientsFor (eventType : String) (organizationId : Option String)
  | verifiedAddress (identityId : String) (channel : NotificationChannelType)
  | queue (row : Staged)
  | commit (work : FanOutWork)
  deriving DecidableEq

/-- What an action answers where it does not throw. -/
def Action.Value : Action → Type
  | .clock => Int
  | .newId => String
  | .claim _ _ _ => Bool
  | .handle _ _ _ => Unit
  | .release _ _ _ _ => Unit
  | .reclaimExpired _ _ _ _ => EventQueue.ReclaimOutcome
  | .claimDue _ _ _ => List QueueRow
  | .acknowledge _ _ _ _ => Bool
  | .subscriptionsFor _ => List EventSubscription
  | .recipientsFor _ _ => List NotificationRecipient
  | .verifiedAddress _ _ => Option String
  | .queue _ => Bool
  | .commit _ => Bool

abbrev Action.Answer (action : Action) : Type := Except String action.Value

/-- What the stores do not decide themselves: whether an action throws, which
identifier or token is drawn, which address the directory knows. -/
inductive Choice where
  | proceed
  | failing (message : String)
  | drawn (id : String)
  | address (found : Option String)

/-- The inbox claim: one `insert … on conflict do nothing`. -/
def EventStore.claim (store : EventStore) (consumer eventId : String) : Bool × EventStore :=
  if (consumer, eventId) ∈ store.inbox then (false, store)
  else (true, { store with inbox := (consumer, eventId) :: store.inbox })

def EventStore.release (store : EventStore) (consumer eventId : String) : EventStore :=
  { store with inbox := store.inbox.filter (fun entry => entry ≠ (consumer, eventId)) }

/-- `claimDue`: the outbox tests its limit after taking a row, the inbound store
before. -/
def EventStore.claimDue (store : EventStore) (name : QueueName) (now : Int) (limit : Nat)
    (token : String) : List QueueRow × EventStore :=
  let first := match name with
    | .inbound => limit
    | .outbox => max limit 1
  let (claimed, queue) := (store.queue name).claimFirst now first token
  (claimed, store.withQueue name queue)

/-- An action that goes through: its value and the stores after it. -/
def effect : (action : Action) → Choice → EventStore → Option (action.Answer × EventStore)
  | .clock, .proceed, store => some (.ok store.now, store)
  | .newId, .drawn id, store => if isId id then some (.ok id, store) else none
  | .claim consumer event _, .proceed, store =>
      some (.ok (store.claim consumer event.eventId).1, (store.claim consumer event.eventId).2)
  | .handle consumer event _, .proceed, store =>
      some (.ok (), { store with completed := store.completed ++ [(consumer, event)] })
  | .release consumer event _ _, .proceed, store =>
      some (.ok (), store.release consumer event.eventId)
  | .reclaimExpired name now maxReclaims limit, .proceed, store =>
      some (.ok ((store.queue name).reclaimExpired now maxReclaims limit).1,
        store.withQueue name ((store.queue name).reclaimExpired now maxReclaims limit).2)
  | .claimDue name now limit, .drawn token, store =>
      some (.ok (store.claimDue name now limit token).1, (store.claimDue name now limit token).2)
  | .acknowledge name eventId fence how, .proceed, store =>
      some (.ok ((store.queue name).acknowledge eventId fence how).1,
        store.withQueue name ((store.queue name).acknowledge eventId fence how).2)
  | .subscriptionsFor eventType, .proceed, store =>
      some (.ok (Eventing.subscriptionsFor store.subscriptions eventType), store)
  | .recipientsFor eventType organizationId, .proceed, store =>
      some (.ok (Eventing.recipientsFor store.recipients eventType organizationId), store)
  | .verifiedAddress _ _, .address found, store => some (.ok found, store)
  | .queue row, .proceed, store =>
      match store.insert row with
      | .ok (queued, _) => some (.ok queued, store)
      | .error message => some (.error message, store)
  | .commit work, .proceed, store =>
      match store.commit work with
      | .ok (applied, store') => some (.ok applied, store')
      | .error message => some (.error message, store)
  | _, _, _ => none

/-- Any action may throw instead, and then nothing happened. -/
def perform (action : Action) (choice : Choice) (store : EventStore) :
    Option (action.Answer × EventStore) :=
  match choice with
  | .failing message => some (.error message, store)
  | other => effect action other store

/-- What happens around the workers: time passes, an event arrives in a queue, a
subscription or a recipient is configured, an operator revives a dead row. -/
inductive Happening where
  | elapsed (milliseconds : Nat)
  | arrived (queue : QueueName) (event : EventEnvelope)
  | subscribed (row : EventSubscription)
  | notified (row : NotificationRecipient)
  | revived (eventId : String)

def EventStore.happen (store : EventStore) : Happening → EventStore
  | .elapsed milliseconds => { store with now := store.now + milliseconds }
  | .arrived name event => store.withQueue name ((store.queue name).append event store.now)
  | .subscribed row =>
      { store with subscriptions := store.subscriptions.put row.subscriptionId row }
  | .notified row => { store with recipients := store.recipients.put row.recipientId row }
  | .revived eventId => { store with outbox := store.outbox.revive eventId store.now }

/-- A choice of the stores or a happening around them. -/
abbrev Turn := Choice ⊕ Happening

/-- The event stores as workers see them. -/
def eventing : System EventStore Action Action.Answer Turn where
  perform action turn store :=
    match turn with
    | .inl choice => perform action choice store
    | .inr _ => none
  tick turn store :=
    match turn with
    | .inl _ => none
    | .inr happening => some (store.happen happening)

/-- Why a worker's call stops: an error with its message, or an acknowledgement
the store refused (`FencedError`). -/
inductive Failure where
  | error (message : String)
  | fenced (recordId : String)
  deriving DecidableEq, Repr

/-- `err.message`. -/
def Failure.message : Failure → String
  | .error message => message
  | .fenced recordId =>
      "acknowledgement fenced: " ++ recordId ++ " is no longer held by this claim"

abbrev Call (β : Type) := Process Action Action.Answer Failure β

abbrev Seen := History Action Action.Answer

/-- An awaited answer: its error is thrown where it was awaited. -/
def settled {β : Type} : Except String β → Call β
  | .ok value => .done value
  | .error message => .fail (.error message)

def await (action : Action) : Call action.Value := .act action settled

section Awaiting

variable {discipline : Discipline Action Action.Answer} {γ : Type} {seen : Seen}

theorem keeps_await {action : Action} {post : Seen → Except Failure action.Value → Prop}
    (howed : discipline.owed seen action)
    (hok : ∀ value, discipline.told action (.ok value) →
      post (seen ++ [⟨action, .ok value⟩]) (.ok value))
    (herror : ∀ message, post (seen ++ [⟨action, .error message⟩]) (.error (.error message))) :
    Keeps discipline post (await action) seen := by
  refine ⟨howed, fun answer htold => ?_⟩
  cases answer with
  | ok value => exact hok value htold
  | error message => exact herror message

theorem keeps_await_bind {action : Action} {next : action.Value → Call γ}
    {post : Seen → Except Failure γ → Prop} (howed : discipline.owed seen action)
    (hok : ∀ value, discipline.told action (.ok value) →
      Keeps discipline post (next value) (seen ++ [⟨action, .ok value⟩]))
    (herror : ∀ message, post (seen ++ [⟨action, .error message⟩]) (.error (.error message))) :
    Keeps discipline post (await action >>= next) seen := by
  rw [keeps_bind]
  exact keeps_await howed hok herror

theorem avoids_await {shunned : Action → Prop} {action : Action} (h : ¬shunned action) :
    Avoids shunned (await action) := by
  refine ⟨h, fun answer => ?_⟩
  cases answer <;> trivial

end Awaiting

/-! ### What an action can do to the stores -/

namespace EventStore

@[simp] theorem withQueue_inbox (store : EventStore) (name : QueueName) (queue : EventQueue) :
    (store.withQueue name queue).inbox = store.inbox := by
  cases name <;> rfl

@[simp] theorem withQueue_completed (store : EventStore) (name : QueueName) (queue : EventQueue) :
    (store.withQueue name queue).completed = store.completed := by
  cases name <;> rfl

@[simp] theorem queue_withQueue (store : EventStore) (name other : QueueName)
    (queue : EventQueue) :
    (store.withQueue name queue).queue other = if other = name then queue else store.queue other := by
  cases name <;> cases other <;> rfl

@[simp] theorem happen_inbox (store : EventStore) (happening : Happening) :
    (store.happen happening).inbox = store.inbox := by
  cases happening <;> simp [happen]

@[simp] theorem happen_completed (store : EventStore) (happening : Happening) :
    (store.happen happening).completed = store.completed := by
  cases happening <;> simp [happen]

/-- An insert touches the two tables of queued work and nothing else. -/
theorem insert_ok {store store' : EventStore} {row : Staged} {queued : Bool}
    (h : store.insert row = .ok (queued, store')) :
    ∃ deliveries notifications,
      store' = { store with deliveries := deliveries, notifications := notifications } := by
  cases row with
  | delivery row =>
      simp only [insert] at h
      split at h
      · cases h
        exact ⟨_, store.notifications, rfl⟩
      · cases h
  | notification row =>
      simp only [insert] at h
      split at h
      · cases h
        exact ⟨store.deliveries, _, rfl⟩
      · cases h

theorem insertAll_ok {store store' : EventStore} {staged : List Staged}
    (h : store.insertAll staged = .ok store') :
    ∃ deliveries notifications,
      store' = { store with deliveries := deliveries, notifications := notifications } := by
  induction staged generalizing store with
  | nil => exact ⟨store.deliveries, store.notifications, (Except.ok.inj h).symm⟩
  | cons row rest ih =>
      simp only [insertAll] at h
      split at h
      · rename_i queued middle hmiddle
        obtain ⟨deliveries, notifications, rfl⟩ := insert_ok hmiddle
        obtain ⟨deliveries', notifications', rfl⟩ := ih h
        exact ⟨deliveries', notifications', rfl⟩
      · cases h

/-- A commit that goes through applied the inserts and an accepted mark; a refused
one left everything alone. -/
theorem commit_ok {store store' : EventStore} {work : FanOutWork} {applied : Bool}
    (h : store.commit work = .ok (applied, store')) :
    (applied = false ∧ store' = store) ∨
      applied = true ∧ ∃ written, store.insertAll work.staged = .ok written ∧
        (store.outbox.acknowledge work.eventId work.fence (.finished .published)).1 = true ∧
        store' = { written with
          outbox :=
            (store.outbox.acknowledge work.eventId work.fence (.finished .published)).2 } := by
  unfold commit at h
  split at h
  · cases h
  rename_i written hwritten
  obtain ⟨deliveries, notifications, rfl⟩ := insertAll_ok hwritten
  split at h
  · rename_i outbox hmark
    cases h
    exact .inr ⟨rfl, _, hwritten, by rw [hmark], by rw [hmark]⟩
  · cases h
    exact .inl ⟨rfl, rfl⟩

end EventStore

/-- What an action that goes through did. -/
def Did : (action : Action) → action.Value → EventStore → EventStore → Prop
  | .clock, value, store, store' => value = store.now ∧ store' = store
  | .newId, _, store, store' => store' = store
  | .claim consumer event _, value, store, store' =>
      value = (store.claim consumer event.eventId).1 ∧
        store' = (store.claim consumer event.eventId).2
  | .handle consumer event _, _, store, store' =>
      store' = { store with completed := store.completed ++ [(consumer, event)] }
  | .release consumer event _ _, _, store, store' => store' = store.release consumer event.eventId
  | .reclaimExpired name now maxReclaims limit, value, store, store' =>
      value = ((store.queue name).reclaimExpired now maxReclaims limit).1 ∧
        store' = store.withQueue name ((store.queue name).reclaimExpired now maxReclaims limit).2
  | .claimDue name now limit, value, store, store' =>
      ∃ token, value = (store.claimDue name now limit token).1 ∧
        store' = (store.claimDue name now limit token).2
  | .acknowledge name eventId fence how, value, store, store' =>
      value = ((store.queue name).acknowledge eventId fence how).1 ∧
        store' = store.withQueue name ((store.queue name).acknowledge eventId fence how).2
  | .subscriptionsFor eventType, value, store, store' =>
      value = Eventing.subscriptionsFor store.subscriptions eventType ∧ store' = store
  | .recipientsFor eventType organizationId, value, store, store' =>
      value = Eventing.recipientsFor store.recipients eventType organizationId ∧ store' = store
  | .verifiedAddress _ _, _, store, store' => store' = store
  | .queue _, _, store, store' => store' = store
  | .commit work, value, store, store' => store.commit work = .ok (value, store')

/-- An action that goes through did what it says. -/
theorem perform_ok {action : Action} {choice : Choice} {value : action.Value}
    {store store' : EventStore} (h : perform action choice store = some (.ok value, store')) :
    Did action value store store' := by
  cases choice with
  | failing message => cases (Prod.mk.inj (Option.some.inj h)).1
  | proceed =>
      cases action with
      | newId => cases h
      | claimDue name now limit => cases h
      | verifiedAddress identityId channel => cases h
      | queue row =>
          simp only [perform, effect] at h
          split at h
          · exact (Prod.mk.inj (Option.some.inj h)).2.symm
          · cases (Prod.mk.inj (Option.some.inj h)).1
      | commit work =>
          simp only [perform, effect] at h
          split at h
          · rename_i applied after hcommit
            obtain ⟨hvalue, rfl⟩ := Prod.mk.inj (Option.some.inj h)
            cases hvalue
            exact hcommit
          · cases (Prod.mk.inj (Option.some.inj h)).1
      | handle consumer event attempts => exact (Prod.mk.inj (Option.some.inj h)).2.symm
      | release consumer event attempts lastError =>
          exact (Prod.mk.inj (Option.some.inj h)).2.symm
      | _ =>
          obtain ⟨hvalue, rfl⟩ := Prod.mk.inj (Option.some.inj h)
          cases hvalue
          exact ⟨rfl, rfl⟩
  | drawn id =>
      cases action with
      | newId =>
          simp only [perform, effect] at h
          split at h
          · exact (Prod.mk.inj (Option.some.inj h)).2.symm
          · cases h
      | claimDue name now limit =>
          obtain ⟨hvalue, rfl⟩ := Prod.mk.inj (Option.some.inj h)
          cases hvalue
          exact ⟨id, rfl, rfl⟩
      | _ => cases h
  | address found =>
      cases action with
      | verifiedAddress identityId channel => exact (Prod.mk.inj (Option.some.inj h)).2.symm
      | _ => cases h

/-- An action that throws did nothing. -/
theorem perform_error {action : Action} {choice : Choice} {message : String}
    {store store' : EventStore} (h : perform action choice store = some (.error message, store')) :
    store' = store := by
  cases choice with
  | failing text => exact (Prod.mk.inj (Option.some.inj h)).2.symm
  | proceed =>
      cases action with
      | queue row =>
          simp only [perform, effect] at h
          split at h
          · cases (Prod.mk.inj (Option.some.inj h)).1
          · exact (Prod.mk.inj (Option.some.inj h)).2.symm
      | commit work =>
          simp only [perform, effect] at h
          split at h
          · cases (Prod.mk.inj (Option.some.inj h)).1
          · exact (Prod.mk.inj (Option.some.inj h)).2.symm
      | newId => cases h
      | claimDue name now limit => cases h
      | verifiedAddress identityId channel => cases h
      | _ => cases (Prod.mk.inj (Option.some.inj h)).1
  | drawn id =>
      cases action with
      | newId =>
          simp only [perform, effect] at h
          split at h
          · cases (Prod.mk.inj (Option.some.inj h)).1
          · cases h
      | claimDue name now limit => cases (Prod.mk.inj (Option.some.inj h)).1
      | _ => cases h
  | address found =>
      cases action with
      | verifiedAddress identityId channel => cases (Prod.mk.inj (Option.some.inj h)).1
      | _ => cases h

/-- The actions of a delivery. -/
def Delivering : Action → Prop
  | .claim _ _ _ => True
  | .handle _ _ _ => True
  | .release _ _ _ _ => True
  | _ => False

/-- Only a delivery's own actions touch the inbox or complete a handler. -/
theorem Did.undelivering {action : Action} {value : action.Value} {store store' : EventStore}
    (hdid : Did action value store store') (h : ¬Delivering action) :
    store'.inbox = store.inbox ∧ store'.completed = store.completed := by
  cases action with
  | claim consumer event attempts => exact absurd trivial h
  | handle consumer event attempts => exact absurd trivial h
  | release consumer event attempts lastError => exact absurd trivial h
  | clock =>
      obtain ⟨-, rfl⟩ := hdid
      exact ⟨rfl, rfl⟩
  | newId =>
      obtain rfl := hdid
      exact ⟨rfl, rfl⟩
  | reclaimExpired name now maxReclaims limit =>
      obtain ⟨-, rfl⟩ := hdid
      simp
  | claimDue name now limit =>
      obtain ⟨token, -, rfl⟩ := hdid
      simp [EventStore.claimDue]
  | acknowledge name eventId fence how =>
      obtain ⟨-, rfl⟩ := hdid
      simp
  | subscriptionsFor eventType =>
      obtain ⟨-, rfl⟩ := hdid
      exact ⟨rfl, rfl⟩
  | recipientsFor eventType organizationId =>
      obtain ⟨-, rfl⟩ := hdid
      exact ⟨rfl, rfl⟩
  | verifiedAddress identityId channel =>
      obtain rfl := hdid
      exact ⟨rfl, rfl⟩
  | queue row =>
      obtain rfl := hdid
      exact ⟨rfl, rfl⟩
  | commit work =>
      rcases EventStore.commit_ok hdid with ⟨-, rfl⟩ | ⟨-, written, hwritten, -, rfl⟩
      · exact ⟨rfl, rfl⟩
      · obtain ⟨deliveries, notifications, rfl⟩ := EventStore.insertAll_ok hwritten
        exact ⟨rfl, rfl⟩

/-! ### What an action can do to a queue -/

/-- The action acknowledges the row of one event. -/
inductive Marks : Action → QueueName → String → Fence → Acknowledgement → Prop where
  | acknowledge (name : QueueName) (eventId : String) (fence : Fence) (how : Acknowledgement) :
      Marks (.acknowledge name eventId fence how) name eventId fence how
  | commit (work : FanOutWork) :
      Marks (.commit work) .outbox work.eventId work.fence (.finished .published)

/-- Every row stands under its own event's identifier, in both queues. -/
def EventStore.Keyed (store : EventStore) : Prop := ∀ name, (store.queue name).Keyed

/-- Rows move on without an acknowledgement. -/
def Turned (store store' : EventStore) : Prop :=
  ∀ name id, Rotated id ((store.queue name).get id) ((store'.queue name).get id)

/-- One row was acknowledged under an accepted claim, and no other row changed. -/
structure Acknowledged (name : QueueName) (eventId : String) (fence : Fence)
    (how : Acknowledgement) (row : QueueRow) (store store' : EventStore) : Prop where
  found : (store.queue name).get eventId = some row
  held : isFenced row.claimToken fence = false
  queue : store'.queue name = (store.queue name).put eventId (row.acknowledged how)
  others : ∀ other, other ≠ name → store'.queue other = store.queue other

theorem Turned.refl (store : EventStore) : Turned store store := fun _ _ => .same _

theorem turned_withQueue {store : EventStore} (name : QueueName) {queue : EventQueue}
    (h : ∀ id, Rotated id ((store.queue name).get id) (queue.get id)) :
    Turned store (store.withQueue name queue) := by
  intro other id
  rw [EventStore.queue_withQueue]
  by_cases hother : other = name
  · subst hother
    rw [if_pos rfl]
    exact h id
  · rw [if_neg hother]
    exact .same _

/-- Whatever happens around the workers acknowledges nothing. -/
theorem happen_turned (store : EventStore) (happening : Happening) :
    Turned store (store.happen happening) := by
  cases happening with
  | arrived name event => exact turned_withQueue _ (EventQueue.append_rotated _ event store.now)
  | revived eventId =>
      exact turned_withQueue .outbox (EventQueue.revive_rotated _ eventId store.now)
  | elapsed milliseconds => exact fun name id => by cases name <;> exact .same _
  | subscribed row => exact fun name id => by cases name <;> exact .same _
  | notified row => exact fun name id => by cases name <;> exact .same _

/-- An action turns the queues, or acknowledges one row. -/
theorem Did.queues {action : Action} {value : action.Value} {store store' : EventStore}
    (hkeyed : store.Keyed) (h : Did action value store store') :
    Turned store store' ∨
      ∃ (name : QueueName) (eventId : String) (fence : Fence) (how : Acknowledgement)
        (row : QueueRow), Marks action name eventId fence how ∧
          Acknowledged name eventId fence how row store store' := by
  cases action with
  | clock =>
      obtain ⟨-, rfl⟩ := h
      exact .inl (Turned.refl store')
  | newId =>
      obtain rfl := h
      exact .inl (Turned.refl store')
  | claim consumer event attempts =>
      obtain ⟨-, rfl⟩ := h
      refine .inl fun name id => ?_
      unfold EventStore.claim
      split <;> cases name <;> exact .same _
  | handle consumer event attempts =>
      obtain rfl := h
      exact .inl fun name id => by cases name <;> exact .same _
  | release consumer event attempts lastError =>
      obtain rfl := h
      exact .inl fun name id => by cases name <;> exact .same _
  | reclaimExpired name now maxReclaims limit =>
      obtain ⟨-, rfl⟩ := h
      exact .inl (turned_withQueue _ (EventQueue.reclaimExpired_rotated (hkeyed name) now _ limit))
  | claimDue name now limit =>
      obtain ⟨token, -, rfl⟩ := h
      exact .inl (turned_withQueue _ (EventQueue.claimFirst_rotated (hkeyed name) now _ token))
  | acknowledge name eventId fence how =>
      obtain ⟨-, rfl⟩ := h
      rcases EventQueue.acknowledge_cases (store.queue name) eventId fence how with
        hrefused | ⟨row, hrow, hheld, happlied⟩
      · rw [hrefused]
        exact .inl (turned_withQueue _ fun id => .same _)
      · refine .inr ⟨name, eventId, fence, how, row, .acknowledge .., hrow, hheld, ?_, ?_⟩
        · rw [happlied, EventStore.queue_withQueue, if_pos rfl]
        · intro other hother
          rw [EventStore.queue_withQueue, if_neg hother]
  | subscriptionsFor eventType =>
      obtain ⟨-, rfl⟩ := h
      exact .inl (Turned.refl store')
  | recipientsFor eventType organizationId =>
      obtain ⟨-, rfl⟩ := h
      exact .inl (Turned.refl store')
  | verifiedAddress identityId channel =>
      obtain rfl := h
      exact .inl (Turned.refl store')
  | queue row =>
      obtain rfl := h
      exact .inl (Turned.refl store')
  | commit work =>
      rcases EventStore.commit_ok h with ⟨-, rfl⟩ | ⟨-, written, hwritten, hmark, rfl⟩
      · exact .inl (Turned.refl store')
      · obtain ⟨deliveries, notifications, rfl⟩ := EventStore.insertAll_ok hwritten
        rcases EventQueue.acknowledge_cases store.outbox work.eventId work.fence
          (.finished .published) with hrefused | ⟨row, hrow, hheld, happlied⟩
        · rw [hrefused] at hmark
          cases hmark
        · refine .inr ⟨.outbox, work.eventId, work.fence, .finished .published, row, .commit work,
            hrow, hheld, by rw [happlied]; rfl, ?_⟩
          intro other hother
          cases other with
          | inbound => rfl
          | outbox => exact absurd rfl hother

/-- Rows under their own identifiers stay so. -/
theorem Did.keyed {action : Action} {value : action.Value} {store store' : EventStore}
    (hkeyed : store.Keyed) (h : Did action value store store') : store'.Keyed := by
  rcases h.queues hkeyed with hturned | ⟨name, eventId, fence, how, row, -, hmark⟩
  · exact fun name => (hkeyed name).rotated (hturned name)
  · intro other
    by_cases hother : other = name
    · subst hother
      rw [hmark.queue]
      intro id found hfound
      rw [Table.get_put] at hfound
      split at hfound
      · rename_i hid
        subst hid
        obtain rfl := Option.some.inj hfound
        rw [QueueRow.acknowledged_event]
        exact hkeyed other eventId row hmark.found
      · exact hkeyed other id found hfound
    · rw [hmark.others other hother]
      exact hkeyed other

end WaslaCore.Eventing
