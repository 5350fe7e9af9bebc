import WaslaCore.Eventing.Reached

/-!
What the relay's transaction leaves. A row is published by the relay only
together with the rows its fan-outs queued: one delivery for each subscription
and one notification for each recipient the transaction read, and no other about
that event. A drain that fails, crashes or is fenced leaves none of its own, so
however often an event is drained again no pair is ever queued twice.
-/

namespace WaslaCore.Eventing

open Platform Data Interleaving Notification

/-! ### What the staged inserts do -/

/-- `unique (event_id, subscription_id)`. -/
def deliveryPair (row : EventDelivery) : String × String := (row.eventId, row.subscriptionId)

/-- `unique (event_id, recipient_id)`. -/
def notificationPair (row : Notification) : String × String := (row.eventId, row.recipientId)

def Staged.delivery? : Staged → Option EventDelivery
  | .delivery row => some row
  | .notification _ => none

def Staged.notification? : Staged → Option Notification
  | .delivery _ => none
  | .notification row => some row

def deliveriesIn (staged : List Staged) : List EventDelivery := staged.filterMap Staged.delivery?

def notificationsIn (staged : List Staged) : List Notification :=
  staged.filterMap Staged.notification?

theorem queueDelivery_absorbs {deliveries deliveries' : Table EventDelivery} {row : EventDelivery}
    {queued : Bool} (h : queueDelivery deliveries row = .ok (queued, deliveries')) :
    Absorbs deliveryPair deliveries row deliveries' := by
  unfold queueDelivery hasDelivery at h
  split at h
  · rename_i hfound
    cases h
    simp only [List.any_eq_true, Bool.and_eq_true, decide_eq_true_eq] at hfound
    obtain ⟨other, hother, hevent, hsubscription⟩ := hfound
    exact .repeated ⟨other, hother, by simp [deliveryPair, hevent, hsubscription]⟩
  · rename_i hnone
    split at h
    · cases h
    · rename_i hnew
      cases h
      refine .stored row.deliveryId (by simpa using hnew) fun other hother hsame => hnone ?_
      simp only [List.any_eq_true, Bool.and_eq_true, decide_eq_true_eq]
      exact ⟨other, hother, (Prod.mk.inj hsame).1, (Prod.mk.inj hsame).2⟩

theorem queueNotification_absorbs {notifications notifications' : Table Notification}
    {row : Notification} {queued : Bool}
    (h : queueNotification notifications row = .ok (queued, notifications')) :
    Absorbs notificationPair notifications row notifications' := by
  unfold queueNotification hasNotification at h
  split at h
  · rename_i hfound
    cases h
    simp only [List.any_eq_true, Bool.and_eq_true, decide_eq_true_eq] at hfound
    obtain ⟨other, hother, hevent, hrecipient⟩ := hfound
    exact .repeated ⟨other, hother, by simp [notificationPair, hevent, hrecipient]⟩
  · rename_i hnone
    split at h
    · cases h
    · split at h
      · cases h
      · rename_i hnew
        cases h
        refine .stored row.notificationId (by simpa using hnew) fun other hother hsame => hnone ?_
        simp only [List.any_eq_true, Bool.and_eq_true, decide_eq_true_eq]
        exact ⟨other, hother, (Prod.mk.inj hsame).1, (Prod.mk.inj hsame).2⟩

/-- Staged inserts that all went through absorbed their rows, each table its own. -/
theorem insertAll_absorbs {store written : EventStore} {staged : List Staged}
    (h : store.insertAll staged = .ok written) :
    AbsorbsAll deliveryPair store.deliveries (deliveriesIn staged) written.deliveries ∧
      AbsorbsAll notificationPair store.notifications (notificationsIn staged)
        written.notifications := by
  induction staged generalizing store with
  | nil =>
      obtain rfl := Except.ok.inj h
      exact ⟨.nil _, .nil _⟩
  | cons row rest ih =>
      simp only [EventStore.insertAll] at h
      split at h
      swap
      · cases h
      rename_i queued middle hmiddle
      obtain ⟨hdeliveries, hnotifications⟩ := ih h
      cases row with
      | delivery row =>
          simp only [EventStore.insert] at hmiddle
          split at hmiddle
          · rename_i hqueued
            cases hmiddle
            exact ⟨.cons (queueDelivery_absorbs hqueued) hdeliveries, hnotifications⟩
          · cases hmiddle
      | notification row =>
          simp only [EventStore.insert] at hmiddle
          split at hmiddle
          · rename_i hqueued
            cases hmiddle
            exact ⟨hdeliveries, .cons (queueNotification_absorbs hqueued) hnotifications⟩
          · cases hmiddle

/-! ### What the relay's transaction reads and stages -/

/-- The actions of a fan-out besides its two lookups. -/
def Drafting : Action → Prop
  | .clock => True
  | .newId => True
  | .verifiedAddress _ _ => True
  | .queue _ => True
  | _ => False

def Drafts (entries : Seen) : Prop := ∀ entry ∈ entries, Drafting entry.1

/-- The transaction of one event before its commit: the subscriptions it read, and
the recipients where the event is one a person is told about. -/
inductive Reads (event : EventEnvelope) :
    Seen → List EventSubscription → List NotificationRecipient → Prop where
  | silent {subscriptions drafts} (hrendered : renderMessage event.eventType event.payload = none)
      (hdrafts : Drafts drafts) :
      Reads event (⟨.subscriptionsFor event.eventType, .ok subscriptions⟩ :: drafts)
        subscriptions []
  | told {subscriptions recipients drafts drafts' rendered}
      (hrendered : renderMessage event.eventType event.payload = some rendered)
      (hdrafts : Drafts drafts) (hdrafts' : Drafts drafts') :
      Reads event (⟨.subscriptionsFor event.eventType, .ok subscriptions⟩ :: drafts ++
          ⟨.recipientsFor event.eventType (organizationScope event.payload), .ok recipients⟩ ::
            drafts')
        subscriptions recipients

/-- One staged row for each of them, in order. -/
structure Stages (event : EventEnvelope) (subscriptions : List EventSubscription)
    (recipients : List NotificationRecipient) (staged : List Staged) : Prop where
  deliveries : (deliveriesIn staged).map deliveryPair =
    subscriptions.map (fun subscription => (event.eventId, subscription.subscriptionId))
  notifications : (notificationsIn staged).map notificationPair =
    recipients.map (fun recipient => (event.eventId, recipient.recipientId))

/-- What a relay's history says when it commits: the row was taken from the outbox,
and the transaction read and staged this. -/
structure FanOutDone (seen : Seen) (work : FanOutWork) (event : EventEnvelope) (staging : Seen)
    (subscriptions : List EventSubscription) (recipients : List NotificationRecipient) : Prop where
  about : event.eventId = work.eventId
  taken : Taken .outbox event seen
  last : staging <:+ seen
  reads : Reads event staging subscriptions recipients
  stages : Stages event subscriptions recipients work.staged

/-- Every claimed row carries a token, an outbox row is acknowledged under one, and
it is published by a commit only, after a whole fan-out. -/
def fanning : Discipline Action Action.Answer where
  told action answer :=
    match action, answer with
    | .claimDue _ _ _, .ok (rows : List QueueRow) => ∀ row ∈ rows, row.claimToken.isSome = true
    | _, _ => True
  owed seen action :=
    match action with
    | .acknowledge .outbox _ fence how => fence.isSome = true ∧ how ≠ .finished .published
    | .commit work => work.fence.isSome = true ∧
        ∃ event staging subscriptions recipients,
          FanOutDone seen work event staging subscriptions recipients
    | _ => True

section Calls

variable {γ : Type} {seen : Seen}

theorem fanning_owed_delivering {action : Action} (h : Delivering action) (seen : Seen) :
    fanning.owed seen action := by
  cases action with
  | commit work => cases h
  | acknowledge name eventId fence how => cases h
  | _ => trivial

theorem Drafts.cons {action : Action} {answer : action.Answer} {entries : Seen}
    (haction : Drafting action) (h : Drafts entries) : Drafts (⟨action, answer⟩ :: entries) := by
  intro entry hentry
  rcases List.mem_cons.mp hentry with rfl | hlater
  · exact haction
  · exact h entry hlater

/-- A fan-out staged rows about the event for the keys given, in one table, and did
nothing but draft them. -/
def Drafted (seen : Seen) (staged : List Staged) (deliveries notifications : List (String × String))
    (later : Seen) (result : Except Failure (List Staged × FanOutResult)) : Prop :=
  ∀ value, result = .ok value → ∃ drafts, later = seen ++ drafts ∧ Drafts drafts ∧
    (deliveriesIn value.1).map deliveryPair = (deliveriesIn staged).map deliveryPair ++ deliveries ∧
    (notificationsIn value.1).map notificationPair =
      (notificationsIn staged).map notificationPair ++ notifications

theorem deliveryFanOut_drafts (event : EventEnvelope) (now : Int)
    (subscriptions : List EventSubscription) (staged : List Staged) (result : FanOutResult) :
    Keeps fanning (Drafted seen staged
        (subscriptions.map fun subscription => (event.eventId, subscription.subscriptionId)) [])
      (DeliveryFanOut.queueEach event now subscriptions staged result) seen := by
  induction subscriptions generalizing staged result seen with
  | nil =>
      rintro value ⟨⟩
      exact ⟨[], by simp, by simp [Drafts], by simp, by simp⟩
  | cons subscription rest ih =>
      unfold DeliveryFanOut.queueEach
      refine keeps_await_bind trivial ?_ (by rintro message value ⟨⟩)
      intro (deliveryId : String) _
      refine keeps_await_bind trivial ?_ (by rintro message value ⟨⟩)
      intro (queued : Bool) _
      apply (ih _ _).mono
      intro later final hdrafted value hvalue
      obtain ⟨drafts, hlater, hdrafts, hdeliveries, hnotifications⟩ := hdrafted value hvalue
      refine ⟨⟨.newId, .ok deliveryId⟩ :: ⟨.queue (.delivery (.queued deliveryId event.eventId
          subscription.subscriptionId now)), .ok queued⟩ :: drafts, by simp [hlater],
        .cons trivial (.cons trivial hdrafts), ?_, ?_⟩
      · rw [hdeliveries]
        simp [deliveriesIn, Staged.delivery?, deliveryPair, EventDelivery.queued]
      · rw [hnotifications]
        simp [notificationsIn, Staged.notification?]

theorem notificationFanOut_drafts (event : EventEnvelope) (organizationId : Option String)
    (rendered : RenderedMessage) (now : Int) (recipients : List NotificationRecipient)
    (staged : List Staged) (result : FanOutResult) :
    Keeps fanning (Drafted seen staged []
        (recipients.map fun recipient => (event.eventId, recipient.recipientId)))
      (NotificationFanOut.queueEach event organizationId rendered now recipients staged result)
      seen := by
  induction recipients generalizing staged result seen with
  | nil =>
      rintro value ⟨⟩
      exact ⟨[], by simp, by simp [Drafts], by simp, by simp⟩
  | cons recipient rest ih =>
      unfold NotificationFanOut.queueEach
      refine keeps_await_bind trivial ?_ (by rintro message value ⟨⟩)
      intro (address : Option String) _
      refine keeps_await_bind trivial ?_ (by rintro message value ⟨⟩)
      intro (notificationId : String) _
      refine keeps_await_bind trivial ?_ (by rintro message value ⟨⟩)
      intro (queued : Bool) _
      apply (ih _ _).mono
      intro later final hdrafted value hvalue
      obtain ⟨drafts, hlater, hdrafts, hdeliveries, hnotifications⟩ := hdrafted value hvalue
      refine ⟨⟨.verifiedAddress recipient.identityId recipient.channel, .ok address⟩ ::
          ⟨.newId, .ok notificationId⟩ :: ⟨.queue (.notification (queuedNotification notificationId
            event.eventId organizationId recipient address rendered now)), .ok queued⟩ :: drafts,
        by simp [hlater],
        .cons trivial (.cons trivial (.cons trivial hdrafts)), ?_, ?_⟩
      · rw [hdeliveries]
        simp [deliveriesIn, Staged.delivery?]
      · rw [hnotifications]
        simp [notificationsIn, Staged.notification?, notificationPair, queuedNotification]

/-- The two fan-outs of one event, run one after the other. -/
theorem stageAll_reads (event : EventEnvelope) :
    Keeps fanning (fun later result => ∀ staged, result = .ok staged →
        ∃ staging subscriptions recipients, later = seen ++ staging ∧
          Reads event staging subscriptions recipients ∧
          Stages event subscriptions recipients staged)
      (OutboxPublisher.stageAll event [.delivery, .notification] []) seen := by
  have hsecond : ∀ (subscriptions : List EventSubscription) (staged : List Staged)
      (drafts : Seen), Drafts drafts →
      (deliveriesIn staged).map deliveryPair =
        subscriptions.map (fun subscription => (event.eventId, subscription.subscriptionId)) →
      (notificationsIn staged).map notificationPair = [] →
      Keeps fanning (fun later result => ∀ value, result = .ok value →
          ∃ staging recipients, later = seen ++ staging ∧
            Reads event staging subscriptions recipients ∧
            Stages event subscriptions recipients value.1)
        (NotificationFanOut.queueFor event staged)
        (seen ++ ⟨.subscriptionsFor event.eventType, .ok subscriptions⟩ :: drafts) := by
    intro subscriptions staged drafts hdrafts hdeliveries hnotifications
    unfold NotificationFanOut.queueFor
    cases hrendered : renderMessage event.eventType event.payload with
    | none =>
        rintro value ⟨⟩
        exact ⟨_, [], rfl, .silent hrendered hdrafts, hdeliveries, hnotifications⟩
    | some rendered =>
        refine keeps_await_bind trivial ?_ (by rintro message value ⟨⟩)
        intro (recipients : List NotificationRecipient) _
        refine keeps_await_bind trivial ?_ (by rintro message value ⟨⟩)
        intro (now : Int) _
        refine (notificationFanOut_drafts event _ rendered now recipients staged ⟨0, 0, 0⟩).mono ?_
        intro later result hdrafted value hvalue
        obtain ⟨drafts', hlater, hdrafts', hdeliveries', hnotifications'⟩ := hdrafted value hvalue
        have hclocked : Drafts (⟨.clock, .ok now⟩ :: drafts') := .cons trivial hdrafts'
        refine ⟨_, recipients, ?_, .told hrendered hdrafts hclocked, ?_, ?_⟩
        · simp [hlater]
        · rw [hdeliveries', hdeliveries, List.append_nil]
        · rw [hnotifications', hnotifications, List.nil_append]
  unfold OutboxPublisher.stageAll
  refine Keeps.bind (p := fun later result => ∀ value, result = .ok value →
    ∃ subscriptions drafts,
      later = seen ++ ⟨.subscriptionsFor event.eventType, .ok subscriptions⟩ :: drafts ∧
      Drafts drafts ∧ (deliveriesIn value.1).map deliveryPair =
        subscriptions.map (fun subscription => (event.eventId, subscription.subscriptionId)) ∧
      (notificationsIn value.1).map notificationPair = []) ?_ ?_ (by rintro later error - staged ⟨⟩)
  · unfold FanOut.queueFor DeliveryFanOut.queueFor
    refine keeps_await_bind trivial ?_ (by rintro message value ⟨⟩)
    intro (subscriptions : List EventSubscription) _
    refine keeps_await_bind trivial ?_ (by rintro message value ⟨⟩)
    intro (now : Int) _
    refine (deliveryFanOut_drafts event now subscriptions [] ⟨0, 0, 0⟩).mono ?_
    intro later result hdrafted value hvalue
    obtain ⟨drafts, hlater, hdrafts, hdeliveries, hnotifications⟩ := hdrafted value hvalue
    exact ⟨subscriptions, ⟨.clock, .ok now⟩ :: drafts, by simp [hlater], .cons trivial hdrafts,
      hdeliveries, hnotifications⟩
  · intro later value hfirst
    obtain ⟨subscriptions, drafts, rfl, hdrafts, hdeliveries, hnotifications⟩ := hfirst value rfl
    unfold OutboxPublisher.stageAll
    refine (hsecond subscriptions value.1 drafts hdrafts hdeliveries hnotifications).bind ?_
      (by rintro later error - staged ⟨⟩)
    rintro final value' hstaged staged ⟨⟩
    obtain ⟨staging, recipients, hfinal, hreads, hstages⟩ := hstaged value' rfl
    exact ⟨staging, subscriptions, recipients, hfinal, hreads, hstages⟩

theorem keeps_delivering {call : Call γ} (h : Avoids (fun action => ¬Delivering action) call) :
    Keeps fanning anyEnd call seen :=
  (h.keeps (fun seen _ haction => fanning_owed_delivering (not_not.mp haction) seen) seen).mono
    fun _ _ _ => trivial

/-- The acknowledgement after a failed publish is under the row's token and
publishes nothing. -/
theorem afterFailure_fanning (settings : WorkerSettings) (now : Int) (row : QueueRow)
    (message : String) (hclaimed : row.claimToken.isSome = true) (seen : Seen) :
    fanning.owed seen (.acknowledge .outbox row.event.eventId row.claimToken
      (settings.afterFailure now row message)) := by
  refine ⟨hclaimed, ?_⟩
  unfold WorkerSettings.afterFailure
  split <;> simp

theorem publishRow_fanning (relay : OutboxPublisher)
    (hfanOuts : relay.fanOuts = [.delivery, .notification]) (hboundary : relay.boundary = true)
    (now : Int) (row : QueueRow) (result : DrainResult) (htaken : Taken .outbox row.event seen)
    (hclaimed : row.claimToken.isSome = true) :
    Keeps fanning anyEnd (relay.publishRow now row result) seen := by
  unfold OutboxPublisher.publishRow
  have hpublished : Keeps fanning anyEnd (do
      relay.bus.publish row.event
      relay.acknowledgePublish row
      pure { result with finished := result.finished + 1 }) seen := by
    refine (keeps_delivering (relay.bus.publish_delivers row.event)).grows.bind ?_
      (fun _ _ _ => trivial)
    rintro middle value ⟨hgrown, -⟩
    refine Keeps.bind (p := anyEnd) ?_ (fun _ _ _ => trivial) (fun _ _ _ => trivial)
    unfold OutboxPublisher.acknowledgePublish
    rw [if_pos (by simp [hfanOuts, hboundary])]
    unfold OutboxPublisher.publishWithFanOut
    rw [hfanOuts]
    refine (stageAll_reads row.event).bind ?_ (fun _ _ _ => trivial)
    intro later staged hstaged
    obtain ⟨staging, subscriptions, recipients, rfl, hreads, hstages⟩ := hstaged staged rfl
    refine keeps_await_bind ?_ ?_ (fun _ => trivial)
    · exact ⟨hclaimed, row.event, staging, subscriptions, recipients, rfl,
        (htaken.later hgrown).later (List.prefix_append _ _), List.suffix_append _ _, hreads,
        hstages⟩
    · intro (applied : Bool) _
      cases applied <;> trivial
  refine hpublished.tryCatch (fun _ _ _ => trivial) ?_
  intro later error _
  cases error with
  | fenced recordId => trivial
  | error message =>
      exact keeps_await_bind (afterFailure_fanning relay.settings now row message hclaimed later)
        (fun _ _ => trivial) (fun _ => trivial)

/-- The calls of a deployment: its relays run both fan-outs inside one transaction. -/
def fanOutErrands (bus : LocalEventBus) (call : Call Unit) : Prop :=
  ∃ errand : Errand, call = errand.call bus ∧
    ∀ fanOuts boundary settings limit, errand = .relay fanOuts boundary settings limit →
      fanOuts = [.delivery, .notification] ∧ boundary = true

theorem fanOutErrands_fanning (bus : LocalEventBus) (call : Call Unit)
    (hcall : fanOutErrands bus call) : Keeps fanning anyEnd call [] := by
  obtain ⟨errand, rfl, hrelay⟩ := hcall
  cases errand with
  | publish event => exact keeps_delivering (bus.publish_delivers event)
  | dispatch settings limit =>
      refine Keeps.bind (p := anyEnd) ?_ (fun _ _ _ => trivial) (fun _ _ _ => trivial)
      refine drainQueue_keeps (fun _ => trivial) (fun _ _ => trivial) (fun _ _ => trivial) ?_
      intro now rows later _ _ row _ result
      refine Keeps.tryCatch (p := anyEnd) ?_ (fun _ _ _ => trivial) ?_
      · refine (keeps_delivering (bus.publish_delivers row.event)).bind (fun _ _ _ => ?_)
          (fun _ _ _ => trivial)
        exact keeps_await_bind trivial (fun _ _ => trivial) (fun _ => trivial)
      · exact fun _ error _ => keeps_await_bind trivial (fun _ _ => trivial) (fun _ => trivial)
  | relay fanOuts boundary settings limit =>
      obtain ⟨hfanOuts, hboundary⟩ := hrelay fanOuts boundary settings limit rfl
      refine Keeps.bind (p := anyEnd) ?_ (fun _ _ _ => trivial) (fun _ _ _ => trivial)
      refine drainQueue_keeps (fun _ => trivial) (fun _ _ => trivial) (fun _ _ => trivial) ?_
      intro now rows later htold hclaim row hrow result
      exact publishRow_fanning ⟨bus, fanOuts, boundary, settings⟩ hfanOuts hboundary now row result
        ⟨now, limit, rows, hclaim, row, hrow, rfl⟩ (htold row hrow)

end Calls

/-! ### What the stores hold of one event -/

/-- The deliveries and notifications about an event are the staged ones, one for
each subscription and recipient the transaction read. -/
structure FannedOutAs (store : EventStore) (event : EventEnvelope) (staged : List Staged)
    (subscriptions : List EventSubscription) (recipients : List NotificationRecipient) : Prop where
  deliveries : ∀ row ∈ store.deliveries.values, row.eventId = event.eventId →
    .delivery row ∈ staged
  notifications : ∀ row ∈ store.notifications.values, row.eventId = event.eventId →
    .notification row ∈ staged
  deliveryCount : ∀ subscriptionId,
    store.deliveries.countOf deliveryPair (event.eventId, subscriptionId) =
      if subscriptionId ∈ subscriptions.map (·.subscriptionId) then 1 else 0
  notificationCount : ∀ recipientId,
    store.notifications.countOf notificationPair (event.eventId, recipientId) =
      if recipientId ∈ recipients.map (·.recipientId) then 1 else 0

/-- One relay fanned the event out and committed that together with the mark: its
history has the transaction's reads right before the commit. -/
def FanOutCommitted (store : EventStore) (seen : Seen) (event : EventEnvelope) : Prop :=
  ∃ earlier staging later work subscriptions recipients,
    seen = earlier ++ staging ++ ⟨.commit work, .ok true⟩ :: later ∧
    event.eventId = work.eventId ∧ Reads event staging subscriptions recipients ∧
    FannedOutAs store event work.staged subscriptions recipients

/-- Nothing is queued about the event. -/
def Unqueued (store : EventStore) (eventId : String) : Prop :=
  (∀ row ∈ store.deliveries.values, row.eventId ≠ eventId) ∧
    ∀ row ∈ store.notifications.values, row.eventId ≠ eventId

/-- The row under `id` is published. -/
def PublishedAs (store : EventStore) (id : String) (row : QueueRow) : Prop :=
  store.outbox.get id = some row ∧ row.status = .published

/-- Only a commit touches the two tables of queued work. -/
theorem Did.queuedWork {action : Action} {value : action.Value} {store store' : EventStore}
    (h : Did action value store store') (hcommit : ∀ work, action ≠ .commit work) :
    store'.deliveries = store.deliveries ∧ store'.notifications = store.notifications := by
  cases action with
  | commit work => exact absurd rfl (hcommit work)
  | clock =>
      obtain ⟨-, rfl⟩ := h
      exact ⟨rfl, rfl⟩
  | subscriptionsFor eventType =>
      obtain ⟨-, rfl⟩ := h
      exact ⟨rfl, rfl⟩
  | recipientsFor eventType organizationId =>
      obtain ⟨-, rfl⟩ := h
      exact ⟨rfl, rfl⟩
  | claim consumer event attempts =>
      obtain ⟨-, rfl⟩ := h
      unfold EventStore.claim
      split <;> exact ⟨rfl, rfl⟩
  | reclaimExpired name now maxReclaims limit =>
      obtain ⟨-, rfl⟩ := h
      cases name <;> exact ⟨rfl, rfl⟩
  | claimDue name now limit =>
      obtain ⟨token, -, rfl⟩ := h
      cases name <;> exact ⟨rfl, rfl⟩
  | acknowledge name eventId fence how =>
      obtain ⟨-, rfl⟩ := h
      cases name <;> exact ⟨rfl, rfl⟩
  | newId | verifiedAddress identityId channel | queue row
    | handle consumer event attempts | release consumer event attempts lastError =>
      obtain rfl := h
      exact ⟨rfl, rfl⟩

/-- A step queued nothing about one event and dropped nothing about it. -/
structure Untouched (eventId : String) (store store' : EventStore) : Prop where
  deliveries : ∀ row ∈ store'.deliveries.values, row.eventId = eventId →
    row ∈ store.deliveries.values
  notifications : ∀ row ∈ store'.notifications.values, row.eventId = eventId →
    row ∈ store.notifications.values
  deliveryCount : ∀ subscriptionId, store'.deliveries.countOf deliveryPair (eventId, subscriptionId) =
    store.deliveries.countOf deliveryPair (eventId, subscriptionId)
  notificationCount : ∀ recipientId,
    store'.notifications.countOf notificationPair (eventId, recipientId) =
      store.notifications.countOf notificationPair (eventId, recipientId)

theorem Untouched.of_eq {store store' : EventStore} (hdeliveries : store'.deliveries = store.deliveries)
    (hnotifications : store'.notifications = store.notifications) (eventId : String) :
    Untouched eventId store store' :=
  ⟨fun _ hrow _ => hdeliveries ▸ hrow, fun _ hrow _ => hnotifications ▸ hrow,
    fun _ => by rw [hdeliveries], fun _ => by rw [hnotifications]⟩

theorem Unqueued.untouched {store store' : EventStore} {eventId : String}
    (h : Unqueued store eventId) (hsame : Untouched eventId store store') :
    Unqueued store' eventId :=
  ⟨fun row hrow hevent => h.1 row (hsame.deliveries row hrow hevent) hevent,
    fun row hrow hevent => h.2 row (hsame.notifications row hrow hevent) hevent⟩

theorem FanOutCommitted.untouched {store store' : EventStore} {seen later : Seen}
    {event : EventEnvelope} (h : FanOutCommitted store seen event) (hgrown : seen <+: later)
    (hsame : Untouched event.eventId store store') : FanOutCommitted store' later event := by
  obtain ⟨earlier, staging, rest, work, subscriptions, recipients, rfl, habout, hreads, hfanned⟩ := h
  obtain ⟨more, rfl⟩ := hgrown
  refine ⟨earlier, staging, rest ++ more, work, subscriptions, recipients, by simp, habout, hreads,
    ?_, ?_, ?_, ?_⟩
  · exact fun row hrow hevent =>
      hfanned.deliveries row (hsame.deliveries row hrow hevent) hevent
  · exact fun row hrow hevent =>
      hfanned.notifications row (hsame.notifications row hrow hevent) hevent
  · exact fun subscriptionId =>
      (hsame.deliveryCount subscriptionId).trans (hfanned.deliveryCount subscriptionId)
  · exact fun recipientId =>
      (hsame.notificationCount recipientId).trans (hfanned.notificationCount recipientId)

theorem Unqueued.deliveryCount {store : EventStore} {eventId : String} (h : Unqueued store eventId)
    (subscriptionId : String) :
    store.deliveries.countOf deliveryPair (eventId, subscriptionId) = 0 := by
  refine List.countP_eq_zero.mpr fun row hrow hpair => ?_
  exact h.1 row hrow (Prod.mk.inj (of_decide_eq_true hpair)).1

theorem Unqueued.notificationCount {store : EventStore} {eventId : String}
    (h : Unqueued store eventId) (recipientId : String) :
    store.notifications.countOf notificationPair (eventId, recipientId) = 0 := by
  refine List.countP_eq_zero.mpr fun row hrow hpair => ?_
  exact h.2 row hrow (Prod.mk.inj (of_decide_eq_true hpair)).1

theorem mem_deliveriesIn {staged : List Staged} {row : EventDelivery} :
    row ∈ deliveriesIn staged ↔ .delivery row ∈ staged := by
  simp only [deliveriesIn, List.mem_filterMap]
  constructor
  · rintro ⟨row' | row', hmem, hrow⟩
    · exact Option.some.inj hrow ▸ hmem
    · cases hrow
  · exact fun hmem => ⟨_, hmem, rfl⟩

theorem mem_notificationsIn {staged : List Staged} {row : Notification} :
    row ∈ notificationsIn staged ↔ .notification row ∈ staged := by
  simp only [notificationsIn, List.mem_filterMap]
  constructor
  · rintro ⟨row' | row', hmem, hrow⟩
    · cases hrow
    · exact Option.some.inj hrow ▸ hmem
  · exact fun hmem => ⟨_, hmem, rfl⟩

section Committing

variable {store written : EventStore} {event : EventEnvelope} {staged : List Staged}
variable {subscriptions : List EventSubscription} {recipients : List NotificationRecipient}

theorem Stages.deliveryPairs (h : Stages event subscriptions recipients staged)
    (eventId subscriptionId : String) :
    (eventId, subscriptionId) ∈ (deliveriesIn staged).map deliveryPair ↔
      event.eventId = eventId ∧ subscriptionId ∈ subscriptions.map (·.subscriptionId) := by
  rw [h.deliveries]
  simp only [List.mem_map, Prod.mk.injEq]
  constructor
  · rintro ⟨subscription, hsubscription, hevent, hid⟩
    exact ⟨hevent, subscription, hsubscription, hid⟩
  · rintro ⟨hevent, subscription, hsubscription, hid⟩
    exact ⟨subscription, hsubscription, hevent, hid⟩

theorem Stages.notificationPairs (h : Stages event subscriptions recipients staged)
    (eventId recipientId : String) :
    (eventId, recipientId) ∈ (notificationsIn staged).map notificationPair ↔
      event.eventId = eventId ∧ recipientId ∈ recipients.map (·.recipientId) := by
  rw [h.notifications]
  simp only [List.mem_map, Prod.mk.injEq]
  constructor
  · rintro ⟨recipient, hrecipient, hevent, hid⟩
    exact ⟨hevent, recipient, hrecipient, hid⟩
  · rintro ⟨hevent, recipient, hrecipient, hid⟩
    exact ⟨recipient, hrecipient, hevent, hid⟩

/-- Where nothing was queued about the event before, its fan-out is all there is. -/
theorem insertAll_fannedOut (hwritten : store.insertAll staged = .ok written)
    (hstages : Stages event subscriptions recipients staged)
    (hunqueued : Unqueued store event.eventId) :
    FannedOutAs written event staged subscriptions recipients := by
  obtain ⟨hdeliveries, hnotifications⟩ := insertAll_absorbs hwritten
  refine ⟨fun row hrow hevent => ?_, fun row hrow hevent => ?_, fun subscriptionId => ?_,
    fun recipientId => ?_⟩
  · rcases hdeliveries.mem.1 hrow with hold | hstaged
    · exact absurd hevent (hunqueued.1 row hold)
    · exact mem_deliveriesIn.mp hstaged
  · rcases hnotifications.mem.1 hrow with hold | hstaged
    · exact absurd hevent (hunqueued.2 row hold)
    · exact mem_notificationsIn.mp hstaged
  · rw [hdeliveries.countOf, hunqueued.deliveryCount]
    by_cases hread : subscriptionId ∈ subscriptions.map (·.subscriptionId)
    · rw [if_pos ((hstages.deliveryPairs _ _).mpr ⟨rfl, hread⟩), if_pos hread]
      rfl
    · rw [if_neg fun hpair => hread ((hstages.deliveryPairs _ _).mp hpair).2, if_neg hread]
  · rw [hnotifications.countOf, hunqueued.notificationCount]
    by_cases hread : recipientId ∈ recipients.map (·.recipientId)
    · rw [if_pos ((hstages.notificationPairs _ _).mpr ⟨rfl, hread⟩), if_pos hread]
      rfl
    · rw [if_neg fun hpair => hread ((hstages.notificationPairs _ _).mp hpair).2, if_neg hread]

/-- A fan-out queues about its own event only. -/
theorem insertAll_untouched (hwritten : store.insertAll staged = .ok written)
    (hstages : Stages event subscriptions recipients staged) {eventId : String}
    (hother : event.eventId ≠ eventId) : Untouched eventId store written := by
  obtain ⟨hdeliveries, hnotifications⟩ := insertAll_absorbs hwritten
  refine ⟨fun row hrow hevent => ?_, fun row hrow hevent => ?_, fun subscriptionId => ?_,
    fun recipientId => ?_⟩
  · rcases hdeliveries.mem.1 hrow with hold | hstaged
    · exact hold
    · have hpair : (row.eventId, row.subscriptionId) ∈ (deliveriesIn staged).map deliveryPair :=
        List.mem_map_of_mem hstaged
      exact absurd (((hstages.deliveryPairs _ _).mp hpair).1.trans hevent) hother
  · rcases hnotifications.mem.1 hrow with hold | hstaged
    · exact hold
    · have hpair : (row.eventId, row.recipientId) ∈ (notificationsIn staged).map notificationPair :=
        List.mem_map_of_mem hstaged
      exact absurd (((hstages.notificationPairs _ _).mp hpair).1.trans hevent) hother
  · rw [hdeliveries.countOf, if_neg fun hpair => hother ((hstages.deliveryPairs _ _).mp hpair).1]
  · rw [hnotifications.countOf,
      if_neg fun hpair => hother ((hstages.notificationPairs _ _).mp hpair).1]

end Committing

/-! ### Published rows stay published -/

/-- No published row is held by anybody. -/
def PublishedFree (store : EventStore) : Prop :=
  ∀ id row, PublishedAs store id row → row.claimToken = none

/-- The same rows are published, and they are the same. -/
def SamePublished (store store' : EventStore) : Prop :=
  ∀ id row, PublishedAs store' id row ↔ PublishedAs store id row

theorem Turned.samePublished {store store' : EventStore} (h : Turned store store') :
    SamePublished store store' := by
  intro id row
  have hone : Rotated id (store.outbox.get id) (store'.outbox.get id) := h .outbox id
  constructor
  · rintro ⟨hrow, hpublished⟩
    rw [hrow] at hone
    rcases hone.origin with ⟨-, -, hpending⟩ | ⟨old, hold, -, hpending | hdead | rfl⟩
    · simp [hpublished] at hpending
    · simp [hpublished] at hpending
    · simp [hpublished] at hdead
    · exact ⟨hold, hpublished⟩
  · rintro ⟨hrow, hpublished⟩
    rw [hrow] at hone
    cases hafter : store'.outbox.get id with
    | none =>
        rw [hafter] at hone
        cases hone
    | some after =>
        rw [hafter] at hone
        cases hone with
        | same => exact ⟨hafter, hpublished⟩
        | claimed _ now token hpending => simp [hpublished] at hpending
        | reclaimed _ now maxReclaims hpending => simp [hpublished] at hpending
        | revived _ now hdead => simp [hpublished] at hdead

/-- A row held under a token is not published. -/
theorem PublishedFree.not_published {store : EventStore} (h : PublishedFree store) {id : String}
    {row : QueueRow} {fence : Fence} (hrow : store.outbox.get id = some row)
    (hheld : isFenced row.claimToken fence = false) (hfence : fence.isSome = true) :
    row.status ≠ .published := by
  intro hpublished
  obtain ⟨token, rfl⟩ := Option.isSome_iff_exists.mp hfence
  rw [h id row ⟨hrow, hpublished⟩] at hheld
  cases hheld

/-- An acknowledgement that is not a commit publishes nothing and leaves what is
published alone. -/
theorem Acknowledged.samePublished {name : QueueName} {eventId : String} {fence : Fence}
    {how : Acknowledgement} {row : QueueRow} {store store' : EventStore}
    (h : Acknowledged name eventId fence how row store store') (hfree : PublishedFree store)
    (hhow : name = .outbox → fence.isSome = true ∧ how ≠ .finished .published) :
    SamePublished store store' := by
  intro id found
  cases name with
  | inbound =>
      have hsame : store'.outbox = store.outbox := h.others .outbox (by simp)
      unfold PublishedAs
      rw [hsame]
  | outbox =>
      have houtbox : store'.outbox = store.outbox.put eventId (row.acknowledged how) := h.queue
      obtain ⟨hfence, hnot⟩ := hhow rfl
      have hold : row.status ≠ .published := hfree.not_published h.found h.held hfence
      unfold PublishedAs
      rw [houtbox, Table.get_put]
      by_cases hid : eventId = id
      · subst hid
        rw [if_pos rfl]
        constructor
        · rintro ⟨hfound, hpublished⟩
          obtain rfl := Option.some.inj hfound
          cases how with
          | finished status => exact absurd (congrArg Acknowledgement.finished hpublished) hnot
          | failed error nextAttemptAt => exact absurd hpublished hold
          | dead error => cases hpublished
        · rintro ⟨hfound, hpublished⟩
          obtain rfl := Option.some.inj (hfound.symm.trans h.found)
          exact absurd hpublished hold
      · rw [if_neg hid]

/-- Whatever is not a commit leaves the published rows as they are. -/
theorem Did.samePublished {action : Action} {value : action.Value} {store store' : EventStore}
    {seen : Seen} (h : Did action value store store') (hkeyed : store.Keyed)
    (hfree : PublishedFree store) (howed : fanning.owed seen action)
    (hcommit : ∀ work, action ≠ .commit work) : SamePublished store store' := by
  rcases h.queues hkeyed with hturned | ⟨name, eventId, fence, how, row, hmarks, hmark⟩
  · exact hturned.samePublished
  · cases hmarks with
    | commit work => exact absurd rfl (hcommit work)
    | acknowledge =>
        apply hmark.samePublished hfree
        rintro rfl
        exact howed

/-! ### Fan-outs over runs -/

/-- Every row a call took from the outbox still stands there with its event. -/
def TakenStand (store : EventStore) (seen : Seen) : Prop :=
  ∀ event, Taken .outbox event seen →
    ∃ row, store.outbox.get event.eventId = some row ∧ row.event = event

/-- What every point of a run keeps, whatever the order of its steps. -/
structure FannedOut (world : World EventStore Action Action.Answer Failure Unit) : Prop where
  keyed : world.store.Keyed
  queued : ∀ task ∈ world.tasks, TakenStand world.store task.seen
  free : PublishedFree world.store
  unpublished : ∀ id, (∀ row, ¬PublishedAs world.store id row) → Unqueued world.store id
  published : ∀ id row, PublishedAs world.store id row →
    ∃ task ∈ world.tasks, FanOutCommitted world.store task.seen row.event

theorem fannedOut_initial (start : Int) : FannedOut (World.initial (EventStore.empty start)) := by
  refine ⟨?_, by simp [World.initial], ?_, ?_, ?_⟩
  · intro name
    cases name <;> exact EventQueue.keyed_empty
  · rintro id row ⟨hrow, -⟩
    cases hrow
  · exact fun id _ => ⟨by simp [World.initial, EventStore.empty],
      by simp [World.initial, EventStore.empty]⟩
  · rintro id row ⟨hrow, -⟩
    cases hrow

/-- The published rows, and what is queued about each event, under a step that
publishes and queues nothing. -/
theorem FannedOut.moved {store store' : EventStore}
    {tasks tasks' : List (Task Action Action.Answer Failure Unit)} (h : FannedOut ⟨store, tasks⟩)
    (hkeyed : store'.Keyed) (hsame : SamePublished store store')
    (huntouched : ∀ eventId, Untouched eventId store store')
    (htasks : ∀ task ∈ tasks, ∃ task' ∈ tasks', task.seen <+: task'.seen)
    (hqueued : ∀ task ∈ tasks', TakenStand store' task.seen) :
    FannedOut ⟨store', tasks'⟩ := by
  refine ⟨hkeyed, hqueued, ?_, ?_, ?_⟩
  · exact fun id row hpublished => h.free id row ((hsame id row).mp hpublished)
  · intro id hnone
    refine (h.unpublished id fun row hpublished => ?_).untouched (huntouched id)
    exact hnone row ((hsame id row).mpr hpublished)
  · intro id row hpublished
    obtain ⟨task, htask, hcommitted⟩ := h.published id row ((hsame id row).mp hpublished)
    obtain ⟨task', htask', hgrown⟩ := htasks task htask
    exact ⟨task', htask', hcommitted.untouched hgrown (huntouched _)⟩

/-- A claimed row carries a token and stands in its queue with its event. -/
theorem Did.claimed {name : QueueName} {now : Int} {limit : Nat} {rows : List QueueRow}
    {store store' : EventStore} (hkeyed : store.Keyed)
    (h : Did (.claimDue name now limit) rows store store') (row : QueueRow) (hrow : row ∈ rows) :
    row.claimToken.isSome = true ∧
      ∃ old, (store.queue name).get row.event.eventId = some old ∧ old.event = row.event := by
  obtain ⟨token, rfl, -⟩ := h
  obtain ⟨htoken, old, hold, hevent⟩ := EventQueue.claimFirst_mem (hkeyed name) hrow
  exact ⟨by rw [htoken]; rfl, old, hold, hevent.symm⟩

/-- What a call has taken after one more answer still stands in the outbox. -/
theorem Did.queued {action : Action} {value : action.Value} {store store' : EventStore}
    {seen : Seen} (hkeyed : store.Keyed) (h : Did action value store store')
    (hqueued : TakenStand store seen) : TakenStand store' (seen ++ [⟨action, .ok value⟩]) := by
  intro event htaken
  have hstood : ∃ row, store.outbox.get event.eventId = some row ∧ row.event = event := by
    obtain ⟨now, limit, rows, hclaim, row, hrow, rfl⟩ := htaken
    rcases List.mem_append.mp hclaim with hold | hnew
    · exact hqueued row.event ⟨now, limit, rows, hold, row, hrow, rfl⟩
    · cases List.mem_singleton.mp hnew
      exact (h.claimed hkeyed row hrow).2
  obtain ⟨row, hrow, hevent⟩ := hstood
  obtain ⟨row', hrow', hevent'⟩ := (h.grown hkeyed).rows .outbox event.eventId row hrow
  exact ⟨row', hrow', hevent'.trans hevent⟩

/-- A commit that goes through publishes one row and fans its event out. -/
theorem FannedOut.committed {store store' : EventStore} {work : FanOutWork} {seen : Seen}
    {tasks tasks' : List (Task Action Action.Answer Failure Unit)} (h : FannedOut ⟨store, tasks⟩)
    (hdid : Did (.commit work) true store store') (howed : fanning.owed seen (.commit work))
    (hqueued : TakenStand store seen)
    (hcommitter : ∃ task' ∈ tasks', task'.seen = seen ++ [⟨.commit work, .ok true⟩])
    (htasks : ∀ task ∈ tasks, ∃ task' ∈ tasks', task.seen <+: task'.seen)
    (hqueued' : ∀ task ∈ tasks', TakenStand store' task.seen) :
    FannedOut ⟨store', tasks'⟩ := by
  have hkeyed' := hdid.keyed h.keyed
  obtain ⟨hfence, event, staging, subscriptions, recipients, hdone⟩ := howed
  rcases EventStore.commit_ok hdid with ⟨⟨⟩, -⟩ | ⟨-, written, hwritten, hmark, rfl⟩
  obtain ⟨row, hrow, hevent⟩ := hqueued event hdone.taken
  rcases EventQueue.acknowledge_cases store.outbox work.eventId work.fence (.finished .published)
    with hrefused | ⟨held, hheld, hunfenced, happlied⟩
  · rw [hrefused] at hmark
    cases hmark
  have hsame : held = row := by
    rw [hdone.about] at hrow
    exact Option.some.inj (hheld.symm.trans hrow)
  subst hsame
  have hunpublished : held.status ≠ .published := h.free.not_published hheld hunfenced hfence
  have hunqueued : Unqueued store event.eventId := by
    apply h.unpublished event.eventId
    rintro other ⟨hother, hpublished⟩
    rw [Option.some.inj (hother.symm.trans hrow)] at hpublished
    exact hunpublished hpublished
  have hget : ∀ id, ((store.outbox.acknowledge work.eventId work.fence (.finished .published)).2).get
      id = if work.eventId = id then some (held.acknowledged (.finished .published))
        else store.outbox.get id := by
    intro id
    rw [happlied, Table.get_put]
  have hothers : ∀ id other, work.eventId ≠ id →
      (PublishedAs { written with outbox := (store.outbox.acknowledge work.eventId work.fence
        (.finished .published)).2 } id other ↔ PublishedAs store id other) := by
    intro id other hid
    unfold PublishedAs
    rw [hget id, if_neg hid]
  have huntouched : ∀ id, work.eventId ≠ id → Untouched id store { written with
      outbox := (store.outbox.acknowledge work.eventId work.fence (.finished .published)).2 } := by
    intro id hid
    have := insertAll_untouched hwritten hdone.stages (hdone.about ▸ hid)
    exact ⟨this.deliveries, this.notifications, this.deliveryCount, this.notificationCount⟩
  refine ⟨hkeyed', hqueued', ?_, ?_, ?_⟩
  · rintro id other hpublished
    by_cases hid : work.eventId = id
    · obtain ⟨hother, -⟩ := hpublished
      rw [hget id, if_pos hid] at hother
      rw [← Option.some.inj hother, QueueRow.acknowledged_claimToken]
    · exact h.free id other ((hothers id other hid).mp hpublished)
  · intro id hnone
    by_cases hid : work.eventId = id
    · exact absurd ⟨(hget id).trans (if_pos hid), rfl⟩ (hnone _)
    · refine (h.unpublished id fun other hpublished => ?_).untouched (huntouched id hid)
      exact hnone other ((hothers id other hid).mpr hpublished)
  · intro id other hpublished
    by_cases hid : work.eventId = id
    · obtain ⟨task', htask', hseen⟩ := hcommitter
      obtain ⟨hother, -⟩ := hpublished
      rw [hget id, if_pos hid] at hother
      obtain ⟨earlier, hearlier⟩ := hdone.last
      refine ⟨task', htask', earlier, staging, [], work, subscriptions, recipients, ?_, ?_, ?_, ?_⟩
      · rw [hseen, hearlier]
      · rw [← Option.some.inj hother, QueueRow.acknowledged_event, hevent, hdone.about]
      · rw [← Option.some.inj hother, QueueRow.acknowledged_event, hevent]
        exact hdone.reads
      · rw [← Option.some.inj hother, QueueRow.acknowledged_event, hevent]
        have hfanned := insertAll_fannedOut hwritten hdone.stages hunqueued
        exact ⟨hfanned.deliveries, hfanned.notifications, hfanned.deliveryCount,
          hfanned.notificationCount⟩
    · obtain ⟨task, htask, hcommitted⟩ := h.published id other ((hothers id other hid).mp hpublished)
      obtain ⟨task', htask', hgrown⟩ := htasks task htask
      refine ⟨task', htask', hcommitted.untouched hgrown (huntouched _ ?_)⟩
      rw [h.keyed .outbox id other ((hothers id other hid).mp hpublished).1]
      exact hid

theorem happen_queuedWork (store : EventStore) (happening : Happening) :
    (store.happen happening).deliveries = store.deliveries ∧
      (store.happen happening).notifications = store.notifications := by
  cases happening with
  | arrived name event => cases name <;> exact ⟨rfl, rfl⟩
  | _ => exact ⟨rfl, rfl⟩

/-- What a step keeps of the outbox keeps what any history took from it. -/
theorem TakenStand.grown {store store' : EventStore} {seen : Seen} (h : TakenStand store seen)
    (hgrown : Grown store store') : TakenStand store' seen := by
  intro event htaken
  obtain ⟨row, hrow, hevent⟩ := h event htaken
  obtain ⟨row', hrow', hevent'⟩ := hgrown.rows .outbox event.eventId row hrow
  exact ⟨row', hrow', hevent'.trans hevent⟩

/-- One action of one call keeps it all. -/
theorem FannedOut.performs {before after : World EventStore Action Action.Answer Failure Unit}
    {seen : Seen} {action : Action} {answer : action.Answer} (h : FannedOut before)
    (howed : fanning.owed seen action) (hperforms : Performs eventing before seen action answer after) :
    fanning.told action answer ∧ FannedOut after := by
  cases hperforms with
  | @intro store store' earlier later seen action next answer turn hperform =>
      have hacting := h.queued ⟨seen, .act action next⟩ (by simp)
      have htasks : ∀ task ∈ earlier ++ ⟨seen, .act action next⟩ :: later,
          ∃ task' ∈ earlier ++ ⟨seen ++ [⟨action, answer⟩], next answer⟩ :: later,
            task.seen <+: task'.seen :=
        exists_seen_replace (List.prefix_append seen [⟨action, answer⟩])
      cases turn with
      | inr happening => cases hperform
      | inl choice =>
          cases answer with
          | error message =>
              obtain rfl := perform_error hperform
              refine ⟨by cases action <;> trivial, ?_⟩
              refine h.moved h.keyed (fun _ _ => Iff.rfl) (fun _ => .of_eq rfl rfl _) htasks
                (forall_seen_replace (P := TakenStand store') h.queued fun event htaken =>
                  hacting event ?_)
              obtain ⟨now, limit, rows, hclaim, hrow⟩ := htaken
              rcases List.mem_append.mp hclaim with hold | hnew
              · exact ⟨now, limit, rows, hold, hrow⟩
              · cases List.mem_singleton.mp hnew
          | ok value =>
              have hdid := perform_ok hperform
              have hqueued : ∀ task ∈ earlier ++ ⟨seen ++ [⟨action, .ok value⟩],
                  next (.ok value)⟩ :: later, TakenStand store' task.seen :=
                forall_seen_replace (P := TakenStand store')
                  (fun task htask => (h.queued task htask).grown (hdid.grown h.keyed))
                  (hdid.queued h.keyed hacting)
              refine ⟨?_, ?_⟩
              · cases action with
                | claimDue name now limit =>
                    exact fun row hrow => (hdid.claimed h.keyed row hrow).1
                | _ => trivial
              by_cases hcommit : ∃ work, action = .commit work
              · obtain ⟨work, rfl⟩ := hcommit
                have hvalue : value = true ∨ value = false := Bool.eq_false_or_eq_true value
                rcases hvalue with rfl | rfl
                · exact h.committed hdid howed hacting
                    ⟨_, List.mem_append_right _ (List.mem_cons_self ..), rfl⟩ htasks hqueued
                · rcases EventStore.commit_ok hdid with ⟨-, rfl⟩ | ⟨⟨⟩, -⟩
                  exact h.moved h.keyed (fun _ _ => Iff.rfl) (fun _ => .of_eq rfl rfl _) htasks
                    hqueued
              · have hother : ∀ work, action ≠ .commit work := fun work hwork =>
                  hcommit ⟨work, hwork⟩
                obtain ⟨hdeliveries, hnotifications⟩ := hdid.queuedWork hother
                exact h.moved (hdid.keyed h.keyed)
                  (hdid.samePublished h.keyed h.free howed hother)
                  (fun _ => .of_eq hdeliveries hnotifications _) htasks hqueued

theorem FannedOut.happens {store : EventStore} {happening : Happening}
    {tasks : List (Task Action Action.Answer Failure Unit)} (h : FannedOut ⟨store, tasks⟩) :
    FannedOut ⟨store.happen happening, tasks⟩ := by
  have hturned := happen_turned store happening
  obtain ⟨hdeliveries, hnotifications⟩ := happen_queuedWork store happening
  refine h.moved (fun name => (h.keyed name).rotated (hturned name)) hturned.samePublished
    (fun eventId => .of_eq hdeliveries hnotifications _)
    (fun task htask => ⟨task, htask, List.prefix_refl _⟩) ?_
  intro task htask
  have hcompleted : store.completed <+: (store.happen happening).completed :=
    ⟨[], by rw [EventStore.happen_completed, List.append_nil]⟩
  exact (h.queued task htask).grown (hturned.grown hcompleted)

theorem fannedOut_run {bus : LocalEventBus} {start : Int}
    {world : World EventStore Action Action.Answer Failure Unit}
    (hrun : Run eventing (fanOutErrands bus) anything (World.initial (EventStore.empty start))
      world) : FannedOut world := by
  refine (Run.maintains (I := FannedOut) (fanOutErrands_fanning bus) ?_ ?_ ?_ (orderly_initial _)
    (fannedOut_initial start) hrun).2
  · intro store tasks call _ h
    refine h.moved h.keyed (fun _ _ => Iff.rfl) (fun _ => .of_eq rfl rfl _) ?_ ?_
    · exact fun task htask => ⟨task, List.mem_append_left _ htask, List.prefix_refl _⟩
    · intro task htask event htaken
      rcases List.mem_append.mp htask with hold | hnew
      · exact h.queued task hold event htaken
      · rw [List.mem_singleton.mp hnew] at htaken
        obtain ⟨now, limit, rows, hclaim, -⟩ := htaken
        cases hclaim
  · exact fun h howed _ hperforms => h.performs howed hperforms
  · intro store store' tasks turn h htick
    cases turn with
    | inl choice => cases htick
    | inr happening =>
        obtain rfl := Option.some.inj htick
        exact h.happens

/-- Fan-out at one point of a run: what is published, what is queued, and what the
next action of any call may read or leave behind. -/
structure FanOutAtomic (world : World EventStore Action Action.Answer Failure Unit) : Prop where
  published : ∀ id row, PublishedAs world.store id row →
    ∃ task ∈ world.tasks, FanOutCommitted world.store task.seen row.event
  unpublished : ∀ id, (∀ row, ¬PublishedAs world.store id row) → Unqueued world.store id
  deliveredOnce : ∀ eventId subscriptionId,
    world.store.deliveries.countOf deliveryPair (eventId, subscriptionId) ≤ 1
  notifiedOnce : ∀ eventId recipientId,
    world.store.notifications.countOf notificationPair (eventId, recipientId) ≤ 1
  subscriptionsRead : ∀ seen eventType subscriptions after,
    Performs eventing world seen (.subscriptionsFor eventType) (.ok subscriptions) after →
    ∀ row : EventSubscription, row ∈ (show List EventSubscription from subscriptions) ↔
      row ∈ world.store.subscriptions.values ∧ row.active = true ∧ row.eventType = eventType
  recipientsRead : ∀ seen eventType organizationId recipients after,
    Performs eventing world seen (.recipientsFor eventType organizationId) (.ok recipients) after →
    ∀ row : NotificationRecipient, row ∈ (show List NotificationRecipient from recipients) ↔
      row ∈ world.store.recipients.values ∧ row.active = true ∧ row.eventType = eventType ∧
        (row.organizationId = none ∨ row.organizationId = organizationId)
  refused : ∀ seen work answer after, Performs eventing world seen (.commit work) answer after →
    answer ≠ .ok true → after.store = world.store
  uncommitted : ∀ seen action answer after, Performs eventing world seen action answer after →
    (∀ work, action ≠ .commit work) → after.store.deliveries = world.store.deliveries ∧
      after.store.notifications = world.store.notifications

/-- No event is ever queued twice for anybody. -/
theorem FannedOut.once {world : World EventStore Action Action.Answer Failure Unit}
    (h : FannedOut world) (eventId key : String) :
    world.store.deliveries.countOf deliveryPair (eventId, key) ≤ 1 ∧
      world.store.notifications.countOf notificationPair (eventId, key) ≤ 1 := by
  by_cases hpublished : ∃ row, PublishedAs world.store eventId row
  · obtain ⟨row, hrow⟩ := hpublished
    obtain ⟨task, -, earlier, staging, later, work, subscriptions, recipients, -, -, -, hfanned⟩ :=
      h.published eventId row hrow
    have hdeliveries := hfanned.deliveryCount key
    have hnotifications := hfanned.notificationCount key
    rw [h.keyed .outbox eventId row hrow.1] at hdeliveries hnotifications
    constructor
    · rw [hdeliveries]
      split <;> omega
    · rw [hnotifications]
      split <;> omega
  · have hunqueued := h.unpublished eventId fun row hrow => hpublished ⟨row, hrow⟩
    rw [hunqueued.deliveryCount, hunqueued.notificationCount]
    omega

/-- What an action answers where it goes through, and what one leaves that does not. -/
theorem performs_did {before after : World EventStore Action Action.Answer Failure Unit}
    {seen : Seen} {action : Action} {answer : action.Answer}
    (h : Performs eventing before seen action answer after) :
    (∃ message, answer = .error message ∧ after.store = before.store) ∨
      ∃ value, answer = .ok value ∧ Did action value before.store after.store := by
  cases h with
  | @intro store store' earlier later seen action next answer turn hperform =>
      cases turn with
      | inr happening => cases hperform
      | inl choice =>
          cases answer with
          | error message => exact .inl ⟨message, rfl, perform_error hperform⟩
          | ok value => exact .inr ⟨value, rfl, perform_ok hperform⟩

/-- Every run of relays that fan out in one transaction publishes a row only with
its whole fan-out, and leaves nothing of any other. -/
theorem run_fanOutAtomic {bus : LocalEventBus} {start : Int}
    {world : World EventStore Action Action.Answer Failure Unit}
    (hrun : Run eventing (fanOutErrands bus) anything (World.initial (EventStore.empty start))
      world) : FanOutAtomic world := by
  have h := fannedOut_run hrun
  refine ⟨h.published, h.unpublished, fun eventId key => (h.once eventId key).1,
    fun eventId key => (h.once eventId key).2, ?_, ?_, ?_, ?_⟩
  · intro seen eventType subscriptions after hperforms row
    rcases performs_did hperforms with ⟨message, ⟨⟩, -⟩ | ⟨value, hvalue, hdid⟩
    cases hvalue
    obtain ⟨rfl, -⟩ := hdid
    simp [Eventing.subscriptionsFor, mem_orderedBy]
  · intro seen eventType organizationId recipients after hperforms row
    rcases performs_did hperforms with ⟨message, ⟨⟩, -⟩ | ⟨value, hvalue, hdid⟩
    cases hvalue
    obtain ⟨rfl, -⟩ := hdid
    simp [Eventing.recipientsFor, mem_orderedBy, and_assoc]
  · intro seen work answer after hperforms hanswer
    rcases performs_did hperforms with ⟨message, -, hstore⟩ | ⟨value, rfl, hdid⟩
    · exact hstore
    · rcases EventStore.commit_ok hdid with ⟨-, hstore⟩ | ⟨rfl, -⟩
      · exact hstore
      · exact absurd rfl hanswer
  · intro seen action answer after hperforms hcommit
    rcases performs_did hperforms with ⟨message, -, hstore⟩ | ⟨value, -, hdid⟩
    · rw [hstore]
      exact ⟨rfl, rfl⟩
    · exact hdid.queuedWork hcommit

/-! ### Runs on one event -/

def quietBus : LocalEventBus := { subs := [] }

/-- A bus nobody listens on, one subscription and one recipient of the event's type. -/
def configuredFor (eventType : String) : Schedule :=
  [.tick (.inr (.subscribed ⟨"logistics", "logistics", eventType, true⟩)),
    .tick (.inr (.notified ⟨"operations", none, eventType, "operator", .email, true, 0⟩))]

def dispatchedEvent : EventEnvelope :=
  { eventId := "dispatched", eventType := "core.fulfillment.dispatched", entityType := "fulfillment"
    entityId := "fulfillment", payload := [] }

def creditedEvent : EventEnvelope :=
  { eventId := "credited", eventType := "core.money.credited", entityType := "transaction"
    entityId := "transaction", payload := [] }

def relaying : Call Unit := Errand.call quietBus (.relay [.delivery, .notification] true {} 100)

theorem relaying_allowed : fanOutErrands quietBus relaying := by
  refine ⟨.relay [.delivery, .notification] true {} 100, rfl, ?_⟩
  rintro fanOuts boundary settings limit ⟨⟩
  exact ⟨rfl, rfl⟩

/-- The identifier of one fan-out row. -/
def rowId (digit : String) : String := "00000000-0000-0000-0000-00000000000" ++ digit

/-- A relay stages everything and stalls past its lease; another one takes the row
over and publishes it; the first one's commit is fenced. -/
def relayedTwice : Schedule :=
  configuredFor "core.fulfillment.dispatched" ++
    [.tick (.inr (.arrived .outbox dispatchedEvent)), .start relaying] ++
  works 0 [.proceed, .proceed, .drawn "claim", .proceed, .proceed, .drawn (rowId "1"), .proceed,
    .proceed, .proceed, .address (some "operator@core"), .drawn (rowId "2"), .proceed] ++
  [.tick (.inr (.elapsed 30000)), .start relaying] ++
  works 1 [.proceed, .proceed, .drawn "reclaim", .proceed, .proceed, .drawn (rowId "3"), .proceed,
    .proceed, .proceed, .address (some "operator@core"), .drawn (rowId "4"), .proceed, .proceed] ++
  works 0 [.proceed]

/-- An event nobody is messaged about is relayed. -/
def relayedCredit : Schedule :=
  [.tick (.inr (.arrived .outbox creditedEvent)), .start relaying] ++
  works 0 [.proceed, .proceed, .drawn "claim", .proceed, .proceed, .drawn (rowId "1"), .proceed,
    .proceed]

/-- How many deliveries and notifications one event has for the configured pair. -/
def queuedCounts (store : EventStore) (eventId : String) : Nat × Nat :=
  (store.deliveries.countOf deliveryPair (eventId, "logistics"),
    store.notifications.countOf notificationPair (eventId, "operations"))

set_option maxRecDepth 20000 in
theorem run_fanOutAtomic_relayedTwice :
    ∃ world, play eventing unrestricted relayedTwice (World.initial (EventStore.empty 0)) =
        some world ∧
      queuedCounts world.store "dispatched" = (1, 1) ∧ FanOutAtomic world := by
  have hplays : (play eventing unrestricted relayedTwice
      (World.initial (EventStore.empty 0))).any
        (fun world => queuedCounts world.store "dispatched" = (1, 1)) = true := by
    decide +kernel
  obtain ⟨world, hworld, hcounts⟩ := (Option.any_eq_true _ _).mp hplays
  have hrun : Run eventing (fanOutErrands quietBus) anything (World.initial (EventStore.empty 0))
      world := by
    refine play_run hworld ?_ (fun _ _ _ _ => trivial)
    simp [relayedTwice, configuredFor, works, acts, relaying_allowed]
  exact ⟨world, hworld, of_decide_eq_true hcounts, run_fanOutAtomic hrun⟩

set_option maxRecDepth 20000 in
/-- A recipient of an event nobody is messaged about gets no notification, although
it was configured before the event and never changed. -/
theorem fanOut_unrendered :
    ¬∀ (bus : LocalEventBus) (start : Int) (configured moves : Schedule)
      (world : World EventStore Action Action.Answer Failure Unit),
      (∀ move ∈ configured, ∃ happening, move = .tick (.inr happening)) →
      (∀ row, Move.tick (.inr (.notified row)) ∉ moves) →
      (∀ call, Move.start call ∈ moves → fanOutErrands bus call) →
      play eventing unrestricted (configured ++ moves) (World.initial (EventStore.empty start)) =
        some world →
      ∀ id row, PublishedAs world.store id row →
        ∀ recipient ∈ recipientsFor world.store.recipients row.event.eventType
          (organizationScope row.event.payload),
          world.store.notifications.countOf notificationPair
            (row.event.eventId, recipient.recipientId) = 1 := by
  intro h
  have hplays : (play eventing unrestricted (configuredFor "core.money.credited" ++ relayedCredit)
      (World.initial (EventStore.empty 0))).any
        (fun world => queuedCounts world.store "credited" = (1, 0) ∧
          (world.store.outbox.get "credited").map
            (fun row => (row.status, row.event)) = some (.published, creditedEvent) ∧
          (recipientsFor world.store.recipients "core.money.credited" none).map
            (fun recipient => recipient.recipientId) = ["operations"]) = true := by
    decide +kernel
  obtain ⟨world, hworld, hstate⟩ := (Option.any_eq_true _ _).mp hplays
  obtain ⟨hcounts, hstored, hrecipients⟩ := of_decide_eq_true hstate
  obtain ⟨row, hrow, hfound⟩ := Option.map_eq_some_iff.mp hstored
  obtain ⟨hstatus, hevent⟩ := Prod.mk.inj hfound
  obtain ⟨recipient, hrecipient, hid⟩ : ∃ recipient ∈ recipientsFor world.store.recipients
      "core.money.credited" none, recipient.recipientId = "operations" := by
    have hmem : "operations" ∈ (recipientsFor world.store.recipients "core.money.credited"
        none).map (fun recipient => recipient.recipientId) := by
      rw [hrecipients]
      exact List.mem_singleton.mpr rfl
    exact List.mem_map.mp hmem
  have hone := h quietBus 0 (configuredFor "core.money.credited") relayedCredit world
    (by simp [configuredFor]) (by simp [relayedCredit, works, acts])
    (by simp [relayedCredit, works, acts, relaying_allowed]) hworld "credited" row ⟨hrow, hstatus⟩
    recipient (by rw [hevent]; exact hrecipient)
  have hnone : world.store.notifications.countOf notificationPair ("credited", "operations") = 0 :=
    (Prod.mk.inj hcounts).2
  rw [hevent, hid] at hone
  exact absurd (hnone.symm.trans hone) (by decide)

end WaslaCore.Eventing
