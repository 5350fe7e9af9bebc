import WaslaCore.Eventing.Deliveries

/-!
The three queues under any number of workers. A worker is whoever presents a claim
token, at any later time and in any order, so a run is a list of operations of the
stores: arrivals, claims, recoveries, acknowledgements and revivals. Each of them is
one move of a lease book, and what the book guarantees is read back on the rows.
-/

namespace WaslaCore.Eventing

open Platform Data

/-- The three queues. -/
structure QueueStores where
  inbound : EventQueue
  outbox : EventQueue
  deliveries : DeliveryQueue

/-- A row of one of them. -/
inductive RowKey where
  | event (name : QueueName) (eventId : String)
  | delivery (deliveryId : String)
  deriving DecidableEq, Repr

namespace QueueStores

def empty : QueueStores := ⟨.empty, .empty, .empty⟩

def events (stores : QueueStores) : QueueName → EventQueue
  | .inbound => stores.inbound
  | .outbox => stores.outbox

def withEvents (stores : QueueStores) (name : QueueName) (queue : EventQueue) : QueueStores :=
  match name with
  | .inbound => { stores with inbound := queue }
  | .outbox => { stores with outbox := queue }

end QueueStores

/-- How a worker on an event queue ends its claim. -/
inductive Settlement where
  | done
  | retry (error : String) (nextAttemptAt : Int)
  | dead (error : String)
  deriving DecidableEq, Repr

/-- `markProcessed` on the inbound store, `markPublished` on the outbox. -/
def finishedStatus : QueueName → QueueStatus
  | .inbound => .processed
  | .outbox => .published

def Settlement.acknowledgement (name : QueueName) : Settlement → Acknowledgement
  | .done => .finished (finishedStatus name)
  | .retry error nextAttemptAt => .failed error nextAttemptAt
  | .dead error => .dead error

/-- The inbound store reads its limit before it takes a row, the outbox after. -/
def claimLimit (name : QueueName) (limit : Nat) : Nat :=
  match name with
  | .inbound => limit
  | .outbox => max limit 1

/-- One operation of the stores. Only the outbox and the delivery queue are revived. -/
inductive Operation where
  | arrive (name : QueueName) (event : EventEnvelope) (now : Int)
  | queue (deliveryId eventId subscriptionId : String) (now : Int)
  | claimEvents (name : QueueName) (now : Int) (limit : Nat) (token : String)
  | claimDeliveries (now : Int) (limit : Nat) (token : String)
  | reclaimEvents (name : QueueName) (now : Int) (maxReclaims limit : Nat)
  | reclaimDeliveries (now : Int) (maxReclaims limit : Nat)
  | acknowledgeEvent (name : QueueName) (eventId token : String) (how : Settlement)
  | acknowledgeDelivery (deliveryId token : String) (how : DeliveryAcknowledgement)
  | reviveEvent (eventId : String) (now : Int)
  | reviveDelivery (deliveryId : String) (now : Int)
  deriving DecidableEq, Repr

/-- The stores in the course of a run, with the tokens drawn so far and the
acknowledgements that answered true. -/
structure QueueRun where
  stores : QueueStores
  drawn : List String
  applied : List (RowKey × String)

def QueueRun.start : QueueRun := ⟨.empty, [], []⟩

/-- The acknowledgement's own answer decides whether it is recorded as applied. -/
def recordApplied (applied : List (RowKey × String)) (key : RowKey) (token : String) (answer : Bool) :
    List (RowKey × String) :=
  if answer then (key, token) :: applied else applied

/-- A claim draws a token that was never drawn before. -/
def Operation.apply (state : QueueRun) : Operation → Option QueueRun
  | .arrive name event now =>
      some { state with
        stores := state.stores.withEvents name ((state.stores.events name).append event now) }
  | .queue deliveryId eventId subscriptionId now =>
      match queueDelivery state.stores.deliveries (.queued deliveryId eventId subscriptionId now) with
      | .ok (_, deliveries) =>
          some { state with stores := { state.stores with deliveries := deliveries } }
      | .error _ => some state
  | .claimEvents name now limit token =>
      if token ∈ state.drawn then none
      else some { state with
        stores := state.stores.withEvents name
          ((state.stores.events name).claimFirst now (claimLimit name limit) token).2
        drawn := token :: state.drawn }
  | .claimDeliveries now limit token =>
      if token ∈ state.drawn then none
      else some { state with
        stores := { state.stores with
          deliveries := (DeliveryQueue.claimDue state.stores.deliveries now limit token).2 }
        drawn := token :: state.drawn }
  | .reclaimEvents name now maxReclaims limit =>
      some { state with
        stores := state.stores.withEvents name
          ((state.stores.events name).reclaimExpired now maxReclaims limit).2 }
  | .reclaimDeliveries now maxReclaims limit =>
      some { state with
        stores := { state.stores with
          deliveries :=
            (DeliveryQueue.reclaimExpired state.stores.deliveries now maxReclaims limit).2 } }
  | .acknowledgeEvent name eventId token how =>
      let answer := (state.stores.events name).acknowledge eventId (some token)
        (how.acknowledgement name)
      some { state with
        stores := state.stores.withEvents name answer.2
        applied := recordApplied state.applied (.event name eventId) token answer.1 }
  | .acknowledgeDelivery deliveryId token how =>
      let answer := DeliveryQueue.acknowledge state.stores.deliveries deliveryId (some token) how
      some { state with
        stores := { state.stores with deliveries := answer.2 }
        applied := recordApplied state.applied (.delivery deliveryId) token answer.1 }
  | .reviveEvent eventId now =>
      some { state with
        stores := { state.stores with outbox := state.stores.outbox.revive eventId now } }
  | .reviveDelivery deliveryId now =>
      some { state with
        stores := { state.stores with
          deliveries := DeliveryQueue.revive state.stores.deliveries deliveryId now } }

/-- A run of operations, in any order. -/
def runAll : List Operation → QueueRun → Option QueueRun
  | [], state => some state
  | operation :: rest, state =>
      match operation.apply state with
      | some state' => runAll rest state'
      | none => none

/-! ### What a row shows of its lease -/

def QueueStatus.phase : QueueStatus → Phase
  | .pending => .pending
  | .processed => .finished
  | .published => .finished
  | .dead => .dead

def DeliveryStatus.phase : DeliveryStatus → Phase
  | .pending => .pending
  | .delivered => .finished
  | .dead => .dead

def QueueRow.lease (row : QueueRow) : Lease :=
  ⟨row.status.phase, row.claimedAt, row.claimToken, row.nextAttemptAt, row.reclaims⟩

def EventDelivery.lease (row : EventDelivery) : Lease :=
  ⟨row.status.phase, row.claimedAt, row.claimToken, row.nextAttemptAt, row.reclaims⟩

namespace QueueStores

def lease (stores : QueueStores) : RowKey → Option Lease
  | .event name eventId => ((stores.events name).get eventId).map QueueRow.lease
  | .delivery deliveryId => (stores.deliveries.get deliveryId).map EventDelivery.lease

/-- Every row stands under its own identifier, in every queue. -/
structure Keyed (stores : QueueStores) : Prop where
  events : ∀ name, (stores.events name).Keyed
  deliveries : DeliveryQueue.Keyed stores.deliveries

theorem keyed_empty : empty.Keyed := by
  refine ⟨fun name => ?_, ?_⟩
  · cases name <;> exact EventQueue.keyed_empty
  · intro key row hrow
    cases hrow

@[simp] theorem events_withEvents (stores : QueueStores) (name other : QueueName)
    (queue : EventQueue) :
    (stores.withEvents name queue).events other =
      if other = name then queue else stores.events other := by
  cases name <;> cases other <;> rfl

@[simp] theorem deliveries_withEvents (stores : QueueStores) (name : QueueName)
    (queue : EventQueue) : (stores.withEvents name queue).deliveries = stores.deliveries := by
  cases name <;> rfl

theorem Keyed.withEvents {stores : QueueStores} (h : stores.Keyed) {name : QueueName}
    {queue : EventQueue} (hqueue : queue.Keyed) : (stores.withEvents name queue).Keyed := by
  refine ⟨fun other => ?_, by simpa using h.deliveries⟩
  rw [events_withEvents]
  by_cases hother : other = name
  · rw [if_pos hother]
    exact hqueue
  · rw [if_neg hother]
    exact h.events other

/-- Where one queue's rows turn, every row of the stores does. -/
theorem turn_withEvents {stores : QueueStores} {name : QueueName} {queue : EventQueue}
    {motion : Lease.Motion}
    (h : ∀ id, Lease.Turn motion (((stores.events name).get id).map QueueRow.lease)
      ((queue.get id).map QueueRow.lease)) (key : RowKey) :
    Lease.Turn motion (stores.lease key) ((stores.withEvents name queue).lease key) := by
  cases key with
  | delivery deliveryId =>
      simp only [lease, deliveries_withEvents]
      exact .same motion _
  | event other eventId =>
      simp only [lease, events_withEvents]
      by_cases hother : other = name
      · subst hother
        rw [if_pos rfl]
        exact h eventId
      · rw [if_neg hother]
        exact .same motion _

theorem turn_withDeliveries {stores : QueueStores} {deliveries : DeliveryQueue}
    {motion : Lease.Motion}
    (h : ∀ id, Lease.Turn motion ((stores.deliveries.get id).map EventDelivery.lease)
      ((deliveries.get id).map EventDelivery.lease)) (key : RowKey) :
    Lease.Turn motion (stores.lease key) (lease { stores with deliveries := deliveries } key) := by
  cases key with
  | delivery deliveryId => exact h deliveryId
  | event name eventId => cases name <;> exact .same motion _

end QueueStores

/-! ### What an operation does to a row -/

section Rows

/-- A due row that is well formed is free to be claimed. -/
theorem QueueRow.free_of_isDue {row : QueueRow} {now : Int} (h : row.isDue now = true)
    (hwell : row.lease.WellFormed) : row.lease.phase = .pending ∧ row.lease.token = none := by
  simp only [QueueRow.isDue, Bool.and_eq_true, decide_eq_true_eq] at h
  have htogether := hwell.together
  simp only [QueueRow.lease] at htogether ⊢
  rw [Option.isNone_iff_eq_none.mp h.1.2] at htogether
  refine ⟨by rw [h.1.1]; rfl, ?_⟩
  simpa using htogether

theorem EventDelivery.free_of_isDue {row : EventDelivery} {now : Int} (h : row.isDue now = true)
    (hwell : row.lease.WellFormed) : row.lease.phase = .pending ∧ row.lease.token = none := by
  simp only [EventDelivery.isDue, Bool.and_eq_true, decide_eq_true_eq] at h
  have htogether := hwell.together
  simp only [EventDelivery.lease] at htogether ⊢
  rw [Option.isNone_iff_eq_none.mp h.1.2] at htogether
  refine ⟨by rw [h.1.1]; rfl, ?_⟩
  simpa using htogether

/-- A recovery of a row is a recovery of its lease. -/
theorem QueueRow.lease_reclaimed (row : QueueRow) (now : Int) (maxReclaims : Nat) :
    (row.reclaimed now maxReclaims).lease = row.lease.recovered now maxReclaims := by
  simp only [QueueRow.lease, QueueRow.reclaimed, Lease.recovered, reclaimExhausted]
  by_cases hspent : maxReclaims < row.reclaims + 1 <;> simp [hspent, QueueStatus.phase]

theorem EventDelivery.lease_reclaimed (row : EventDelivery) (now : Int) (maxReclaims : Nat) :
    (row.reclaimed now maxReclaims).lease = row.lease.recovered now maxReclaims := by
  simp only [EventDelivery.lease, EventDelivery.reclaimed, Lease.recovered, reclaimExhausted]
  by_cases hspent : maxReclaims < row.reclaims + 1 <;> simp [hspent, DeliveryStatus.phase]

theorem QueueRow.turn_reclaimed {row : QueueRow} {now : Int} (maxReclaims : Nat)
    (h : row.isAbandoned now = true) (hwell : row.lease.WellFormed) :
    Lease.Turn (.recovery now maxReclaims) (some row.lease)
      (some (row.reclaimed now maxReclaims).lease) := by
  simp only [QueueRow.isAbandoned, Bool.and_eq_true, decide_eq_true_eq] at h
  rw [QueueRow.lease_reclaimed]
  refine .recovered row.lease now maxReclaims ?_ ?_ h.2
  · simp only [QueueRow.lease, h.1.1]
    rfl
  · rw [← hwell.together]
    exact h.1.2

theorem EventDelivery.turn_reclaimed {row : EventDelivery} {now : Int} (maxReclaims : Nat)
    (h : row.isAbandoned now = true) (hwell : row.lease.WellFormed) :
    Lease.Turn (.recovery now maxReclaims) (some row.lease)
      (some (row.reclaimed now maxReclaims).lease) := by
  simp only [EventDelivery.isAbandoned, Bool.and_eq_true, decide_eq_true_eq] at h
  rw [EventDelivery.lease_reclaimed]
  refine .recovered row.lease now maxReclaims ?_ ?_ h.2
  · simp only [EventDelivery.lease, h.1.1]
    rfl
  · rw [← hwell.together]
    exact h.1.2

/-- The phase and the schedule an acknowledgement leaves. -/
theorem QueueRow.lease_acknowledged (row : QueueRow) (how : Acknowledgement) :
    ∃ phase expiresAt, (row.acknowledged how).lease = row.lease.ended phase expiresAt := by
  cases how <;> exact ⟨_, _, rfl⟩

theorem EventDelivery.lease_acknowledged (row : EventDelivery) (how : DeliveryAcknowledgement) :
    ∃ phase expiresAt, (row.acknowledged how).lease = row.lease.ended phase expiresAt := by
  cases how <;> exact ⟨_, _, rfl⟩

theorem held_of_not_isFenced {rowToken : Option String} {token : String}
    (h : isFenced rowToken (some token) = false) : rowToken = some token := by
  simpa [isFenced] using h

end Rows

namespace EventQueue

/-- Every lease of the queue is well formed. -/
def Leased (queue : EventQueue) : Prop :=
  ∀ id row, queue.get id = some row → row.lease.WellFormed

theorem append_turn (queue : EventQueue) (event : EventEnvelope) (now : Int) (id : String) :
    Lease.Turn .arrival ((queue.get id).map QueueRow.lease)
      (((queue.append event now).get id).map QueueRow.lease) := by
  unfold append
  split
  · exact .same _ _
  · rename_i hnone
    rw [Table.get_put]
    by_cases hid : event.eventId = id
    · rw [if_pos hid, ← hid, hnone]
      exact .arrived now
    · rw [if_neg hid]
      exact .same _ _

theorem claimFirst_turn {queue : EventQueue} (hkeyed : queue.Keyed) (hleased : queue.Leased)
    (now : Int) (limit : Nat) (token id : String) :
    Lease.Turn (.claim token) ((queue.get id).map QueueRow.lease)
      (((queue.claimFirst now limit token).2.get id).map QueueRow.lease) := by
  rcases get_putAll_chosen hkeyed (fun row => row.isDue now)
    (fun row => row.claimed now token) (fun _ => rfl) limit id with
    hsame | ⟨row, hrow, hdue, hget⟩
  · unfold claimFirst
    rw [hsame]
    exact .same _ _
  · unfold claimFirst
    rw [hget, hrow]
    obtain ⟨hpending, hfree⟩ := QueueRow.free_of_isDue hdue (hleased id row hrow)
    exact .claimed row.lease token now (now + leaseMs) hpending hfree

theorem reclaimExpired_turn {queue : EventQueue} (hkeyed : queue.Keyed) (hleased : queue.Leased)
    (now : Int) (maxReclaims limit : Nat) (id : String) :
    Lease.Turn (.recovery now maxReclaims) ((queue.get id).map QueueRow.lease)
      (((queue.reclaimExpired now maxReclaims limit).2.get id).map QueueRow.lease) := by
  rcases get_putAll_chosen hkeyed (fun row => row.isAbandoned now)
    (fun row => row.reclaimed now maxReclaims) (fun _ => rfl) limit id with
    hsame | ⟨row, hrow, habandoned, hget⟩
  · unfold reclaimExpired
    rw [hsame]
    exact .same _ _
  · unfold reclaimExpired
    rw [hget, hrow]
    exact QueueRow.turn_reclaimed maxReclaims habandoned (hleased id row hrow)

theorem revive_turn (queue : EventQueue) (eventId : String) (now : Int) (id : String) :
    Lease.Turn .revival ((queue.get id).map QueueRow.lease)
      (((queue.revive eventId now).get id).map QueueRow.lease) := by
  unfold revive
  split
  · exact .same _ _
  · rename_i row hrow
    split
    · rename_i hdead
      rw [Table.get_put]
      by_cases hid : eventId = id
      · rw [if_pos hid, ← hid, hrow]
        refine .revived row.lease now ?_
        simp only [QueueRow.lease, hdead]
        rfl
      · rw [if_neg hid]
        exact .same _ _
    · exact .same _ _

end EventQueue

namespace DeliveryQueue

def Leased (queue : DeliveryQueue) : Prop :=
  ∀ id row, queue.get id = some row → row.lease.WellFormed

theorem queueDelivery_turn {queue queue' : DeliveryQueue}
    {deliveryId eventId subscriptionId : String} {now : Int} {queued : Bool}
    (h : queueDelivery queue (.queued deliveryId eventId subscriptionId now) = .ok (queued, queue'))
    (id : String) :
    Lease.Turn .arrival ((queue.get id).map EventDelivery.lease)
      ((queue'.get id).map EventDelivery.lease) := by
  unfold queueDelivery at h
  split at h
  · obtain ⟨-, rfl⟩ := Prod.mk.inj (Except.ok.inj h)
    exact .same _ _
  split at h
  · cases h
  · rename_i hnew
    obtain ⟨-, rfl⟩ := Prod.mk.inj (Except.ok.inj h)
    rw [Table.get_put]
    by_cases hid : deliveryId = id
    · have hnone : queue.get id = none := by
        simpa [EventDelivery.queued, hid] using hnew
      rw [if_pos (show (EventDelivery.queued deliveryId eventId subscriptionId now).deliveryId = id
        from hid), hnone]
      exact .arrived now
    · rw [if_neg (show ¬(EventDelivery.queued deliveryId eventId subscriptionId now).deliveryId = id
        from hid)]
      exact .same _ _

theorem claimDue_turn {queue : DeliveryQueue} (hkeyed : Keyed queue) (hleased : Leased queue)
    (now : Int) (limit : Nat) (token id : String) :
    Lease.Turn (.claim token) ((queue.get id).map EventDelivery.lease)
      (((claimDue queue now limit token).2.get id).map EventDelivery.lease) := by
  rcases claimDue_get hkeyed now limit token id with hsame | ⟨row, hrow, hdue, hget⟩
  · rw [hsame]
    exact .same _ _
  · rw [hget, hrow]
    obtain ⟨hpending, hfree⟩ := EventDelivery.free_of_isDue hdue (hleased id row hrow)
    exact .claimed row.lease token now (now + leaseMs) hpending hfree

theorem reclaimExpired_turn {queue : DeliveryQueue} (hkeyed : Keyed queue)
    (hleased : Leased queue) (now : Int) (maxReclaims limit : Nat) (id : String) :
    Lease.Turn (.recovery now maxReclaims) ((queue.get id).map EventDelivery.lease)
      (((reclaimExpired queue now maxReclaims limit).2.get id).map EventDelivery.lease) := by
  rcases reclaimExpired_get hkeyed now maxReclaims limit id with
    hsame | ⟨row, hrow, habandoned, hget⟩
  · rw [hsame]
    exact .same _ _
  · rw [hget, hrow]
    exact EventDelivery.turn_reclaimed maxReclaims habandoned (hleased id row hrow)

theorem revive_turn (queue : DeliveryQueue) (deliveryId : String) (now : Int) (id : String) :
    Lease.Turn .revival ((queue.get id).map EventDelivery.lease)
      (((revive queue deliveryId now).get id).map EventDelivery.lease) := by
  unfold revive
  split
  · exact .same _ _
  · rename_i row hrow
    split
    · rename_i hdead
      rw [Table.get_put]
      by_cases hid : deliveryId = id
      · rw [if_pos hid, ← hid, hrow]
        refine .revived row.lease now ?_
        simp only [EventDelivery.lease, hdead]
        rfl
      · rw [if_neg hid]
        exact .same _ _
    · exact .same _ _

end DeliveryQueue

/-! ### An operation is a move of the book -/

/-- The book of a run: what every row shows of its lease, and the record kept. -/
def QueueRun.book (state : QueueRun) : LeaseBook RowKey :=
  ⟨state.stores.lease, state.drawn, state.applied⟩

theorem QueueRun.leased_events {state : QueueRun} (h : state.book.Sound) (name : QueueName) :
    (state.stores.events name).Leased := by
  intro id row hrow
  apply h.wellFormed (.event name id) row.lease
  simp [QueueRun.book, QueueStores.lease, hrow]

theorem QueueRun.leased_deliveries {state : QueueRun} (h : state.book.Sound) :
    DeliveryQueue.Leased state.stores.deliveries := by
  intro id row hrow
  apply h.wellFormed (.delivery id) row.lease
  simp [QueueRun.book, QueueStores.lease, hrow]

theorem EventQueue.Keyed.acknowledge {queue : EventQueue} (h : queue.Keyed) (eventId : String)
    (fence : Fence) (how : Acknowledgement) : (queue.acknowledge eventId fence how).2.Keyed := by
  rcases queue.acknowledge_cases eventId fence how with hrefused | ⟨row, hrow, -, happlied⟩
  · rw [hrefused]
    exact h
  · rw [happlied]
    intro id found hfound
    rw [Table.get_put] at hfound
    split at hfound
    · rename_i hid
      rw [← Option.some.inj hfound, QueueRow.acknowledged_event, ← hid]
      exact h eventId row hrow
    · exact h id found hfound

theorem DeliveryQueue.Keyed.acknowledge {queue : DeliveryQueue} (h : DeliveryQueue.Keyed queue)
    (deliveryId : String) (fence : Fence) (how : DeliveryAcknowledgement) :
    DeliveryQueue.Keyed (DeliveryQueue.acknowledge queue deliveryId fence how).2 := by
  rcases DeliveryQueue.acknowledge_cases queue deliveryId fence how with
    hrefused | ⟨row, hrow, -, happlied⟩
  · rw [hrefused]
    exact h
  · rw [happlied]
    intro id found hfound
    rw [Table.get_put] at hfound
    split at hfound
    · rename_i hid
      rw [← Option.some.inj hfound, EventDelivery.acknowledged_deliveryId, ← hid]
      exact h deliveryId row hrow
    · exact h id found hfound

theorem DeliveryQueue.Keyed.queueDelivery {queue queue' : DeliveryQueue}
    (h : DeliveryQueue.Keyed queue) {row : EventDelivery} {queued : Bool}
    (hqueued : queueDelivery queue row = .ok (queued, queue')) : DeliveryQueue.Keyed queue' := by
  unfold Eventing.queueDelivery at hqueued
  split at hqueued
  · obtain ⟨-, rfl⟩ := Prod.mk.inj (Except.ok.inj hqueued)
    exact h
  split at hqueued
  · cases hqueued
  · obtain ⟨-, rfl⟩ := Prod.mk.inj (Except.ok.inj hqueued)
    exact h.put row

theorem DeliveryQueue.Keyed.revive {queue : DeliveryQueue} (h : DeliveryQueue.Keyed queue)
    (deliveryId : String) (now : Int) :
    DeliveryQueue.Keyed (DeliveryQueue.revive queue deliveryId now) := by
  unfold DeliveryQueue.revive
  split
  · exact h
  · rename_i row hrow
    split
    · have hid : deliveryId = (row.revived now).deliveryId := (h deliveryId row hrow).symm
      rw [hid]
      exact h.put (row.revived now)
    · exact h

/-- Every operation keeps rows under their identifiers. -/
theorem Operation.keyed {operation : Operation} {state state' : QueueRun}
    (hkeyed : state.stores.Keyed) (h : operation.apply state = some state') :
    state'.stores.Keyed := by
  cases operation with
  | arrive name event now =>
      obtain rfl := Option.some.inj h
      exact hkeyed.withEvents ((hkeyed.events name).rotated
        (EventQueue.append_rotated _ event now))
  | queue deliveryId eventId subscriptionId now =>
      simp only [Operation.apply] at h
      split at h
      · rename_i queued deliveries hqueued
        obtain rfl := Option.some.inj h
        exact ⟨hkeyed.events, hkeyed.deliveries.queueDelivery hqueued⟩
      · obtain rfl := Option.some.inj h
        exact hkeyed
  | claimEvents name now limit token =>
      simp only [Operation.apply] at h
      split at h
      · cases h
      · obtain rfl := Option.some.inj h
        exact hkeyed.withEvents ((hkeyed.events name).rotated
          (EventQueue.claimFirst_rotated (hkeyed.events name) now _ token))
  | claimDeliveries now limit token =>
      simp only [Operation.apply] at h
      split at h
      · cases h
      · obtain rfl := Option.some.inj h
        exact ⟨hkeyed.events, hkeyed.deliveries.putRows _⟩
  | reclaimEvents name now maxReclaims limit =>
      obtain rfl := Option.some.inj h
      exact hkeyed.withEvents ((hkeyed.events name).rotated
        (EventQueue.reclaimExpired_rotated (hkeyed.events name) now maxReclaims limit))
  | reclaimDeliveries now maxReclaims limit =>
      obtain rfl := Option.some.inj h
      exact ⟨hkeyed.events, hkeyed.deliveries.putRows _⟩
  | acknowledgeEvent name eventId token how =>
      obtain rfl := Option.some.inj h
      exact hkeyed.withEvents ((hkeyed.events name).acknowledge eventId (some token) _)
  | acknowledgeDelivery deliveryId token how =>
      obtain rfl := Option.some.inj h
      exact ⟨hkeyed.events, hkeyed.deliveries.acknowledge deliveryId (some token) how⟩
  | reviveEvent eventId now =>
      obtain rfl := Option.some.inj h
      refine ⟨fun name => ?_, hkeyed.deliveries⟩
      cases name with
      | inbound => exact hkeyed.events .inbound
      | outbox =>
          exact (hkeyed.events .outbox).rotated (EventQueue.revive_rotated _ eventId now)
  | reviveDelivery deliveryId now =>
      obtain rfl := Option.some.inj h
      exact ⟨hkeyed.events, hkeyed.deliveries.revive deliveryId now⟩

/-- An acknowledgement is refused, or it ends the claim its token holds. -/
theorem QueueRun.acknowledgeEvent_move (state : QueueRun) (name : QueueName)
    (eventId token : String) (how : Acknowledgement) :
    let answer := (state.stores.events name).acknowledge eventId (some token) how
    LeaseBook.Move state.book (QueueRun.book { state with
      stores := state.stores.withEvents name answer.2
      applied := recordApplied state.applied (.event name eventId) token answer.1 }) := by
  intro answer
  rcases (state.stores.events name).acknowledge_cases eventId (some token) how with
    hrefused | ⟨row, hrow, hheld, happlied⟩
  · have hsame : state.stores.withEvents name answer.2 = state.stores := by
      simp only [answer, hrefused]
      cases name <;> rfl
    simp only [hsame]
    simp only [answer, hrefused, recordApplied, Bool.false_eq_true, if_false]
    exact .refuse _
  · obtain ⟨phase, expiresAt, hlease⟩ := row.lease_acknowledged how
    simp only [answer, happlied, recordApplied, if_true]
    refine .acknowledge _ (RowKey.event name eventId) token row.lease phase expiresAt ?_
      (held_of_not_isFenced hheld) ?_ ?_
    · simp [QueueRun.book, QueueStores.lease, hrow]
    · simp [QueueStores.lease, hlease]
    · intro other hother
      cases other with
      | delivery deliveryId => simp [QueueRun.book, QueueStores.lease]
      | event otherName otherId =>
          simp only [QueueRun.book, QueueStores.lease, QueueStores.events_withEvents]
          by_cases hname : otherName = name
          · subst hname
            have hid : eventId ≠ otherId := fun heq => hother (by rw [heq])
            rw [if_pos rfl, Table.get_put_ne _ _ hid]
          · rw [if_neg hname]

theorem QueueRun.acknowledgeDelivery_move (state : QueueRun) (deliveryId token : String)
    (how : DeliveryAcknowledgement) :
    let answer := DeliveryQueue.acknowledge state.stores.deliveries deliveryId (some token) how
    LeaseBook.Move state.book (QueueRun.book { state with
      stores := { state.stores with deliveries := answer.2 }
      applied := recordApplied state.applied (.delivery deliveryId) token answer.1 }) := by
  intro answer
  rcases DeliveryQueue.acknowledge_cases state.stores.deliveries deliveryId (some token) how with
    hrefused | ⟨row, hrow, hheld, happlied⟩
  · simp only [answer, hrefused, recordApplied, Bool.false_eq_true, if_false]
    exact .refuse _
  · obtain ⟨phase, expiresAt, hlease⟩ := row.lease_acknowledged how
    simp only [answer, happlied, recordApplied, if_true]
    refine .acknowledge _ (RowKey.delivery deliveryId) token row.lease phase expiresAt ?_
      (held_of_not_isFenced hheld) ?_ ?_
    · simp [QueueRun.book, QueueStores.lease, hrow]
    · simp [QueueStores.lease, hlease]
    · intro other hother
      cases other with
      | event name eventId => cases name <;> rfl
      | delivery otherId =>
          have hid : deliveryId ≠ otherId := fun heq => hother (by rw [heq])
          simp only [QueueRun.book, QueueStores.lease]
          rw [Table.get_put_ne _ _ hid]

/-- How an operation moves rows on; an acknowledgement is none of it. -/
def Operation.motion : Operation → Option Lease.Motion
  | .arrive _ _ _ => some .arrival
  | .queue _ _ _ _ => some .arrival
  | .claimEvents _ _ _ token => some (.claim token)
  | .claimDeliveries _ _ token => some (.claim token)
  | .reclaimEvents _ now maxReclaims _ => some (.recovery now maxReclaims)
  | .reclaimDeliveries now maxReclaims _ => some (.recovery now maxReclaims)
  | .acknowledgeEvent _ _ _ _ => none
  | .acknowledgeDelivery _ _ _ => none
  | .reviveEvent _ _ => some .revival
  | .reviveDelivery _ _ => some .revival

/-- Every row turns as the operation's motion says. -/
theorem Operation.turns {operation : Operation} {state state' : QueueRun} {motion : Lease.Motion}
    (hkeyed : state.stores.Keyed) (hsound : state.book.Sound)
    (h : operation.apply state = some state') (hmotion : operation.motion = some motion)
    (key : RowKey) : Lease.Turn motion (state.stores.lease key) (state'.stores.lease key) := by
  cases operation with
  | arrive name event now =>
      obtain rfl := Option.some.inj h
      obtain rfl := Option.some.inj hmotion
      exact QueueStores.turn_withEvents (EventQueue.append_turn _ event now) key
  | queue deliveryId eventId subscriptionId now =>
      obtain rfl := Option.some.inj hmotion
      simp only [Operation.apply] at h
      split at h
      · rename_i queued deliveries hqueued
        obtain rfl := Option.some.inj h
        exact QueueStores.turn_withDeliveries (DeliveryQueue.queueDelivery_turn hqueued) key
      · obtain rfl := Option.some.inj h
        exact .same _ _
  | claimEvents name now limit token =>
      obtain rfl := Option.some.inj hmotion
      simp only [Operation.apply] at h
      split at h
      · cases h
      · obtain rfl := Option.some.inj h
        exact QueueStores.turn_withEvents (EventQueue.claimFirst_turn (hkeyed.events name)
          (state.leased_events hsound name) now (claimLimit name limit) token) key
  | claimDeliveries now limit token =>
      obtain rfl := Option.some.inj hmotion
      simp only [Operation.apply] at h
      split at h
      · cases h
      · obtain rfl := Option.some.inj h
        exact QueueStores.turn_withDeliveries (DeliveryQueue.claimDue_turn hkeyed.deliveries
          (state.leased_deliveries hsound) now limit token) key
  | reclaimEvents name now maxReclaims limit =>
      obtain rfl := Option.some.inj h
      obtain rfl := Option.some.inj hmotion
      exact QueueStores.turn_withEvents (EventQueue.reclaimExpired_turn (hkeyed.events name)
        (state.leased_events hsound name) now maxReclaims limit) key
  | reclaimDeliveries now maxReclaims limit =>
      obtain rfl := Option.some.inj h
      obtain rfl := Option.some.inj hmotion
      exact QueueStores.turn_withDeliveries (DeliveryQueue.reclaimExpired_turn hkeyed.deliveries
        (state.leased_deliveries hsound) now maxReclaims limit) key
  | acknowledgeEvent name eventId token how => cases hmotion
  | acknowledgeDelivery deliveryId token how => cases hmotion
  | reviveEvent eventId now =>
      obtain rfl := Option.some.inj h
      obtain rfl := Option.some.inj hmotion
      have hturn : ∀ key, Lease.Turn .revival (state.stores.lease key)
          ((state.stores.withEvents .outbox (state.stores.outbox.revive eventId now)).lease key) :=
        QueueStores.turn_withEvents (EventQueue.revive_turn _ eventId now)
      exact hturn key
  | reviveDelivery deliveryId now =>
      obtain rfl := Option.some.inj h
      obtain rfl := Option.some.inj hmotion
      exact QueueStores.turn_withDeliveries (DeliveryQueue.revive_turn _ deliveryId now) key

/-- Only a claim draws a token. -/
theorem Operation.apply_drawn {operation : Operation} {state state' : QueueRun}
    (h : operation.apply state = some state')
    (hmotion : ∀ token, operation.motion ≠ some (.claim token)) : state'.drawn = state.drawn := by
  cases operation with
  | claimEvents name now limit token => exact absurd rfl (hmotion token)
  | claimDeliveries now limit token => exact absurd rfl (hmotion token)
  | queue deliveryId eventId subscriptionId now =>
      simp only [Operation.apply] at h
      split at h <;> (obtain rfl := Option.some.inj h; rfl)
  | _ =>
      obtain rfl := Option.some.inj h
      rfl

/-- Every operation is one move of the book. -/
theorem Operation.move {operation : Operation} {state state' : QueueRun}
    (hkeyed : state.stores.Keyed) (hsound : state.book.Sound)
    (h : operation.apply state = some state') : LeaseBook.Move state.book state'.book := by
  have hturns : ∀ motion, operation.motion = some motion → ∀ key,
      Lease.Turn motion (state.stores.lease key) (state'.stores.lease key) :=
    fun _ hmotion => operation.turns hkeyed hsound h hmotion
  cases operation with
  | arrive name event now =>
      obtain rfl := Option.some.inj h
      exact .turn _ .arrival (by simp) (hturns _ rfl)
  | queue deliveryId eventId subscriptionId now =>
      simp only [Operation.apply] at h
      split at h
      · obtain rfl := Option.some.inj h
        exact .turn _ .arrival (by simp) (hturns _ rfl)
      · obtain rfl := Option.some.inj h
        exact .refuse _
  | claimEvents name now limit token =>
      simp only [Operation.apply] at h
      split at h
      · cases h
      · rename_i hfresh
        obtain rfl := Option.some.inj h
        exact .claim _ token hfresh (hturns _ rfl)
  | claimDeliveries now limit token =>
      simp only [Operation.apply] at h
      split at h
      · cases h
      · rename_i hfresh
        obtain rfl := Option.some.inj h
        exact .claim _ token hfresh (hturns _ rfl)
  | reclaimEvents name now maxReclaims limit =>
      obtain rfl := Option.some.inj h
      exact .turn _ (.recovery now maxReclaims) (by simp) (hturns _ rfl)
  | reclaimDeliveries now maxReclaims limit =>
      obtain rfl := Option.some.inj h
      exact .turn _ (.recovery now maxReclaims) (by simp) (hturns _ rfl)
  | acknowledgeEvent name eventId token how =>
      obtain rfl := Option.some.inj h
      exact state.acknowledgeEvent_move name eventId token _
  | acknowledgeDelivery deliveryId token how =>
      obtain rfl := Option.some.inj h
      exact state.acknowledgeDelivery_move deliveryId token how
  | reviveEvent eventId now =>
      obtain rfl := Option.some.inj h
      exact .turn _ .revival (by simp) (hturns _ rfl)
  | reviveDelivery deliveryId now =>
      obtain rfl := Option.some.inj h
      exact .turn _ .revival (by simp) (hturns _ rfl)

/-- Every run of operations leaves the book sound. -/
theorem runAll_sound {operations : List Operation} {state state' : QueueRun}
    (hkeyed : state.stores.Keyed) (hsound : state.book.Sound)
    (h : runAll operations state = some state') :
    state'.stores.Keyed ∧ state'.book.Sound := by
  induction operations generalizing state with
  | nil =>
      obtain rfl := Option.some.inj h
      exact ⟨hkeyed, hsound⟩
  | cons operation rest ih =>
      simp only [runAll] at h
      split at h
      · rename_i middle hmiddle
        exact ih (operation.keyed hkeyed hmiddle)
          ((operation.move hkeyed hsound hmiddle).sound hsound) h
      · cases h

theorem QueueRun.sound_start : QueueRun.start.book.Sound := by
  have hempty : QueueRun.start.book = LeaseBook.empty := by
    simp only [QueueRun.book, LeaseBook.empty, QueueRun.start, LeaseBook.mk.injEq, and_true]
    funext key
    cases key with
    | event name eventId => cases name <;> rfl
    | delivery deliveryId => rfl
  rw [hempty]
  exact LeaseBook.sound_empty

/-! ### What an operation leaves alone -/

namespace EventQueue

/-- A presented token changes the row that is held under it, and nothing else. -/
theorem acknowledge_iff (queue : EventQueue) (eventId token : String) (how : Acknowledgement) :
    ((queue.acknowledge eventId (some token) how).2.get eventId ≠ queue.get eventId ↔
      ∃ row, queue.get eventId = some row ∧ row.claimToken = some token) ∧
    ∀ other, other ≠ eventId →
      (queue.acknowledge eventId (some token) how).2.get other = queue.get other := by
  rcases queue.acknowledge_cases eventId (some token) how with
    hrefused | ⟨row, hrow, hheld, happlied⟩
  · rw [hrefused]
    refine ⟨⟨fun hchanged => absurd rfl hchanged, ?_⟩, fun _ _ => rfl⟩
    rintro ⟨row, hrow, htoken⟩
    unfold acknowledge at hrefused
    simp [hrow, htoken, isFenced] at hrefused
  · rw [happlied]
    refine ⟨⟨fun _ => ⟨row, hrow, held_of_not_isFenced hheld⟩, fun _ hsame => ?_⟩, ?_⟩
    · rw [Table.get_put_self, hrow] at hsame
      have htoken := congrArg QueueRow.claimToken (Option.some.inj hsame)
      rw [QueueRow.acknowledged_claimToken, held_of_not_isFenced hheld] at htoken
      cases htoken
    · intro other hother
      exact Table.get_put_ne _ _ (Ne.symm hother)

theorem acknowledge_free {queue : EventQueue} {eventId : String} {row : QueueRow}
    (hrow : queue.get eventId = some row) (hfree : row.claimToken = none) (token : String)
    (how : Acknowledgement) : queue.acknowledge eventId (some token) how = (false, queue) := by
  unfold acknowledge
  simp [hrow, hfree, isFenced]

theorem append_keeps {queue : EventQueue} {id : String} {row : QueueRow}
    (hrow : queue.get id = some row) (event : EventEnvelope) (now : Int) :
    (queue.append event now).get id = some row := by
  unfold append
  split
  · exact hrow
  · rename_i hnone
    have hid : event.eventId ≠ id := fun heq => by
      rw [heq, hrow] at hnone
      cases hnone
    rw [Table.get_put_ne _ _ hid]
    exact hrow

theorem claimFirst_keeps {queue : EventQueue} (hkeyed : queue.Keyed) {id : String} {row : QueueRow}
    (hrow : queue.get id = some row) (hstatus : row.status ≠ .pending) (now : Int) (limit : Nat)
    (token : String) : (queue.claimFirst now limit token).2.get id = some row := by
  rcases get_putAll_chosen hkeyed (fun row => row.isDue now)
    (fun row => row.claimed now token) (fun _ => rfl) limit id with
    hsame | ⟨found, hfound, hdue, -⟩
  · unfold claimFirst
    rw [hsame]
    exact hrow
  · rw [hrow] at hfound
    obtain rfl := Option.some.inj hfound
    simp [QueueRow.isDue, hstatus] at hdue

theorem reclaimExpired_keeps {queue : EventQueue} (hkeyed : queue.Keyed) {id : String}
    {row : QueueRow} (hrow : queue.get id = some row) (hstatus : row.status ≠ .pending) (now : Int)
    (maxReclaims limit : Nat) :
    (queue.reclaimExpired now maxReclaims limit).2.get id = some row := by
  rcases get_putAll_chosen hkeyed (fun row => row.isAbandoned now)
    (fun row => row.reclaimed now maxReclaims) (fun _ => rfl) limit id with
    hsame | ⟨found, hfound, habandoned, -⟩
  · unfold reclaimExpired
    rw [hsame]
    exact hrow
  · rw [hrow] at hfound
    obtain rfl := Option.some.inj hfound
    simp [QueueRow.isAbandoned, hstatus] at habandoned

theorem revive_keeps {queue : EventQueue} {eventId id : String} (hid : eventId ≠ id) (now : Int) :
    (queue.revive eventId now).get id = queue.get id := by
  unfold revive
  split
  · rfl
  · split
    · exact Table.get_put_ne _ _ hid
    · rfl

end EventQueue

namespace DeliveryQueue

theorem acknowledge_iff (queue : DeliveryQueue) (deliveryId token : String)
    (how : DeliveryAcknowledgement) :
    ((acknowledge queue deliveryId (some token) how).2.get deliveryId ≠ queue.get deliveryId ↔
      ∃ row, queue.get deliveryId = some row ∧ row.claimToken = some token) ∧
    ∀ other, other ≠ deliveryId →
      (acknowledge queue deliveryId (some token) how).2.get other = queue.get other := by
  rcases acknowledge_cases queue deliveryId (some token) how with
    hrefused | ⟨row, hrow, hheld, happlied⟩
  · rw [hrefused]
    refine ⟨⟨fun hchanged => absurd rfl hchanged, ?_⟩, fun _ _ => rfl⟩
    rintro ⟨row, hrow, htoken⟩
    unfold acknowledge at hrefused
    simp [hrow, htoken, isFenced] at hrefused
  · rw [happlied]
    refine ⟨⟨fun _ => ⟨row, hrow, held_of_not_isFenced hheld⟩, fun _ hsame => ?_⟩, ?_⟩
    · rw [Table.get_put_self, hrow] at hsame
      have htoken := congrArg EventDelivery.claimToken (Option.some.inj hsame)
      rw [held_of_not_isFenced hheld] at htoken
      cases how <;> cases htoken
    · intro other hother
      exact Table.get_put_ne _ _ (Ne.symm hother)

theorem acknowledge_free {queue : DeliveryQueue} {deliveryId : String} {row : EventDelivery}
    (hrow : queue.get deliveryId = some row) (hfree : row.claimToken = none) (token : String)
    (how : DeliveryAcknowledgement) :
    acknowledge queue deliveryId (some token) how = (false, queue) := by
  unfold acknowledge
  simp [hrow, hfree, isFenced]

theorem queueDelivery_keeps {queue queue' : DeliveryQueue} {id : String} {row : EventDelivery}
    (hrow : queue.get id = some row) {delivery : EventDelivery} {queued : Bool}
    (h : queueDelivery queue delivery = .ok (queued, queue')) : queue'.get id = some row := by
  unfold queueDelivery at h
  split at h
  · obtain ⟨-, rfl⟩ := Prod.mk.inj (Except.ok.inj h)
    exact hrow
  split at h
  · cases h
  · rename_i hnew
    obtain ⟨-, rfl⟩ := Prod.mk.inj (Except.ok.inj h)
    have hid : delivery.deliveryId ≠ id := fun heq => hnew (by rw [heq, hrow]; rfl)
    rw [Table.get_put_ne _ _ hid]
    exact hrow

theorem claimDue_keeps {queue : DeliveryQueue} (hkeyed : Keyed queue) {id : String}
    {row : EventDelivery} (hrow : queue.get id = some row) (hstatus : row.status ≠ .pending)
    (now : Int) (limit : Nat) (token : String) :
    (claimDue queue now limit token).2.get id = some row := by
  rcases claimDue_get hkeyed now limit token id with hsame | ⟨found, hfound, hdue, -⟩
  · rw [hsame]
    exact hrow
  · rw [hrow] at hfound
    obtain rfl := Option.some.inj hfound
    simp [EventDelivery.isDue, hstatus] at hdue

theorem reclaimExpired_keeps {queue : DeliveryQueue} (hkeyed : Keyed queue) {id : String}
    {row : EventDelivery} (hrow : queue.get id = some row) (hstatus : row.status ≠ .pending)
    (now : Int) (maxReclaims limit : Nat) :
    (reclaimExpired queue now maxReclaims limit).2.get id = some row := by
  rcases reclaimExpired_get hkeyed now maxReclaims limit id with hsame | ⟨found, hfound, habandoned, -⟩
  · rw [hsame]
    exact hrow
  · rw [hrow] at hfound
    obtain rfl := Option.some.inj hfound
    simp [EventDelivery.isAbandoned, hstatus] at habandoned

theorem revive_keeps {queue : DeliveryQueue} {deliveryId id : String} (hid : deliveryId ≠ id)
    (now : Int) : (revive queue deliveryId now).get id = queue.get id := by
  unfold revive
  split
  · rfl
  · split
    · exact Table.get_put_ne _ _ hid
    · rfl

end DeliveryQueue

/-- A dead event row is left alone by every operation but its own revival. -/
theorem Operation.keeps_dead_event {operation : Operation} {state state' : QueueRun}
    (hkeyed : state.stores.Keyed) {name : QueueName} {eventId : String} {row : QueueRow}
    (hrow : (state.stores.events name).get eventId = some row) (hdead : row.status = .dead)
    (hfree : row.claimToken = none) (h : operation.apply state = some state') :
    (state'.stores.events name).get eventId = some row ∨
      ∃ now, operation = .reviveEvent eventId now ∧ name = .outbox := by
  have hstatus : row.status ≠ .pending := by rw [hdead]; decide
  have hwithin : ∀ (other : QueueName) (queue : EventQueue),
      (other = name → queue.get eventId = some row) →
      ((state.stores.withEvents other queue).events name).get eventId = some row := by
    intro other queue hqueue
    rw [QueueStores.events_withEvents]
    by_cases hname : name = other
    · rw [if_pos hname]
      exact hqueue hname.symm
    · rw [if_neg hname]
      exact hrow
  cases operation with
  | arrive other event now =>
      obtain rfl := Option.some.inj h
      refine .inl (hwithin other _ ?_)
      rintro rfl
      exact EventQueue.append_keeps hrow event now
  | queue deliveryId eventId subscriptionId now =>
      simp only [Operation.apply] at h
      split at h
      · obtain rfl := Option.some.inj h
        cases name <;> exact .inl hrow
      · obtain rfl := Option.some.inj h
        exact .inl hrow
  | claimEvents other now limit token =>
      simp only [Operation.apply] at h
      split at h
      · cases h
      · obtain rfl := Option.some.inj h
        refine .inl (hwithin other _ ?_)
        rintro rfl
        exact EventQueue.claimFirst_keeps (hkeyed.events other) hrow hstatus now _ token
  | claimDeliveries now limit token =>
      simp only [Operation.apply] at h
      split at h
      · cases h
      · obtain rfl := Option.some.inj h
        cases name <;> exact .inl hrow
  | reclaimEvents other now maxReclaims limit =>
      obtain rfl := Option.some.inj h
      refine .inl (hwithin other _ ?_)
      rintro rfl
      exact EventQueue.reclaimExpired_keeps (hkeyed.events other) hrow hstatus now maxReclaims limit
  | reclaimDeliveries now maxReclaims limit =>
      obtain rfl := Option.some.inj h
      cases name <;> exact .inl hrow
  | acknowledgeEvent other otherId token how =>
      obtain rfl := Option.some.inj h
      refine .inl (hwithin other _ ?_)
      rintro rfl
      by_cases hid : eventId = otherId
      · subst hid
        rw [EventQueue.acknowledge_free hrow hfree]
        exact hrow
      · rw [(EventQueue.acknowledge_iff _ otherId token _).2 eventId hid]
        exact hrow
  | acknowledgeDelivery deliveryId token how =>
      obtain rfl := Option.some.inj h
      cases name <;> exact .inl hrow
  | reviveEvent otherId now =>
      obtain rfl := Option.some.inj h
      cases name with
      | inbound => exact .inl hrow
      | outbox =>
          by_cases hid : otherId = eventId
          · exact .inr ⟨now, by rw [hid], rfl⟩
          · refine .inl ?_
            change (state.stores.outbox.revive otherId now).get eventId = some row
            rw [EventQueue.revive_keeps hid]
            exact hrow
  | reviveDelivery deliveryId now =>
      obtain rfl := Option.some.inj h
      cases name <;> exact .inl hrow

/-- So is a dead delivery. -/
theorem Operation.keeps_dead_delivery {operation : Operation} {state state' : QueueRun}
    (hkeyed : state.stores.Keyed) {deliveryId : String} {row : EventDelivery}
    (hrow : state.stores.deliveries.get deliveryId = some row) (hdead : row.status = .dead)
    (hfree : row.claimToken = none) (h : operation.apply state = some state') :
    state'.stores.deliveries.get deliveryId = some row ∨
      ∃ now, operation = .reviveDelivery deliveryId now := by
  have hstatus : row.status ≠ .pending := by rw [hdead]; decide
  have hevents : ∀ (name : QueueName) (queue : EventQueue),
      (state.stores.withEvents name queue).deliveries.get deliveryId = some row := by
    intro name queue
    rw [QueueStores.deliveries_withEvents]
    exact hrow
  cases operation with
  | arrive name event now =>
      obtain rfl := Option.some.inj h
      exact .inl (hevents name _)
  | queue otherId eventId subscriptionId now =>
      simp only [Operation.apply] at h
      split at h
      · rename_i queued deliveries hqueued
        obtain rfl := Option.some.inj h
        exact .inl (DeliveryQueue.queueDelivery_keeps hrow hqueued)
      · obtain rfl := Option.some.inj h
        exact .inl hrow
  | claimEvents name now limit token =>
      simp only [Operation.apply] at h
      split at h
      · cases h
      · obtain rfl := Option.some.inj h
        exact .inl (hevents name _)
  | claimDeliveries now limit token =>
      simp only [Operation.apply] at h
      split at h
      · cases h
      · obtain rfl := Option.some.inj h
        exact .inl (DeliveryQueue.claimDue_keeps hkeyed.deliveries hrow hstatus now limit token)
  | reclaimEvents name now maxReclaims limit =>
      obtain rfl := Option.some.inj h
      exact .inl (hevents name _)
  | reclaimDeliveries now maxReclaims limit =>
      obtain rfl := Option.some.inj h
      exact .inl (DeliveryQueue.reclaimExpired_keeps hkeyed.deliveries hrow hstatus now maxReclaims
        limit)
  | acknowledgeEvent name eventId token how =>
      obtain rfl := Option.some.inj h
      exact .inl (hevents name _)
  | acknowledgeDelivery otherId token how =>
      obtain rfl := Option.some.inj h
      refine .inl ?_
      change (DeliveryQueue.acknowledge _ otherId (some token) how).2.get deliveryId = some row
      by_cases hid : deliveryId = otherId
      · subst hid
        rw [DeliveryQueue.acknowledge_free hrow hfree]
        exact hrow
      · rw [(DeliveryQueue.acknowledge_iff _ otherId token how).2 deliveryId hid]
        exact hrow
  | reviveEvent eventId now =>
      obtain rfl := Option.some.inj h
      exact .inl hrow
  | reviveDelivery otherId now =>
      obtain rfl := Option.some.inj h
      by_cases hid : otherId = deliveryId
      · exact .inr ⟨now, by rw [hid]⟩
      · refine .inl ?_
        change (DeliveryQueue.revive _ otherId now).get deliveryId = some row
        rw [DeliveryQueue.revive_keeps hid]
        exact hrow

/-! ### What every run guarantees -/

/-- What the queues promise at one point of a run. -/
structure QueueRun.Fenced (state : QueueRun) : Prop where
  /-- An acknowledgement changes a row exactly where its presenter holds the claim,
  and never another row. -/
  eventHolder : ∀ name eventId token (how : Settlement),
    let after := ((state.stores.events name).acknowledge eventId (some token)
      (how.acknowledgement name)).2
    (after.get eventId ≠ (state.stores.events name).get eventId ↔
      ∃ row, (state.stores.events name).get eventId = some row ∧ row.claimToken = some token) ∧
    ∀ other, other ≠ eventId → after.get other = (state.stores.events name).get other
  deliveryHolder : ∀ deliveryId token how,
    let after := (DeliveryQueue.acknowledge state.stores.deliveries deliveryId (some token) how).2
    (after.get deliveryId ≠ state.stores.deliveries.get deliveryId ↔
      ∃ row, state.stores.deliveries.get deliveryId = some row ∧ row.claimToken = some token) ∧
    ∀ other, other ≠ deliveryId → after.get other = state.stores.deliveries.get other
  /-- Each claim of a row has at most one applied acknowledgement. -/
  once : state.applied.Nodup
  /-- A claim's instant and its token come together, and only on pending rows. -/
  eventClaim : ∀ name eventId row, (state.stores.events name).get eventId = some row →
    (row.claimedAt.isSome = row.claimToken.isSome) ∧
      (row.claimedAt.isSome = true → row.status = .pending)
  deliveryClaim : ∀ deliveryId row, state.stores.deliveries.get deliveryId = some row →
    (row.claimedAt.isSome = row.claimToken.isSome) ∧
      (row.claimedAt.isSome = true → row.status = .pending)
  /-- A finished row is out of reach of every acknowledgement. -/
  eventFinished : ∀ name eventId row, (state.stores.events name).get eventId = some row →
    row.status = .processed ∨ row.status = .published → ∀ token (how : Settlement),
      (state.stores.events name).acknowledge eventId (some token) (how.acknowledgement name) =
        (false, state.stores.events name)
  deliveryFinished : ∀ deliveryId row, state.stores.deliveries.get deliveryId = some row →
    row.status = .delivered → ∀ token how,
      DeliveryQueue.acknowledge state.stores.deliveries deliveryId (some token) how =
        (false, state.stores.deliveries)
  /-- A dead row stays as it is under every operation but its revival. -/
  eventDead : ∀ name eventId row, (state.stores.events name).get eventId = some row →
    row.status = .dead → ∀ (operation : Operation) (state' : QueueRun),
      operation.apply state = some state' →
      (state'.stores.events name).get eventId = some row ∨
        ∃ now, operation = .reviveEvent eventId now ∧ name = .outbox
  deliveryDead : ∀ deliveryId row, state.stores.deliveries.get deliveryId = some row →
    row.status = .dead → ∀ (operation : Operation) (state' : QueueRun),
      operation.apply state = some state' →
      state'.stores.deliveries.get deliveryId = some row ∨
        ∃ now, operation = .reviveDelivery deliveryId now

/-- A row that is not pending carries no token. -/
theorem QueueRow.free_of_settled {row : QueueRow} (hwell : row.lease.WellFormed)
    (hstatus : row.status ≠ .pending) : row.claimToken = none := by
  by_contra hheld
  have hpending := hwell.pending (Option.isSome_iff_ne_none.mpr hheld)
  revert hpending hstatus
  simp only [QueueRow.lease]
  cases row.status <;> simp [QueueStatus.phase]

theorem EventDelivery.free_of_settled {row : EventDelivery} (hwell : row.lease.WellFormed)
    (hstatus : row.status ≠ .pending) : row.claimToken = none := by
  by_contra hheld
  have hpending := hwell.pending (Option.isSome_iff_ne_none.mpr hheld)
  revert hpending hstatus
  simp only [EventDelivery.lease]
  cases row.status <;> simp [DeliveryStatus.phase]

/-- Whatever the order of the operations, an acknowledgement counts only under the
row's current claim, counts once, and nothing but a revival brings a row back. -/
theorem runAll_fenced (operations : List Operation) (state : QueueRun)
    (h : runAll operations .start = some state) : state.Fenced := by
  obtain ⟨hkeyed, hsound⟩ := runAll_sound QueueStores.keyed_empty QueueRun.sound_start h
  refine
    { eventHolder := fun name eventId token how =>
        EventQueue.acknowledge_iff _ eventId token (how.acknowledgement name)
      deliveryHolder := fun deliveryId token how =>
        DeliveryQueue.acknowledge_iff _ deliveryId token how
      once := hsound.once
      eventClaim := ?_
      deliveryClaim := ?_
      eventFinished := ?_
      deliveryFinished := ?_
      eventDead := ?_
      deliveryDead := ?_ }
  · intro name eventId row hrow
    have hwell := state.leased_events hsound name eventId row hrow
    refine ⟨hwell.together, fun hclaimed => ?_⟩
    by_contra hstatus
    have hfree := QueueRow.free_of_settled hwell hstatus
    have htogether : row.claimedAt.isSome = row.claimToken.isSome := hwell.together
    rw [hfree, hclaimed] at htogether
    cases htogether
  · intro deliveryId row hrow
    have hwell := state.leased_deliveries hsound deliveryId row hrow
    refine ⟨hwell.together, fun hclaimed => ?_⟩
    by_contra hstatus
    have hfree := EventDelivery.free_of_settled hwell hstatus
    have htogether : row.claimedAt.isSome = row.claimToken.isSome := hwell.together
    rw [hfree, hclaimed] at htogether
    cases htogether
  · intro name eventId row hrow hfinished token how
    have hwell := state.leased_events hsound name eventId row hrow
    have hstatus : row.status ≠ .pending := by
      rcases hfinished with hdone | hdone <;> simp [hdone]
    exact EventQueue.acknowledge_free hrow (QueueRow.free_of_settled hwell hstatus) token _
  · intro deliveryId row hrow hfinished token how
    have hwell := state.leased_deliveries hsound deliveryId row hrow
    have hstatus : row.status ≠ .pending := by simp [hfinished]
    exact DeliveryQueue.acknowledge_free hrow (EventDelivery.free_of_settled hwell hstatus) token how
  · intro name eventId row hrow hdead operation state' happly
    have hwell := state.leased_events hsound name eventId row hrow
    have hstatus : row.status ≠ .pending := by simp [hdead]
    exact operation.keeps_dead_event hkeyed hrow hdead (QueueRow.free_of_settled hwell hstatus) happly
  · intro deliveryId row hrow hdead operation state' happly
    have hwell := state.leased_deliveries hsound deliveryId row hrow
    have hstatus : row.status ≠ .pending := by simp [hdead]
    exact operation.keeps_dead_delivery hkeyed hrow hdead
      (EventDelivery.free_of_settled hwell hstatus) happly

/-- A worker that stalls past its lease: its row goes to a second worker, its own
acknowledgement is refused, and the second one counts. -/
def stalledWorker : List Operation :=
  [.arrive .outbox ⟨⟨"core.order.created", "order", "order", []⟩, "event"⟩ 0,
    .claimEvents .outbox 0 1 "first", .reclaimEvents .outbox 40000 3 1,
    .claimEvents .outbox 40000 1 "second", .acknowledgeEvent .outbox "event" "first" .done,
    .acknowledgeEvent .outbox "event" "second" .done]

theorem runAll_fenced_stalledWorker :
    ∃ state, runAll stalledWorker .start = some state ∧
      state.applied = [(.event .outbox "event", "second")] ∧ state.Fenced := by
  have hruns : (runAll stalledWorker .start).any (fun state =>
      state.applied = [(.event .outbox "event", "second")]) = true := by
    decide +kernel
  obtain ⟨state, hstate, happlied⟩ := (Option.any_eq_true _ _).mp hruns
  exact ⟨state, hstate, of_decide_eq_true happlied, runAll_fenced stalledWorker state hstate⟩

end WaslaCore.Eventing
