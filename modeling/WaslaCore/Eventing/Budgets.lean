import WaslaCore.Data.Budget
import WaslaCore.Eventing.Poison
import WaslaCore.Eventing.Workers

/-!
The two budgets of a queued row. A worker charges an attempt where it saw one fail and
gives the row up when that was the last one allowed; the recovery charges a claim that
nobody acknowledged within its lease, and gives the row up when none is left; an
operator's revival starts the recoveries anew and leaves the attempts. What a drain
reports and measures is left out.
-/

namespace WaslaCore.Eventing

open Data Interleaving

/-! ### What a row shows of its budgets -/

def QueueRow.account (row : QueueRow) : Account :=
  ⟨row.status.phase, row.claimToken, row.attempts, row.reclaims⟩

def EventDelivery.account (row : EventDelivery) : Account :=
  ⟨row.status.phase, row.claimToken, row.attempts, row.reclaims⟩

namespace QueueStores

def account (stores : QueueStores) : RowKey → Option Account
  | .event name eventId => ((stores.events name).get eventId).map QueueRow.account
  | .delivery deliveryId => (stores.deliveries.get deliveryId).map EventDelivery.account

/-- The rows a recovery pass finds abandoned. -/
def abandonedKeys (stores : QueueStores) (now : Int) (limit : Nat) : LeasedQueue → List RowKey
  | .events name =>
      ((inDueOrder ((stores.events name).values.filter (fun row => row.isAbandoned now))).take
        limit).map (fun row => .event name row.event.eventId)
  | .deliveries =>
      ((deliveriesInDueOrder (stores.deliveries.values.filter (fun row => row.isAbandoned now))).take
        limit).map (fun row => .delivery row.deliveryId)

end QueueStores

/-- An acknowledgement of a failing attempt. -/
def Settlement.fails : Settlement → Bool
  | .done => false
  | .retry _ _ => true
  | .dead _ => true

/-- A suppressed delivery was not attempted. -/
def DeliveryAcknowledgement.fails : DeliveryAcknowledgement → Bool
  | .delivered _ _ => false
  | .failed _ _ _ => true
  | .dead _ _ => true
  | .suppressed _ => false

/-- What an operation does to the row under a key, as its tally counts it. -/
def Operation.note (operation : Operation) (state : QueueRun) (key : RowKey) : Option Note :=
  match operation with
  | .arrive _ _ _ => none
  | .queue _ _ _ _ => none
  | .claimEvents name now limit _ =>
      if key ∈ state.stores.dueKeys now limit (.events name) then some .claimed else none
  | .claimDeliveries now limit _ =>
      if key ∈ state.stores.dueKeys now limit .deliveries then some .claimed else none
  | .reclaimEvents name now _ limit =>
      if key ∈ state.stores.abandonedKeys now limit (.events name) then some .abandoned else none
  | .reclaimDeliveries now _ limit =>
      if key ∈ state.stores.abandonedKeys now limit .deliveries then some .abandoned else none
  | .acknowledgeEvent name eventId token how =>
      if key = .event name eventId ∧ how.fails = true ∧
          ((state.stores.events name).acknowledge eventId (some token)
            (how.acknowledgement name)).1 = true then some .failed else none
  | .acknowledgeDelivery deliveryId token how =>
      if key = .delivery deliveryId ∧ how.fails = true ∧
          (DeliveryQueue.acknowledge state.stores.deliveries deliveryId (some token) how).1 = true
        then some .failed else none
  | .reviveEvent eventId _ =>
      ((state.stores.outbox.get eventId).filter
        (fun row => key = .event .outbox eventId && row.status = .dead)).map
          (fun row => .revived row.attempts)
  | .reviveDelivery deliveryId _ =>
      ((state.stores.deliveries.get deliveryId).filter
        (fun row => key = .delivery deliveryId && row.status = .dead)).map
          (fun row => .revived row.attempts)

/-- The budgets of each queue. -/
abbrev Budgets := LeasedQueue → WorkerSettings

/-- A recovery takes its queue's budget, and an attempt is called one to retry only
where the row's own attempts leave another one. -/
def Operation.Abides (operation : Operation) (budgets : Budgets) (state : QueueRun) : Prop :=
  match operation with
  | .reclaimEvents name _ maxReclaims _ => maxReclaims = (budgets (.events name)).maxReclaims
  | .reclaimDeliveries _ maxReclaims _ => maxReclaims = (budgets .deliveries).maxReclaims
  | .acknowledgeEvent name eventId token (.retry _ _) =>
      ∀ row, (state.stores.events name).get eventId = some row → row.claimToken = some token →
        row.attempts + 1 < (budgets (.events name)).maxAttempts
  | .acknowledgeDelivery deliveryId token (.failed _ _ _) =>
      ∀ row, state.stores.deliveries.get deliveryId = some row → row.claimToken = some token →
        row.attempts + 1 < (budgets .deliveries).maxAttempts
  | _ => True

/-! ### What an operation does to a row -/

/-- A batch of rows written back turns exactly the rows it takes. -/
theorem batch_turns {α : Type} {keyOf : α → String} {table : Table α} (hkeyed : table.KeyedBy keyOf)
    (write : α → α) (account : α → Account) (hkept : ∀ row, keyOf (write row) = keyOf row)
    {rows : List α} (hrows : ∀ row ∈ rows, row ∈ table.values)
    {maxAttempts maxReclaims : Nat} {note : Note}
    (hturn : ∀ row ∈ rows, table.get (keyOf row) = some row →
      Account.Turn maxAttempts maxReclaims (some note) (some (account row))
        (some (account (write row)))) (key : String) :
    Account.Turn maxAttempts maxReclaims (if key ∈ rows.map keyOf then some note else none)
      ((table.get key).map account)
      (((table.putRows keyOf (rows.map write)).get key).map account) := by
  rcases Table.get_putRows_taken hkeyed _ hkept hrows key with
    ⟨hnot, hsame⟩ | ⟨htaken, row, hrow, hget, hwritten⟩
  · rw [if_neg hnot, hsame]
    exact .same _
  · have hown : keyOf row = key := hkeyed key row hget
    rw [if_pos htaken, hget, hwritten]
    exact hturn row hrow (by rwa [hown])

section Rows

variable {maxAttempts maxReclaims : Nat}

theorem QueueRow.turn_claimed {row : QueueRow} {now : Int} (h : row.isDue now = true)
    (hwell : row.lease.WellFormed) (token : String) :
    Account.Turn maxAttempts maxReclaims (some .claimed) (some row.account)
      (some (row.claimed now token).account) := by
  obtain ⟨hpending, hfree⟩ := QueueRow.free_of_isDue h hwell
  exact .claimed row.account token hpending hfree

theorem EventDelivery.turn_claimed {row : EventDelivery} {now : Int} (h : row.isDue now = true)
    (hwell : row.lease.WellFormed) (token : String) :
    Account.Turn maxAttempts maxReclaims (some .claimed) (some row.account)
      (some (row.claimed now token).account) := by
  obtain ⟨hpending, hfree⟩ := EventDelivery.free_of_isDue h hwell
  exact .claimed row.account token hpending hfree

theorem QueueRow.turn_abandoned {row : QueueRow} {now : Int} (h : row.isAbandoned now = true)
    (hwell : row.lease.WellFormed) :
    Account.Turn maxAttempts maxReclaims (some .abandoned) (some row.account)
      (some (row.reclaimed now maxReclaims).account) := by
  simp only [QueueRow.isAbandoned, Bool.and_eq_true, decide_eq_true_eq] at h
  obtain ⟨⟨hpending, hclaimed⟩, -⟩ := h
  have hheld : row.account.token.isSome = true := hwell.together.symm.trans hclaimed
  have hreclaimed : (row.reclaimed now maxReclaims).account = row.account.abandoned maxReclaims := by
    simp only [QueueRow.account, QueueRow.reclaimed, Account.abandoned, reclaimExhausted]
    by_cases hspent : maxReclaims < row.reclaims + 1 <;> simp [hspent, QueueStatus.phase, hpending]
  rw [hreclaimed]
  exact .abandoned row.account (by rw [QueueRow.account, hpending]; rfl) hheld

theorem EventDelivery.turn_abandoned {row : EventDelivery} {now : Int}
    (h : row.isAbandoned now = true) (hwell : row.lease.WellFormed) :
    Account.Turn maxAttempts maxReclaims (some .abandoned) (some row.account)
      (some (row.reclaimed now maxReclaims).account) := by
  simp only [EventDelivery.isAbandoned, Bool.and_eq_true, decide_eq_true_eq] at h
  obtain ⟨⟨hpending, hclaimed⟩, -⟩ := h
  have hheld : row.account.token.isSome = true := hwell.together.symm.trans hclaimed
  have hreclaimed : (row.reclaimed now maxReclaims).account = row.account.abandoned maxReclaims := by
    simp only [EventDelivery.account, EventDelivery.reclaimed, Account.abandoned, reclaimExhausted]
    by_cases hspent : maxReclaims < row.reclaims + 1 <;>
      simp [hspent, DeliveryStatus.phase, hpending]
  rw [hreclaimed]
  exact .abandoned row.account (by rw [EventDelivery.account, hpending]; rfl) hheld

/-- An acknowledgement of a held row charges a failing attempt, or ends the row. -/
theorem QueueRow.turn_acknowledged {row : QueueRow} {token : String} (name : QueueName)
    (hheld : row.claimToken = some token) (hwell : row.lease.WellFormed) (how : Settlement)
    (hretry : ∀ error next, how = .retry error next → row.attempts + 1 < maxAttempts) :
    Account.Turn maxAttempts maxReclaims (if how.fails = true then some .failed else none)
      (some row.account) (some (row.acknowledged (how.acknowledgement name)).account) := by
  have htoken : row.account.token.isSome = true := Option.isSome_iff_exists.mpr ⟨token, hheld⟩
  have hpending : row.account.phase = .pending := hwell.pending htoken
  cases how with
  | done =>
      exact .ended row.account (finishedStatus name).phase _ hpending (by cases name <;> decide)
  | retry error next => exact .retried row.account hpending htoken (hretry error next rfl)
  | dead error => exact .died row.account hpending htoken

theorem EventDelivery.turn_acknowledged {row : EventDelivery} {token : String}
    (hheld : row.claimToken = some token) (hwell : row.lease.WellFormed)
    (how : DeliveryAcknowledgement)
    (hretry : ∀ error status next, how = .failed error status next →
      row.attempts + 1 < maxAttempts) :
    Account.Turn maxAttempts maxReclaims (if how.fails = true then some .failed else none)
      (some row.account) (some (row.acknowledged how).account) := by
  have htoken : row.account.token.isSome = true := Option.isSome_iff_exists.mpr ⟨token, hheld⟩
  have hpending : row.account.phase = .pending := hwell.pending htoken
  cases how with
  | delivered status deliveredAt => exact .ended row.account .finished _ hpending (by decide)
  | failed error status next =>
      exact .retried row.account hpending htoken (hretry error status next rfl)
  | dead error status => exact .died row.account hpending htoken
  | suppressed reason => exact .ended row.account .dead _ hpending (by decide)

end Rows

/-! ### What an operation does to the rows of a queue -/

section Queues

variable {maxAttempts maxReclaims : Nat}

theorem EventQueue.claimFirst_account {queue : EventQueue} (hkeyed : queue.Keyed)
    (hleased : queue.Leased) (now : Int) (limit : Nat) (token id : String) :
    let due := (inDueOrder (queue.values.filter (fun row => row.isDue now))).take limit
    Account.Turn maxAttempts maxReclaims
      (if id ∈ due.map (fun row => row.event.eventId) then some .claimed else none)
      ((queue.get id).map QueueRow.account)
      (((queue.claimFirst now limit token).2.get id).map QueueRow.account) := by
  intro due
  have hdue : ∀ row ∈ due, row ∈ queue.values ∧ row.isDue now = true := by
    intro row hrow
    have hchosen := List.mem_of_mem_take hrow
    rw [inDueOrder, Platform.mem_orderedBy, List.mem_filter] at hchosen
    exact hchosen
  have hqueue : (queue.claimFirst now limit token).2 =
      Table.putRows (fun row => row.event.eventId) queue
        (due.map (fun row => row.claimed now token)) := EventQueue.putAll_eq_putRows _ _
  rw [hqueue]
  exact batch_turns hkeyed (fun row => row.claimed now token) QueueRow.account (fun _ => rfl)
    (fun row hrow => (hdue row hrow).1)
    (fun row hrow hget => QueueRow.turn_claimed (hdue row hrow).2 (hleased _ row hget) token) id

theorem EventQueue.reclaimExpired_account {queue : EventQueue} (hkeyed : queue.Keyed)
    (hleased : queue.Leased) (now : Int) (limit : Nat) (id : String) :
    let abandoned := (inDueOrder (queue.values.filter (fun row => row.isAbandoned now))).take limit
    Account.Turn maxAttempts maxReclaims
      (if id ∈ abandoned.map (fun row => row.event.eventId) then some .abandoned else none)
      ((queue.get id).map QueueRow.account)
      (((queue.reclaimExpired now maxReclaims limit).2.get id).map QueueRow.account) := by
  intro abandoned
  have habandoned : ∀ row ∈ abandoned, row ∈ queue.values ∧ row.isAbandoned now = true := by
    intro row hrow
    have hchosen := List.mem_of_mem_take hrow
    rw [inDueOrder, Platform.mem_orderedBy, List.mem_filter] at hchosen
    exact hchosen
  have hqueue : (queue.reclaimExpired now maxReclaims limit).2 =
      Table.putRows (fun row => row.event.eventId) queue
        (abandoned.map (fun row => row.reclaimed now maxReclaims)) :=
    EventQueue.putAll_eq_putRows _ _
  rw [hqueue]
  exact batch_turns hkeyed (fun row => row.reclaimed now maxReclaims) QueueRow.account
    (fun _ => rfl) (fun row hrow => (habandoned row hrow).1)
    (fun row hrow hget => QueueRow.turn_abandoned (habandoned row hrow).2 (hleased _ row hget)) id

theorem DeliveryQueue.claimDue_account {queue : DeliveryQueue} (hkeyed : DeliveryQueue.Keyed queue)
    (hleased : DeliveryQueue.Leased queue) (now : Int) (limit : Nat) (token id : String) :
    let due := (deliveriesInDueOrder (queue.values.filter (fun row => row.isDue now))).take limit
    Account.Turn maxAttempts maxReclaims
      (if id ∈ due.map EventDelivery.deliveryId then some .claimed else none)
      ((queue.get id).map EventDelivery.account)
      (((DeliveryQueue.claimDue queue now limit token).2.get id).map EventDelivery.account) := by
  intro due
  have hdue : ∀ row ∈ due, row ∈ queue.values ∧ row.isDue now = true := by
    intro row hrow
    have hchosen := List.mem_of_mem_take hrow
    rw [deliveriesInDueOrder, Platform.mem_orderedBy, List.mem_filter] at hchosen
    exact hchosen
  exact batch_turns hkeyed (fun row => row.claimed now token) EventDelivery.account (fun _ => rfl)
    (fun row hrow => (hdue row hrow).1)
    (fun row hrow hget =>
      EventDelivery.turn_claimed (hdue row hrow).2 (hleased _ row hget) token) id

theorem DeliveryQueue.reclaimExpired_account {queue : DeliveryQueue}
    (hkeyed : DeliveryQueue.Keyed queue) (hleased : DeliveryQueue.Leased queue) (now : Int)
    (limit : Nat) (id : String) :
    let abandoned := (deliveriesInDueOrder
      (queue.values.filter (fun row => row.isAbandoned now))).take limit
    Account.Turn maxAttempts maxReclaims
      (if id ∈ abandoned.map EventDelivery.deliveryId then some .abandoned else none)
      ((queue.get id).map EventDelivery.account)
      (((DeliveryQueue.reclaimExpired queue now maxReclaims limit).2.get id).map
        EventDelivery.account) := by
  intro abandoned
  have habandoned : ∀ row ∈ abandoned, row ∈ queue.values ∧ row.isAbandoned now = true := by
    intro row hrow
    have hchosen := List.mem_of_mem_take hrow
    rw [deliveriesInDueOrder, Platform.mem_orderedBy, List.mem_filter] at hchosen
    exact hchosen
  exact batch_turns hkeyed (fun row => row.reclaimed now maxReclaims) EventDelivery.account
    (fun _ => rfl) (fun row hrow => (habandoned row hrow).1)
    (fun row hrow hget =>
      EventDelivery.turn_abandoned (habandoned row hrow).2 (hleased _ row hget)) id

theorem EventQueue.append_account (queue : EventQueue) (event : EventEnvelope) (now : Int)
    (id : String) :
    Account.Turn maxAttempts maxReclaims none ((queue.get id).map QueueRow.account)
      (((queue.append event now).get id).map QueueRow.account) := by
  unfold append
  split
  · exact .same _
  · rename_i hnone
    rw [Table.get_put]
    by_cases hid : event.eventId = id
    · rw [if_pos hid, ← hid, hnone]
      exact .arrived
    · rw [if_neg hid]
      exact .same _

theorem queueDelivery_account {queue queue' : DeliveryQueue}
    {deliveryId eventId subscriptionId : String} {now : Int} {queued : Bool}
    (h : queueDelivery queue (.queued deliveryId eventId subscriptionId now) = .ok (queued, queue'))
    (id : String) :
    Account.Turn maxAttempts maxReclaims none ((queue.get id).map EventDelivery.account)
      ((queue'.get id).map EventDelivery.account) := by
  unfold queueDelivery at h
  split at h
  · obtain ⟨-, rfl⟩ := Prod.mk.inj (Except.ok.inj h)
    exact .same _
  split at h
  · cases h
  · rename_i hnew
    obtain ⟨-, rfl⟩ := Prod.mk.inj (Except.ok.inj h)
    have hown : (EventDelivery.queued deliveryId eventId subscriptionId now).deliveryId =
        deliveryId := rfl
    rw [Table.get_put, hown]
    by_cases hid : deliveryId = id
    · subst hid
      have hnone : queue.get deliveryId = none := by
        rw [hown] at hnew
        simpa using hnew
      rw [if_pos rfl, hnone]
      exact .arrived
    · rw [if_neg hid]
      exact .same _

theorem EventQueue.acknowledge_account {queue : EventQueue} (hleased : queue.Leased)
    (name : QueueName) (eventId token : String) (how : Settlement)
    (hretry : ∀ error next, how = .retry error next → ∀ row, queue.get eventId = some row →
      row.claimToken = some token → row.attempts + 1 < maxAttempts) (id : String) :
    let answer := queue.acknowledge eventId (some token) (how.acknowledgement name)
    Account.Turn maxAttempts maxReclaims
      (if id = eventId ∧ how.fails = true ∧ answer.1 = true then some .failed else none)
      ((queue.get id).map QueueRow.account) ((answer.2.get id).map QueueRow.account) := by
  intro answer
  rcases queue.acknowledge_cases eventId (some token) (how.acknowledgement name) with
    hrefused | ⟨row, hrow, hfence, happlied⟩
  · simp only [answer, hrefused, Bool.false_eq_true, and_false, if_false]
    exact .same _
  · have hheld := held_of_not_isFenced hfence
    simp only [answer, happlied, and_true]
    by_cases hid : id = eventId
    · subst hid
      rw [Table.get_put_self, hrow]
      simp only [true_and]
      exact QueueRow.turn_acknowledged name hheld (hleased id row hrow) how
        (fun error next hhow => hretry error next hhow row hrow hheld)
    · rw [Table.get_put_ne _ _ (Ne.symm hid), if_neg (fun hboth => hid hboth.1)]
      exact .same _

theorem DeliveryQueue.acknowledge_account {queue : DeliveryQueue}
    (hleased : DeliveryQueue.Leased queue) (deliveryId token : String)
    (how : DeliveryAcknowledgement)
    (hretry : ∀ error status next, how = .failed error status next → ∀ row,
      queue.get deliveryId = some row → row.claimToken = some token →
        row.attempts + 1 < maxAttempts) (id : String) :
    let answer := DeliveryQueue.acknowledge queue deliveryId (some token) how
    Account.Turn maxAttempts maxReclaims
      (if id = deliveryId ∧ how.fails = true ∧ answer.1 = true then some .failed else none)
      ((queue.get id).map EventDelivery.account) ((answer.2.get id).map EventDelivery.account) := by
  intro answer
  rcases DeliveryQueue.acknowledge_cases queue deliveryId (some token) how with
    hrefused | ⟨row, hrow, hfence, happlied⟩
  · simp only [answer, hrefused, Bool.false_eq_true, and_false, if_false]
    exact .same _
  · have hheld := held_of_not_isFenced hfence
    simp only [answer, happlied, and_true]
    by_cases hid : id = deliveryId
    · subst hid
      rw [Table.get_put_self, hrow]
      simp only [true_and]
      exact EventDelivery.turn_acknowledged hheld (hleased id row hrow) how
        (fun error status next hhow => hretry error status next hhow row hrow hheld)
    · rw [Table.get_put_ne _ _ (Ne.symm hid), if_neg (fun hboth => hid hboth.1)]
      exact .same _

theorem EventQueue.revive_account (queue : EventQueue) (eventId : String) (now : Int) (id : String) :
    Account.Turn maxAttempts maxReclaims
      (((queue.get eventId).filter (fun row => id = eventId && row.status = .dead)).map
        (fun row => .revived row.attempts))
      ((queue.get id).map QueueRow.account)
      (((queue.revive eventId now).get id).map QueueRow.account) := by
  unfold revive
  cases hrow : queue.get eventId with
  | none => exact .same _
  | some row =>
      by_cases hid : id = eventId
      · subst hid
        by_cases hdead : row.status = .dead
        · simp only [hdead, if_true, Table.get_put_self, hrow, Option.map_some,
            Option.filter_some, decide_true, Bool.and_true]
          exact .revived row.account (by rw [QueueRow.account, hdead]; rfl)
        · simp only [hdead, if_false, Option.filter_some, decide_false, Bool.and_false,
            Bool.false_eq_true, Option.map_none]
          exact .same _
      · simp only [hid, Option.filter_some, decide_false, Bool.false_and, Bool.false_eq_true,
          if_false, Option.map_none]
        split
        · rw [Table.get_put_ne _ _ (Ne.symm hid)]
          exact .same _
        · exact .same _

theorem DeliveryQueue.revive_account (queue : DeliveryQueue) (deliveryId : String) (now : Int)
    (id : String) :
    Account.Turn maxAttempts maxReclaims
      (((queue.get deliveryId).filter (fun row => id = deliveryId && row.status = .dead)).map
        (fun row => .revived row.attempts))
      ((queue.get id).map EventDelivery.account)
      (((DeliveryQueue.revive queue deliveryId now).get id).map EventDelivery.account) := by
  unfold DeliveryQueue.revive
  cases hrow : queue.get deliveryId with
  | none => exact .same _
  | some row =>
      by_cases hid : id = deliveryId
      · subst hid
        by_cases hdead : row.status = .dead
        · simp only [hdead, if_true, Table.get_put_self, hrow, Option.map_some,
            Option.filter_some, decide_true, Bool.and_true]
          exact .revived row.account (by rw [EventDelivery.account, hdead]; rfl)
        · simp only [hdead, if_false, Option.filter_some, decide_false, Bool.and_false,
            Bool.false_eq_true, Option.map_none]
          exact .same _
      · simp only [hid, Option.filter_some, decide_false, Bool.false_and, Bool.false_eq_true,
          if_false, Option.map_none]
        split
        · rw [Table.get_put_ne _ _ (Ne.symm hid)]
          exact .same _
        · exact .same _

end Queues

namespace QueueStores

theorem account_withEvents (stores : QueueStores) (name other : QueueName) (queue : EventQueue)
    (eventId : String) :
    (stores.withEvents name queue).account (.event other eventId) =
      if other = name then (queue.get eventId).map QueueRow.account
      else stores.account (.event other eventId) := by
  simp only [account, events_withEvents]
  split <;> rfl

theorem account_withEvents_delivery (stores : QueueStores) (name : QueueName) (queue : EventQueue)
    (deliveryId : String) :
    (stores.withEvents name queue).account (.delivery deliveryId) =
      stores.account (.delivery deliveryId) := by
  simp only [account, deliveries_withEvents]

/-- Where one queue's rows turn as counted, every row of the stores does. -/
theorem turns_withEvents {stores : QueueStores} {name : QueueName} {queue : EventQueue}
    {budgets : Budgets} (note : RowKey → Option Note)
    (hother : ∀ key, key.queue ≠ .events name → note key = none)
    (h : ∀ id, Account.Turn (budgets (.events name)).maxAttempts (budgets (.events name)).maxReclaims
      (note (.event name id)) (((stores.events name).get id).map QueueRow.account)
      ((queue.get id).map QueueRow.account)) (key : RowKey) :
    Account.Turn (budgets key.queue).maxAttempts (budgets key.queue).maxReclaims (note key)
      (stores.account key) ((stores.withEvents name queue).account key) := by
  cases key with
  | delivery deliveryId =>
      rw [hother _ (by simp [RowKey.queue]), account_withEvents_delivery]
      exact .same _
  | event other eventId =>
      rw [account_withEvents]
      by_cases hname : other = name
      · subst hname
        rw [if_pos rfl]
        exact h eventId
      · rw [if_neg hname, hother _ (by simpa [RowKey.queue] using hname)]
        exact .same _

theorem turns_withDeliveries {stores : QueueStores} {deliveries : DeliveryQueue}
    {budgets : Budgets} (note : RowKey → Option Note)
    (hother : ∀ key, key.queue ≠ .deliveries → note key = none)
    (h : ∀ id, Account.Turn (budgets .deliveries).maxAttempts (budgets .deliveries).maxReclaims
      (note (.delivery id)) ((stores.deliveries.get id).map EventDelivery.account)
      ((deliveries.get id).map EventDelivery.account)) (key : RowKey) :
    Account.Turn (budgets key.queue).maxAttempts (budgets key.queue).maxReclaims (note key)
      (stores.account key) (account { stores with deliveries := deliveries } key) := by
  cases key with
  | delivery deliveryId => exact h deliveryId
  | event name eventId =>
      rw [hother _ (by simp [RowKey.queue])]
      cases name <;> exact .same _

/-- A claim and a recovery pass take rows of their own queue only. -/
theorem queue_of_mem_dueKeys {stores : QueueStores} {now : Int} {limit : Nat} {queue : LeasedQueue}
    {key : RowKey} (h : key ∈ stores.dueKeys now limit queue) : key.queue = queue := by
  cases queue <;>
    · obtain ⟨row, -, rfl⟩ := List.mem_map.mp h
      rfl

theorem queue_of_mem_abandonedKeys {stores : QueueStores} {now : Int} {limit : Nat}
    {queue : LeasedQueue} {key : RowKey} (h : key ∈ stores.abandonedKeys now limit queue) :
    key.queue = queue := by
  cases queue <;>
    · obtain ⟨row, -, rfl⟩ := List.mem_map.mp h
      rfl

theorem event_mem_map {name : QueueName} {id : String} {rows : List QueueRow} :
    RowKey.event name id ∈ rows.map (fun row => RowKey.event name row.event.eventId) ↔
      id ∈ rows.map (fun row => row.event.eventId) := by
  simp [List.mem_map]

theorem delivery_mem_map {id : String} {rows : List EventDelivery} :
    RowKey.delivery id ∈ rows.map (fun row => RowKey.delivery row.deliveryId) ↔
      id ∈ rows.map EventDelivery.deliveryId := by
  simp [List.mem_map]

end QueueStores

/-- Every operation that abides by the budgets turns every row as it is counted. -/
theorem Operation.turns_account {operation : Operation} {state state' : QueueRun}
    {budgets : Budgets} (hkeyed : state.stores.Keyed) (hsound : state.book.Sound)
    (habides : operation.Abides budgets state) (h : operation.apply state = some state')
    (key : RowKey) :
    Account.Turn (budgets key.queue).maxAttempts (budgets key.queue).maxReclaims
      (operation.note state key) (state.stores.account key) (state'.stores.account key) := by
  cases operation with
  | arrive name event now =>
      obtain rfl := Option.some.inj h
      exact QueueStores.turns_withEvents (fun _ => none) (fun _ _ => rfl)
        (EventQueue.append_account _ event now) key
  | queue deliveryId eventId subscriptionId now =>
      simp only [Operation.apply] at h
      split at h
      · rename_i queued deliveries hqueued
        obtain rfl := Option.some.inj h
        exact QueueStores.turns_withDeliveries (fun _ => none) (fun _ _ => rfl)
          (queueDelivery_account hqueued) key
      · obtain rfl := Option.some.inj h
        exact .same _
  | claimEvents name now limit token =>
      simp only [Operation.apply] at h
      split at h
      · cases h
      obtain rfl := Option.some.inj h
      refine QueueStores.turns_withEvents (Operation.note _ state) (fun other hother => ?_)
        (fun id => ?_) key
      · exact if_neg fun hmember => hother (QueueStores.queue_of_mem_dueKeys hmember)
      · simp only [Operation.note, QueueStores.dueKeys, QueueStores.event_mem_map]
        exact EventQueue.claimFirst_account (hkeyed.events name) (state.leased_events hsound name)
          now (claimLimit name limit) token id
  | claimDeliveries now limit token =>
      simp only [Operation.apply] at h
      split at h
      · cases h
      obtain rfl := Option.some.inj h
      refine QueueStores.turns_withDeliveries (Operation.note _ state) (fun other hother => ?_)
        (fun id => ?_) key
      · exact if_neg fun hmember => hother (QueueStores.queue_of_mem_dueKeys hmember)
      · simp only [Operation.note, QueueStores.dueKeys, QueueStores.delivery_mem_map]
        exact DeliveryQueue.claimDue_account hkeyed.deliveries (state.leased_deliveries hsound) now
          limit token id
  | reclaimEvents name now maxReclaims limit =>
      obtain rfl : maxReclaims = (budgets (.events name)).maxReclaims := habides
      obtain rfl := Option.some.inj h
      refine QueueStores.turns_withEvents (Operation.note _ state) (fun other hother => ?_)
        (fun id => ?_) key
      · exact if_neg fun hmember => hother (QueueStores.queue_of_mem_abandonedKeys hmember)
      · simp only [Operation.note, QueueStores.abandonedKeys, QueueStores.event_mem_map]
        exact EventQueue.reclaimExpired_account (hkeyed.events name)
          (state.leased_events hsound name) now limit id
  | reclaimDeliveries now maxReclaims limit =>
      obtain rfl : maxReclaims = (budgets .deliveries).maxReclaims := habides
      obtain rfl := Option.some.inj h
      refine QueueStores.turns_withDeliveries (Operation.note _ state) (fun other hother => ?_)
        (fun id => ?_) key
      · exact if_neg fun hmember => hother (QueueStores.queue_of_mem_abandonedKeys hmember)
      · simp only [Operation.note, QueueStores.abandonedKeys, QueueStores.delivery_mem_map]
        exact DeliveryQueue.reclaimExpired_account hkeyed.deliveries
          (state.leased_deliveries hsound) now limit id
  | acknowledgeEvent name eventId token how =>
      obtain rfl := Option.some.inj h
      refine QueueStores.turns_withEvents (Operation.note _ state) (fun other hother => ?_)
        (fun id => ?_) key
      · refine if_neg fun hfailed => hother ?_
        rw [hfailed.1]
        rfl
      · simp only [Operation.note, RowKey.event.injEq, true_and]
        exact EventQueue.acknowledge_account (state.leased_events hsound name) name eventId token
          how (by rintro error next rfl; exact habides) id
  | acknowledgeDelivery deliveryId token how =>
      obtain rfl := Option.some.inj h
      refine QueueStores.turns_withDeliveries (Operation.note _ state) (fun other hother => ?_)
        (fun id => ?_) key
      · refine if_neg fun hfailed => hother ?_
        rw [hfailed.1]
        rfl
      · simp only [Operation.note, RowKey.delivery.injEq]
        exact DeliveryQueue.acknowledge_account (state.leased_deliveries hsound) deliveryId token
          how (by rintro error status next rfl; exact habides) id
  | reviveEvent eventId now =>
      obtain rfl := Option.some.inj h
      have hturn : ∀ key, Account.Turn (budgets key.queue).maxAttempts
          (budgets key.queue).maxReclaims (Operation.note (.reviveEvent eventId now) state key)
          (state.stores.account key) ((state.stores.withEvents .outbox
            (state.stores.outbox.revive eventId now)).account key) := by
        refine QueueStores.turns_withEvents _ (fun other hother => ?_) (fun id => ?_)
        · have hne : other ≠ .event .outbox eventId := by
            rintro rfl
            exact hother rfl
          cases hrow : state.stores.outbox.get eventId <;> simp [Operation.note, hrow, hne]
        · simp only [Operation.note, RowKey.event.injEq, true_and]
          exact EventQueue.revive_account state.stores.outbox eventId now id
      exact hturn key
  | reviveDelivery deliveryId now =>
      obtain rfl := Option.some.inj h
      refine QueueStores.turns_withDeliveries (Operation.note _ state) (fun other hother => ?_)
        (fun id => ?_) key
      · have hne : other ≠ .delivery deliveryId := by
          rintro rfl
          exact hother rfl
        cases hrow : state.stores.deliveries.get deliveryId <;> simp [Operation.note, hrow, hne]
      · simp only [Operation.note, RowKey.delivery.injEq]
        exact DeliveryQueue.revive_account state.stores.deliveries deliveryId now id

end WaslaCore.Eventing
