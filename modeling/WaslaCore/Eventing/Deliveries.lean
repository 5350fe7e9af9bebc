import WaslaCore.Data.Lease
import WaslaCore.Eventing.FanOut

/-!
The outbound delivery queue: one row for each subscriber of a published event. It
leases, recovers and fences as the two event queues do. A delivery that succeeds
spends an attempt too, and one that is suppressed spends none, because nothing was
sent.
-/

namespace WaslaCore.Eventing

open Platform Data

def deliveriesInDueOrder (rows : List EventDelivery) : List EventDelivery :=
  orderedBy (fun row => [.number row.nextAttemptAt, .number row.createdAt, .text row.deliveryId])
    rows

namespace EventDelivery

def isDue (row : EventDelivery) (now : Int) : Bool :=
  row.status = .pending && row.claimedAt.isNone && row.nextAttemptAt ≤ now

def isAbandoned (row : EventDelivery) (now : Int) : Bool :=
  row.status = .pending && row.claimedAt.isSome && row.nextAttemptAt ≤ now

def claimed (row : EventDelivery) (now : Int) (token : String) : EventDelivery :=
  { row with nextAttemptAt := now + leaseMs, claimedAt := some now, claimToken := some token }

def reclaimed (row : EventDelivery) (now : Int) (maxReclaims : Nat) : EventDelivery :=
  let exhausted := reclaimExhausted row.reclaims maxReclaims
  { row with
    reclaims := row.reclaims + 1
    status := if exhausted then .dead else row.status
    claimedAt := none
    claimToken := none
    nextAttemptAt := if exhausted then row.nextAttemptAt else now
    lastError := some (if exhausted then reclaimExhaustedError (row.reclaims + 1) row.attempts
      else reclaimedError (row.reclaims + 1) row.attempts) }

def revived (row : EventDelivery) (now : Int) : EventDelivery :=
  { row with
    status := .pending, nextAttemptAt := now, claimedAt := none, claimToken := none, reclaims := 0 }

end EventDelivery

/-- How a delivery's claim is acknowledged. -/
inductive DeliveryAcknowledgement where
  | delivered (status : Nat) (deliveredAt : Int)
  | failed (error : String) (status : Option Nat) (nextAttemptAt : Int)
  | dead (error : String) (status : Option Nat)
  | suppressed (reason : String)
  deriving DecidableEq, Repr

def EventDelivery.acknowledged (row : EventDelivery) : DeliveryAcknowledgement → EventDelivery
  | .delivered status deliveredAt =>
      { row with
        status := .delivered, attempts := row.attempts + 1, lastError := none
        lastStatus := some status, deliveredAt := some deliveredAt
        claimedAt := none, claimToken := none }
  | .failed error status nextAttemptAt =>
      { row with
        attempts := row.attempts + 1, lastError := some error, lastStatus := status
        nextAttemptAt := nextAttemptAt, claimedAt := none, claimToken := none }
  | .dead error status =>
      { row with
        status := .dead, attempts := row.attempts + 1, lastError := some error
        lastStatus := status, claimedAt := none, claimToken := none }
  | .suppressed reason =>
      { row with
        status := .dead, lastError := some reason, claimedAt := none, claimToken := none }

@[simp] theorem EventDelivery.acknowledged_deliveryId (row : EventDelivery)
    (how : DeliveryAcknowledgement) : (row.acknowledged how).deliveryId = row.deliveryId := by
  cases how <;> rfl

abbrev DeliveryQueue := Table EventDelivery

namespace DeliveryQueue

def claimDue (queue : DeliveryQueue) (now : Int) (limit : Nat) (token : String) :
    List EventDelivery × DeliveryQueue :=
  let due := (deliveriesInDueOrder (queue.values.filter (fun row => row.isDue now))).take limit
  let claimed := due.map (fun row => row.claimed now token)
  (claimed, queue.putRows EventDelivery.deliveryId claimed)

def reclaimExpired (queue : DeliveryQueue) (now : Int) (maxReclaims limit : Nat) :
    EventQueue.ReclaimOutcome × DeliveryQueue :=
  let expired := (deliveriesInDueOrder (queue.values.filter
    (fun row => row.isAbandoned now))).take limit
  let written := expired.map (fun row => row.reclaimed now maxReclaims)
  (⟨written.countP (fun row => row.status ≠ .dead), written.countP (fun row => row.status = .dead)⟩,
    queue.putRows EventDelivery.deliveryId written)

def acknowledge (queue : DeliveryQueue) (deliveryId : String) (fence : Fence)
    (how : DeliveryAcknowledgement) : Bool × DeliveryQueue :=
  match queue.get deliveryId with
  | none => (false, queue)
  | some row =>
      if isFenced row.claimToken fence then (false, queue)
      else (true, queue.put deliveryId (row.acknowledged how))

def revive (queue : DeliveryQueue) (deliveryId : String) (now : Int) : DeliveryQueue :=
  match queue.get deliveryId with
  | none => queue
  | some row => if row.status = .dead then queue.put deliveryId (row.revived now) else queue

/-- Every delivery stands under its own identifier. -/
abbrev Keyed (queue : DeliveryQueue) : Prop := queue.KeyedBy EventDelivery.deliveryId

theorem claimDue_get {queue : DeliveryQueue} (h : Keyed queue) (now : Int) (limit : Nat)
    (token id : String) :
    (queue.claimDue now limit token).2.get id = queue.get id ∨
      ∃ row, queue.get id = some row ∧ row.isDue now = true ∧
        (queue.claimDue now limit token).2.get id = some (row.claimed now token) := by
  have hrows : ∀ row ∈ (deliveriesInDueOrder (queue.values.filter
      (fun row => row.isDue now))).take limit, row ∈ queue.values ∧ row.isDue now = true := by
    intro row hrow
    have hchosen := List.mem_of_mem_take hrow
    rw [deliveriesInDueOrder, mem_orderedBy, List.mem_filter] at hchosen
    exact hchosen
  rcases Table.get_putRows_map h (fun row => row.claimed now token) (fun _ => rfl)
    (fun row hrow => (hrows row hrow).1) id with hsame | ⟨row, hrow, hget, hwritten⟩
  · exact .inl hsame
  · exact .inr ⟨row, hget, (hrows row hrow).2, hwritten⟩

theorem reclaimExpired_get {queue : DeliveryQueue} (h : Keyed queue) (now : Int)
    (maxReclaims limit : Nat) (id : String) :
    (queue.reclaimExpired now maxReclaims limit).2.get id = queue.get id ∨
      ∃ row, queue.get id = some row ∧ row.isAbandoned now = true ∧
        (queue.reclaimExpired now maxReclaims limit).2.get id =
          some (row.reclaimed now maxReclaims) := by
  have hrows : ∀ row ∈ (deliveriesInDueOrder (queue.values.filter
      (fun row => row.isAbandoned now))).take limit,
      row ∈ queue.values ∧ row.isAbandoned now = true := by
    intro row hrow
    have hchosen := List.mem_of_mem_take hrow
    rw [deliveriesInDueOrder, mem_orderedBy, List.mem_filter] at hchosen
    exact hchosen
  rcases Table.get_putRows_map h (fun row => row.reclaimed now maxReclaims) (fun _ => rfl)
    (fun row hrow => (hrows row hrow).1) id with hsame | ⟨row, hrow, hget, hwritten⟩
  · exact .inl hsame
  · exact .inr ⟨row, hget, (hrows row hrow).2, hwritten⟩

/-- An acknowledgement that is not refused rewrites the one row. -/
theorem acknowledge_cases (queue : DeliveryQueue) (deliveryId : String) (fence : Fence)
    (how : DeliveryAcknowledgement) :
    queue.acknowledge deliveryId fence how = (false, queue) ∨
      ∃ row, queue.get deliveryId = some row ∧ isFenced row.claimToken fence = false ∧
        queue.acknowledge deliveryId fence how =
          (true, queue.put deliveryId (row.acknowledged how)) := by
  unfold acknowledge
  split
  · exact .inl rfl
  · rename_i row hrow
    by_cases hfenced : isFenced row.claimToken fence = true
    · rw [if_pos hfenced]
      exact .inl rfl
    · rw [if_neg hfenced]
      exact .inr ⟨row, hrow, by simpa using hfenced, rfl⟩

end DeliveryQueue

end WaslaCore.Eventing
