import WaslaCore.Data.Table
import WaslaCore.Platform.ListOrder
import WaslaCore.Platform.UnitOfWork

/-!
The two durable event queues. The inbound store holds events CORE received, the
outbox events CORE produced; both lease due rows to a worker, take the lease
back when it runs out, and let only the holder of the claim acknowledge. They
differ in the status a finished row gets and in how a claim reads its limit.
-/

namespace WaslaCore.Eventing

open Platform Data

/-- A stored event: what `makeEvent` built, under its identifier. -/
structure EventEnvelope extends Event where
  eventId : String
  deriving DecidableEq, Repr

/-- The inbox keeps a handled event under its consumer and its identifier. -/
instance instLawfulBEqInboxKey : LawfulBEq (String × String) := inferInstance

inductive QueueName where
  | inbound
  | outbox
  deriving DecidableEq, Repr

/-- `processed` is the inbound store's finished status, `published` the outbox's. -/
inductive QueueStatus where
  | pending
  | processed
  | published
  | dead
  deriving DecidableEq, Repr

/-- A row of either queue. `arrivedAt` is `received_at` or `created_at`. While
`claimedAt` is null `nextAttemptAt` is a retry schedule, otherwise a lease's end. -/
structure QueueRow where
  event : EventEnvelope
  status : QueueStatus
  attempts : Nat
  lastError : Option String
  nextAttemptAt : Int
  arrivedAt : Int
  claimedAt : Option Int
  reclaims : Nat
  claimToken : Option String
  deriving DecidableEq, Repr

/-- A claim token, or null for a caller that holds no claim (`UNFENCED`). -/
abbrev Fence := Option String

def isFenced (rowToken : Option String) : Fence → Bool
  | none => false
  | some token => rowToken ≠ some token

def leaseMs : Int := 30000

def defaultMaxReclaims : Nat := 3

def reclaimExhausted (reclaimsBefore maxReclaims : Nat) : Bool := maxReclaims < reclaimsBefore + 1

def reclaimedError (reclaims attempts : Nat) : String :=
  "abandoned claim " ++ toString reclaims ++ " reclaimed after attempt " ++ toString attempts

def reclaimExhaustedError (reclaims attempts : Nat) : String :=
  "reclaim limit exceeded: abandoned " ++ toString reclaims ++ " times after attempt " ++
    toString attempts

def inDueOrder (rows : List QueueRow) : List QueueRow :=
  orderedBy (fun row => [.number row.nextAttemptAt, .number row.arrivedAt, .text row.event.eventId])
    rows

/-- A row as `accept` and `append` write it. -/
def QueueRow.arriving (event : EventEnvelope) (now : Int) : QueueRow :=
  ⟨event, .pending, 0, none, now, now, none, 0, none⟩

def QueueRow.isDue (row : QueueRow) (now : Int) : Bool :=
  row.status = .pending && row.claimedAt.isNone && row.nextAttemptAt ≤ now

/-- Claimed by a worker that has not acknowledged within its lease. -/
def QueueRow.isAbandoned (row : QueueRow) (now : Int) : Bool :=
  row.status = .pending && row.claimedAt.isSome && row.nextAttemptAt ≤ now

def QueueRow.claimed (row : QueueRow) (now : Int) (token : String) : QueueRow :=
  { row with nextAttemptAt := now + leaseMs, claimedAt := some now, claimToken := some token }

def QueueRow.reclaimed (row : QueueRow) (now : Int) (maxReclaims : Nat) : QueueRow :=
  let exhausted := reclaimExhausted row.reclaims maxReclaims
  { row with
    reclaims := row.reclaims + 1
    status := if exhausted then .dead else row.status
    claimedAt := none
    claimToken := none
    nextAttemptAt := if exhausted then row.nextAttemptAt else now
    lastError := some (if exhausted then reclaimExhaustedError (row.reclaims + 1) row.attempts
      else reclaimedError (row.reclaims + 1) row.attempts) }

/-- How an acknowledgement ends a claim. -/
inductive Acknowledgement where
  | finished (status : QueueStatus)
  | failed (error : String) (nextAttemptAt : Int)
  | dead (error : String)
  deriving DecidableEq, Repr

/-- The row after an acknowledgement: the claim is over whatever the outcome. -/
def QueueRow.acknowledged (row : QueueRow) : Acknowledgement → QueueRow
  | .finished status =>
      { row with status := status, lastError := none, claimedAt := none, claimToken := none }
  | .failed error nextAttemptAt =>
      { row with
        attempts := row.attempts + 1, lastError := some error, nextAttemptAt := nextAttemptAt
        claimedAt := none, claimToken := none }
  | .dead error =>
      { row with
        status := .dead, attempts := row.attempts + 1, lastError := some error
        claimedAt := none, claimToken := none }

/-- The row after an operator's revival. -/
def QueueRow.revived (row : QueueRow) (now : Int) : QueueRow :=
  { row with
    status := .pending, nextAttemptAt := now, claimedAt := none, claimToken := none, reclaims := 0 }

abbrev EventQueue := Table QueueRow

namespace EventQueue

/-- Rows written back under their own event ids. -/
def putAll (queue : EventQueue) : List QueueRow → EventQueue
  | [] => queue
  | row :: rest => EventQueue.putAll (queue.put row.event.eventId row) rest

/-- An event already there is left as it is. -/
def append (queue : EventQueue) (event : EventEnvelope) (now : Int) : EventQueue :=
  match queue.get event.eventId with
  | some _ => queue
  | none => queue.put event.eventId (.arriving event now)

/-- Leases up to `limit` due rows, all under one token. -/
def claimFirst (queue : EventQueue) (now : Int) (limit : Nat) (token : String) :
    List QueueRow × EventQueue :=
  let due := (inDueOrder (queue.values.filter (fun row => row.isDue now))).take limit
  let claimed := due.map (fun row => row.claimed now token)
  (claimed, queue.putAll claimed)

/-- How many rows a reclaim returned to the pool, and how many it gave up on. -/
structure ReclaimOutcome where
  reclaimed : Nat
  dead : Nat
  deriving DecidableEq, Repr

def reclaimExpired (queue : EventQueue) (now : Int) (maxReclaims limit : Nat) :
    ReclaimOutcome × EventQueue :=
  let expired := (inDueOrder (queue.values.filter (fun row => row.isAbandoned now))).take limit
  let written := expired.map (fun row => row.reclaimed now maxReclaims)
  (⟨written.countP (fun row => row.status ≠ .dead), written.countP (fun row => row.status = .dead)⟩,
    queue.putAll written)

/-- Refused where the row is missing or held by another claim. -/
def acknowledge (queue : EventQueue) (eventId : String) (fence : Fence) (how : Acknowledgement) :
    Bool × EventQueue :=
  match queue.get eventId with
  | none => (false, queue)
  | some row =>
      if isFenced row.claimToken fence then (false, queue)
      else (true, queue.put eventId (row.acknowledged how))

def revive (queue : EventQueue) (eventId : String) (now : Int) : EventQueue :=
  match queue.get eventId with
  | none => queue
  | some row => if row.status = .dead then queue.put eventId (row.revived now) else queue

end EventQueue

/-! ### What happens to a row -/

/-- What an arrival, a claim, a recovery or a revival makes of the row under `id`.
None of them finishes a row, and none changes its event. -/
inductive Rotated (id : String) : Option QueueRow → Option QueueRow → Prop where
  | same (row : Option QueueRow) : Rotated id row row
  | arrived (event : EventEnvelope) (now : Int) (hid : event.eventId = id) :
      Rotated id none (some (.arriving event now))
  | claimed (row : QueueRow) (now : Int) (token : String) (hpending : row.status = .pending) :
      Rotated id (some row) (some (row.claimed now token))
  | reclaimed (row : QueueRow) (now : Int) (maxReclaims : Nat) (hpending : row.status = .pending) :
      Rotated id (some row) (some (row.reclaimed now maxReclaims))
  | revived (row : QueueRow) (now : Int) (hdead : row.status = .dead) :
      Rotated id (some row) (some (row.revived now))

@[simp] theorem QueueRow.acknowledged_event (row : QueueRow) (how : Acknowledgement) :
    (row.acknowledged how).event = row.event := by
  cases how <;> rfl

/-- Every acknowledgement ends the claim. -/
@[simp] theorem QueueRow.acknowledged_claimToken (row : QueueRow) (how : Acknowledgement) :
    (row.acknowledged how).claimToken = none := by
  cases how <;> rfl

/-- A row stays where it is and keeps its event. -/
theorem Rotated.persists {id : String} {row : QueueRow} {after : Option QueueRow}
    (h : Rotated id (some row) after) : ∃ row', after = some row' ∧ row'.event = row.event := by
  cases h with
  | same => exact ⟨row, rfl, rfl⟩
  | claimed _ now token => exact ⟨_, rfl, rfl⟩
  | reclaimed _ now maxReclaims => exact ⟨_, rfl, rfl⟩
  | revived _ now => exact ⟨_, rfl, rfl⟩

/-- Where a row stands, it arrived just now or stood there with its event before,
and a status that is neither pending nor dead is the one it had. -/
theorem Rotated.origin {id : String} {before : Option QueueRow} {row' : QueueRow}
    (h : Rotated id before (some row')) :
    (before = none ∧ row'.event.eventId = id ∧ row'.status = .pending) ∨
      ∃ row, before = some row ∧ row'.event = row.event ∧
        (row'.status = .pending ∨ row'.status = .dead ∨ row' = row) := by
  cases h with
  | same => exact .inr ⟨row', rfl, rfl, .inr (.inr rfl)⟩
  | arrived event now hid => exact .inl ⟨rfl, hid, rfl⟩
  | claimed row now token hpending => exact .inr ⟨row, rfl, rfl, .inl hpending⟩
  | reclaimed row now maxReclaims hpending =>
      refine .inr ⟨row, rfl, rfl, ?_⟩
      simp only [QueueRow.reclaimed]
      split
      · exact .inr (.inl rfl)
      · exact .inl hpending
  | revived row now hdead => exact .inr ⟨row, rfl, rfl, .inl rfl⟩

namespace EventQueue

/-- Every row stands under its own event's identifier. -/
def Keyed (queue : EventQueue) : Prop := ∀ id row, queue.get id = some row → row.event.eventId = id

theorem keyed_empty : Keyed .empty := by
  intro id row hrow
  cases hrow

theorem Keyed.rotated {queue queue' : EventQueue} (h : queue.Keyed)
    (hrotated : ∀ id, Rotated id (queue.get id) (queue'.get id)) : queue'.Keyed := by
  intro id row' hrow'
  have hone := hrotated id
  rw [hrow'] at hone
  rcases hone.origin with ⟨-, hid, -⟩ | ⟨row, hrow, hevent, -⟩
  · exact hid
  · rw [hevent]
    exact h id row hrow

theorem putAll_eq_putRows (queue : EventQueue) (rows : List QueueRow) :
    queue.putAll rows = Table.putRows (fun row => row.event.eventId) queue rows := by
  induction rows generalizing queue with
  | nil => rfl
  | cons row rest ih => exact ih (queue.put row.event.eventId row)

/-- Rows written back replace the rows under their own identifiers only. -/
theorem get_putAll (queue : EventQueue) (rows : List QueueRow) (id : String) :
    (queue.putAll rows).get id = queue.get id ∨
      ∃ row ∈ rows, row.event.eventId = id ∧ (queue.putAll rows).get id = some row := by
  induction rows generalizing queue with
  | nil => exact .inl rfl
  | cons row rest ih =>
      unfold putAll
      rcases ih (queue.put row.event.eventId row) with hsame | ⟨other, hother, hid, hget⟩
      · rw [hsame, Table.get_put]
        by_cases hkey : row.event.eventId = id
        · rw [if_pos hkey]
          exact .inr ⟨row, by simp, hkey, rfl⟩
        · rw [if_neg hkey]
          exact .inl rfl
      · exact .inr ⟨other, List.mem_cons_of_mem row hother, hid, hget⟩

/-- Rewriting some of the rows that satisfy `chosen` rewrites each under its own
identifier. -/
theorem get_putAll_chosen {queue : EventQueue} (h : queue.Keyed) (chosen : QueueRow → Bool)
    (write : QueueRow → QueueRow) (hevent : ∀ row, (write row).event = row.event) (limit : Nat)
    (id : String) :
    let written := ((inDueOrder (queue.values.filter chosen)).take limit).map write
    (queue.putAll written).get id = queue.get id ∨
      ∃ row, queue.get id = some row ∧ chosen row = true ∧
        (queue.putAll written).get id = some (write row) := by
  intro written
  rcases queue.get_putAll written id with hsame | ⟨row', hrow', hid, hget⟩
  · exact .inl hsame
  · obtain ⟨row, hrow, rfl⟩ := List.mem_map.mp hrow'
    have hchosen := List.mem_of_mem_take hrow
    rw [inDueOrder, mem_orderedBy, List.mem_filter] at hchosen
    obtain ⟨other, hother⟩ := Table.mem_values.mp hchosen.1
    have hkey : other = id := by rw [← h other row hother, ← hevent row, hid]
    subst hkey
    exact .inr ⟨row, hother, hchosen.2, hget⟩

theorem append_rotated (queue : EventQueue) (event : EventEnvelope) (now : Int) (id : String) :
    Rotated id (queue.get id) ((queue.append event now).get id) := by
  unfold append
  split
  · exact .same _
  · rename_i hnone
    rw [Table.get_put]
    by_cases hid : event.eventId = id
    · subst hid
      rw [if_pos rfl, hnone]
      exact .arrived event now rfl
    · rw [if_neg hid]
      exact .same _

theorem claimFirst_rotated {queue : EventQueue} (h : queue.Keyed) (now : Int) (limit : Nat)
    (token id : String) :
    Rotated id (queue.get id) ((queue.claimFirst now limit token).2.get id) := by
  rcases get_putAll_chosen h (fun row => row.isDue now)
    (fun row => row.claimed now token) (fun _ => rfl) limit id with
    hsame | ⟨row, hrow, hdue, hget⟩
  · unfold claimFirst
    rw [hsame]
    exact .same _
  · unfold claimFirst
    rw [hget, hrow]
    simp only [QueueRow.isDue, Bool.and_eq_true, decide_eq_true_eq] at hdue
    exact .claimed row now token hdue.1.1

theorem reclaimExpired_rotated {queue : EventQueue} (h : queue.Keyed) (now : Int)
    (maxReclaims limit : Nat) (id : String) :
    Rotated id (queue.get id) ((queue.reclaimExpired now maxReclaims limit).2.get id) := by
  rcases get_putAll_chosen h (fun row => row.isAbandoned now)
    (fun row => row.reclaimed now maxReclaims) (fun _ => rfl) limit id with
    hsame | ⟨row, hrow, habandoned, hget⟩
  · unfold reclaimExpired
    rw [hsame]
    exact .same _
  · unfold reclaimExpired
    rw [hget, hrow]
    simp only [QueueRow.isAbandoned, Bool.and_eq_true, decide_eq_true_eq] at habandoned
    exact .reclaimed row now maxReclaims habandoned.1.1

theorem revive_rotated (queue : EventQueue) (eventId : String) (now : Int) (id : String) :
    Rotated id (queue.get id) ((queue.revive eventId now).get id) := by
  unfold revive
  split
  · exact .same _
  · rename_i row hrow
    split
    · rename_i hdead
      rw [Table.get_put]
      by_cases hid : eventId = id
      · subst hid
        rw [if_pos rfl, hrow]
        exact .revived row now hdead
      · rw [if_neg hid]
        exact .same _
    · exact .same _

/-- A claimed row stood in the queue with its event, and its holder has a token. -/
theorem claimFirst_mem {queue : EventQueue} (h : queue.Keyed) {now : Int} {limit : Nat}
    {token : String} {row : QueueRow} (hrow : row ∈ (queue.claimFirst now limit token).1) :
    row.claimToken = some token ∧
      ∃ old, queue.get row.event.eventId = some old ∧ row.event = old.event := by
  obtain ⟨old, hold, rfl⟩ := List.mem_map.mp hrow
  have hdue := List.mem_of_mem_take hold
  rw [inDueOrder, mem_orderedBy, List.mem_filter] at hdue
  obtain ⟨id, hid⟩ := Table.mem_values.mp hdue.1
  refine ⟨rfl, old, ?_, rfl⟩
  change queue.get old.event.eventId = some old
  rw [h id old hid]
  exact hid

/-- An acknowledgement that is not refused rewrites the one row. -/
theorem acknowledge_cases (queue : EventQueue) (eventId : String) (fence : Fence)
    (how : Acknowledgement) :
    queue.acknowledge eventId fence how = (false, queue) ∨
      ∃ row, queue.get eventId = some row ∧ isFenced row.claimToken fence = false ∧
        queue.acknowledge eventId fence how = (true, queue.put eventId (row.acknowledged how)) := by
  unfold acknowledge
  split
  · exact .inl rfl
  · rename_i row hrow
    by_cases hfenced : isFenced row.claimToken fence = true
    · rw [if_pos hfenced]
      exact .inl rfl
    · rw [if_neg hfenced]
      exact .inr ⟨row, hrow, by simpa using hfenced, rfl⟩

end EventQueue

end WaslaCore.Eventing
