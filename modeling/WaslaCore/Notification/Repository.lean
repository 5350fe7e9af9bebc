import WaslaCore.Data.Table
import WaslaCore.Notification.Domain
import WaslaCore.Platform.ListOrder

/-!
The notification store a dispatcher works on. A claim writes: it flips each due row to
`processing` under a new token and a lease. Every result is recorded under the fence
of that token, and a lease that ran out puts its row back or, with the attempts spent,
fails it.
-/

namespace WaslaCore.Notification

open Platform Data

/-- No dispatcher takes the row up again. -/
def NotificationStatus.isSettled : NotificationStatus → Bool
  | .accepted | .delivered | .failed => true
  | .pending | .processing => false

structure NotificationStore where
  notifications : Table Notification
  tokens : Nat

/-- A claimed row with the token its results are recorded under. -/
structure ClaimedNotification where
  notification : Notification
  token : Nat
  deriving DecidableEq, Repr

/-- What a result writes: `markAccepted`, `markDelivered`, `markRetrying`, `markFailed`. -/
inductive Mark where
  | accepted (providerMessageId : Option String) (at' : Int)
  | delivered (providerMessageId : Option String) (at' : Int)
  | retrying (reason : String) (nextAttemptAt : Int) (providerMessageId : Option String)
  | failed (reason : String) (at' : Int) (providerMessageId : Option String)
  deriving DecidableEq, Repr

def notificationsInDueOrder (rows : List Notification) : List Notification :=
  orderedBy (fun row => [.number row.nextAttemptAt, .number row.createdAt, .text row.notificationId])
    rows

namespace Notification

def isDue (row : Notification) (now : Int) : Bool :=
  row.status = .pending && row.nextAttemptAt ≤ now

def isAbandoned (row : Notification) (now : Int) : Bool :=
  row.status = .processing && row.nextAttemptAt ≤ now

def claimed (row : Notification) (now leaseMs : Int) (token : Nat) : Notification :=
  { row with
    status := .processing
    attempts := row.attempts + 1
    claimToken := some token
    claimedAt := some now
    nextAttemptAt := now + leaseMs }

def reclaimed (row : Notification) (now : Int) (maxAttempts : Nat) : Notification :=
  let exhausted : Bool := maxAttempts ≤ row.attempts
  { row with
    status := if exhausted then .failed else .pending
    claimToken := none
    claimedAt := none
    lastError := some (if exhausted then
      "attempts_exhausted after abandoned attempt " ++ toString row.attempts
      else "abandoned attempt " ++ toString row.attempts ++ " reclaimed")
    failedAt := if exhausted then some now else none }

def marked (row : Notification) : Mark → Notification
  | .accepted providerMessageId at' =>
      { row with
        status := .accepted, claimToken := none, claimedAt := none, lastError := none
        providerMessageId := providerMessageId, acceptedAt := some at' }
  | .delivered providerMessageId at' =>
      { row with
        status := .delivered, claimToken := none, claimedAt := none, lastError := none
        providerMessageId := providerMessageId
        acceptedAt := some (row.acceptedAt.getD at'), deliveredAt := some at' }
  | .retrying reason nextAttemptAt providerMessageId =>
      { row with
        status := .pending, claimToken := none, claimedAt := none, lastError := some reason
        providerMessageId := providerMessageId.orElse (fun _ => row.providerMessageId)
        nextAttemptAt := nextAttemptAt }
  | .failed reason at' providerMessageId =>
      { row with
        status := .failed, claimToken := none, claimedAt := none, lastError := some reason
        providerMessageId := providerMessageId.orElse (fun _ => row.providerMessageId)
        failedAt := some at' }

end Notification

namespace NotificationStore

def empty : NotificationStore := ⟨.empty, 0⟩

/-- The due rows claimed one by one, each under the next token. -/
def claimRows (now leaseMs : Int) : List Notification → Nat → List ClaimedNotification
  | [], _ => []
  | row :: rest, tokens =>
      ⟨row.claimed now leaseMs (tokens + 1), tokens + 1⟩ :: claimRows now leaseMs rest (tokens + 1)

def claimDue (store : NotificationStore) (now : Int) (limit : Nat) (leaseMs : Int) :
    List ClaimedNotification × NotificationStore :=
  let due := (notificationsInDueOrder
    (store.notifications.values.filter (fun row => row.isDue now))).take limit
  let claimed := claimRows now leaseMs due store.tokens
  (claimed, ⟨store.notifications.putRows Notification.notificationId
    (claimed.map ClaimedNotification.notification), store.tokens + due.length⟩)

def reclaimExpired (store : NotificationStore) (now : Int) (maxAttempts limit : Nat) :
    Nat × NotificationStore :=
  let expired := (notificationsInDueOrder
    (store.notifications.values.filter (fun row => row.isAbandoned now))).take limit
  (expired.length, { store with
    notifications := store.notifications.putRows Notification.notificationId
      (expired.map (fun row => row.reclaimed now maxAttempts)) })

/-- Token match, or nothing happens. The fence. -/
def fenced (store : NotificationStore) (notificationId : String) (token : Nat) :
    Option Notification :=
  match store.notifications.get notificationId with
  | none => none
  | some existing =>
      if existing.status = .processing ∧ existing.claimToken = some token then some existing
      else none

def mark (store : NotificationStore) (notificationId : String) (token : Nat) (how : Mark) :
    Bool × NotificationStore :=
  match store.fenced notificationId token with
  | none => (false, store)
  | some existing =>
      (true, { store with
        notifications := store.notifications.put notificationId (existing.marked how) })

end NotificationStore

/-! ### What each operation does to one row -/

section Rows

variable {store : NotificationStore}

/-- Every notification stands under its own identifier. -/
abbrev NotificationStore.Keyed (store : NotificationStore) : Prop :=
  store.notifications.KeyedBy Notification.notificationId

namespace NotificationStore

theorem mem_claimRows {now leaseMs : Int} {rows : List Notification} {tokens : Nat}
    {claimed : ClaimedNotification} (h : claimed ∈ claimRows now leaseMs rows tokens) :
    ∃ row ∈ rows, claimed.notification = row.claimed now leaseMs claimed.token ∧
      tokens < claimed.token ∧ claimed.token ≤ tokens + rows.length := by
  induction rows generalizing tokens with
  | nil => cases h
  | cons row rest ih =>
      rcases List.mem_cons.mp h with rfl | hrest
      · exact ⟨row, by simp, rfl, Nat.lt_succ_self tokens, by simp⟩
      · obtain ⟨other, hother, hclaimed, hlow, hhigh⟩ := ih hrest
        refine ⟨other, List.mem_cons_of_mem row hother, hclaimed, by omega, ?_⟩
        rw [List.length_cons]
        omega

theorem claimRows_nodup (now leaseMs : Int) (rows : List Notification) (tokens : Nat) :
    ((claimRows now leaseMs rows tokens).map ClaimedNotification.token).Nodup := by
  induction rows generalizing tokens with
  | nil => exact List.nodup_nil
  | cons row rest ih =>
      refine List.nodup_cons.mpr ⟨fun hmember => ?_, ih (tokens + 1)⟩
      obtain ⟨claimed, hclaimed, htoken⟩ := List.mem_map.mp hmember
      obtain ⟨_, _, _, hlow, _⟩ := mem_claimRows hclaimed
      change claimed.token = tokens + 1 at htoken
      omega

theorem mem_of_due {limit : Nat} {keep : Notification → Bool} {row : Notification}
    (h : row ∈ (notificationsInDueOrder (store.notifications.values.filter keep)).take limit) :
    row ∈ store.notifications.values ∧ keep row = true := by
  have hmember := List.mem_of_mem_take h
  rw [notificationsInDueOrder, mem_orderedBy, List.mem_filter] at hmember
  exact hmember

theorem claimDue_get (h : store.Keyed) (now : Int) (limit : Nat) (leaseMs : Int) (key : String) :
    (store.claimDue now limit leaseMs).2.notifications.get key = store.notifications.get key ∨
      ∃ row token, store.notifications.get key = some row ∧ row.isDue now = true ∧
        (store.claimDue now limit leaseMs).2.notifications.get key =
          some (row.claimed now leaseMs token) := by
  rcases store.notifications.get_putRows Notification.notificationId
    ((store.claimDue now limit leaseMs).1.map ClaimedNotification.notification) key
    with hsame | ⟨written, hwritten, hkey, hget⟩
  · exact .inl hsame
  · obtain ⟨claimed, hclaimed, rfl⟩ := List.mem_map.mp hwritten
    obtain ⟨row, hrow, heq, -, -⟩ := mem_claimRows hclaimed
    obtain ⟨hmember, hdue⟩ := mem_of_due hrow
    obtain ⟨other, hother⟩ := Table.mem_values.mp hmember
    have hown : other = key := by
      rw [← h other row hother, ← hkey, heq]
      rfl
    subst hown
    exact .inr ⟨row, claimed.token, hother, hdue, heq ▸ hget⟩

theorem reclaimExpired_get (h : store.Keyed) (now : Int) (maxAttempts limit : Nat) (key : String) :
    (store.reclaimExpired now maxAttempts limit).2.notifications.get key =
        store.notifications.get key ∨
      ∃ row, store.notifications.get key = some row ∧ row.isAbandoned now = true ∧
        (store.reclaimExpired now maxAttempts limit).2.notifications.get key =
          some (row.reclaimed now maxAttempts) := by
  have hkept : ∀ row : Notification,
      (row.reclaimed now maxAttempts).notificationId = row.notificationId := fun _ => rfl
  rcases Table.get_putRows_map h _ hkept (fun row hrow => (mem_of_due hrow).1) key
    with hsame | ⟨row, hrow, hfound, hget⟩
  · exact .inl hsame
  · exact .inr ⟨row, hfound, (mem_of_due hrow).2, hget⟩

/-- A result is recorded on a `processing` row under its token, or nothing happens. -/
theorem mark_cases (store : NotificationStore) (notificationId : String) (token : Nat)
    (how : Mark) :
    (store.mark notificationId token how).2 = store ∨
      ∃ row, store.notifications.get notificationId = some row ∧ row.status = .processing ∧
        row.claimToken = some token ∧ (store.mark notificationId token how).2 =
          { store with notifications := store.notifications.put notificationId (row.marked how) } := by
  unfold mark fenced
  cases hfound : store.notifications.get notificationId with
  | none => exact .inl rfl
  | some row =>
      by_cases hfence : row.status = .processing ∧ row.claimToken = some token
      · simp only [if_pos hfence]
        exact .inr ⟨row, rfl, hfence.1, hfence.2, rfl⟩
      · simp only [if_neg hfence, true_or]

end NotificationStore

end Rows

end WaslaCore.Notification
