import Mathlib.Data.Prod.Lex
import Mathlib.Data.String.Basic
import WaslaCore.Data.Selection
import WaslaCore.Eventing.Deliveries

/-!
Which rows a claim and a recovery take, on each backend. The reference backend scans its
rows in due order; the database states the same choice as one query with a limit. Rows are
visible and unlocked.
-/

namespace WaslaCore.Eventing

open Platform Data

/-! ### Due order -/

/-- The key of due order: the next attempt, the arrival, the row's own identifier. -/
abbrev DueKey := Int ×ₗ Int ×ₗ String

def dueKey (nextAttemptAt arrivedAt : Int) (id : String) : DueKey :=
  toLex (nextAttemptAt, toLex (arrivedAt, id))

/-- `inDueOrder` sorts by it. -/
theorem noLater_iff (first second : Int) (arrived arrived' : Int) (id id' : String) :
    noLater [.number first, .number arrived, .text id] [.number second, .number arrived', .text id'] =
      true ↔ dueKey first arrived id ≤ dueKey second arrived' id' := by
  unfold dueKey
  rw [Prod.Lex.toLex_le_toLex, Prod.Lex.toLex_le_toLex]
  simp only [noLater, compareValues]
  rcases lt_trichotomy first second with hfirst | rfl | hfirst
  · simp [compare_lt_iff_lt.mpr hfirst, hfirst]
  · rcases lt_trichotomy arrived arrived' with harrived | rfl | harrived
    · simp [compare_lt_iff_lt.mpr harrived, harrived]
    · rcases lt_trichotomy id id' with hid | rfl | hid
      · simp [hid, hid.le]
      · simp
      · simp [hid, hid.not_gt, hid.not_ge]
    · simp [compare_gt_iff_gt.mpr harrived, harrived.not_gt, harrived.ne']
  · simp [compare_gt_iff_gt.mpr hfirst, hfirst.not_gt, hfirst.ne']

def QueueRow.dueKey (row : QueueRow) : DueKey :=
  Eventing.dueKey row.nextAttemptAt row.arrivedAt row.event.eventId

def EventDelivery.dueKey (row : EventDelivery) : DueKey :=
  Eventing.dueKey row.nextAttemptAt row.createdAt row.deliveryId

theorem inDueOrder_ordered (rows : List QueueRow) :
    Ordered QueueRow.dueKey rows (inDueOrder rows) :=
  orderedBy_ordered (fun _ _ => noLater_iff _ _ _ _ _ _) rows

theorem deliveriesInDueOrder_ordered (rows : List EventDelivery) :
    Ordered EventDelivery.dueKey rows (deliveriesInDueOrder rows) :=
  orderedBy_ordered (fun _ _ => noLater_iff _ _ _ _ _ _) rows

/-! ### The rows of each store -/

/-- Rows stored under their own identifiers. -/
structure Rows (α : Type) (keyOf : α → String) where
  table : Table α
  keyed : table.KeyedBy keyOf

abbrev OutboxRows := Rows QueueRow (fun row => row.event.eventId)

abbrev DeliveryRows := Rows EventDelivery EventDelivery.deliveryId

def QueueRow.leased (row : QueueRow) (now lease : Int) (token : String) : QueueRow :=
  { row with nextAttemptAt := now + lease, claimedAt := some now, claimToken := some token }

def EventDelivery.leased (row : EventDelivery) (now lease : Int) (token : String) :
    EventDelivery :=
  { row with nextAttemptAt := now + lease, claimedAt := some now, claimToken := some token }

/-! ### The reference backend -/

namespace InMemoryOutbox

def claimDue (rows : OutboxRows) (now lease : Int) (limit : Nat) (token : String) :
    List QueueRow × EventQueue :=
  takeEach (fun row => row.event.eventId) (fun row => row.isDue now)
    (fun row => row.leased now lease token) limit (inDueOrder rows.table.values) ([], rows.table)

/-- How many rows went back to the pool and how many were given up, and the rows. -/
def reclaimExpired (rows : OutboxRows) (now : Int) (maxReclaims limit : Nat) :
    (Nat × Nat) × EventQueue :=
  countEach (fun row => row.event.eventId) (fun row => row.isAbandoned now)
    (fun row => reclaimExhausted row.reclaims maxReclaims) (fun row => row.reclaimed now maxReclaims)
    limit (inDueOrder rows.table.values) ((0, 0), rows.table)

end InMemoryOutbox

namespace InMemoryDeliveryQueue

/-- The candidates are filtered, sorted and cut before any of them is written. -/
def claimDue (rows : DeliveryRows) (now lease : Int) (limit : Nat) (token : String) :
    List EventDelivery × DeliveryQueue :=
  let due := (deliveriesInDueOrder (rows.table.values.filter (fun row => row.isDue now))).take limit
  let claimed := due.map (fun row => row.leased now lease token)
  (claimed, rows.table.putRows EventDelivery.deliveryId claimed)

def reclaimExpired (rows : DeliveryRows) (now : Int) (maxReclaims limit : Nat) :
    (Nat × Nat) × DeliveryQueue :=
  countEach EventDelivery.deliveryId (fun row => row.isAbandoned now)
    (fun row => reclaimExhausted row.reclaims maxReclaims) (fun row => row.reclaimed now maxReclaims)
    limit (deliveriesInDueOrder rows.table.values) ((0, 0), rows.table)

end InMemoryDeliveryQueue

/-! ### The database -/

/-- The claim statement: the first due rows are ranked in due order, written, and answered
by rank. -/
def ClaimStatement {α : Type} (keyOf : α → String) (key : α → DueKey) (due : α → Bool)
    (leased : α → α) (table : Table α) (limit : Nat) (answer : List α) (table' : Table α) : Prop :=
  ∃ selected ranked, Selects key table.values due limit selected ∧ Ordered key selected ranked ∧
    answer = ranked.map leased ∧ Rewrites keyOf table selected leased table'

/-- The recovery statement: the first abandoned rows are written, and the statuses it
returns tell the ones given up from the others. -/
def ReclaimStatement {α : Type} (keyOf : α → String) (key : α → DueKey) (abandoned dead : α → Bool)
    (reclaimed : α → α) (table : Table α) (limit : Nat) (outcome : Nat × Nat) (table' : Table α) :
    Prop :=
  ∃ selected, Selects key table.values abandoned limit selected ∧
    outcome = ((selected.map reclaimed).countP (fun row => !dead row),
      (selected.map reclaimed).countP dead) ∧
    Rewrites keyOf table selected reclaimed table'

namespace PgOutbox

def ClaimDue (rows : OutboxRows) (now lease : Int) (limit : Nat) (token : String) :
    List QueueRow → EventQueue → Prop :=
  ClaimStatement (fun row => row.event.eventId) QueueRow.dueKey (fun row => row.isDue now)
    (fun row => row.leased now lease token) rows.table limit

def ReclaimExpired (rows : OutboxRows) (now : Int) (maxReclaims limit : Nat) :
    Nat × Nat → EventQueue → Prop :=
  ReclaimStatement (fun row => row.event.eventId) QueueRow.dueKey (fun row => row.isAbandoned now)
    (fun row => row.status = .dead) (fun row => row.reclaimed now maxReclaims) rows.table limit

end PgOutbox

namespace PgDeliveryQueue

def ClaimDue (rows : DeliveryRows) (now lease : Int) (limit : Nat) (token : String) :
    List EventDelivery → DeliveryQueue → Prop :=
  ClaimStatement EventDelivery.deliveryId EventDelivery.dueKey (fun row => row.isDue now)
    (fun row => row.leased now lease token) rows.table limit

def ReclaimExpired (rows : DeliveryRows) (now : Int) (maxReclaims limit : Nat) :
    Nat × Nat → DeliveryQueue → Prop :=
  ReclaimStatement EventDelivery.deliveryId EventDelivery.dueKey (fun row => row.isAbandoned now)
    (fun row => row.status = .dead) (fun row => row.reclaimed now maxReclaims) rows.table limit

end PgDeliveryQueue

/-! ### Agreement -/

/-- The statement has one outcome, and it is the reference backend's: the same answer, and
the same row under every identifier. -/
def Agrees {α β : Type} (statement : β → Table α → Prop) (reference : β × Table α) : Prop :=
  ∀ answer table', statement answer table' ↔
    answer = reference.1 ∧ ∀ id, table'.get id = reference.2.get id

section Statements

variable {α : Type} {keyOf : α → String} {key : α → DueKey} {table : Table α}

/-- Rows under identifiers of their own have due keys of their own. -/
theorem dueKeys_nodup (h : table.KeyedBy keyOf)
    (hid : ∀ first second, key first = key second → keyOf first = keyOf second) :
    (table.values.map key).Nodup := by
  have hids := h.keys_nodup
  rw [List.Nodup, List.pairwise_map] at hids ⊢
  exact hids.imp fun hne hsame => hne (hid _ _ hsame)

/-- A claim statement does what taking the first due rows and writing them back does. -/
theorem claimStatement_agrees (h : table.KeyedBy keyOf)
    (hid : ∀ first second, key first = key second → keyOf first = keyOf second)
    {ordered : List α} (hordered : Ordered key table.values ordered) (due : α → Bool)
    (leased : α → α) (hkey : ∀ row, keyOf (leased row) = keyOf row) (limit : Nat) :
    Agrees (ClaimStatement keyOf key due leased table limit)
      (((ordered.filter due).take limit).map leased,
        table.putRows keyOf (((ordered.filter due).take limit).map leased)) := by
  have hkeys := dueKeys_nodup h hid
  let first := (ordered.filter due).take limit
  have hfirst : Ordered key first first := (hordered.filter due).take limit
  have hsublist : first.Sublist ordered :=
    (List.take_sublist limit _).trans List.filter_sublist
  have hfirstKeys : (first.map key).Nodup :=
    ((hordered.1.map key).nodup_iff.mpr hkeys).sublist (hsublist.map key)
  have hvalues : ∀ row ∈ first, row ∈ table.values := fun row hrow =>
    hordered.1.mem_iff.mp (hsublist.subset hrow)
  intro answer table'
  constructor
  · rintro ⟨selected, ranked, hselects, hranked, rfl, hwritten⟩
    obtain rfl := (selects_iff hkeys hordered).mp hselects
    rw [hranked.unique hfirstKeys hfirst]
    exact ⟨rfl, (rewrites_iff h hvalues leased hkey).mp hwritten⟩
  · rintro ⟨rfl, hwritten⟩
    exact ⟨first, first, (selects_iff hkeys hordered).mpr rfl, hfirst, rfl,
      (rewrites_iff h hvalues leased hkey).mpr hwritten⟩

/-- A recovery statement does what counting and writing back the first abandoned rows
does. -/
theorem reclaimStatement_agrees (h : table.KeyedBy keyOf)
    (hid : ∀ first second, key first = key second → keyOf first = keyOf second)
    {ordered : List α} (hordered : Ordered key table.values ordered) {abandoned dead spent : α → Bool}
    (reclaimed : α → α) (hkey : ∀ row, keyOf (reclaimed row) = keyOf row)
    (hdead : ∀ row, abandoned row = true → dead (reclaimed row) = spent row) (limit : Nat) :
    Agrees (ReclaimStatement keyOf key abandoned dead reclaimed table limit)
      (countEach keyOf abandoned spent reclaimed limit ordered ((0, 0), table)) := by
  have hkeys := dueKeys_nodup h hid
  let first := (ordered.filter abandoned).take limit
  have hsublist : first.Sublist ordered :=
    (List.take_sublist limit _).trans List.filter_sublist
  have hvalues : ∀ row ∈ first, row ∈ table.values := fun row hrow =>
    hordered.1.mem_iff.mp (hsublist.subset hrow)
  have hspent : ∀ row ∈ first, dead (reclaimed row) = spent row := fun row hrow =>
    hdead row (List.mem_filter.mp (List.mem_of_mem_take hrow)).2
  have hkept : (first.map reclaimed).countP (fun row => !dead row) =
      first.countP (fun row => !spent row) := by
    rw [List.countP_map]
    exact List.countP_congr fun row hrow => by simp [hspent row hrow]
  have hgiven : (first.map reclaimed).countP dead = first.countP spent := by
    rw [List.countP_map]
    exact List.countP_congr fun row hrow => by simp [hspent row hrow]
  intro answer table'
  rw [countEach_eq hkey]
  simp only [Nat.zero_add, Nat.sub_zero]
  constructor
  · rintro ⟨selected, hselects, rfl, hwritten⟩
    obtain rfl := (selects_iff hkeys hordered).mp hselects
    exact ⟨by rw [hkept, hgiven], (rewrites_iff h hvalues reclaimed hkey).mp hwritten⟩
  · rintro ⟨rfl, hwritten⟩
    exact ⟨first, (selects_iff hkeys hordered).mpr rfl, by rw [hkept, hgiven],
      (rewrites_iff h hvalues reclaimed hkey).mpr hwritten⟩

end Statements

/-! ### The four operations -/

theorem QueueRow.eventId_of_dueKey (first second : QueueRow)
    (h : first.dueKey = second.dueKey) : first.event.eventId = second.event.eventId := by
  have hrest := congrArg (fun key : DueKey => (ofLex (ofLex key).2).2) h
  exact hrest

theorem EventDelivery.deliveryId_of_dueKey (first second : EventDelivery)
    (h : first.dueKey = second.dueKey) : first.deliveryId = second.deliveryId := by
  have hrest := congrArg (fun key : DueKey => (ofLex (ofLex key).2).2) h
  exact hrest

theorem QueueRow.dead_reclaimed {row : QueueRow} {now : Int} (h : row.isAbandoned now = true)
    (maxReclaims : Nat) :
    decide ((row.reclaimed now maxReclaims).status = .dead) =
      reclaimExhausted row.reclaims maxReclaims := by
  simp only [QueueRow.isAbandoned, Bool.and_eq_true, decide_eq_true_eq] at h
  unfold QueueRow.reclaimed
  cases reclaimExhausted row.reclaims maxReclaims with
  | false => simp [h.1.1]
  | true => simp

theorem EventDelivery.dead_reclaimed {row : EventDelivery} {now : Int}
    (h : row.isAbandoned now = true) (maxReclaims : Nat) :
    decide ((row.reclaimed now maxReclaims).status = .dead) =
      reclaimExhausted row.reclaims maxReclaims := by
  simp only [EventDelivery.isAbandoned, Bool.and_eq_true, decide_eq_true_eq] at h
  unfold EventDelivery.reclaimed
  cases reclaimExhausted row.reclaims maxReclaims with
  | false => simp [h.1.1]
  | true => simp

/-- The outbox recovers the same rows on both backends. -/
theorem outbox_reclaimExpired_agrees (rows : OutboxRows) (now : Int) (maxReclaims limit : Nat) :
    Agrees (PgOutbox.ReclaimExpired rows now maxReclaims limit)
      (InMemoryOutbox.reclaimExpired rows now maxReclaims limit) :=
  reclaimStatement_agrees rows.keyed QueueRow.eventId_of_dueKey (inDueOrder_ordered _)
    (fun row => row.reclaimed now maxReclaims) (fun _ => rfl)
    (fun _ hrow => QueueRow.dead_reclaimed hrow maxReclaims) limit

theorem deliveryQueue_reclaimExpired_agrees (rows : DeliveryRows) (now : Int)
    (maxReclaims limit : Nat) :
    Agrees (PgDeliveryQueue.ReclaimExpired rows now maxReclaims limit)
      (InMemoryDeliveryQueue.reclaimExpired rows now maxReclaims limit) :=
  reclaimStatement_agrees rows.keyed EventDelivery.deliveryId_of_dueKey
    (deliveriesInDueOrder_ordered _) (fun row => row.reclaimed now maxReclaims) (fun _ => rfl)
    (fun _ hrow => EventDelivery.dead_reclaimed hrow maxReclaims) limit

/-- The delivery queue claims the same rows on both backends: sorting the due rows is
picking the due rows of the sorted ones. -/
theorem deliveryQueue_claimDue_agrees (rows : DeliveryRows) (now lease : Int) (limit : Nat)
    (token : String) :
    Agrees (PgDeliveryQueue.ClaimDue rows now lease limit token)
      (InMemoryDeliveryQueue.claimDue rows now lease limit token) := by
  have hkeys := dueKeys_nodup rows.keyed EventDelivery.deliveryId_of_dueKey
  have hsorted := deliveriesInDueOrder_ordered rows.table.values
  have hdue : deliveriesInDueOrder (rows.table.values.filter (fun row => row.isDue now)) =
      (deliveriesInDueOrder rows.table.values).filter (fun row => row.isDue now) :=
    (deliveriesInDueOrder_ordered _).unique
      (hkeys.sublist (List.filter_sublist.map EventDelivery.dueKey)) (hsorted.filter _)
  unfold InMemoryDeliveryQueue.claimDue
  rw [hdue]
  exact claimStatement_agrees rows.keyed EventDelivery.deliveryId_of_dueKey hsorted
    (fun row => row.isDue now) (fun row => row.leased now lease token) (fun _ => rfl) limit

/-- The outbox takes a row before it looks at its limit. -/
theorem inMemoryOutbox_claimDue_eq (rows : OutboxRows) (now lease : Int) (limit : Nat)
    (token : String) :
    InMemoryOutbox.claimDue rows now lease limit token =
      let due := (inDueOrder rows.table.values).filter (fun row => row.isDue now)
      let written := (due.take (max limit 1)).map (fun row => row.leased now lease token)
      (written, rows.table.putRows (fun row => row.event.eventId) written) := by
  have hroom : ([] : List QueueRow).length < max limit 1 := by
    simp only [List.length_nil]
    omega
  have hkey : ∀ row : QueueRow, (row.leased now lease token).event.eventId = row.event.eventId :=
    fun _ => rfl
  unfold InMemoryOutbox.claimDue
  rw [takeEach_eq hkey _ [] rows.table hroom]
  simp

/-- Under the default lease it is the claim the workers make of the shared outbox. -/
theorem claimFirst_eq (rows : OutboxRows) (now : Int) (limit : Nat) (token : String) :
    EventQueue.claimFirst rows.table now (max limit 1) token =
      InMemoryOutbox.claimDue rows now leaseMs limit token := by
  have hkeys := dueKeys_nodup rows.keyed QueueRow.eventId_of_dueKey
  have hdue : inDueOrder (rows.table.values.filter (fun row => row.isDue now)) =
      (inDueOrder rows.table.values).filter (fun row => row.isDue now) :=
    (inDueOrder_ordered _).unique
      (hkeys.sublist (List.filter_sublist.map QueueRow.dueKey)) ((inDueOrder_ordered _).filter _)
  rw [inMemoryOutbox_claimDue_eq]
  unfold EventQueue.claimFirst
  rw [hdue]
  exact congrArg (Prod.mk _) (EventQueue.putAll_eq_putRows rows.table _)

theorem deliveryQueue_claimDue_eq (rows : DeliveryRows) (now : Int) (limit : Nat)
    (token : String) :
    DeliveryQueue.claimDue rows.table now limit token =
      InMemoryDeliveryQueue.claimDue rows now leaseMs limit token :=
  rfl

/-- The outbox claims the same rows on both backends, unless it is asked for none and one is
due. -/
theorem outbox_claimDue_agrees (rows : OutboxRows) (now lease : Int) (limit : Nat)
    (token : String) :
    Agrees (PgOutbox.ClaimDue rows now lease limit token)
        (InMemoryOutbox.claimDue rows now lease limit token) ↔
      limit ≠ 0 ∨ ∀ row ∈ rows.table.values, row.isDue now = false := by
  have hordered := inDueOrder_ordered rows.table.values
  have hclaim := claimStatement_agrees rows.keyed QueueRow.eventId_of_dueKey hordered
    (fun row => row.isDue now) (fun row => row.leased now lease token) (fun _ => rfl) limit
  rw [inMemoryOutbox_claimDue_eq]
  constructor
  · intro hagrees
    by_cases hlimit : limit = 0
    · right
      subst hlimit
      -- The statement answers no row and leaves the rows alone; the scan answers the first.
      obtain ⟨hnone, -⟩ := (hagrees [] rows.table).mp ((hclaim [] rows.table).mpr (by simp [Table.putRows]))
      intro row hrow
      by_contra hdue
      have hmem : row ∈ (inDueOrder rows.table.values).filter (fun row => row.isDue now) := by
        apply List.mem_filter.mpr
        exact ⟨hordered.1.mem_iff.mpr hrow, by simpa using hdue⟩
      cases hfirst : (inDueOrder rows.table.values).filter (fun row => row.isDue now) with
      | nil =>
          rw [hfirst] at hmem
          cases hmem
      | cons first rest =>
          rw [hfirst] at hnone
          cases hnone
    · exact .inl hlimit
  · intro hcondition
    rcases hcondition with hlimit | hnone
    · have hsame : max limit 1 = limit := by omega
      rw [hsame]
      exact hclaim
    · have hempty : (inDueOrder rows.table.values).filter (fun row => row.isDue now) = [] := by
        apply List.filter_eq_nil_iff.mpr
        intro row hrow
        simp [hnone row (hordered.1.mem_iff.mp hrow)]
      simp only [hempty, List.take_nil] at hclaim ⊢
      exact hclaim

/-- Both queues take the same rows on both backends, in the same order and to the same
values: the one exception is an outbox claim for no rows, which takes one on the reference
backend. -/
theorem backends_agree_iff (outbox : OutboxRows) (deliveries : DeliveryRows) (now lease : Int)
    (maxReclaims limit : Nat) (token : String) :
    (Agrees (PgOutbox.ClaimDue outbox now lease limit token)
          (InMemoryOutbox.claimDue outbox now lease limit token) ∧
        Agrees (PgOutbox.ReclaimExpired outbox now maxReclaims limit)
          (InMemoryOutbox.reclaimExpired outbox now maxReclaims limit) ∧
        Agrees (PgDeliveryQueue.ClaimDue deliveries now lease limit token)
          (InMemoryDeliveryQueue.claimDue deliveries now lease limit token) ∧
        Agrees (PgDeliveryQueue.ReclaimExpired deliveries now maxReclaims limit)
          (InMemoryDeliveryQueue.reclaimExpired deliveries now maxReclaims limit)) ↔
      limit ≠ 0 ∨ ∀ row ∈ outbox.table.values, row.isDue now = false := by
  constructor
  · intro hall
    exact (outbox_claimDue_agrees outbox now lease limit token).mp hall.1
  · intro hcondition
    apply And.intro
    · exact (outbox_claimDue_agrees outbox now lease limit token).mpr hcondition
    · exact ⟨outbox_reclaimExpired_agrees outbox now maxReclaims limit,
        deliveryQueue_claimDue_agrees deliveries now lease limit token,
        deliveryQueue_reclaimExpired_agrees deliveries now maxReclaims limit⟩

def waitingRow : QueueRow :=
  { event := { eventId := "e", eventType := "core.money.credited", entityType := "transaction"
               entityId := "t", payload := [] }
    status := .pending, attempts := 0, lastError := none, nextAttemptAt := 0, arrivedAt := 0
    claimedAt := none, reclaims := 0, claimToken := none }

/-- A store with no rows. -/
def Rows.none {α : Type} (keyOf : α → String) : Rows α keyOf :=
  ⟨.empty, fun _ _ h => nomatch h⟩

def waitingRows : OutboxRows :=
  ⟨Table.empty.put waitingRow.event.eventId waitingRow, (Rows.none _).keyed.put waitingRow⟩

/-- Asked for no row, the reference outbox claims the one that waits; the database claims
none. -/
theorem backends_disagree :
    ¬ ∀ (outbox : OutboxRows) (deliveries : DeliveryRows) (now lease : Int)
      (maxReclaims limit : Nat) (token : String),
      Agrees (PgOutbox.ClaimDue outbox now lease limit token)
          (InMemoryOutbox.claimDue outbox now lease limit token) ∧
        Agrees (PgOutbox.ReclaimExpired outbox now maxReclaims limit)
          (InMemoryOutbox.reclaimExpired outbox now maxReclaims limit) ∧
        Agrees (PgDeliveryQueue.ClaimDue deliveries now lease limit token)
          (InMemoryDeliveryQueue.claimDue deliveries now lease limit token) ∧
        Agrees (PgDeliveryQueue.ReclaimExpired deliveries now maxReclaims limit)
          (InMemoryDeliveryQueue.reclaimExpired deliveries now maxReclaims limit) := by
  intro hall
  have hagrees := (hall waitingRows (Rows.none _) 0 30000 3 0 "token").1
  rcases (outbox_claimDue_agrees waitingRows 0 30000 0 "token").mp hagrees with hlimit | hnone
  · exact hlimit rfl
  · have hdue := hnone waitingRow (by decide +kernel)
    exact Bool.noConfusion hdue

end WaslaCore.Eventing
