import WaslaCore.Data.CodeUnits
import WaslaCore.Data.Paging
import WaslaCore.Eventing.Ingress
import WaslaCore.Eventing.Selection

/-!
Pages of a queue. An operator reads a history page by page: a selection narrows the rows, a
position puts them in a total order, and a cursor resumes strictly after the last row read.
Instants stand in the rows, and in the selections, as the texts they were written in.
-/

namespace WaslaCore.Eventing

open Platform Data

/-! ### Positions -/

/-- An instant, and the identifier that breaks its ties. -/
structure Position where
  primary : String
  secondary : String
  deriving DecidableEq, Repr

/-- `compareInboundPosition` and `compareRevivalPosition`. -/
def comparePositions (left right : Position) : Ordering :=
  (compareTexts left.primary right.primary).then (compareTexts left.secondary right.secondary)

/-- `isAfter`: the pair is compared, not the columns separately. -/
def isAfter (position cursor : Position) : Bool :=
  if position.primary ≠ cursor.primary then textLess cursor.primary position.primary
  else textLess cursor.secondary position.secondary

def inPositionOrder {α : Type} (position : α → Position) (rows : List α) : List α :=
  rows.insertionSort fun left right => comparePositions (position left) (position right) ≠ .gt

/-- Where a position stands in the order. -/
def Position.rank (position : Position) : List Nat ×ₗ List Nat :=
  toLex (codeUnits position.primary, codeUnits position.secondary)

theorem comparePositions_cases (left right : Position) :
    (comparePositions left right = .lt ∧ left.rank < right.rank) ∨
      (comparePositions left right = .eq ∧ left = right) ∨
      (comparePositions left right = .gt ∧ right.rank < left.rank) := by
  unfold comparePositions Position.rank
  rcases compareTexts_cases left.primary right.primary with
    ⟨hcompare, hless⟩ | ⟨hcompare, hsame⟩ | ⟨hcompare, hmore⟩
  · exact .inl ⟨by rw [hcompare]; rfl, Prod.Lex.toLex_lt_toLex.mpr (.inl hless)⟩
  · rw [hcompare, hsame]
    rcases compareTexts_cases left.secondary right.secondary with
      ⟨hbreak, hless⟩ | ⟨hbreak, heq⟩ | ⟨hbreak, hmore⟩
    · exact .inl ⟨by rw [hbreak]; rfl, Prod.Lex.toLex_lt_toLex.mpr (.inr ⟨rfl, hless⟩)⟩
    · refine .inr (.inl ⟨by rw [hbreak]; rfl, ?_⟩)
      cases left
      cases right
      simp_all
    · exact .inr (.inr ⟨by rw [hbreak]; rfl, Prod.Lex.toLex_lt_toLex.mpr (.inr ⟨rfl, hmore⟩)⟩)
  · exact .inr (.inr ⟨by rw [hcompare]; rfl, Prod.Lex.toLex_lt_toLex.mpr (.inl hmore)⟩)

theorem comparePositions_ne_gt {left right : Position} :
    comparePositions left right ≠ .gt ↔ left.rank ≤ right.rank := by
  rcases comparePositions_cases left right with ⟨hcompare, hless⟩ | ⟨hcompare, rfl⟩ | ⟨hcompare, hmore⟩
  · simp [hcompare, hless.le]
  · simp [hcompare]
  · simp [hcompare, hmore]

theorem comparePositions_gt {left right : Position} :
    comparePositions left right = .gt ↔ right.rank < left.rank := by
  rw [← not_le, ← comparePositions_ne_gt, not_not]

theorem isAfter_iff {position cursor : Position} :
    isAfter position cursor = true ↔ cursor.rank < position.rank := by
  unfold isAfter Position.rank
  rw [Prod.Lex.toLex_lt_toLex]
  by_cases hsame : position.primary = cursor.primary
  · simp [hsame, textLess_iff]
  · have hapart : codeUnits cursor.primary ≠ codeUnits position.primary :=
      fun hunits => hsame (codeUnits_injective hunits).symm
    simp [hsame, hapart, textLess_iff]

theorem rank_injective : Function.Injective Position.rank := by
  intro left right h
  rcases comparePositions_cases left right with ⟨-, hless⟩ | ⟨-, hsame⟩ | ⟨-, hmore⟩
  · exact absurd h hless.ne
  · exact hsame
  · exact absurd h hmore.ne'

theorem inPositionOrder_ordered {α : Type} (position : α → Position) (rows : List α) :
    Ordered (fun row => (position row).rank) rows (inPositionOrder position rows) := by
  refine ⟨List.perm_insertionSort _ rows, ?_⟩
  have htotal : Std.Total (fun left right : α =>
      comparePositions (position left) (position right) ≠ .gt) :=
    ⟨fun left right => by
      rw [comparePositions_ne_gt, comparePositions_ne_gt]
      exact le_total _ _⟩
  have htrans : IsTrans α (fun left right =>
      comparePositions (position left) (position right) ≠ .gt) :=
    ⟨fun left middle right hleft hright => by
      rw [comparePositions_ne_gt] at hleft hright ⊢
      exact hleft.trans hright⟩
  exact (List.pairwise_insertionSort _ rows).imp comparePositions_ne_gt.mp

/-- Rows under identifiers of their own have positions of their own. -/
theorem ranks_nodup {α : Type} {keyOf : α → String} (rows : Rows α keyOf) {position : α → Position}
    (hsecondary : ∀ row, (position row).secondary = keyOf row) :
    (rows.table.values.map fun row => (position row).rank).Nodup := by
  have hkeys := rows.keyed.keys_nodup
  apply (List.nodup_map_iff_inj_on (List.Nodup.of_map _ hkeys)).mpr
  intro first hfirst second hsecond hrank
  have hsame : keyOf first = keyOf second := by
    rw [← hsecondary first, ← hsecondary second, rank_injective hrank]
  exact List.inj_on_of_nodup_map hkeys hfirst hsecond hsame

/-- The rows, each under its own identifier. -/
def Rows.stored {α : Type} {keyOf : α → String} (rows : List α) : Rows α keyOf where
  table := Table.empty.putRows keyOf rows
  keyed := by
    apply Table.KeyedBy.putRows
    intro key row hget
    cases hget

/-! ### Inbound events -/

/-- What a selection reads of an inbound row. -/
structure InboundRow where
  event : Envelope
  status : InboundStatus
  receivedAt : String

def InboundRow.position (row : InboundRow) : Position := ⟨row.receivedAt, row.event.eventId⟩

abbrev InboundRows := Rows InboundRow (fun row => row.event.eventId)

structure InboundSelection where
  eventIds : Option (List String)
  eventTypes : Option (List String)
  producer : Option String
  statuses : Option (List InboundStatus)
  receivedFrom : Option String
  receivedTo : Option String
  occurredFrom : Option String
  occurredTo : Option String
  after : Option Position
  limit : Nat

/-- What a selection asks of a row besides its position and the time it occurred at. -/
def narrowsSelection (row : InboundRow) (selection : InboundSelection) : Bool :=
  selection.eventIds.all (fun ids => row.event.eventId ∈ ids) &&
  selection.eventTypes.all (fun types => row.event.eventType ∈ types) &&
  selection.producer.all (fun producer => row.event.producer = producer) &&
  selection.statuses.all (fun statuses => row.status ∈ statuses) &&
  selection.receivedFrom.all (fun bound => !textLess row.receivedAt bound) &&
  selection.receivedTo.all (fun bound => !textLess bound row.receivedAt)

def matchesSelection (row : InboundRow) (selection : InboundSelection) : Bool :=
  narrowsSelection row selection &&
  selection.occurredFrom.all (fun bound => !textLess row.event.occurredAt bound) &&
  selection.occurredTo.all (fun bound => !textLess bound row.event.occurredAt) &&
  selection.after.all (fun after => comparePositions row.position after = .gt)

def InMemoryInboundEventStore.select (store : InboundRows) (selection : InboundSelection) :
    List InboundRow :=
  (inPositionOrder InboundRow.position
    (store.table.values.filter fun row => matchesSelection row selection)).take selection.limit

/-! ### Dead rows of the outbox -/

inductive OutboxStatus where
  | pending
  | published
  | dead
  deriving DecidableEq, Repr

/-- What a revival reads of an outbox row. -/
structure OutboxRow where
  event : Envelope
  status : OutboxStatus

def OutboxRow.position (row : OutboxRow) : Position := ⟨row.event.occurredAt, row.event.eventId⟩

structure OutboxRevivalSelection where
  eventIds : Option (List String)
  eventTypes : Option (List String)
  producer : Option String
  entityType : Option String
  entityId : Option String
  occurredFrom : Option String
  occurredTo : Option String
  after : Option Position
  limit : Nat

def matchesOutboxRevival (row : OutboxRow) (selection : OutboxRevivalSelection) : Bool :=
  row.status = .dead &&
  selection.eventIds.all (fun ids => row.event.eventId ∈ ids) &&
  selection.eventTypes.all (fun types => row.event.eventType ∈ types) &&
  selection.producer.all (fun producer => row.event.producer = producer) &&
  selection.entityType.all (fun entityType => row.event.entityType = entityType) &&
  selection.entityId.all (fun entityId => row.event.entityId = entityId) &&
  selection.occurredFrom.all (fun bound => !textLess row.event.occurredAt bound) &&
  selection.occurredTo.all (fun bound => !textLess bound row.event.occurredAt) &&
  selection.after.all (fun after => isAfter row.position after)

def InMemoryOutbox.selectDead (store : Rows OutboxRow fun row => row.event.eventId)
    (selection : OutboxRevivalSelection) : List OutboxRow :=
  (inPositionOrder OutboxRow.position
    (store.table.values.filter fun row => matchesOutboxRevival row selection)).take selection.limit

/-! ### Dead deliveries -/

/-- What a revival reads of a delivery. -/
structure DeliveryRow where
  deliveryId : String
  eventId : String
  subscriptionId : String
  status : DeliveryStatus
  createdAt : String

def DeliveryRow.position (row : DeliveryRow) : Position := ⟨row.createdAt, row.deliveryId⟩

structure DeliveryRevivalSelection where
  deliveryIds : Option (List String)
  eventIds : Option (List String)
  subscriptionId : Option String
  createdFrom : Option String
  createdTo : Option String
  after : Option Position
  limit : Nat

def matchesDeliveryRevival (row : DeliveryRow) (selection : DeliveryRevivalSelection) : Bool :=
  row.status = .dead &&
  selection.deliveryIds.all (fun ids => row.deliveryId ∈ ids) &&
  selection.eventIds.all (fun ids => row.eventId ∈ ids) &&
  selection.subscriptionId.all (fun subscriptionId => row.subscriptionId = subscriptionId) &&
  selection.createdFrom.all (fun bound => !textLess row.createdAt bound) &&
  selection.createdTo.all (fun bound => !textLess bound row.createdAt) &&
  selection.after.all (fun after => isAfter row.position after)

def InMemoryDeliveryQueue.selectDead (store : Rows DeliveryRow DeliveryRow.deliveryId)
    (selection : DeliveryRevivalSelection) : List DeliveryRow :=
  (inPositionOrder DeliveryRow.position
    (store.table.values.filter fun row => matchesDeliveryRevival row selection)).take selection.limit

/-! ### Paging -/

theorem follows_compare {α : Type} (position : α → Position) (after : Option Position) (row : α) :
    after.all (fun cursor => comparePositions (position row) cursor = .gt) =
      follows Position.rank position after row := by
  cases after with
  | none => rfl
  | some cursor =>
      rw [Bool.eq_iff_iff, follows_some, Option.all_some, decide_eq_true_iff, comparePositions_gt]

theorem follows_isAfter {α : Type} (position : α → Position) (after : Option Position) (row : α) :
    after.all (fun cursor => isAfter (position row) cursor) =
      follows Position.rank position after row := by
  cases after with
  | none => rfl
  | some cursor => rw [Bool.eq_iff_iff, follows_some, Option.all_some, isAfter_iff]

/-- A selection made again with a cursor of its own, a page at a time. -/
def InboundSelection.pages (selection : InboundSelection) (store : InboundRows)
    (after : Option Position) : List InboundRow :=
  InMemoryInboundEventStore.select store { selection with after := after }

def OutboxRevivalSelection.pages (selection : OutboxRevivalSelection)
    (store : Rows OutboxRow fun row => row.event.eventId) (after : Option Position) :
    List OutboxRow :=
  InMemoryOutbox.selectDead store { selection with after := after }

def DeliveryRevivalSelection.pages (selection : DeliveryRevivalSelection)
    (store : Rows DeliveryRow DeliveryRow.deliveryId) (after : Option Position) :
    List DeliveryRow :=
  InMemoryDeliveryQueue.selectDead store { selection with after := after }

theorem inbound_pages_exact (store : InboundRows) (selection : InboundSelection)
    (h : 1 ≤ selection.limit) :
    EnumeratesExactly (selection.pages store) InboundRow.position Position.rank selection.limit
      (store.table.values.filter fun row => matchesSelection row { selection with after := none }) := by
  apply enumeratesExactly (ranks_nodup store fun _ => rfl) h
    (inPositionOrder_ordered InboundRow.position)
  intro after
  unfold InboundSelection.pages InMemoryInboundEventStore.select
  congr 2
  apply List.filter_congr
  intro row _
  unfold matchesSelection
  rw [follows_compare InboundRow.position after row]
  simp [narrowsSelection]

theorem outbox_pages_exact (store : Rows OutboxRow fun row => row.event.eventId)
    (selection : OutboxRevivalSelection) (h : 1 ≤ selection.limit) :
    EnumeratesExactly (selection.pages store) OutboxRow.position Position.rank selection.limit
      (store.table.values.filter fun row =>
        matchesOutboxRevival row { selection with after := none }) := by
  apply enumeratesExactly (ranks_nodup store fun _ => rfl) h
    (inPositionOrder_ordered OutboxRow.position)
  intro after
  unfold OutboxRevivalSelection.pages InMemoryOutbox.selectDead
  congr 2
  apply List.filter_congr
  intro row _
  unfold matchesOutboxRevival
  rw [follows_isAfter OutboxRow.position after row]
  simp

theorem delivery_pages_exact (store : Rows DeliveryRow DeliveryRow.deliveryId)
    (selection : DeliveryRevivalSelection) (h : 1 ≤ selection.limit) :
    EnumeratesExactly (selection.pages store) DeliveryRow.position Position.rank selection.limit
      (store.table.values.filter fun row =>
        matchesDeliveryRevival row { selection with after := none }) := by
  apply enumeratesExactly (ranks_nodup store fun _ => rfl) h
    (inPositionOrder_ordered DeliveryRow.position)
  intro after
  unfold DeliveryRevivalSelection.pages InMemoryDeliveryQueue.selectDead
  congr 2
  apply List.filter_congr
  intro row _
  unfold matchesDeliveryRevival
  rw [follows_isAfter DeliveryRow.position after row]
  simp

/-- Selecting again after the last row of each full page enumerates every matching row once,
in the total order of the store, whichever of the three is read. -/
theorem paging_exact (inbound : InboundRows) (selection : InboundSelection)
    (outbox : Rows OutboxRow fun row => row.event.eventId) (revival : OutboxRevivalSelection)
    (deliveries : Rows DeliveryRow DeliveryRow.deliveryId) (revived : DeliveryRevivalSelection)
    (hselection : 1 ≤ selection.limit) (hrevival : 1 ≤ revival.limit) (hrevived : 1 ≤ revived.limit) :
    EnumeratesExactly (selection.pages inbound) InboundRow.position Position.rank selection.limit
        (inbound.table.values.filter fun row =>
          matchesSelection row { selection with after := none }) ∧
      EnumeratesExactly (revival.pages outbox) OutboxRow.position Position.rank revival.limit
        (outbox.table.values.filter fun row =>
          matchesOutboxRevival row { revival with after := none }) ∧
      EnumeratesExactly (revived.pages deliveries) DeliveryRow.position Position.rank revived.limit
        (deliveries.table.values.filter fun row =>
          matchesDeliveryRevival row { revived with after := none }) := by
  refine ⟨?_, ?_, ?_⟩
  · exact inbound_pages_exact inbound selection hselection
  · exact outbox_pages_exact outbox revival hrevival
  · exact delivery_pages_exact deliveries revived hrevived

/-! Two rows of one instant, the later identifier stored first, read a row at a time. -/

def tiedEvent (eventId : String) : Envelope :=
  ⟨eventId, "market.order.created", "1", "wasla-market", "2026-01-01T00:00:00.000Z", "order-1", none,
    "order", "order-1", .null⟩

def tiedInbound : InboundRows :=
  .stored [⟨tiedEvent "b", .dead, "2026-01-01T00:00:00.000Z"⟩,
    ⟨tiedEvent "a", .dead, "2026-01-01T00:00:00.000Z"⟩]

def tiedOutbox : Rows OutboxRow fun row => row.event.eventId :=
  .stored [⟨tiedEvent "b", .dead⟩, ⟨tiedEvent "a", .dead⟩]

def tiedDeliveries : Rows DeliveryRow DeliveryRow.deliveryId :=
  .stored [⟨"b", "event", "subscription", .dead, "2026-01-01T00:00:00.000Z"⟩,
    ⟨"a", "event", "subscription", .dead, "2026-01-01T00:00:00.000Z"⟩]

def inboundByOne : InboundSelection :=
  ⟨none, none, none, none, none, none, none, none, none, 1⟩

def outboxByOne : OutboxRevivalSelection := ⟨none, none, none, none, none, none, none, none, 1⟩

def deliveriesByOne : DeliveryRevivalSelection := ⟨none, none, none, none, none, none, 1⟩

example : ((inboundByOne.pages tiedInbound (some ⟨"2026-01-01T00:00:00.000Z", "a"⟩)).map
    InboundRow.position) = [⟨"2026-01-01T00:00:00.000Z", "b"⟩] := by
  decide +kernel

theorem paging_exact_tied :
    EnumeratesExactly (inboundByOne.pages tiedInbound) InboundRow.position Position.rank 1
        (tiedInbound.table.values.filter fun row => matchesSelection row inboundByOne) ∧
      EnumeratesExactly (outboxByOne.pages tiedOutbox) OutboxRow.position Position.rank 1
        (tiedOutbox.table.values.filter fun row => matchesOutboxRevival row outboxByOne) ∧
      EnumeratesExactly (deliveriesByOne.pages tiedDeliveries) DeliveryRow.position Position.rank 1
        (tiedDeliveries.table.values.filter fun row => matchesDeliveryRevival row deliveriesByOne) :=
  paging_exact tiedInbound inboundByOne tiedOutbox outboxByOne tiedDeliveries deliveriesByOne
    (by decide) (by decide) (by decide)

end WaslaCore.Eventing
