import WaslaCore.Fulfillment.Effects
import WaslaCore.Money.Reconciliation

/-!
A fulfillment closes once. The write that closes it compares the stored status,
so of any number of calls that read it open one commits its closure and every
other learns that it lost, with nothing of its own committed. A closed row is
written again only from a row that was read closed.
-/

namespace WaslaCore.Fulfillment

open WaslaCore.Data WaslaCore.Platform WaslaCore.Interleaving

/-- The closure events of one fulfillment. -/
def closureEvents (id : String) (db : Db) : Nat :=
  eventsOf "core.fulfillment.completed" id db.outbox +
    eventsOf "core.fulfillment.cancelled" id db.outbox

/-- The audit entries of its closings. -/
def closureEntries (id : String) (db : Db) : Nat :=
  entriesOf "fulfillment.closed" id db.audit + entriesOf "fulfillment.cancelled" id db.audit +
    entriesOf "fulfillment.refused" id db.audit

def closedNow (id : String) (db : Db) : Bool :=
  (db.fulfillments.get id).any (fun row => isClosed row.status)

/-- Two rows of one fulfillment tell the same closure. -/
structure SameClosure (row closed : Fulfillment) : Prop where
  status : row.status = closed.status
  settlement : row.settlementState = closed.settlementState
  hold : row.paymentAuthorizationId = closed.paymentAuthorizationId
  completedAt : row.completedAt = closed.completedAt
  reason : row.closureReason = closed.closureReason

theorem SameClosure.refl (row : Fulfillment) : SameClosure row row := ⟨rfl, rfl, rfl, rfl, rfl⟩

theorem SameClosure.trans {first second third : Fulfillment} (h : SameClosure first second)
    (h' : SameClosure second third) : SameClosure first third :=
  ⟨h.status.trans h'.status, h.settlement.trans h'.settlement, h.hold.trans h'.hold,
    h.completedAt.trans h'.completedAt, h.reason.trans h'.reason⟩

/-- A closed fulfillment stays closed, as it was closed. -/
def ClosuresStay (before after : Db) : Prop :=
  ∀ id closed, before.fulfillments.get id = some closed → isClosed closed.status = true →
    ∃ row, after.fulfillments.get id = some row ∧ SameClosure row closed

theorem ClosuresStay.refl (db : Db) : ClosuresStay db db :=
  fun _ closed hclosed _ => ⟨closed, hclosed, SameClosure.refl closed⟩

theorem ClosuresStay.trans {first second third : Db} (h : ClosuresStay first second)
    (h' : ClosuresStay second third) : ClosuresStay first third := by
  intro id closed hclosed hstatus
  obtain ⟨middle, hmiddle, hsame⟩ := h id closed hclosed hstatus
  obtain ⟨last, hlast, hsame'⟩ := h' id middle hmiddle (by rwa [hsame.status])
  exact ⟨last, hlast, hsame'.trans hsame⟩

/-- One closure event and one closing entry where the fulfillment stands closed,
none where it does not. -/
structure ClosedOnce (id : String) (db : Db) : Prop where
  events : closureEvents id db = if closedNow id db then 1 else 0
  entries : closureEntries id db = if closedNow id db then 1 else 0

/-! ### What a commit publishes -/

/-- The fulfillment a step of coordination closes. -/
def Coordination.closes : Coordination → Option String
  | .refused fulfillment _ _ => some fulfillment.fulfillmentId
  | .closed _ row _ _ => some row.fulfillmentId
  | _ => Option.none

theorem closureEvent_type (row : Fulfillment) (capturedMinor : Option Int) :
    (closureEvent row capturedMinor).entityId = row.fulfillmentId ∧
      (closureEvent row capturedMinor).eventType =
        if row.status = .cancelled then "core.fulfillment.cancelled"
        else "core.fulfillment.completed" := by
  unfold closureEvent
  split
  · exact ⟨rfl, rfl⟩
  · exact ⟨rfl, rfl⟩

/-- Money events and entries are none of a closing. -/
theorem movement_closes_nothing (movement : Money.Movement) (id : String) :
    eventsOf "core.fulfillment.completed" id (movement.staged UnitOfWork.empty).events = 0 ∧
    eventsOf "core.fulfillment.cancelled" id (movement.staged UnitOfWork.empty).events = 0 ∧
    entriesOf "fulfillment.closed" id (movement.staged UnitOfWork.empty).audits = 0 ∧
    entriesOf "fulfillment.cancelled" id (movement.staged UnitOfWork.empty).audits = 0 ∧
    entriesOf "fulfillment.refused" id (movement.staged UnitOfWork.empty).audits = 0 := by
  cases movement <;> simp [Money.Movement.staged, eventsOf, entriesOf, UnitOfWork.empty,
    Money.stageWallet, Money.stageCredit, Money.stageAuthorize, Money.stageCapture,
    Money.stageRefund, Money.stageVoid, Money.moneyAudit]

theorem coordination_closure_events (coordination : Coordination) (id : String) :
    eventsOf "core.fulfillment.completed" id (coordination.staged UnitOfWork.empty).events +
      eventsOf "core.fulfillment.cancelled" id (coordination.staged UnitOfWork.empty).events =
        if coordination.closes = some id then 1 else 0 := by
  have hclosure : ∀ row capturedMinor,
      eventsOf "core.fulfillment.completed" id [closureEvent row capturedMinor] +
        eventsOf "core.fulfillment.cancelled" id [closureEvent row capturedMinor] =
          if row.fulfillmentId = id then 1 else 0 := by
    intro row capturedMinor
    obtain ⟨hid, htype⟩ := closureEvent_type row capturedMinor
    simp only [eventsOf, List.countP_cons, List.countP_nil, hid, htype]
    split_ifs <;> simp_all
  cases coordination with
  | closed current row capturedMinor action =>
      simp only [Coordination.closes, Option.some.injEq]
      exact hclosure row capturedMinor
  | refused row capturedMinor extra =>
      simp only [Coordination.closes, Option.some.injEq]
      exact hclosure row capturedMinor
  | none => simp [Coordination.closes, Coordination.staged, UnitOfWork.empty, eventsOf]
  | created row requestedService =>
      simp [Coordination.closes, Coordination.staged, stageCreated, createdEvent, UnitOfWork.empty,
        eventsOf]
  | dispatched current payload =>
      simp [Coordination.closes, Coordination.staged, stageDispatched, dispatchedEvent,
        UnitOfWork.empty, eventsOf]
  | traced current jobId =>
      simp [Coordination.closes, Coordination.staged, stageTraced, UnitOfWork.empty, eventsOf]
  | marked cancelled payload =>
      simp [Coordination.closes, Coordination.staged, stageMarked, executedAfterCancellationEvent,
        UnitOfWork.empty, eventsOf]

theorem coordination_closure_entries {seen : Seen} {movement : Money.Movement}
    {coordination : Coordination} (hlegal : coordination.Legal seen movement) (id : String) :
    entriesOf "fulfillment.closed" id (coordination.staged UnitOfWork.empty).audits +
      entriesOf "fulfillment.cancelled" id (coordination.staged UnitOfWork.empty).audits +
      entriesOf "fulfillment.refused" id (coordination.staged UnitOfWork.empty).audits =
        if coordination.closes = some id then 1 else 0 := by
  cases coordination with
  | closed current row capturedMinor action =>
      have haction := hlegal.2.2.2.2.2.1
      simp only [Coordination.closes, Coordination.staged, stageClosed, auditEntry,
        UnitOfWork.empty, entriesOf, haction, UnitOfWork.audit_audits, UnitOfWork.emit_audits,
        UnitOfWork.stage_audits, List.nil_append, List.countP_cons, List.countP_nil,
        Option.some.injEq]
      split_ifs <;> simp_all
  | refused row capturedMinor extra =>
      simp [Coordination.closes, Coordination.staged, stageRefused, auditEntry, UnitOfWork.empty,
        entriesOf, List.countP_cons]
  | none => simp [Coordination.closes, Coordination.staged, UnitOfWork.empty, entriesOf]
  | created row requestedService =>
      simp [Coordination.closes, Coordination.staged, stageCreated, auditEntry, UnitOfWork.empty,
        entriesOf]
  | dispatched current payload =>
      simp [Coordination.closes, Coordination.staged, stageDispatched, auditEntry,
        UnitOfWork.empty, entriesOf]
  | traced current jobId =>
      simp [Coordination.closes, Coordination.staged, stageTraced, auditEntry, UnitOfWork.empty,
        entriesOf]
  | marked cancelled payload =>
      simp [Coordination.closes, Coordination.staged, stageMarked, auditEntry,
        UnitOfWork.empty, entriesOf]

section Landed

variable {seen : Seen} {operation : Operation} {db db' : Db}

theorem closureEvents_commit (h : Commit seen operation db db') (id : String) :
    closureEvents id db' =
      closureEvents id db + if operation.coordination.closes = some id then 1 else 0 := by
  obtain ⟨hcompleted, hcancelled, -⟩ := movement_closes_nothing operation.movement id
  have hevents := coordination_closure_events operation.coordination id
  unfold closureEvents
  rw [commit_outbox h.committed, eventsOf_append, eventsOf_append, operation.eventsOf_staged,
    operation.eventsOf_staged, hcompleted, hcancelled, ← hevents]
  omega

theorem closureEntries_commit (h : Commit seen operation db db') (id : String) :
    closureEntries id db' =
      closureEntries id db + if operation.coordination.closes = some id then 1 else 0 := by
  obtain ⟨-, -, hclosed, hcancelled, hrefused⟩ := movement_closes_nothing operation.movement id
  have hentries := coordination_closure_entries h.legal.coordination id
  unfold closureEntries
  rw [commit_audit h.committed, ← hentries]
  simp only [entriesOf_append, entriesOf_recorded, operation.entriesOf_staged, hclosed,
    hcancelled, hrefused]
  omega

end Landed

/-! ### Closure as a law -/

/-- A closed row that was read is still stored as it was closed. -/
def ClosureTold (row : Fulfillment) (db : Db) : Prop :=
  isClosed row.status = true →
    ∃ stored, db.fulfillments.get row.fulfillmentId = some stored ∧ SameClosure stored row

/-- Single closure as a law of the database. -/
def closure : Law where
  inv := fun db => ∀ id, ClosedOnce id db
  guar := ClosuresStay
  guar_refl := ClosuresStay.refl
  guar_trans := ClosuresStay.trans
  known := fun query answer db =>
    ∀ row ∈ fulfillmentsShown ⟨.read query, .ok answer⟩, ClosureTold row db
  known_stable := by
    intro query answer db db' hguar hknown row hrow hclosed
    obtain ⟨stored, hstored, hsame⟩ := hknown row hrow hclosed
    obtain ⟨after, hafter, hsame'⟩ := hguar _ stored hstored (by rwa [hsame.status])
    exact ⟨after, hafter, hsame'.trans hsame⟩

/-- Every closed row the call has read is stored as the call read it. -/
def ClosuresTold (seen : Seen) (db : Db) : Prop := ∀ row ∈ fulfillmentsRead seen, ClosureTold row db

theorem closures_told {seen : Seen} {db : Db} (h : closure.Told seen db) : ClosuresTold seen db :=
  h.shown (fun _ _ hknown => hknown) (fun _ hother => (shown_nothing hother).2.1)

/-- A row is shown only if it is stored, under the identifier it carries. -/
theorem closure_read {db : Db} (h : Stocked db) {query : Query} {value : query.Answer}
    (hvalue : value = query.eval db) : closure.known query value db := by
  intro row hrow _
  obtain ⟨id, hid⟩ := fulfillment_stored hvalue hrow
  have hkey : row.fulfillmentId = id := h.fulfillments id row hid
  exact ⟨row, by rw [hkey]; exact hid, SameClosure.refl row⟩

/-! ### Closure under commits -/

section Landed

variable {seen : Seen} {operation : Operation} {db db' : Db}

/-- A write over an open row leaves every closed row as it was. -/
theorem placed_over_open {key : String} {row : Fulfillment}
    (hplaced : Placed db.fulfillments db'.fulfillments key row)
    (hopen : ∀ stored, db.fulfillments.get key = some stored → isClosed stored.status = false) :
    ClosuresStay db db' := by
  intro id closed hclosed hstatus
  have hid : key ≠ id := by
    rintro rfl
    rw [hopen closed hclosed] at hstatus
    cases hstatus
  exact ⟨closed, by rw [hplaced.get_ne hid, hclosed], SameClosure.refl closed⟩

/-- A write that keeps the closure it finds leaves every closed row as it was. -/
theorem placed_over_closed {key : String} {row stored : Fulfillment}
    (hplaced : Placed db.fulfillments db'.fulfillments key row)
    (hstored : db.fulfillments.get key = some stored) (hsame : SameClosure row stored) :
    ClosuresStay db db' := by
  intro id closed hclosed hstatus
  by_cases hid : key = id
  · subst hid
    rw [hstored] at hclosed
    obtain rfl := Option.some.inj hclosed
    exact ⟨row, hplaced.get_self, hsame⟩
  · exact ⟨closed, by rw [hplaced.get_ne hid, hclosed], SameClosure.refl closed⟩

/-- The row a late acceptance traces is stored as it was read: cancelled. -/
theorem traced_closed (htold : ClosuresTold seen db) {current stored : Fulfillment}
    (hread : current ∈ fulfillmentsRead seen) (hcancelled : current.status = .cancelled)
    (hstored : db.fulfillments.get current.fulfillmentId = some stored) :
    SameClosure stored current := by
  obtain ⟨found, hfound, hsame⟩ := htold current hread (by rw [hcancelled]; rfl)
  rw [hstored] at hfound
  exact Option.some.inj hfound ▸ hsame

theorem closuresStay_commit (h : Commit seen operation db db') (htold : ClosuresTold seen db) :
    ClosuresStay db db' := by
  obtain ⟨movement, coordination⟩ := operation
  have hlegal := h.legal.coordination
  have heffect := coordination_effect h.committed
  dsimp only at hlegal heffect
  have hfresh : ∀ {key : String}, db.fulfillments.get key = none →
      ∀ stored, db.fulfillments.get key = some stored → isClosed stored.status = false := by
    intro key hnone stored hstored
    rw [hnone] at hstored
    cases hstored
  cases heffect with
  | idle hrows _ =>
      intro id closed hclosed _
      exact ⟨closed, by rw [hrows, hclosed], SameClosure.refl closed⟩
  | created hnone _ hplaced => exact placed_over_open hplaced (hfresh hnone)
  | refused hnone _ hplaced => exact placed_over_open hplaced (hfresh hnone)
  | dispatched _ hstored hopen hplaced =>
      refine placed_over_open hplaced (fun found hfound => ?_)
      rw [hstored] at hfound
      rw [← Option.some.inj hfound, hopen]
      rfl
  | closed hstored hopen hplaced =>
      refine placed_over_open hplaced (fun found hfound => ?_)
      rw [hstored] at hfound
      rw [← Option.some.inj hfound, hopen]
  | traced hstored hplaced =>
      have hsame := traced_closed htold hlegal.1 hlegal.2.1 hstored
      exact placed_over_closed hplaced hstored ⟨hsame.status.symm, hsame.settlement.symm,
        hsame.hold.symm, hsame.completedAt.symm, hsame.reason.symm⟩
  | marked hstored _ _ hplaced =>
      exact placed_over_closed hplaced hstored ⟨rfl, rfl, rfl, rfl, rfl⟩

theorem closedNow_placed {key : String} {row : Fulfillment}
    (hplaced : Placed db.fulfillments db'.fulfillments key row) (id : String) :
    closedNow id db' = if key = id then isClosed row.status else closedNow id db := by
  unfold closedNow
  split
  · rename_i hid
    rw [← hid, hplaced.get_self]
    rfl
  · rename_i hid
    rw [hplaced.get_ne hid]

/-- A fulfillment is closed by the step that closes it, open before that, and
otherwise as closed as it was. -/
theorem closedNow_commit (h : Commit seen operation db db') (htold : ClosuresTold seen db)
    (id : String) :
    if operation.coordination.closes = some id then
      closedNow id db = false ∧ closedNow id db' = true
    else closedNow id db' = closedNow id db := by
  obtain ⟨movement, coordination⟩ := operation
  have hlegal := h.legal.coordination
  have heffect := coordination_effect h.committed
  dsimp only at hlegal heffect ⊢
  cases heffect with
  | idle hrows hidle =>
      rw [if_neg]
      · rw [closedNow, closedNow, hrows]
      · rcases hidle with rfl | ⟨current, jobId, rfl⟩ <;> rintro ⟨⟩
  | @created row requestedService hfresh _ hplaced =>
      have hstatus : row.status = .coordinating := hlegal.1
      rw [if_neg (by rintro ⟨⟩), closedNow_placed hplaced, hstatus]
      split
      · rename_i hid
        rw [closedNow, ← hid, hfresh]
        rfl
      · rfl
  | @refused row capturedMinor extra hfresh _ hplaced =>
      have hstatus : row.status = .failed := hlegal.1
      rw [closedNow_placed hplaced, hstatus]
      split
      · rename_i hid
        obtain rfl := Option.some.inj hid
        rw [closedNow, hfresh]
        exact ⟨rfl, by simp [isClosed]⟩
      · rename_i hid
        rw [if_neg (fun heq => hid (congrArg some heq))]
  | @dispatched current payload stored next hnext hstored hopen hplaced =>
      rw [if_neg (by rintro ⟨⟩), closedNow_placed hplaced, hnext]
      split
      · rename_i hid
        rw [closedNow, ← hid, hstored, Option.any_some, hopen]
        rfl
      · rfl
  | @closed current row capturedMinor action stored hstored hopen hplaced =>
      have hclosed : isClosed row.status = true := hlegal.2.2.2.2.1
      rw [closedNow_placed hplaced]
      split
      · rename_i hid
        obtain rfl := Option.some.inj hid
        rw [closedNow, hstored, if_pos rfl]
        exact ⟨hopen, hclosed⟩
      · rename_i hid
        rw [if_neg (fun heq => hid (congrArg some heq))]
  | traced hstored hplaced =>
      have hsame := traced_closed htold hlegal.1 hlegal.2.1 hstored
      rw [if_neg (by rintro ⟨⟩), closedNow_placed hplaced]
      split
      · rename_i hid
        rw [closedNow, ← hid, hstored, Option.any_some, hsame.status]
        rfl
      · rfl
  | marked hstored _ _ hplaced =>
      rw [if_neg (by rintro ⟨⟩), closedNow_placed hplaced]
      split
      · rename_i hid
        rw [closedNow, ← hid, hstored]
        rfl
      · rfl

theorem closedOnce_commit (h : Commit seen operation db db') (htold : ClosuresTold seen db)
    {id : String} (honce : ClosedOnce id db) : ClosedOnce id db' := by
  have hevents := closureEvents_commit h id
  have hentries := closureEntries_commit h id
  have hclosed := closedNow_commit h htold id
  rw [honce.events] at hevents
  rw [honce.entries] at hentries
  by_cases hcloses : operation.coordination.closes = some id
  · rw [if_pos hcloses] at hevents hentries hclosed
    rw [hclosed.1] at hevents hentries
    exact ⟨by rw [hevents, hclosed.2]; rfl, by rw [hentries, hclosed.2]; rfl⟩
  · rw [if_neg hcloses] at hevents hentries hclosed
    exact ⟨by rw [hevents, hclosed, Nat.add_zero], by rw [hentries, hclosed, Nat.add_zero]⟩

end Landed

theorem closure_empty (start : Int) : closure.inv (Db.empty start) := fun _ => ⟨rfl, rfl⟩

theorem closure_holds : closure.Holds anything where
  commit := fun h hinv htold _ =>
    ⟨fun id => closedOnce_commit h (closures_told htold) (hinv id),
      closuresStay_commit h (closures_told htold)⟩
  record := by
    intro db entry haction hinv
    refine ⟨fun id => ⟨(hinv id).events, ?_⟩, ClosuresStay.refl db⟩
    have hentries : closureEntries id { db with audit := db.audit ++ [entry.recorded] } =
        closureEntries id db := by
      simp [closureEntries, entriesOf, AuditEntry.recorded, haction]
    rw [hentries]
    exact (hinv id).entries
  tick := fun _ _ hinv => ⟨fun id => ⟨(hinv id).events, (hinv id).entries⟩, ClosuresStay.refl _⟩
  read := fun _ hstocked _ => closure_read hstocked rfl

end WaslaCore.Fulfillment
