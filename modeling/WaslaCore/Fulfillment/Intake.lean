import WaslaCore.Fulfillment.Losers
import WaslaCore.Fulfillment.Rules

/-!
An order is taken up once. Deliveries of one order race from the read that finds
no fulfillment to the insert whose unique columns let one of them through; the
intake that goes through publishes its one event in the same unit of work, and
every other delivery answers with the row that won. What such a delivery may leave
behind is the audit entry of a release that failed, which is written outside the
unit of work on purpose.
-/

namespace WaslaCore.Fulfillment

open WaslaCore.Data WaslaCore.Platform WaslaCore.Interleaving

/-! ### What an intake publishes -/

def createdEvents (id : String) (db : Db) : Nat :=
  eventsOf "core.fulfillment.created" id db.outbox

def refusedEntries (id : String) (db : Db) : Nat := entriesOf "fulfillment.refused" id db.audit

/-- The events a fulfillment was taken up with: the created event, or the closure
event of an order that was refused at intake. -/
def intakeEvents (id : String) (db : Db) : Nat :=
  createdEvents id db + if refusedEntries id db = 0 then 0 else closureEvents id db

/-- The fulfillment is stored, for the order it was taken up for. -/
def StoredFor (row : Fulfillment) (db : Db) : Prop :=
  ∃ stored, db.fulfillments.get row.fulfillmentId = some stored ∧
    stored.marketOrderReference = row.marketOrderReference

/-- A fulfillment stays, for the order it was taken up for. -/
def OrdersStay (before after : Db) : Prop :=
  ∀ id row, before.fulfillments.get id = some row →
    ∃ row', after.fulfillments.get id = some row' ∧
      row'.marketOrderReference = row.marketOrderReference

theorem OrdersStay.refl (db : Db) : OrdersStay db db := fun _ row hrow => ⟨row, hrow, rfl⟩

theorem OrdersStay.trans {first second third : Db} (h : OrdersStay first second)
    (h' : OrdersStay second third) : OrdersStay first third := by
  intro id row hrow
  obtain ⟨middle, hmiddle, hsame⟩ := h id row hrow
  obtain ⟨last, hlast, hsame'⟩ := h' id middle hmiddle
  exact ⟨last, hlast, hsame'.trans hsame⟩

theorem OrdersStay.stored {before after : Db} (h : OrdersStay before after) {row : Fulfillment}
    (hrow : StoredFor row before) : StoredFor row after := by
  obtain ⟨stored, hstored, horder⟩ := hrow
  obtain ⟨row', hrow', hsame⟩ := h _ stored hstored
  exact ⟨row', hrow', hsame.trans horder⟩

/-- A fulfillment that stands was taken up once, and one that was refused at intake
stands closed. -/
structure IntakeOnce (id : String) (db : Db) : Prop where
  once : createdEvents id db + refusedEntries id db =
    if (db.fulfillments.get id).isSome then 1 else 0
  refused : refusedEntries id db ≠ 0 → closedNow id db = true

/-- An intake's event is published once for each fulfillment that stands. -/
theorem IntakeOnce.events {id : String} {db : Db} (h : IntakeOnce id db)
    (hclosure : ClosedOnce id db) :
    intakeEvents id db = if (db.fulfillments.get id).isSome then 1 else 0 := by
  have honce := h.once
  unfold intakeEvents
  by_cases hrefused : refusedEntries id db = 0
  · rw [if_pos hrefused, ← honce, hrefused]
  · have hclosed := h.refused hrefused
    have hstored : (db.fulfillments.get id).isSome = true := by
      obtain ⟨row, hrow, -⟩ := (Option.any_eq_true _ _).mp hclosed
      rw [hrow]
      rfl
    rw [if_pos hstored] at honce ⊢
    rw [if_neg hrefused, hclosure.events, hclosed, if_pos rfl]
    omega

/-- The fulfillment a step of coordination takes an order up as. -/
def Coordination.takesUp : Coordination → Option String
  | .created fulfillment _ => some fulfillment.fulfillmentId
  | .refused fulfillment _ _ => some fulfillment.fulfillmentId
  | _ => Option.none

theorem movement_takes_nothing_up (movement : Money.Movement) (id : String) :
    eventsOf "core.fulfillment.created" id (movement.staged UnitOfWork.empty).events = 0 ∧
    entriesOf "fulfillment.refused" id (movement.staged UnitOfWork.empty).audits = 0 := by
  cases movement <;> simp [Money.Movement.staged, eventsOf, entriesOf, UnitOfWork.empty,
    Money.stageWallet, Money.stageCredit, Money.stageAuthorize, Money.stageCapture,
    Money.stageRefund, Money.stageVoid, Money.moneyAudit]

theorem closureEvent_not_created (row : Fulfillment) (capturedMinor : Option Int) (id : String) :
    eventsOf "core.fulfillment.created" id [closureEvent row capturedMinor] = 0 := by
  have htype := (closureEvent_type row capturedMinor).2
  simp only [eventsOf, List.countP_cons, List.countP_nil, htype]
  split <;> simp

theorem coordination_intake (coordination : Coordination) {seen : Seen} {movement : Money.Movement}
    (hlegal : coordination.Legal seen movement) (id : String) :
    eventsOf "core.fulfillment.created" id (coordination.staged UnitOfWork.empty).events +
      entriesOf "fulfillment.refused" id (coordination.staged UnitOfWork.empty).audits =
        if coordination.takesUp = some id then 1 else 0 := by
  cases coordination with
  | none => simp [Coordination.takesUp, Coordination.staged, UnitOfWork.empty, eventsOf, entriesOf]
  | created row requestedService =>
      simp [Coordination.takesUp, Coordination.staged, stageCreated, createdEvent, auditEntry,
        UnitOfWork.empty, eventsOf, entriesOf, List.countP_cons]
  | refused row capturedMinor extra =>
      have hevents := closureEvent_not_created row capturedMinor id
      simp [Coordination.takesUp, Coordination.staged, stageRefused, auditEntry, UnitOfWork.empty,
        entriesOf, List.countP_cons, hevents]
  | dispatched current payload =>
      simp [Coordination.takesUp, Coordination.staged, stageDispatched, dispatchedEvent, auditEntry,
        UnitOfWork.empty, eventsOf, entriesOf]
  | closed current row capturedMinor action =>
      have hevents := closureEvent_not_created row capturedMinor id
      have haction : action ≠ "fulfillment.refused" := by
        rw [hlegal.2.2.2.2.2.1]
        split <;> simp
      simp [Coordination.takesUp, Coordination.staged, stageClosed, auditEntry, UnitOfWork.empty,
        entriesOf, hevents, haction]
  | traced current jobId =>
      simp [Coordination.takesUp, Coordination.staged, stageTraced, auditEntry, UnitOfWork.empty,
        eventsOf, entriesOf]
  | marked cancelled payload =>
      simp [Coordination.takesUp, Coordination.staged, stageMarked, executedAfterCancellationEvent,
        auditEntry, UnitOfWork.empty, eventsOf, entriesOf]

/-! ### Intakes as a law -/

section Landed

variable {seen : Seen} {operation : Operation} {db db' : Db}

theorem intake_commit (h : Commit seen operation db db') (id : String) :
    createdEvents id db' + refusedEntries id db' = createdEvents id db + refusedEntries id db +
      if operation.coordination.takesUp = some id then 1 else 0 := by
  obtain ⟨hcreated, hrefused⟩ := movement_takes_nothing_up operation.movement id
  have hcounts := coordination_intake operation.coordination h.legal.coordination id
  unfold createdEvents refusedEntries
  rw [commit_outbox h.committed, commit_audit h.committed]
  simp only [eventsOf_append, entriesOf_append, entriesOf_recorded, operation.eventsOf_staged,
    operation.entriesOf_staged, hcreated, hrefused]
  omega

/-- A commit that enters a refusal closes the fulfillment. -/
theorem refused_commit (h : Commit seen operation db db') {id : String}
    (hrefused : refusedEntries id db' ≠ refusedEntries id db) :
    operation.coordination.closes = some id := by
  have hmovement := (movement_takes_nothing_up operation.movement id).2
  have hentries := coordination_closure_entries h.legal.coordination id
  unfold refusedEntries at hrefused
  rw [commit_audit h.committed, entriesOf_append, entriesOf_recorded, operation.entriesOf_staged,
    hmovement] at hrefused
  by_contra hcloses
  rw [if_neg hcloses] at hentries
  omega

/-- An intake puts a fulfillment where none was, and no other step does. -/
theorem stored_commit (h : Commit seen operation db db') (id : String) :
    if operation.coordination.takesUp = some id then
      db.fulfillments.get id = none ∧ (db'.fulfillments.get id).isSome = true
    else (db'.fulfillments.get id).isSome = (db.fulfillments.get id).isSome := by
  have heffect := coordination_effect h.committed
  generalize operation.coordination = coordination at heffect
  have htaken : ∀ {key put}, Placed db.fulfillments db'.fulfillments key put →
      db.fulfillments.get key = none → if some key = some id then
        db.fulfillments.get id = none ∧ (db'.fulfillments.get id).isSome = true
      else (db'.fulfillments.get id).isSome = (db.fulfillments.get id).isSome := by
    intro key put hplaced hfresh
    split
    · rename_i hid
      obtain rfl := Option.some.inj hid
      exact ⟨hfresh, by rw [hplaced.get_self]; rfl⟩
    · rename_i hid
      rw [hplaced.get_ne (fun heq => hid (congrArg some heq))]
  have hover : ∀ {key put stored}, Placed db.fulfillments db'.fulfillments key put →
      db.fulfillments.get key = some stored →
      (db'.fulfillments.get id).isSome = (db.fulfillments.get id).isSome := by
    intro key put stored hplaced hstored
    by_cases hid : key = id
    · rw [← hid, hplaced.get_self, hstored]
      rfl
    · rw [hplaced.get_ne hid]
  cases heffect with
  | idle hrows hidle =>
      rw [if_neg, hrows]
      rcases hidle with rfl | ⟨current, jobId, rfl⟩ <;> rintro ⟨⟩
  | created hfresh _ hplaced => exact htaken hplaced hfresh
  | refused hfresh _ hplaced => exact htaken hplaced hfresh
  | dispatched _ hstored _ hplaced => exact hover hplaced hstored
  | closed hstored _ hplaced => exact hover hplaced hstored
  | traced hstored hplaced => exact hover hplaced hstored
  | marked hstored _ _ hplaced => exact hover hplaced hstored

/-- No write changes the order of a fulfillment. -/
theorem ordersStay_commit (h : Commit seen operation db db') : OrdersStay db db' := by
  have heffect := coordination_effect h.committed
  generalize operation.coordination = coordination at heffect
  have hkept : ∀ {key put}, Placed db.fulfillments db'.fulfillments key put →
      (∀ stored, db.fulfillments.get key = some stored →
        put.marketOrderReference = stored.marketOrderReference) → OrdersStay db db' := by
    intro key put hplaced hsame id row hrow
    by_cases hid : key = id
    · exact ⟨put, by rw [← hid, hplaced.get_self], hsame row (by rw [hid, hrow])⟩
    · exact ⟨row, by rw [hplaced.get_ne hid, hrow], rfl⟩
  have hfresh : ∀ {key put}, Placed db.fulfillments db'.fulfillments key put →
      db.fulfillments.get key = none → OrdersStay db db' := by
    intro key put hplaced hnone
    refine hkept hplaced (fun stored hstored => ?_)
    rw [hnone] at hstored
    cases hstored
  have hover : ∀ {key put stored}, Placed db.fulfillments db'.fulfillments key put →
      db.fulfillments.get key = some stored →
      put.marketOrderReference = stored.marketOrderReference → OrdersStay db db' := by
    intro key put stored hplaced hstored hsame
    refine hkept hplaced (fun found hfound => ?_)
    rw [hstored] at hfound
    rw [hsame, Option.some.inj hfound]
  cases heffect with
  | idle hrows _ => exact fun id row hrow => ⟨row, by rw [hrows, hrow], rfl⟩
  | created hnone _ hplaced => exact hfresh hplaced hnone
  | refused hnone _ hplaced => exact hfresh hplaced hnone
  | dispatched _ hstored _ hplaced => exact hover hplaced hstored rfl
  | closed hstored _ hplaced => exact hover hplaced hstored rfl
  | traced hstored hplaced => exact hover hplaced hstored rfl
  | marked hstored _ _ hplaced => exact hover hplaced hstored rfl

theorem intakeOnce_commit (h : Commit seen operation db db') (htold : ClosuresTold seen db)
    {id : String} (hinv : IntakeOnce id db) : IntakeOnce id db' := by
  have hcounts := intake_commit h id
  have hstored := stored_commit h id
  constructor
  · rw [hcounts, hinv.once]
    split at hstored
    · rename_i htakes
      obtain ⟨hnone, hsome⟩ := hstored
      rw [hnone, hsome, if_pos htakes]
      rfl
    · rename_i htakes
      rw [hstored, if_neg htakes, Nat.add_zero]
  · intro hrefused
    have hclosed := closedNow_commit h htold id
    split at hclosed
    · exact hclosed.2
    · rename_i hcloses
      rw [hclosed]
      refine hinv.refused (fun hzero => ?_)
      exact hcloses (refused_commit h (by rwa [hzero]))

/-- An intake that went through stored its row. -/
theorem landed_commit (h : Commit seen operation db db') {row : Fulfillment}
    (hwrite : .fulfillment (.intake row) ∈ operation.staged.writes) :
    (∀ id stored, db.fulfillments.get id = some stored →
      stored.marketOrderReference ≠ row.marketOrderReference) ∧ StoredFor row db' := by
  rw [operation.staged_writes] at hwrite
  have heffect := coordination_effect h.committed
  generalize operation.coordination = coordination at heffect hwrite
  have hwrite : Write.intake row ∈ coordination.write := by
    rcases List.mem_append.mp hwrite with hmoney | hcoordination
    · obtain ⟨money, -, hmoney⟩ := List.mem_map.mp hmoney
      cases hmoney
    · obtain ⟨other, hother, hsame⟩ := List.mem_map.mp hcoordination
      obtain rfl := WaslaCore.Write.fulfillment.inj hsame
      exact hother
  have hfirst : ∀ {put}, Placed db.fulfillments db'.fulfillments put.fulfillmentId put →
      db.fulfillments.findByOrderReference put.marketOrderReference = none → row = put →
      (∀ id stored, db.fulfillments.get id = some stored →
        stored.marketOrderReference ≠ row.marketOrderReference) ∧ StoredFor row db' := by
    rintro put hplaced horder rfl
    refine ⟨fun id stored hstored hsame => ?_, row, hplaced.get_self, rfl⟩
    have hother := List.find?_eq_none.mp horder stored (Table.mem_values.mpr ⟨id, hstored⟩)
    simp [hsame] at hother
  cases heffect with
  | idle _ hidle =>
      rcases hidle with rfl | ⟨current, jobId, rfl⟩
      · cases hwrite
      · cases List.mem_singleton.mp hwrite
  | created _ horder hplaced =>
      exact hfirst hplaced horder (Write.intake.inj (List.mem_singleton.mp hwrite))
  | refused _ horder hplaced =>
      exact hfirst hplaced horder (Write.intake.inj (List.mem_singleton.mp hwrite))
  | dispatched _ _ _ _ => cases List.mem_singleton.mp hwrite
  | closed _ _ _ => cases List.mem_singleton.mp hwrite
  | traced _ _ => cases List.mem_singleton.mp hwrite
  | marked _ _ _ _ => cases List.mem_singleton.mp hwrite

end Landed

/-- What a read goes on telling: closed rows stay as they were closed, and every
row stays for its order. -/
def intakes : Law where
  inv := fun db => (∀ id, ClosedOnce id db) ∧ ∀ id, IntakeOnce id db
  guar := fun db db' => ClosuresStay db db' ∧ OrdersStay db db'
  guar_refl := fun db => ⟨ClosuresStay.refl db, OrdersStay.refl db⟩
  guar_trans := fun h h' => ⟨h.1.trans h'.1, h.2.trans h'.2⟩
  known := fun query answer db => closure.known query answer db ∧
    ∀ row ∈ fulfillmentsShown ⟨.read query, .ok answer⟩, StoredFor row db
  known_stable := fun hguar hknown =>
    ⟨closure.known_stable hguar.1 hknown.1, fun row hrow => hguar.2.stored (hknown.2 row hrow)⟩
  landed := fun uow db => ∀ row, .fulfillment (.intake row) ∈ uow.writes → StoredFor row db
  landed_stable := fun hguar hlanded row hrow => hguar.2.stored (hlanded row hrow)

theorem intakes_told {seen : Seen} {db : Db} (h : intakes.Told seen db) : ClosuresTold seen db :=
  h.shown (fun _ _ hknown => hknown.1) (fun _ hother => (shown_nothing hother).2.1)

theorem intakes_holds : intakes.Holds anything where
  commit := fun h hinv htold _ =>
    have hclosures := intakes_told htold
    ⟨⟨fun id => closedOnce_commit h hclosures (hinv.1 id),
      fun id => intakeOnce_commit h hclosures (hinv.2 id)⟩,
      closuresStay_commit h hclosures, ordersStay_commit h⟩
  record := by
    intro db entry haction hinv
    obtain ⟨hclosed, -⟩ := closure_holds.record haction hinv.1
    refine ⟨⟨hclosed, fun id => ?_⟩, ClosuresStay.refl db, OrdersStay.refl db⟩
    have hentries : refusedEntries id { db with audit := db.audit ++ [entry.recorded] } =
        refusedEntries id db := by
      simp [refusedEntries, entriesOf, AuditEntry.recorded, haction]
    refine ⟨?_, ?_⟩
    · rw [hentries]
      exact (hinv.2 id).once
    · rw [hentries]
      exact (hinv.2 id).refused
  tick := fun elapsed hstocked hinv =>
    ⟨⟨(closure_holds.tick elapsed hstocked hinv.1).1,
      fun id => ⟨(hinv.2 id).once, (hinv.2 id).refused⟩⟩, ClosuresStay.refl _, OrdersStay.refl _⟩
  read := by
    intro db query hstocked _
    refine ⟨closure_read hstocked rfl, fun row hrow => ?_⟩
    obtain ⟨id, hid⟩ := fulfillment_stored rfl hrow
    have hkey : row.fulfillmentId = id := hstocked.fulfillments id row hid
    exact ⟨row, by rw [hkey]; exact hid, rfl⟩
  lands := fun h _ row hwrite => (landed_commit h hwrite).2

/-! ### What a delivery answers -/

/-- What its answers tell a call, with nothing asked of it in return. -/
def informed : Discipline Action Action.Answer where
  told := foreseen
  owed := fun _ _ => True

/-- An intake of the order: of its unit of work's writes one is the row's insert. -/
structure TakesUp (payload : MarketOrderCreatedPayload) (uow : Work) (row : Fulfillment) : Prop where
  order : row.marketOrderReference = payload.orderId
  intake : ∀ other, .fulfillment (.intake other) ∈ uow.writes ↔ other = row

/-- How a delivery of an order may end: with the row it took the order up as, with
the row another delivery did and nothing committed, or with nothing committed. -/
def Answers (payload : MarketOrderCreatedPayload) (seen : Seen) : Except Thrown Fulfillment → Prop
  | .ok row => row.marketOrderReference = payload.orderId ∧
      ((∃ uow, Landed seen uow ∧ .fulfillment (.intake row) ∈ uow.writes) ∨
        Unlanded seen ∧ row ∈ fulfillmentsRead seen)
  | .error _ => Unlanded seen

section Deliveries

variable {seen : Seen} {β γ : Type} {payload : MarketOrderCreatedPayload}

theorem informed_commitless {call : Call β} (h : Commitless call) (seen : Seen) :
    Keeps informed (fun later _ => SameCommits seen later) call seen := by
  refine (h.keeps (fun _ _ _ => trivial) seen).mono ?_
  rintro later result ⟨rest, rfl, hrest⟩
  exact ⟨lost_append hrest, fun uow => landed_append hrest⟩

theorem unlanded_later {later : Seen} (h : Unlanded seen) (hsame : SameCommits seen later) :
    Unlanded later :=
  fun uow hlanded => h uow (hsame.landed uow hlanded)

/-- A part that commits nothing, then the rest of the call. -/
theorem unlanded_after {call : Call β} {next : β → Call γ}
    {post : Seen → Except Thrown γ → Prop} (h : Unlanded seen) (hcall : Commitless call)
    (hnext : ∀ later value, Unlanded later → Keeps informed post (next value) later)
    (herror : ∀ later error, Unlanded later → post later (.error error)) :
    Keeps informed post (call >>= next) seen :=
  (informed_commitless hcall seen).bind
    (fun later value hsame => hnext later value (unlanded_later h hsame))
    (fun later error hsame => herror later error (unlanded_later h hsame))

/-- A release stages money alone, and what it throws is no loss. -/
theorem release_money (fulfillment : Fulfillment) (reason : String) :
    Keeps informed (fun _ result =>
      (∀ uow outcome, result = .ok (uow, outcome) → ∀ write, .fulfillment write ∉ uow.writes) ∧
      ∀ order, result ≠ .error (.intakeLost order))
      (release UnitOfWork.empty fulfillment reason) seen := by
  have hsettles : Keeps informed (fun _ result => ∀ uow outcome, result = .ok (uow, outcome) →
      ∀ write, .fulfillment write ∉ uow.writes)
      (release UnitOfWork.empty fulfillment reason) seen := by
    have hkeeps := @release_keeps seen UnitOfWork.empty fulfillment reason
    refine Keeps.mono (hkeeps.avoiding (commitless_release _ _ _) (fun _ _ htold => htold)
      (fun _ _ _ => trivial)) ?_
    rintro later result ⟨-, hends⟩ uow outcome rfl write hwrite
    obtain ⟨⟨movement, -, -, rfl⟩, -⟩ := hends uow outcome rfl
    rw [Money.Movement.staged_writes] at hwrite
    obtain ⟨money, -, hmoney⟩ := List.mem_map.mp hwrite
    cases hmoney
  apply hsettles.and
  unfold release
  cases fulfillment.paymentAuthorizationId with
  | none => rintro order ⟨⟩
  | some hold =>
      refine Keeps.tryCatch (p := fun _ _ => True) ?_ ?_ ?_
      · refine Keeps.mono (informed_commitless ?_ seen) (fun _ _ _ => trivial)
        exact avoids_bind (Money.commitless_voidWithin _ _) (fun _ => trivial)
      · rintro later value - order ⟨⟩
      · rintro later error -
        refine ⟨trivial, fun answer htold => ?_⟩
        cases answer with
        | ok done => rintro order ⟨⟩
        | error refusal =>
            obtain ⟨message, rfl⟩ := htold
            rintro order ⟨⟩

theorem refuseWithin_takesUp (fulfillmentId : String) (payload : MarketOrderCreatedPayload)
    (hold : HoldInspection) (createdAt : Int) :
    Keeps informed (fun _ result =>
      (∀ uow row, result = .ok (uow, row) → TakesUp payload uow row) ∧
      ∀ order, result ≠ .error (.intakeLost order))
      (refuseWithin UnitOfWork.empty (coordinatingRow fulfillmentId payload hold createdAt) hold
        payload.paymentAuthorizationId) seen := by
  have hreleases : Keeps informed (fun _ result =>
      (∀ uow outcome, result = .ok (uow, outcome) → ∀ write, .fulfillment write ∉ uow.writes) ∧
      ∀ order, result ≠ .error (.intakeLost order))
      (releaseRefused UnitOfWork.empty (coordinatingRow fulfillmentId payload hold createdAt) hold)
      seen := by
    unfold releaseRefused
    split
    · exact release_money _ _
    · refine ⟨?_, by rintro order ⟨⟩⟩
      rintro uow outcome ⟨rfl⟩ write hwrite
      simp [UnitOfWork.empty] at hwrite
  unfold refuseWithin
  refine hreleases.bind ?_ ?_
  swap
  · rintro later error ⟨-, hlossless⟩
    exact ⟨by rintro uow row ⟨⟩, fun order heq => hlossless order (by cases heq; rfl)⟩
  rintro later ⟨uow, outcome⟩ ⟨hmoney, -⟩
  refine ⟨trivial, fun completedAt _ => ⟨?_, by rintro order ⟨⟩⟩⟩
  rintro uow' row ⟨rfl⟩
  refine ⟨rfl, fun other => ?_⟩
  rw [stageRefused, UnitOfWork.audit_writes, UnitOfWork.emit_writes, UnitOfWork.stage_writes,
    List.mem_append, List.mem_singleton]
  constructor
  · rintro (hwrite | hwrite)
    · exact (hmoney uow outcome rfl _ hwrite).elim
    · cases hwrite
      rfl
  · rintro rfl
    exact .inr rfl

/-- An intake that loses its insert answers with the row of its own order. -/
theorem intake_answers {body : Work → Call (Work × Fulfillment)} (hunlanded : Unlanded seen)
    (hcommitless : Commitless (body UnitOfWork.empty))
    (hbody : Keeps informed (fun _ result =>
      (∀ uow row, result = .ok (uow, row) → TakesUp payload uow row) ∧
      ∀ order, result ≠ .error (.intakeLost order)) (body UnitOfWork.empty) seen) :
    Keeps informed (Answers payload) (intake body) seen := by
  have hcommits : Keeps informed (fun later result => Answers payload later result ∧
      ∀ order, result = .error (.intakeLost order) → order = payload.orderId)
      (withTransaction body) seen := by
    unfold withTransaction
    refine (hbody.and (informed_commitless hcommitless seen)).bind ?_ ?_
    swap
    · rintro later error ⟨⟨-, hlossless⟩, hsame⟩
      exact ⟨unlanded_later hunlanded hsame, fun order heq =>
        absurd (by cases heq; rfl) (hlossless order)⟩
    rintro later ⟨uow, row⟩ ⟨⟨htakes, -⟩, hsame⟩
    have htakes := htakes uow row rfl
    refine ⟨trivial, fun answer htold => ?_⟩
    cases answer with
    | ok done =>
        refine ⟨⟨htakes.order, .inl ⟨uow, ?_, (htakes.intake row).mpr rfl⟩⟩, by rintro order ⟨⟩⟩
        exact List.mem_append_right _ (List.mem_singleton_self _)
    | error error =>
        refine ⟨fun other hlanded => ?_, ?_⟩
        · rcases landed_snoc hlanded with hold | hentry
          · exact unlanded_later hunlanded hsame other hold
          · cases hentry
        · rintro order ⟨rfl⟩
          obtain ⟨other, hother, horder⟩ := htold
          rw [← horder, (htakes.intake other).mp hother, htakes.order]
  unfold intake
  refine hcommits.tryCatch (fun _ _ hends => hends.1) ?_
  rintro later error ⟨hunlanded, hlost⟩
  cases error with
  | intakeLost order =>
      obtain rfl := hlost order rfl
      have hlater : ∀ answer, Unlanded (later ++ [⟨.read (.findByOrderReference payload.orderId),
          answer⟩]) := by
        intro answer uow hlanded
        rcases landed_snoc hlanded with hold | hentry
        · exact hunlanded uow hold
        · cases hentry
      refine ⟨trivial, fun answer htold => ?_⟩
      cases answer with
      | error error => exact hlater _
      | ok found =>
          cases found with
          | none => exact hlater _
          | some winner =>
              exact ⟨htold, .inr ⟨hlater _, fulfillmentsRead_snoc (List.mem_singleton_self _) _⟩⟩
  | core error => exact hunlanded
  | other message => exact hunlanded
  | transitionLost fulfillmentId => exact hunlanded

theorem consumeMarketOrder_answers (payload : MarketOrderCreatedPayload) :
    Keeps informed (Answers payload) (consumeMarketOrder payload) [] := by
  have hnothing : ∀ answer, Unlanded [⟨.read (.findByOrderReference payload.orderId), answer⟩] := by
    intro answer uow hlanded
    cases List.mem_singleton.mp hlanded
  unfold consumeMarketOrder
  refine ⟨trivial, fun answer htold => ?_⟩
  cases answer with
  | error error => exact hnothing _
  | ok found =>
      cases found with
      | some existing =>
          exact ⟨htold, .inr ⟨hnothing _, List.mem_singleton_self _⟩⟩
      | none =>
          change Keeps informed (Answers payload)
            (inspectHold payload.paymentAuthorizationId >>= _) _
          refine unlanded_after (hnothing _) (commitless_inspectHold _) ?_ (fun _ _ hlater => hlater)
          intro afterHold hold hquiet
          refine unlanded_after hquiet commitless_newId ?_ (fun _ _ hlater => hlater)
          intro afterId fulfillmentId hquiet
          refine unlanded_after hquiet commitless_clock ?_ (fun _ _ hlater => hlater)
          intro later createdAt hquiet
          dsimp only
          split
          · exact intake_answers hquiet (commitless_refuseWithin _ _ _ _)
              (refuseWithin_takesUp fulfillmentId payload hold createdAt)
          · refine intake_answers hquiet trivial ⟨?_, by rintro order ⟨⟩⟩
            rintro uow row ⟨rfl⟩
            refine ⟨rfl, fun other => ?_⟩
            simp [stageCreated, UnitOfWork.empty]

end Deliveries

/-! ### Deliveries over runs -/

/-- A delivery of a market order, with its answer. -/
def delivery (payload : MarketOrderCreatedPayload) : Call (Option Fulfillment) := do
  let row ← consumeMarketOrder payload
  pure (some row)

/-- Any other request beside the deliveries. -/
def unanswered (call : Call Unit) : Call (Option Fulfillment) := do
  call
  pure none

def deliveries (call : Call (Option Fulfillment)) : Prop :=
  (∃ payload, call = delivery payload) ∨ ∃ other, requests other ∧ call = unanswered other

theorem deliveries_keep (call : Call (Option Fulfillment)) (h : deliveries call) :
    Keeps services anyEnd call [] := by
  rcases h with ⟨payload, rfl⟩ | ⟨other, hother, rfl⟩
  · exact (consumeMarketOrder_keeps payload).bind (fun _ _ _ => trivial) (fun _ _ _ => trivial)
  · exact (requests_keep other hother).bind (fun _ _ _ => trivial) (fun _ _ _ => trivial)

/-- How a delivery ends, told of the answer it keeps. -/
def Delivered (payload : MarketOrderCreatedPayload) (seen : Seen) :
    Except Thrown (Option Fulfillment) → Prop
  | .ok (some row) => Answers payload seen (.ok row)
  | .ok none => False
  | .error error => Answers payload seen (.error error)

theorem delivery_answers (payload : MarketOrderCreatedPayload) :
    Keeps informed (Delivered payload) (delivery payload) [] :=
  (consumeMarketOrder_answers payload).bind (fun _ _ hanswers => hanswers)
    (fun _ _ hanswers => hanswers)

/-- The call committed nothing, and recorded only that releases failed. -/
structure Silent (seen : Seen) : Prop where
  unlanded : Unlanded seen
  notes : ∀ entry answer, ⟨.record entry, answer⟩ ∈ seen →
    entry.action = "fulfillment.settlement_inconsistent"

/-- Every entry a call recorded on its own is the note of a release that failed. -/
theorem notes_run {start : Int} {world : World Db Action Action.Answer Thrown (Option Fulfillment)}
    (hrun : Run core deliveries anything (World.initial (Db.empty start)) world) :
    Kept intakes.contract world ∧ ∀ task ∈ world.tasks, ∀ entry answer,
      ⟨.record entry, answer⟩ ∈ task.seen →
        entry.action = "fulfillment.settlement_inconsistent" := by
  have hstart : intakes.inv (Db.empty start) :=
    ⟨closure_empty start, fun id => ⟨rfl, fun hrefused => absurd rfl hrefused⟩⟩
  refine (intakes_holds.upheldFor deliveries_keep).remembers
    (P := fun seen => ∀ entry answer, ⟨.record entry, answer⟩ ∈ seen →
      entry.action = "fulfillment.settlement_inconsistent")
    (Kept.initial ⟨stocked_empty start, hstart⟩) (by rintro task ⟨⟩) (by rintro entry answer ⟨⟩) ?_
    hrun
  intro seen action answer hseen howed _ entry answer' hentry
  rcases List.mem_append.mp hentry with hold | hnew
  · exact hseen entry answer' hold
  · cases List.mem_singleton.mp hnew
    exact howed

/-- In every run in which deliveries of any orders and all other requests interleave,
an order has one fulfillment, an intake goes through only for an order that has none
and its row stays, each fulfillment has one intake event; and a delivery that returns
answers with the fulfillment of its order, which it took up itself or which it left
as another delivery took it up, one that fails having committed nothing either. -/
theorem run_intake_once {start : Int}
    {before world : World Db Action Action.Answer Thrown (Option Fulfillment)}
    {payload : MarketOrderCreatedPayload}
    (hbefore : Run core deliveries anything (World.initial (Db.empty start)) before)
    (hafter : Run core deliveries anything
      ⟨before.store, before.tasks ++ [⟨[], delivery payload⟩]⟩ world) :
    (∀ id id' row row', world.store.fulfillments.get id = some row →
      world.store.fulfillments.get id' = some row' →
      row.marketOrderReference = row'.marketOrderReference → id = id') ∧
    (∀ id, intakeEvents id world.store =
      if (world.store.fulfillments.get id).isSome then 1 else 0) ∧
    (∀ task uow db', Landing anything world task uow db' → ∀ row,
      .fulfillment (.intake row) ∈ uow.writes → ∀ id stored,
      world.store.fulfillments.get id = some stored →
        stored.marketOrderReference ≠ row.marketOrderReference) ∧
    (∀ task ∈ world.tasks, ∀ uow, Landed task.seen uow → ∀ row,
      .fulfillment (.intake row) ∈ uow.writes → StoredFor row world.store) ∧
    ∃ task, world.tasks[before.tasks.length]? = some task ∧
      (∀ row, task.rest = .done (some row) →
        row.marketOrderReference = payload.orderId ∧ StoredFor row world.store ∧
        ((∃ uow, Landed task.seen uow ∧ .fulfillment (.intake row) ∈ uow.writes) ∨
          Silent task.seen)) ∧
      ∀ error, task.rest = .fail error → Silent task.seen := by
  have hupheld := intakes_holds.upheldFor deliveries_keep
  obtain ⟨hkeptBefore, -⟩ := notes_run hbefore
  obtain ⟨hkept, task, htask, hdelivers⟩ := hupheld.follows hkeptBefore (.inl ⟨payload, rfl⟩)
    (delivery_answers payload) (fun _ _ htold => htold) hafter
  obtain ⟨-, hnotes⟩ := notes_run (hbefore.trans (.head (.start (.inl ⟨payload, rfl⟩)) hafter))
  have hmember : task ∈ world.tasks := List.mem_of_getElem? htask
  have hlanded : ∀ task ∈ world.tasks, ∀ uow, Landed task.seen uow → ∀ row,
      .fulfillment (.intake row) ∈ uow.writes → StoredFor row world.store :=
    fun task htask uow hlanded => (hkept.known task htask _ hlanded).2
  refine ⟨hkept.inv.1.ruled.orders, fun id => (hkept.inv.2.2 id).events (hkept.inv.2.1 id), ?_,
    hlanded, task, htask, ?_, ?_⟩
  · intro task uow db' hlanding row hwrite
    obtain ⟨operation, rfl, hcommit, -⟩ := hlanding.commit hkept
    exact (landed_commit hcommit hwrite).1
  · intro row hrest
    rw [hrest] at hdelivers
    obtain ⟨horder, ⟨uow, huow, hwrite⟩ | ⟨hunlanded, hread⟩⟩ := hdelivers
    · exact ⟨horder, hlanded task hmember uow huow row hwrite, .inl ⟨uow, huow, hwrite⟩⟩
    · refine ⟨horder, ?_, .inr ⟨hunlanded, hnotes task hmember⟩⟩
      have htold : intakes.Told task.seen world.store :=
        fun entry hentry => (hkept.known task hmember entry hentry).2
      exact htold.shown (fun _ _ hknown => hknown.2) (fun _ hother => (shown_nothing hother).2.1)
        row hread
  · intro error hrest
    rw [hrest] at hdelivers
    exact ⟨hdelivers, hnotes task hmember⟩

/-! ### A redelivery whose release fails -/

abbrev DeliverySchedule :=
  List (Move Action Action.Answer Choice Thrown (Option Fulfillment))

/-- A hold of 60 that has expired. -/
def holdExpired : DeliverySchedule :=
  .start (unanswered (Money.Request.createWallet ⟨.identity, idOf '1', "SAR"⟩).call) ::
    acts 0 [.proceed, .drawn (idOf '2'), .proceed, .proceed] ++
  .start (unanswered (Money.Request.credit ⟨idOf '2', 100, "topup"⟩).call) ::
    acts 1 [.proceed, .proceed, .drawn (idOf '3'), .proceed, .proceed] ++
  .start (unanswered (Money.Request.authorize ⟨idOf '2', 60, "order", .at 5⟩).call) ::
    acts 2 [.proceed, .proceed, .proceed, .proceed, .proceed, .proceed, .drawn (idOf '4'),
      .proceed, .proceed, .proceed] ++
  [.tick (.elapsed 10)]

def orderOnHold : MarketOrderCreatedPayload := ⟨"order", idOf '1', "delivery", some (idOf '4')⟩

/-- A delivery refuses the order and voids the hold, up to its commit. -/
def refusalDecided : DeliverySchedule :=
  holdExpired ++
  .start (delivery orderOnHold) ::
    acts 3 [.proceed, .proceed, .proceed, .drawn (idOf '5'), .proceed, .proceed, .proceed,
      .proceed, .proceed]

/-- A second delivery cannot read the hold it would release, notes it, and loses. -/
def releaseNoted : DeliverySchedule :=
  acts 4 [.proceed, .proceed, .proceed, .drawn (idOf '6'), .proceed, .failing "timeout", .proceed,
    .proceed] ++
  acts 3 [.proceed] ++ acts 4 [.proceed, .proceed]

/-- The call at a position returned this fulfillment, committed nothing, and wrote
an audit entry on its own. -/
def notedAt (world : World Db Action Action.Answer Thrown (Option Fulfillment)) (index : Nat)
    (id : String) : Bool :=
  world.tasks[index]?.any (fun task =>
    (match task.rest with
      | .done (some row) => row.fulfillmentId = id
      | _ => false) &&
    task.seen.any (fun entry =>
      match entry with
      | ⟨.record _, .ok _⟩ => true
      | _ => false) &&
    task.seen.all (fun entry =>
      match entry with
      | ⟨.commit _, .ok _⟩ => false
      | _ => true))

theorem notedAt_some {world : World Db Action Action.Answer Thrown (Option Fulfillment)}
    {index : Nat} {id : String} (h : notedAt world index id = true) :
    ∃ task row, world.tasks[index]? = some task ∧ task.rest = .done (some row) ∧
      row.fulfillmentId = id ∧ (∃ entry, ⟨.record entry, .ok ()⟩ ∈ task.seen) ∧
      Unlanded task.seen := by
  obtain ⟨task, htask, hfacts⟩ := (Option.any_eq_true _ _).mp h
  simp only [Bool.and_eq_true] at hfacts
  obtain ⟨⟨hrest, hrecord⟩, hcommits⟩ := hfacts
  obtain ⟨⟨action, answer⟩, hentry, hwrote⟩ := List.any_eq_true.mp hrecord
  have hrecorded : ∃ entry, ⟨.record entry, .ok ()⟩ ∈ task.seen := by
    cases action with
    | record entry =>
        cases answer with
        | ok done => exact ⟨entry, hentry⟩
        | error error => cases hwrote
    | read query => cases hwrote
    | clock => cases hwrote
    | newId => cases hwrote
    | commit uow => cases hwrote
  have hunlanded : Unlanded task.seen := by
    intro uow hlanded
    exact Bool.false_ne_true (List.all_eq_true.mp hcommits _ hlanded)
  split at hrest
  · rename_i row hdone
    exact ⟨task, row, htask, hdone, of_decide_eq_true hrest, hrecorded, hunlanded⟩
  · cases hrest

/-- The calls of the redelivery are deliveries and requests. -/
theorem refusalDecided_calls : ∀ call, Move.start call ∈ refusalDecided → deliveries call := by
  have hrequest : ∀ request : Money.Request, deliveries (unanswered request.call) :=
    fun request => .inr ⟨_, .inl ⟨request, rfl⟩, rfl⟩
  intro call hcall
  simp only [refusalDecided, holdExpired, acts, List.mem_append, List.mem_cons, List.map_cons,
    List.map_nil, List.not_mem_nil, Move.start.injEq, reduceCtorEq, or_false] at hcall
  rcases hcall with ((rfl | rfl) | rfl) | rfl
  · exact hrequest _
  · exact hrequest _
  · exact hrequest _
  · exact .inl ⟨orderOnHold, rfl⟩

set_option maxRecDepth 20000 in
theorem releaseNoted_runs : ∃ before world,
    Run core deliveries anything (World.initial (Db.empty 0)) before ∧
    Run core deliveries anything
      ⟨before.store, before.tasks ++ [⟨[], delivery orderOnHold⟩]⟩ world ∧
    notedAt world before.tasks.length (idOf '5') = true := by
  have hplays : (play core unrestricted refusalDecided (World.initial (Db.empty 0))).any
      (fun before => (play core unrestricted releaseNoted
        ⟨before.store, before.tasks ++ [⟨[], delivery orderOnHold⟩]⟩).any
          (fun world => notedAt world before.tasks.length (idOf '5'))) = true := by decide +kernel
  obtain ⟨before, hbefore, hlater⟩ := (Option.any_eq_true _ _).mp hplays
  obtain ⟨world, hworld, hnoted⟩ := (Option.any_eq_true _ _).mp hlater
  exact ⟨before, world,
    play_run hbefore refusalDecided_calls (fun _ _ _ _ => trivial),
    play_run hworld (by simp [releaseNoted, acts]) (fun _ _ _ _ => trivial), hnoted⟩

theorem run_intake_once_redelivered :
    ∃ (before world : World Db Action Action.Answer Thrown (Option Fulfillment)) (row : Fulfillment),
      notedAt world before.tasks.length row.fulfillmentId = true ∧
      StoredFor row world.store ∧ intakeEvents row.fulfillmentId world.store = 1 := by
  obtain ⟨before, world, hbefore, hafter, hnoted⟩ := releaseNoted_runs
  obtain ⟨-, hevents, -, -, task, htask, hreturns, -⟩ := run_intake_once hbefore hafter
  obtain ⟨task', row, htask', hdone, hid, -, -⟩ := notedAt_some hnoted
  rw [htask] at htask'
  obtain rfl := Option.some.inj htask'
  obtain ⟨-, hstored, -⟩ := hreturns row hdone
  refine ⟨before, world, row, by rw [hid]; exact hnoted, hstored, ?_⟩
  obtain ⟨stored, hrow, -⟩ := hstored
  rw [hevents, hrow]
  rfl

/-- A delivery that did not take the order up may leave an audit entry behind. -/
theorem intake_silence_fails :
    ¬∀ (start : Int) (before world : World Db Action Action.Answer Thrown (Option Fulfillment))
      (payload : MarketOrderCreatedPayload),
      Run core deliveries anything (World.initial (Db.empty start)) before →
      Run core deliveries anything
        ⟨before.store, before.tasks ++ [⟨[], delivery payload⟩]⟩ world →
      ∀ task row, world.tasks[before.tasks.length]? = some task → task.rest = .done (some row) →
        (∃ uow, Landed task.seen uow ∧ .fulfillment (.intake row) ∈ uow.writes) ∨
          Unlanded task.seen ∧ ∀ entry, ⟨.record entry, .ok ()⟩ ∉ task.seen := by
  intro htrue
  obtain ⟨before, world, hbefore, hafter, hnoted⟩ := releaseNoted_runs
  obtain ⟨task, row, htask, hdone, -, ⟨entry, hentry⟩, hunlanded⟩ := notedAt_some hnoted
  rcases htrue 0 before world orderOnHold hbefore hafter task row htask hdone with
    ⟨uow, hlanded, -⟩ | ⟨-, hsilent⟩
  · exact hunlanded uow hlanded
  · exact hsilent entry hentry

end WaslaCore.Fulfillment
