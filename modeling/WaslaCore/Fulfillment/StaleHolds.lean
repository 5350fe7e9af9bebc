import WaslaCore.Fulfillment.Reapplied
import WaslaCore.Http.Reads

/-!
What the report of stale holds says beforehand of a cancellation. The report inspects the hold
and changes nothing; a cancellation voids it and records what came of that. The two are compared
for a call that has the stores to itself at the instant of the report.
-/

namespace WaslaCore.Fulfillment

open Data Platform Interleaving
open Money (PaymentAuthorization)

/-! ### Stores -/

/-- What the tables can hold: rows that pass their checks, holds under UUIDs, and fulfillments
whose hold exists. -/
structure Storable (db : Db) : Prop where
  stocked : Stocked db
  ids : ∀ id stored, db.money.getAuthorization id = some stored → isId id = true
  funded : ∀ id row hold, db.fulfillments.get id = some row →
    row.paymentAuthorizationId = some hold → (db.money.getAuthorization hold).isSome

/-- A write of the money store leaves every hold there, and a hold that is new was inserted. -/
theorem apply_holds {store store' : Money.Store} {write : Money.Write}
    (h : write.apply store = .ok store') (id : String) :
    ((store.getAuthorization id).isSome → (store'.getAuthorization id).isSome) ∧
      ((store'.getAuthorization id).isSome → (store.getAuthorization id).isSome ∨
        ∃ row, write = .insertAuthorization row ∧ row.authorizationId = id) := by
  have hput : ∀ key row, (store.authorizations.get id).isSome →
      ((store.authorizations.put key row).get id).isSome := by
    intro key row hsome
    rw [Table.get_put]
    split
    · rfl
    · exact hsome
  cases write with
  | insertWallet wallet =>
      obtain ⟨-, rfl⟩ := Money.insertWallet_ok h
      exact ⟨fun hsome => hsome, fun hsome => .inl hsome⟩
  | insertTransaction transaction =>
      obtain ⟨-, -, -, rfl⟩ := Money.insertTransaction_ok h
      exact ⟨fun hsome => hsome, fun hsome => .inl hsome⟩
  | insertAuthorization authorization =>
      obtain ⟨-, -, -, -, rfl⟩ := Money.insertAuthorization_ok h
      refine ⟨hput _ _, fun hsome => ?_⟩
      simp only [Money.Store.getAuthorization, Table.get_put] at hsome ⊢
      split at hsome
      · rename_i hid
        exact .inr ⟨authorization, rfl, hid⟩
      · exact .inl hsome
  | updateAuthorization next =>
      rcases Money.updateAuthorization_ok h with ⟨-, rfl⟩ | ⟨stored, hstored, -, rfl⟩
      · exact ⟨fun hsome => hsome, fun hsome => .inl hsome⟩
      refine ⟨hput _ _, fun hsome => .inl ?_⟩
      simp only [Money.Store.getAuthorization, Table.get_put] at hsome ⊢
      split at hsome
      · rename_i hid
        rw [← hid, hstored]
        rfl
      · exact hsome

/-- A fulfillment that is written has its hold. -/
theorem write_funded {store store' : Store} {write : Write} {holds : String → Prop}
    (h : write.apply store = .ok store')
    (hreferenced : ∀ hold, referencedHold write = some hold → holds hold)
    (hfunded : ∀ id row hold, store.get id = some row →
      row.paymentAuthorizationId = some hold → holds hold)
    {id hold : String} {row : Fulfillment} (hrow : store'.get id = some row)
    (hhold : row.paymentAuthorizationId = some hold) : holds hold := by
  have hplaced : ∀ {key : String} {placed : Fulfillment}, Placed store store' key placed →
      (placed.paymentAuthorizationId = some hold → holds hold) → holds hold := by
    intro key placed hplaced hknown
    rcases hplaced.get_cases hrow with ⟨-, rfl⟩ | ⟨-, hbefore⟩
    · exact hknown hhold
    · exact hfunded id row hold hbefore hhold
  cases write with
  | intake fulfillment =>
      obtain ⟨-, -, hput⟩ := intake_ok h
      exact hplaced hput fun hsame => hreferenced hold hsame
  | transition next expected =>
      obtain ⟨stored, -, -, hput⟩ := transition_ok h
      exact hplaced hput fun hsame => hreferenced hold hsame
  | update next =>
      rcases update_ok h with ⟨-, rfl⟩ | ⟨stored, -, hput⟩
      · exact hfunded id row hold hrow hhold
      · exact hplaced hput fun hsame => hreferenced hold hsame
  | mark fulfillmentId executedAt jobReference =>
      obtain ⟨stored, hstored, -, -, hput⟩ := mark_ok h
      exact hplaced hput fun hsame => hfunded fulfillmentId stored hold hstored hsame

/-- A commit whose new holds are under UUIDs leaves stores that can be stored. -/
theorem Storable.commit {db db' : Db} {uow : Work} (h : Storable db)
    (hids : ∀ row, .money (.insertAuthorization row) ∈ uow.writes → isId row.authorizationId = true)
    (hcommit : db.commit uow = .ok db') : Storable db' := by
  obtain ⟨written, hwritten, -, rfl⟩ := commit_ok hcommit
  have hboth : (∀ id, (written.money.getAuthorization id).isSome → isId id = true) ∧
      ∀ id row hold, written.fulfillments.get id = some row →
        row.paymentAuthorizationId = some hold → (written.money.getAuthorization hold).isSome := by
    apply applyAll_keeps (P := fun db =>
      (∀ id, (db.money.getAuthorization id).isSome → isId id = true) ∧
        ∀ id row hold, db.fulfillments.get id = some row →
          row.paymentAuthorizationId = some hold → (db.money.getAuthorization hold).isSome)
      _ hwritten
    · constructor
      · intro id hsome
        obtain ⟨stored, hstored⟩ := Option.isSome_iff_exists.mp hsome
        exact h.ids id stored hstored
      · exact h.funded
    · intro write hmember before after hdone ⟨hshaped, hfunded⟩
      rcases apply_ok hdone with ⟨money, write', rfl, hwrite, rfl⟩ |
        ⟨rows, write', rfl, hreferenced, hwrite, rfl⟩
      · constructor
        · intro id hsome
          rcases (apply_holds hwrite id).2 hsome with hbefore | ⟨row, rfl, rfl⟩
          · exact hshaped id hbefore
          · exact hids row hmember
        · intro id row hold hrow hhold
          exact (apply_holds hwrite hold).1 (hfunded id row hold hrow hhold)
      · exact ⟨hshaped, fun id row hold hrow hhold =>
          write_funded hwrite hreferenced hfunded hrow hhold⟩
  exact ⟨h.stocked.commit hcommit, fun id stored hstored => hboth.1 id (by rw [hstored]; rfl),
    hboth.2⟩

/-! ### What a closing records -/

/-- What a closing records of a hold it could only release. -/
def releasedOutcome (stored : PaymentAuthorization) : SettlementOutcome :=
  if stored.status = .captured then ⟨.unsettled, none⟩
  else ⟨if 0 < stored.capturedMinor then .partiallyCaptured else .released,
    some stored.capturedMinor⟩

/-- The amount an event states, if it states one. -/
def carriedMinor (event : Event) : Option Int :=
  event.payload.findSome? fun entry =>
    match entry with
    | ("captured_minor", .number amount) => some amount
    | _ => none

theorem carriedMinor_closureEvent (row : Fulfillment) (capturedMinor : Option Int) :
    carriedMinor (closureEvent row capturedMinor) = capturedMinor := by
  unfold carriedMinor closureEvent moneyFacts
  split <;> cases capturedMinor <;> rfl

/-- The row is cancelled and settled as reported, and the last event published is its closure,
which states `amount`. -/
structure Foretold (item : StaleHold Fulfillment) (amount : Option Int)
    (result : Except Thrown Fulfillment) (db : Db) : Prop where
  row : ∃ closed, result = .ok closed ∧
    db.fulfillments.get item.fulfillment.fulfillmentId = some closed ∧
    closed.status = .cancelled ∧ closed.settlementState = item.settlementStateIfClosed
  event : ∃ earlier event, db.outbox = earlier ++ [event] ∧
    event.eventType = "core.fulfillment.cancelled" ∧
    event.entityId = item.fulfillment.fulfillmentId ∧ carriedMinor event = amount

section Closing

-- a check is one step, whatever text it compares
attribute [local irreducible] trim

variable {β : Type} {db : Db}

theorem calm_record {entry : AuditEntry} {next : Unit → Call β} {post : Except Thrown β → Db → Prop}
    (h : Ends calm post (next ()) { db with audit := db.audit ++ [entry.recorded] }) :
    Ends calm post (recordAudit entry >>= next) db := by
  refine ⟨⟨.proceed, _, _, rfl⟩, fun choice answer after hperform => ?_⟩
  cases choice with
  | proceed =>
      obtain ⟨rfl, rfl⟩ := Prod.mk.inj (Option.some.inj hperform)
      exact h
  | failing message => cases hperform
  | drawn id => cases hperform
  | elapsed milliseconds => cases hperform

/-- A transaction whose body stages what the store then takes. -/
theorem calm_transaction {body : Work → Call (Work × β)} {post : Except Thrown β → Db → Prop}
    (h : Ends calm (fun result later => ∃ uow value after, result = .ok (uow, value) ∧
      later.commit uow = .ok after ∧ post (.ok value) after) (body UnitOfWork.empty) db) :
    Ends calm post (withTransaction body) db := by
  unfold withTransaction
  refine ends_bind h ?_ ?_
  · rintro ⟨uow, value⟩ later ⟨uow', value', after, hsame, hcommit, hpost⟩
    obtain ⟨rfl, rfl⟩ := Prod.mk.inj (Except.ok.inj hsame)
    have hgoes : performCalmly (.commit uow) .proceed later = some (.ok (), after) := by
      simp [performCalmly, perform, hcommit]
    refine ⟨⟨.proceed, _, _, hgoes⟩, fun choice answer final hperform => ?_⟩
    cases choice with
    | proceed =>
        rw [show calm.perform (.commit uow) .proceed later = some (.ok (), after) from hgoes]
          at hperform
        obtain ⟨rfl, rfl⟩ := Prod.mk.inj (Option.some.inj hperform)
        exact hpost
    | failing message => cases hperform
    | drawn id => cases hperform
    | elapsed milliseconds => cases hperform
  · rintro error later ⟨_, _, _, ⟨⟩, -⟩

/-- Releasing a hold that is closed already stages nothing. -/
theorem release_closed {uow : Work} {row : Fulfillment} {hold reason : String}
    {stored : PaymentAuthorization} (hhold : row.paymentAuthorizationId = some hold)
    (hid : isId hold = true) (hstored : db.money.getAuthorization hold = some stored)
    (hclosed : stored.status ≠ .authorized) :
    Ends calm (fun result later => result = .ok (uow, releasedOutcome stored) ∧
      Untouched db later) (release uow row reason) db := by
  -- voiding answers with the hold as it stands, unless it was captured
  have hvoid : Ends calm (fun result later => later = db ∧
      if stored.status = .captured then ∃ error, result = .error error
      else result = .ok (uow, stored)) (Money.voidWithin uow ⟨hold, reason⟩) db := by
    unfold Money.voidWithin Money.getAuthorization
    apply calm_settled (show assertId "authorization_id" hold = .ok () from if_pos hid)
    apply calm_read
    dsimp only [Query.eval]
    rw [hstored]
    dsimp only
    cases hstatus : stored.status with
    | authorized => exact absurd hstatus hclosed
    | captured => exact ⟨rfl, _, rfl⟩
    | partiallyCaptured => exact ⟨rfl, rfl⟩
    | voided => exact ⟨rfl, rfl⟩
  unfold release
  rw [hhold]
  dsimp only
  by_cases hcaptured : stored.status = .captured
  · simp only [if_pos hcaptured] at hvoid
    refine ends_tryCatch (p := fun result later => later = db ∧ ∃ error, result = .error error)
      ?_ ?_ ?_
    · refine ends_bind hvoid ?_ fun error later hfailed => ⟨hfailed.1, error, rfl⟩
      rintro voided later ⟨rfl, error, ⟨⟩⟩
    · rintro outcome later ⟨rfl, error, ⟨⟩⟩
    · rintro error later ⟨rfl, -⟩
      refine calm_record ⟨?_, rfl, rfl, rfl⟩
      rw [releasedOutcome, if_pos hcaptured]
  · simp only [if_neg hcaptured] at hvoid
    refine ends_tryCatch (p := fun result later => later = db ∧
      result = .ok (uow, releasedOutcome stored)) ?_ ?_ ?_
    · refine ends_bind hvoid ?_ ?_
      · rintro ⟨uow', voided⟩ later ⟨rfl, hsame⟩
        obtain ⟨rfl, rfl⟩ := Prod.mk.inj (Except.ok.inj hsame)
        refine ⟨rfl, ?_⟩
        rw [releasedOutcome, if_neg hcaptured]
      · rintro error later ⟨rfl, ⟨⟩⟩
    · rintro outcome later ⟨rfl, hsame⟩
      exact ⟨hsame, .refl _⟩
    · rintro error later ⟨rfl, ⟨⟩⟩

/-- The row a closing writes. -/
def closedRow (current : Fulfillment) (status : FulfillmentStatus) (reason : Option String)
    (settlement : SettlementState) (completedAt : Int) : Fulfillment :=
  { current with
    status := status
    settlementState := settlement
    completedAt := some completedAt
    closureReason := reason }

/-- The store takes the closing of an open row whose hold exists. -/
theorem closing_commit {current : Fulfillment} {status : FulfillmentStatus}
    {settlement : SettlementState} (reason : Option String) (completedAt : Int)
    (capturedMinor : Option Int) (action : String) (hruled : Ruled db.fulfillments)
    (hstored : db.fulfillments.get current.fulfillmentId = some current)
    (hopen : isClosed current.status = false)
    (haligned : settlementAligned status settlement = true)
    (hheld : ∀ hold, current.paymentAuthorizationId = some hold →
      (db.money.getAuthorization hold).isSome) :
    ∃ later, db.commit (stageClosed UnitOfWork.empty
        (closedRow current status reason settlement completedAt) capturedMinor action) = .ok later ∧
      later.fulfillments.get current.fulfillmentId =
        some (closedRow current status reason settlement completedAt) ∧
      later.outbox = db.outbox ++
        [closureEvent (closedRow current status reason settlement completedAt) capturedMinor] := by
  let closed := closedRow current status reason settlement completedAt
  have hunmarked : current.executedAfterCancellationAt = none := by
    obtain ⟨-, -, hmarked⟩ := assertRow_ok.mp (hruled.passes _ _ hstored)
    cases hmark : current.executedAfterCancellationAt with
    | none => rfl
    | some executedAt =>
        rw [hmarked (by rw [hmark]; rfl)] at hopen
        cases hopen
  have hpasses : assertRow closed = .ok () := by
    obtain ⟨-, hpair, -⟩ := assertRow_ok.mp (hruled.passes _ _ hstored)
    refine assertRow_ok.mpr ⟨haligned, hpair, fun hmarked => ?_⟩
    change current.executedAfterCancellationAt.isSome = true at hmarked
    rw [hunmarked] at hmarked
    cases hmarked
  have hfree : db.fulfillments.jobReferenceTaken closed = false := by
    unfold Store.jobReferenceTaken
    cases hjob : closed.moveJobReference with
    | none => rfl
    | some job =>
        rw [Option.isSome_some, Bool.true_and, List.any_eq_false]
        intro other hother htaken
        obtain ⟨id, hid⟩ := Table.mem_values.mp hother
        obtain ⟨hdistinct, hsame⟩ := Bool.and_eq_true_iff.mp htaken
        have hkey := hruled.jobs _ _ _ _ job hid hstored (of_decide_eq_true hsame) hjob
        rw [hkey] at hid
        exact of_decide_eq_true hdistinct (hruled.keyed _ _ hid)
  have hknown : (closed.paymentAuthorizationId.any fun hold =>
      (db.money.getAuthorization hold).isNone) = false := by
    change (current.paymentAuthorizationId.any fun hold =>
      (db.money.getAuthorization hold).isNone) = false
    cases hhold : current.paymentAuthorizationId with
    | none => rfl
    | some hold => simpa [Option.isSome_iff_ne_none] using hheld hold hhold
  have hwrite : (Write.transition closed openStatuses).apply db.fulfillments =
      .ok ⟨db.fulfillments.rows.put current.fulfillmentId closed⟩ := by
    have hfound : db.fulfillments.get closed.fulfillmentId = some current := hstored
    simp only [Write.apply, Store.updateIfStatusIn, hfound, if_pos (mem_openStatuses.mpr hopen),
      Store.putRow, show reviseRow current closed = closed from rfl, hpasses, hfree]
    rfl
  have happly : db.apply (.fulfillment (.transition closed openStatuses)) =
      .ok { db with fulfillments := ⟨db.fulfillments.rows.put current.fulfillmentId closed⟩ } := by
    simp only [Db.apply, referencedHold, hknown, hwrite]
    rfl
  refine ⟨{ db with
    fulfillments := ⟨db.fulfillments.rows.put current.fulfillmentId closed⟩
    audit := db.audit ++ [(auditEntry action closed []).recorded]
    outbox := db.outbox ++ [closureEvent closed capturedMinor] }, ?_, ?_, rfl⟩
  · have hwritten : db.applyAll [.fulfillment (.transition closed openStatuses)] =
        .ok { db with
          fulfillments := ⟨db.fulfillments.rows.put current.fulfillmentId closed⟩ } := by
      unfold Db.applyAll
      rw [happly]
      rfl
    have hwrites : (stageClosed UnitOfWork.empty closed capturedMinor action).writes =
        [.fulfillment (.transition closed openStatuses)] := rfl
    unfold Db.commit
    rw [hwrites, hwritten]
    rfl
  · exact Table.get_put_self _ _ _

/-- Cancelling an open row whose hold is closed already. -/
theorem cancel_closed {row : Fulfillment} {hold reason : String} {stored : PaymentAuthorization}
    (hstorable : Storable db) (hrow : db.fulfillments.get row.fulfillmentId = some row)
    (hopen : isClosed row.status = false) (hhold : row.paymentAuthorizationId = some hold)
    (hstored : db.money.getAuthorization hold = some stored) (hclosed : stored.status ≠ .authorized)
    (hreason : isBlank reason = false) :
    Ends calm (fun result later => ∃ closed, result = .ok closed ∧
        later.fulfillments.get row.fulfillmentId = some closed ∧ closed.status = .cancelled ∧
        closed.settlementState = (releasedOutcome stored).settlement ∧
        closed.fulfillmentId = row.fulfillmentId ∧
        later.outbox = db.outbox ++ [closureEvent closed (releasedOutcome stored).capturedMinor])
      (cancel ⟨row.fulfillmentId, reason⟩) db := by
  refine calm_require hrow ?_
  rw [if_neg (by rw [hreason]; rintro ⟨⟩), if_neg (by rw [hopen]; rintro ⟨⟩)]
  unfold transition
  refine ends_tryCatch (p := fun result later => ∃ closed, result = .ok closed ∧
      later.fulfillments.get row.fulfillmentId = some closed ∧ closed.status = .cancelled ∧
      closed.settlementState = (releasedOutcome stored).settlement ∧
      closed.fulfillmentId = row.fulfillmentId ∧
      later.outbox = db.outbox ++ [closureEvent closed (releasedOutcome stored).capturedMinor])
    ?_ (fun _ _ hdone => hdone) (by rintro error later ⟨closed, ⟨⟩, -⟩)
  refine calm_transaction ?_
  refine ends_bind (release_closed hhold (hstorable.ids _ _ hstored) hstored hclosed) ?_
    (by rintro error later ⟨⟨⟩, -⟩)
  rintro ⟨uow, outcome⟩ middle ⟨houtcome, huntouched⟩
  obtain ⟨rfl, rfl⟩ := Prod.mk.inj (Except.ok.inj houtcome)
  refine calm_clock ?_
  have haligned : settlementAligned .cancelled (releasedOutcome stored).settlement = true := by
    unfold releasedOutcome
    split
    · rfl
    · split <;> rfl
  have hstands : middle.fulfillments.get row.fulfillmentId = some row := by
    rw [huntouched.fulfillments]
    exact hrow
  obtain ⟨later, hcommit, hlanded, houtbox⟩ := closing_commit (some (trim reason)) middle.now
    (releasedOutcome stored).capturedMinor "fulfillment.cancelled"
    (by rw [huntouched.fulfillments]; exact hstorable.stocked.ruled) hstands hopen haligned
    (by rw [huntouched.money]; exact hstorable.funded _ _ · hrow)
  rw [huntouched.outbox] at houtbox
  exact ⟨_, _, later, rfl, hcommit, _, rfl, hlanded, rfl, rfl, rfl, houtbox⟩

end Closing

/-! ### The report -/

section Report

variable {db : Db} {organizationId : Option String} {item : StaleHold Fulfillment}

/-- What is reported is an open row, judged by its hold. -/
theorem listStaleHolds_item (hruled : Ruled db.fulfillments)
    (h : item ∈ db.fulfillments.listStaleHolds db.money db.now organizationId) :
    db.fulfillments.get item.fulfillment.fulfillmentId = some item.fulfillment ∧
      isClosed item.fulfillment.status = false ∧
      ∃ hold, item.fulfillment.paymentAuthorizationId = some hold ∧
        let inspected := inspectStored db.money db.now (some hold)
        inspected.usable = false ∧ item.holdCapturedMinor = inspected.capturedMinor ∧
          item.settlementStateIfClosed = inspected.settlement := by
  obtain ⟨row, hlisted, hstale⟩ := List.mem_filterMap.mp h
  obtain ⟨hmember, hfunded⟩ := List.mem_filter.mp hlisted
  obtain ⟨id, hrow⟩ := Table.mem_values.mp (mem_orderedBy.mp hmember)
  have hkey := hruled.keyed _ _ hrow
  simp only [isOpenFunded, Bool.and_eq_true, Bool.not_eq_true'] at hfunded
  obtain ⟨⟨hopen, hsome⟩, -⟩ := hfunded
  obtain ⟨hold, hhold⟩ := Option.isSome_iff_exists.mp hsome
  unfold staleHold at hstale
  dsimp only at hstale
  split at hstale
  · cases hstale
  rename_i husable
  obtain rfl := Option.some.inj hstale
  rw [hhold] at husable
  refine ⟨by rw [hkey]; exact hrow, hopen, hold, hhold, Bool.eq_false_iff.mpr husable, ?_, ?_⟩
  · rw [hhold]
  · rw [hhold]

/-- The inspection of a hold that is closed already says what a closing would record, and the
amount as well. -/
theorem inspectRow_closed (now : Int) {stored : PaymentAuthorization}
    (hshape : Money.WellShaped stored) (hclosed : stored.status ≠ .authorized) :
    (inspectRow now stored).settlement = (releasedOutcome stored).settlement ∧
      (inspectRow now stored).capturedMinor = some stored.capturedMinor := by
  unfold inspectRow releasedOutcome
  cases hstatus : stored.status with
  | authorized => exact absurd hstatus hclosed
  | captured => exact ⟨rfl, rfl⟩
  | partiallyCaptured =>
      have hmoved := (hshape.partially_between hstatus).1
      simp [hmoved]
  | voided =>
      have hunmoved := hshape.voided_zero hstatus
      simp [hunmoved]

/-- For every reported hold that is no longer authorized, a cancellation at the same instant goes
through, settles as reported, and publishes the reported amount; of a captured hold it publishes
no amount. -/
theorem stale_report_foretells (hstorable : Storable db)
    (hitem : item ∈ db.fulfillments.listStaleHolds db.money db.now organizationId)
    {hold : String} (hhold : item.fulfillment.paymentAuthorizationId = some hold)
    {stored : PaymentAuthorization} (hstored : db.money.getAuthorization hold = some stored)
    (hclosed : stored.status ≠ .authorized) {reason : String} (hreason : isBlank reason = false) :
    Ends calm (Foretold item
        (if stored.status = .captured then none else item.holdCapturedMinor))
      (cancel ⟨item.fulfillment.fulfillmentId, reason⟩) db := by
  obtain ⟨hrow, hopen, held, hheld, -, hamount, hsettlement⟩ :=
    listStaleHolds_item hstorable.stocked.ruled hitem
  rw [hhold] at hheld
  obtain rfl := Option.some.inj hheld
  have hshape := hstorable.stocked.money.shaped _ _ hstored
  obtain ⟨hsettles, hcaptured⟩ := inspectRow_closed db.now hshape hclosed
  simp only [inspectStored, hstored] at hamount hsettlement
  apply (cancel_closed hstorable hrow hopen hhold hstored hclosed hreason).mono
  rintro result later ⟨closed, rfl, hlanded, hcancelled, hsettled, hid, houtbox⟩
  refine ⟨⟨closed, rfl, hlanded, hcancelled, ?_⟩, ⟨_, _, houtbox, ?_, ?_, ?_⟩⟩
  · rw [hsettled, hsettlement, hsettles]
  · rw [closureEvent, if_pos hcancelled]
  · rw [closureEvent, if_pos hcancelled, hid]
  · rw [carriedMinor_closureEvent, hamount, hcaptured, releasedOutcome]
    split <;> rfl

/-- An expired hold is reported as `held`, which no cancellation leaves it at. -/
theorem expired_misreported (hstorable : Storable db)
    (hitem : item ∈ db.fulfillments.listStaleHolds db.money db.now organizationId)
    {hold : String} (hhold : item.fulfillment.paymentAuthorizationId = some hold)
    {stored : PaymentAuthorization} (hstored : db.money.getAuthorization hold = some stored)
    (hexpired : stored.status = .authorized) {reason : String} {value : Fulfillment} {db' : Db}
    (hdone : Completes core (cancel ⟨item.fulfillment.fulfillmentId, reason⟩) db (.ok value) db') :
    item.settlementStateIfClosed = .held ∧
      ∃ closed, db'.fulfillments.get item.fulfillment.fulfillmentId = some closed ∧
        closed.settlementState ≠ .held := by
  have hruled := hstorable.stocked.ruled
  obtain ⟨-, -, held, hheld, husable, -, hsettlement⟩ := listStaleHolds_item hruled hitem
  rw [hhold] at hheld
  obtain rfl := Option.some.inj hheld
  simp only [inspectStored, hstored, inspectRow, hexpired] at husable hsettlement
  split at husable
  · rename_i hdue
    rw [if_pos hdue] at hsettlement
    obtain ⟨-, closed, hclosed, hcancelled⟩ := (cancel_marks hruled hdone).stands
    refine ⟨hsettlement, closed, hclosed, fun hkept => ?_⟩
    obtain ⟨haligned, -⟩ := assertRow_ok.mp ((completes_ruled hdone hruled).passes _ _ hclosed)
    rw [hcancelled, hkept] at haligned
    cases haligned
  · cases husable

end Report

/-! ### Holds of either kind -/

/-- An order taken up with a hold of 60. -/
def orderFunded : Schedule :=
  holdPlaced ++
  .start (Request.marketOrder ⟨"order", idOf '1', "delivery", some (idOf '4')⟩).call ::
    acts 3 [.proceed, .proceed, .proceed, .drawn (idOf '5'), .proceed, .proceed]

/-- The hold is voided behind the order's back. -/
def holdVoided : Schedule :=
  orderFunded ++
  .start (Money.Request.voidAuthorization ⟨idOf '4', "released by an operator"⟩).call ::
    acts 4 [.proceed, .proceed, .proceed, .proceed]

/-- The hold is captured behind the order's back. -/
def holdTakenElsewhere : Schedule :=
  orderFunded ++
  .start (Money.Request.capture ⟨idOf '4', none, none⟩).call ::
    captureDecided 4 (idOf '6') ++ committed 4

/-- Every hold lies under a UUID, and every fulfillment's hold exists. -/
def referencesHold (db : Db) : Bool :=
  db.money.authorizations.entries.all (fun entry => isId entry.1) &&
    db.fulfillments.rows.values.all fun row =>
      row.paymentAuthorizationId.all fun hold => (db.money.getAuthorization hold).isSome

theorem Storable.ofTest {db : Db} (hstocked : Stocked db) (h : referencesHold db = true) :
    Storable db := by
  obtain ⟨hids, hfunded⟩ := Bool.and_eq_true_iff.mp h
  refine ⟨hstocked, fun id stored hstored => ?_, fun id row hold hrow hhold => ?_⟩
  · exact List.all_eq_true.mp hids (id, stored) (Table.get_eq_some.mp hstored)
  · have hall := List.all_eq_true.mp hfunded row (Table.mem_values.mpr ⟨id, hrow⟩)
    rw [hhold] at hall
    exact hall

/-- The first entry of the report, where its hold has this status. -/
def reportedAs (status : Money.AuthorizationStatus) (db : Db) : Option (StaleHold Fulfillment) :=
  (db.fulfillments.listStaleHolds db.money db.now none).head?.filter fun item =>
    item.fulfillment.paymentAuthorizationId = some (idOf '4') &&
      (db.money.getAuthorization (idOf '4')).any fun stored => stored.status = status

set_option maxRecDepth 20000 in
/-- A hold voided behind the order's back. -/
theorem stale_report_foretells_voided :
    ∃ db item, Storable db ∧ item ∈ db.fulfillments.listStaleHolds db.money db.now none ∧
      Ends calm (Foretold item item.holdCapturedMinor)
        (cancel ⟨item.fulfillment.fulfillmentId, "customer withdrew"⟩) db := by
  have hplays : (play core unrestricted holdVoided (World.initial (Db.empty 0))).any
      (fun world => referencesHold world.store &&
        (reportedAs .voided world.store).isSome) = true := by decide +kernel
  obtain ⟨world, hworld, htests⟩ := (Option.any_eq_true _ _).mp hplays
  obtain ⟨hreferences, hreported⟩ := Bool.and_eq_true_iff.mp htests
  obtain ⟨item, hreported⟩ := Option.isSome_iff_exists.mp hreported
  obtain ⟨hhead, hheld⟩ := Option.filter_eq_some_iff.mp hreported
  obtain ⟨hhold, hvoided⟩ := Bool.and_eq_true_iff.mp hheld
  obtain ⟨stored, hstored, hstatus⟩ := (Option.any_eq_true _ _).mp hvoided
  have hstatus := of_decide_eq_true hstatus
  have hrun := unrestricted_run hworld (by
    simp [holdVoided, orderFunded, holdPlaced, walletOpened, creditPosted, authorizeDecided,
      authorizeCommitted, acts])
  have hstorable := Storable.ofTest (stocked_run hrun) hreferences
  have hitem := List.mem_of_mem_head? hhead
  have hends := stale_report_foretells hstorable hitem (of_decide_eq_true hhold) hstored
    (by rw [hstatus]; rintro ⟨⟩) (show isBlank "customer withdrew" = false by decide +kernel)
  rw [if_neg (by rw [hstatus]; rintro ⟨⟩)] at hends
  exact ⟨world.store, item, hstorable, hitem, hends⟩

set_option maxRecDepth 20000 in
/-- A captured hold is reported with its amount, which its closing does not publish. -/
theorem stale_report_amount : ¬∀ (db : Db) (item : StaleHold Fulfillment) (reason : String),
    Storable db → item ∈ db.fulfillments.listStaleHolds db.money db.now none →
    isBlank reason = false →
    Ends calm (Foretold item item.holdCapturedMinor)
      (cancel ⟨item.fulfillment.fulfillmentId, reason⟩) db := by
  intro hclaim
  have hplays : (play core unrestricted holdTakenElsewhere (World.initial (Db.empty 0))).any
      (fun world => referencesHold world.store &&
        (reportedAs .captured world.store).any fun item =>
          (complete calm [.proceed, .proceed, .proceed, .proceed, .proceed]
            (cancel ⟨item.fulfillment.fulfillmentId, "customer withdrew"⟩) world.store).any fun done =>
              done.2.outbox.getLast?.any fun event =>
                carriedMinor event ≠ item.holdCapturedMinor) = true := by decide +kernel
  obtain ⟨world, hworld, htests⟩ := (Option.any_eq_true _ _).mp hplays
  obtain ⟨hreferences, hreported⟩ := Bool.and_eq_true_iff.mp htests
  obtain ⟨item, hreported, hdone⟩ := (Option.any_eq_true _ _).mp hreported
  obtain ⟨⟨result, later⟩, hcompletes, hlast⟩ := (Option.any_eq_true _ _).mp hdone
  obtain ⟨event, hevent, hother⟩ := (Option.any_eq_true _ _).mp hlast
  obtain ⟨hhead, -⟩ := Option.filter_eq_some_iff.mp hreported
  have hrun := unrestricted_run hworld (by
    simp [holdTakenElsewhere, orderFunded, holdPlaced, walletOpened, creditPosted,
      authorizeDecided, authorizeCommitted, captureDecided, committed, acts])
  have hforetold := (hclaim world.store item "customer withdrew"
    (Storable.ofTest (stocked_run hrun) hreferences) (List.mem_of_mem_head? hhead)
    (by decide +kernel)).post (complete_completes hcompletes)
  obtain ⟨earlier, published, houtbox, -, -, hcarried⟩ := hforetold.event
  rw [houtbox, List.getLast?_concat] at hevent
  obtain rfl := Option.some.inj hevent
  exact of_decide_eq_true hother hcarried

end WaslaCore.Fulfillment
