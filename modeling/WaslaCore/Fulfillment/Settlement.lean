import WaslaCore.Fulfillment.Closure
import WaslaCore.Money.Finality

/-!
What a closed fulfillment says about its money. The outcome of a settlement is
decided from a hold that was read, and committed beside whatever the money module
stages on the same unit of work. It stays true as long as closed holds stay
closed; and it is true at the closing where the closing found the hold as it was
read, and the ledger transaction that answers a full capture is one.
-/

namespace WaslaCore.Fulfillment

open WaslaCore.Data WaslaCore.Platform WaslaCore.Interleaving
open WaslaCore.Money (PaymentAuthorization AuthorizationStatus LedgerTransaction Movement
  StatusAsRead ClosedStays fullCaptureReference)

/-- The status of the hold a settlement speaks of. -/
def closingStatus : SettlementState → Option AuthorizationStatus
  | .released => some .voided
  | .captured => some .captured
  | .partiallyCaptured => some .partiallyCaptured
  | .none => none
  | .held => none
  | .unsettled => none

/-! ### When a closing can be trusted -/

/-- Whatever stands under the reference of a hold's full capture is a capture of
that hold. -/
def referenceKept (db : Db) (hold : String) : Bool :=
  db.money.ledger.values.all (fun transaction =>
    transaction.businessReference ≠ fullCaptureReference hold ||
      (transaction.kind = .capture && transaction.authorizationId = some hold))

/-- The row a guarded write puts. -/
def guardedRow : WaslaCore.Write → Option Fulfillment
  | .fulfillment (.transition next _) => some next
  | .fulfillment (.intake row) => some row
  | _ => none

/-- A write that says where the money of a hold is finds the hold in the status
its call last read, and the reference of its full capture kept for that capture. -/
def settlesAsRead (seen : Seen) (db : Db) (write : WaslaCore.Write) : Bool :=
  match guardedRow write with
  | none => true
  | some row =>
      (closingStatus row.settlementState).isNone ||
        row.paymentAuthorizationId.all (fun hold =>
          Money.holdAsRead seen db hold && referenceKept db hold)

/-- A commit that goes through finds every hold it writes, or says the outcome
of, in the status its call last read. -/
def SettledAsRead (seen : Seen) : Action → Db → Prop
  | .commit uow, db => (db.commit uow).isOk = true → ∀ write ∈ uow.writes,
      Money.updatesAsRead seen db write = true ∧ settlesAsRead seen db write = true
  | _, _ => True

instance (seen : Seen) (action : Action) (db : Db) : Decidable (SettledAsRead seen action db) :=
  match action with
  | .commit uow => inferInstanceAs (Decidable ((db.commit uow).isOk = true → ∀ write ∈ uow.writes,
      Money.updatesAsRead seen db write = true ∧ settlesAsRead seen db write = true))
  | .read _ => .isTrue trivial
  | .clock => .isTrue trivial
  | .newId => .isTrue trivial
  | .record _ => .isTrue trivial

theorem SettledAsRead.status {seen : Seen} {action : Action} {db : Db}
    (h : SettledAsRead seen action db) : StatusAsRead seen action db := by
  cases action with
  | commit uow => exact fun hok write hwrite => (h hok write hwrite).1
  | read query => trivial
  | clock => trivial
  | newId => trivial
  | record entry => trivial

/-! ### Full captures -/

/-- A full capture in the ledger is a capture that closed its hold. -/
def FullCapturesClose (db : Db) : Prop :=
  ∀ transaction ∈ db.money.ledger.values, ∀ id, transaction.kind = .capture →
    transaction.authorizationId = some id →
    transaction.businessReference = fullCaptureReference id →
    ∃ stored, db.money.getAuthorization id = some stored ∧ stored.status = .captured

/-- Only an unkeyed capture has the reference of a full capture. -/
theorem fullCaptureReference_key {id : String} {key : Option String}
    (h : Money.captureLedgerReference id key = fullCaptureReference id) : key = none := by
  cases key with
  | none => rfl
  | some key =>
      have hlength := congrArg String.length h
      have hcolon : ":".length = 1 := rfl
      simp only [Money.captureLedgerReference, fullCaptureReference, String.length_append] at hlength
      omega

/-- A capture of everything that remained closes the hold as captured. -/
theorem capturedRow_full {row : PaymentAuthorization} {requested closedAt : Int}
    (hopen : row.status = .authorized) (hfull : requested = Money.remainingHold row) :
    (Money.capturedRow row requested closedAt).status = .captured := by
  rw [Money.remainingHold, if_pos hopen] at hfull
  unfold Money.capturedRow
  dsimp only
  rw [if_pos (by omega)]

section Landed

variable {seen : Seen} {operation : Operation} {db db' : Db}

/-- The hold a capture under the full reference leaves is captured. -/
theorem full_capture_closes (h : Commit seen operation db db') {row : PaymentAuthorization}
    {wallet : Money.Wallet} {requested closedAt : Int} {moved : LedgerTransaction}
    (hmovement : operation.movement = .capture row wallet requested closedAt moved)
    (hreference : moved.businessReference = fullCaptureReference row.authorizationId) :
    (Money.capturedRow row requested closedAt).status = .captured ∧
      ∃ stored, db'.money.getAuthorization row.authorizationId = some stored ∧
        stored.status = .captured ∧
        stored.capturedMinor = (Money.capturedRow row requested closedAt).capturedMinor := by
  have hlegal := h.legal.movement
  have heffect := h.effect
  rw [hmovement] at hlegal heffect
  obtain ⟨-, hopen, -, -, -, -, -, key, hkeyed, hfull⟩ := hlegal
  rw [hreference] at hkeyed
  have hstatus : (Money.capturedRow row requested closedAt).status = .captured :=
    capturedRow_full hopen (hfull (fullCaptureReference_key hkeyed.symm))
  refine ⟨hstatus, ?_⟩
  cases heffect with
  | captured hrow _ _ => exact ⟨_, hrow.get_self, hstatus, rfl⟩
  | unmoved hnone _ _ => cases hnone

theorem fullCapturesClose_commit (h : Commit seen operation db db')
    (hasRead : SettledAsRead seen (.commit operation.staged) db) (hfull : FullCapturesClose db) :
    FullCapturesClose db' := by
  intro transaction hmember id hkind hid hreference
  rcases h.effect.captures h.legal.movement hmember hkind hid with
    hold | ⟨row, wallet, requested, closedAt, hmovement, rfl⟩
  · obtain ⟨stored, hstored, hstatus⟩ := hfull transaction hold id hkind hid hreference
    obtain ⟨after, hafter, hsame, -⟩ :=
      Money.closed_status_commit h hasRead.status hstored (by rw [hstatus]; simp)
    exact ⟨after, hafter, hsame.trans hstatus⟩
  · obtain ⟨-, stored, hstored, hstatus, -⟩ := full_capture_closes h hmovement hreference
    exact ⟨stored, hstored, hstatus⟩

end Landed

/-! ### What an outcome says -/

/-- The hold stands as an outcome says it does. -/
structure Accounted (hold : Option String) (outcome : SettlementOutcome) (db : Db) : Prop where
  status : ∀ status, closingStatus outcome.settlement = some status →
    ∃ id stored, hold = some id ∧ db.money.getAuthorization id = some stored ∧
      stored.status = status
  amount : ∀ amount, outcome.capturedMinor = some amount →
    ∃ id stored, hold = some id ∧ db.money.getAuthorization id = some stored ∧
      stored.status ≠ .authorized ∧ stored.capturedMinor = amount

/-- An outcome read off a closed hold that is stored. -/
theorem accounted_hold {db : Db} {id : String} {stored : PaymentAuthorization}
    {settlement : SettlementState} {amount : Int}
    (hstored : db.money.getAuthorization id = some stored) (hclosed : stored.status ≠ .authorized)
    (hamount : stored.capturedMinor = amount)
    (hstatus : ∀ status, closingStatus settlement = some status → stored.status = status) :
    Accounted (some id) ⟨settlement, some amount⟩ db := by
  constructor
  · exact fun status hclosing => ⟨id, stored, rfl, hstored, hstatus status hclosing⟩
  · intro other hother
    obtain rfl := Option.some.inj hother
    exact ⟨id, stored, rfl, hstored, hclosed, hamount⟩

/-- What was accounted for stays so while closed holds stay closed. -/
theorem Accounted.stays {hold : Option String} {outcome : SettlementOutcome} {db db' : Db}
    (h : Accounted hold outcome db) (hstays : ∀ id, ClosedStays id db db') :
    Accounted hold outcome db' := by
  constructor
  · intro status hclosing
    obtain ⟨id, stored, hhold, hstored, rfl⟩ := h.status status hclosing
    have hclosed : stored.status ≠ .authorized := by
      intro hopen
      rw [hopen] at hclosing
      cases hsettlement : outcome.settlement <;> rw [hsettlement] at hclosing <;> cases hclosing
    obtain ⟨after, hafter, hsame, -⟩ := (hstays id).status stored hstored hclosed
    exact ⟨id, after, hhold, hafter, hsame⟩
  · intro amount hamount
    obtain ⟨id, stored, hhold, hstored, hclosed, rfl⟩ := h.amount amount hamount
    obtain ⟨after, hafter, hsame, hcaptured⟩ := (hstays id).status stored hstored hclosed
    exact ⟨id, after, hhold, hafter, by rwa [hsame], hcaptured⟩

/-- A closed hold that was read is stored with its status and its captured amount. -/
def HoldTold (row : PaymentAuthorization) (db : Db) : Prop :=
  row.status ≠ .authorized →
    ∃ stored, db.money.getAuthorization row.authorizationId = some stored ∧
      stored.status = row.status ∧ stored.capturedMinor = row.capturedMinor

section Outcomes

variable {seen : Seen} {operation : Operation} {db db' : Db}

/-- A hold told closed is still closed after a commit. -/
theorem told_after (h : Commit seen operation db db')
    (hasRead : StatusAsRead seen (.commit operation.staged) db) {row : PaymentAuthorization}
    (htold : HoldTold row db) (hclosed : row.status ≠ .authorized) :
    ∃ stored, db'.money.getAuthorization row.authorizationId = some stored ∧
      stored.status = row.status ∧ stored.capturedMinor = row.capturedMinor := by
  obtain ⟨stored, hstored, hstatus, hcaptured⟩ := htold hclosed
  obtain ⟨after, hafter, hsame, hamount⟩ :=
    Money.closed_status_commit h hasRead hstored (by rwa [hstatus])
  exact ⟨after, hafter, hsame.trans hstatus, hamount.trans hcaptured⟩

/-- An outcome that lands beside its movement is accounted for. -/
theorem outcome_accounted (h : Commit seen operation db db')
    (hasRead : StatusAsRead seen (.commit operation.staged) db)
    (htold : ∀ row ∈ rowsRead seen, HoldTold row db) (hfull : FullCapturesClose db)
    {hold : Option String} {outcome : SettlementOutcome}
    (houtcome : Outcome seen hold outcome operation.movement)
    (hsettles : ∀ id, hold = some id → closingStatus outcome.settlement ≠ none →
      Money.holdAsRead seen db id = true ∧ referenceKept db id = true) :
    Accounted hold outcome db' := by
  have hlegal := h.legal.movement
  have heffect := h.effect
  generalize hmovement : operation.movement = movement at houtcome hlegal heffect
  cases houtcome with
  | unfunded => exact ⟨by rintro status ⟨⟩, by rintro amount ⟨⟩⟩
  | unsettled id => exact ⟨by rintro status ⟨⟩, by rintro amount ⟨⟩⟩
  | @voided row reason voidedAt closedAt _ =>
      cases heffect with
      | unmoved hnone _ _ => cases hnone
      | missed hmissing _ _ =>
          obtain ⟨stored, hstored, -⟩ := h.base (by rw [hmovement]; rfl)
          rw [hmissing] at hstored
          cases hstored
      | voided hrow _ =>
          refine accounted_hold hrow.get_self ?_ rfl ?_
          · simp only [PaymentAuthorization.revise, Money.voidedRow]
            split <;> simp
          · intro status hclosing
            simp only [PaymentAuthorization.revise, Money.voidedRow]
            split at hclosing <;> rename_i hmoved
            · rw [if_pos hmoved]
              exact Option.some.inj hclosing
            · rw [if_neg hmoved]
              exact Option.some.inj hclosing
  | captured _ hreference =>
      obtain ⟨hstatus, stored, hstored, hcaptured, hamount⟩ :=
        full_capture_closes h hmovement hreference
      apply accounted_hold hstored (by rw [hcaptured]; simp) hamount
      intro status hclosing
      rw [if_pos hstatus] at hclosing
      exact hcaptured.trans (Option.some.inj hclosing)
  | @alreadyClosed row hread hclosed =>
      have hnotOpen : row.status ≠ .authorized := by rcases hclosed with h | h <;> simp [h]
      obtain ⟨stored, hstored, hstatus, hamount⟩ :=
        told_after h hasRead (htold row hread) hnotOpen
      have hshape := h.after.money.shaped _ _ hstored
      apply accounted_hold hstored (by rwa [hstatus]) hamount
      intro status hclosing
      rcases hclosed with hvoided | hpartial
      · have hzero := hshape.voided_zero (hstatus.trans hvoided)
        rw [if_neg (by omega)] at hclosing
        exact (hstatus.trans hvoided).trans (Option.some.inj hclosing)
      · have hmoved := (hshape.partially_between (hstatus.trans hpartial)).1
        rw [if_pos (by omega)] at hclosing
        exact (hstatus.trans hpartial).trans (Option.some.inj hclosing)
  | @alreadyCaptured row hread hcaptured =>
      obtain ⟨stored, hstored, hstatus, hamount⟩ :=
        told_after h hasRead (htold row hread) (by simp [hcaptured])
      exact accounted_hold hstored (by simp [hstatus, hcaptured]) hamount (by rintro status ⟨⟩)
  | @replayed row transaction hlast hfound =>
      -- the reference names a capture of this hold, so the hold is captured; and the
      -- row the call read has the status that is stored
      obtain ⟨hsame, hkept⟩ := hsettles _ rfl (by dsimp only; split <;> simp [closingStatus])
      obtain ⟨hledger, hreference⟩ := h.found hfound
      have hcapture := List.all_eq_true.mp hkept transaction hledger
      simp only [hreference, ne_eq, not_true_eq_false, decide_false, Bool.false_or,
        Bool.and_eq_true, decide_eq_true_eq] at hcapture
      obtain ⟨stored, hstored, hcaptured⟩ :=
        hfull transaction hledger _ hcapture.1 hcapture.2 hreference
      simp only [Money.holdAsRead, hstored, hlast, Option.any_some, decide_eq_true_eq] at hsame
      have hstatus : row.status = .captured := hsame.trans hcaptured
      obtain ⟨after, hafter, hclosed, hamount⟩ :=
        told_after h hasRead (htold row (lastRead_mem hlast).1) (by simp [hstatus])
      apply accounted_hold hafter (by simp [hclosed, hstatus]) hamount
      intro status hclosing
      rw [if_pos hstatus] at hclosing
      exact (hclosed.trans hstatus).trans (Option.some.inj hclosing)

end Outcomes

/-! ### Closings -/

/-- The row a closing puts, and the amount its event carries. -/
def Coordination.closing : Coordination → Option (Fulfillment × Option Int)
  | .refused row capturedMinor _ => some (row, capturedMinor)
  | .closed _ row capturedMinor _ => some (row, capturedMinor)
  | _ => Option.none

theorem closing_of_closes {coordination : Coordination} {id : String}
    (h : coordination.closes = some id) :
    ∃ row capturedMinor, coordination.closing = some (row, capturedMinor) ∧
      row.fulfillmentId = id := by
  cases coordination with
  | refused row capturedMinor extra => exact ⟨row, capturedMinor, rfl, Option.some.inj h⟩
  | closed current row capturedMinor action => exact ⟨row, capturedMinor, rfl, Option.some.inj h⟩
  | none => cases h
  | created row requestedService => cases h
  | dispatched current payload => cases h
  | traced current jobId => cases h
  | marked cancelled payload => cases h

/-- The amount in a closure event is the one the closing observed. -/
theorem closureEvent_captured {row : Fulfillment} {capturedMinor : Option Int} {amount : Int}
    (h : ("captured_minor", .number amount) ∈ (closureEvent row capturedMinor).payload) :
    capturedMinor = some amount := by
  unfold closureEvent moneyFacts at h
  cases capturedMinor with
  | none => split at h <;> simp at h
  | some observed => split at h <;> simp_all

section Closings

variable {seen : Seen} {operation : Operation} {db db' : Db}

/-- A closing lands as a closed row whose outcome is accounted for. -/
theorem closing_lands (h : Commit seen operation db db')
    (hasRead : SettledAsRead seen (.commit operation.staged) db)
    (htold : ∀ row ∈ rowsRead seen, HoldTold row db) (hfull : FullCapturesClose db)
    {row : Fulfillment} {capturedMinor : Option Int}
    (hclosing : operation.coordination.closing = some (row, capturedMinor)) :
    (∃ landed, db'.fulfillments.get row.fulfillmentId = some landed ∧
      isClosed landed.status = true ∧ landed.paymentAuthorizationId = row.paymentAuthorizationId ∧
      landed.settlementState = row.settlementState) ∧
    Accounted row.paymentAuthorizationId ⟨row.settlementState, capturedMinor⟩ db' := by
  have heffect := coordination_effect h.committed
  have hlegal := h.legal.coordination
  have hsettles : ∀ write ∈ operation.coordination.write,
      settlesAsRead seen db (.fulfillment write) = true := by
    intro write hwrite
    refine (hasRead (by rw [h.committed]; rfl) _ ?_).2
    rw [operation.staged_writes]
    exact List.mem_append_right _ (List.mem_map_of_mem hwrite)
  -- the write of either closing puts the row the outcome is about
  have haccounted : Outcome seen row.paymentAuthorizationId
      ⟨row.settlementState, capturedMinor⟩ operation.movement →
      (∃ write ∈ operation.coordination.write, guardedRow (.fulfillment write) = some row) →
      Accounted row.paymentAuthorizationId ⟨row.settlementState, capturedMinor⟩ db' := by
    rintro houtcome ⟨write, hwrite, hguarded⟩
    refine outcome_accounted h hasRead.status htold hfull houtcome (fun id hid hspeaks => ?_)
    have hsettled := hsettles write hwrite
    simp only [settlesAsRead, hguarded, hid, Option.all_some, Bool.or_eq_true,
      Option.isNone_iff_eq_none, Bool.and_eq_true] at hsettled
    rcases hsettled with hnone | hsettled
    · exact absurd hnone hspeaks
    · exact hsettled
  generalize hcase : operation.coordination = coordination at *
  cases coordination with
  | refused refused observed extra =>
      obtain ⟨rfl, rfl⟩ := Prod.mk.inj (Option.some.inj hclosing)
      obtain ⟨hfailed, houtcome⟩ := hlegal
      refine ⟨?_, haccounted houtcome ⟨_, List.mem_singleton_self _, rfl⟩⟩
      cases heffect with
      | idle _ hidle => rcases hidle with hnone | ⟨current, jobId, hnone⟩ <;> cases hnone
      | refused _ _ hplaced => exact ⟨_, hplaced.get_self, by rw [hfailed]; rfl, rfl, rfl⟩
  | closed current closed observed action =>
      obtain ⟨rfl, rfl⟩ := Prod.mk.inj (Option.some.inj hclosing)
      obtain ⟨-, -, -, -, hclosed, -, houtcome⟩ := hlegal
      refine ⟨?_, haccounted houtcome ⟨_, List.mem_singleton_self _, rfl⟩⟩
      cases heffect with
      | idle _ hidle => rcases hidle with hnone | ⟨current, jobId, hnone⟩ <;> cases hnone
      | closed _ _ hplaced => exact ⟨_, hplaced.get_self, hclosed, rfl, rfl⟩
  | none => cases hclosing
  | created row requestedService => cases hclosing
  | dispatched current payload => cases hclosing
  | traced current jobId => cases hclosing
  | marked cancelled payload => cases hclosing

end Closings

/-! ### Settlement as a law -/

/-- A closure event, of either type. -/
def IsClosureEvent (event : Event) : Prop :=
  event.eventType = "core.fulfillment.completed" ∨ event.eventType = "core.fulfillment.cancelled"

/-- What closed fulfillments and closure events say about money is so. -/
structure Truthful (db : Db) : Prop where
  full : FullCapturesClose db
  rows : ∀ id row, db.fulfillments.get id = some row → isClosed row.status = true →
    Accounted row.paymentAuthorizationId ⟨row.settlementState, none⟩ db
  events : ∀ event ∈ db.outbox, IsClosureEvent event → ∀ amount,
    ("captured_minor", .number amount) ∈ event.payload →
      ∃ row, db.fulfillments.get event.entityId = some row ∧ isClosed row.status = true ∧
        Accounted row.paymentAuthorizationId ⟨.none, some amount⟩ db

section Closings

variable {seen : Seen} {operation : Operation} {db db' : Db}

/-- The only closure event a commit emits is its closing's. -/
theorem closure_event_staged (operation : Operation) {event : Event}
    (hmember : event ∈ operation.staged.events) (hclosure : IsClosureEvent event) :
    ∃ row capturedMinor, operation.coordination.closing = some (row, capturedMinor) ∧
      event = closureEvent row capturedMinor := by
  have hmovement : ∀ event ∈ (operation.movement.staged UnitOfWork.empty).events,
      ¬IsClosureEvent event := by
    unfold IsClosureEvent
    cases operation.movement <;> simp [Movement.staged, UnitOfWork.empty, Money.stageWallet,
      Money.stageCredit, Money.stageAuthorize, Money.stageCapture, Money.stageRefund,
      Money.stageVoid]
  unfold Operation.staged at hmember
  rw [Coordination.staged_events] at hmember
  rcases List.mem_append.mp hmember with hmoney | hcoordination
  · exact absurd hclosure (hmovement event hmoney)
  unfold IsClosureEvent at hclosure
  cases hcase : operation.coordination <;> rw [hcase] at hcoordination
  case closed current row capturedMinor action =>
    exact ⟨row, capturedMinor, rfl, List.mem_singleton.mp hcoordination⟩
  case refused row capturedMinor extra =>
    exact ⟨row, capturedMinor, rfl, List.mem_singleton.mp hcoordination⟩
  case none => cases hcoordination
  case created row requestedService =>
    rw [List.mem_singleton.mp hcoordination] at hclosure
    simp [createdEvent] at hclosure
  case dispatched current payload =>
    rw [List.mem_singleton.mp hcoordination] at hclosure
    simp [dispatchedEvent] at hclosure
  case traced current jobId => cases hcoordination
  case marked cancelled payload =>
    rw [List.mem_singleton.mp hcoordination] at hclosure
    simp [executedAfterCancellationEvent] at hclosure

theorem truthful_commit (h : Commit seen operation db db')
    (hasRead : SettledAsRead seen (.commit operation.staged) db)
    (hholds : ∀ row ∈ rowsRead seen, HoldTold row db) (hrows : ClosuresTold seen db)
    (htruth : Truthful db) : Truthful db' := by
  have hstays := Money.closedStays_commit h hasRead.status
  have hclosures := closuresStay_commit h hrows
  refine ⟨fullCapturesClose_commit h hasRead htruth.full, ?_, ?_⟩
  · intro id row hrow hclosed
    by_cases hcloses : operation.coordination.closes = some id
    · obtain ⟨closing, capturedMinor, hclosing, rfl⟩ := closing_of_closes hcloses
      obtain ⟨⟨landed, hlanded, -, hhold, hsettlement⟩, haccounted⟩ :=
        closing_lands h hasRead hholds htruth.full hclosing
      rw [hrow] at hlanded
      obtain rfl := Option.some.inj hlanded
      rw [hhold, hsettlement]
      exact ⟨haccounted.status, by rintro amount ⟨⟩⟩
    · have hbefore := closedNow_commit h hrows id
      rw [if_neg hcloses] at hbefore
      have hnow : closedNow id db = true := by
        rw [← hbefore, closedNow, hrow]
        exact hclosed
      obtain ⟨old, hold, holdClosed⟩ := (Option.any_eq_true _ _).mp hnow
      obtain ⟨found, hfound, hsame⟩ := hclosures id old hold holdClosed
      rw [hrow] at hfound
      obtain rfl := Option.some.inj hfound
      rw [hsame.hold, hsame.settlement]
      exact (htruth.rows id old hold holdClosed).stays hstays
  · intro event hmember hclosure amount hamount
    rw [commit_outbox h.committed] at hmember
    rcases List.mem_append.mp hmember with hold | hnew
    · obtain ⟨row, hrow, hclosed, haccounted⟩ := htruth.events event hold hclosure amount hamount
      obtain ⟨after, hafter, hsame⟩ := hclosures _ row hrow hclosed
      exact ⟨after, hafter, by rwa [hsame.status], hsame.hold ▸ haccounted.stays hstays⟩
    · obtain ⟨row, capturedMinor, hclosing, rfl⟩ := closure_event_staged operation hnew hclosure
      obtain rfl := closureEvent_captured hamount
      obtain ⟨⟨landed, hlanded, hclosed, hhold, -⟩, haccounted⟩ :=
        closing_lands h hasRead hholds htruth.full hclosing
      rw [(closureEvent_type row (some amount)).1]
      refine ⟨landed, hlanded, hclosed, ?_⟩
      rw [hhold]
      exact ⟨by rintro status ⟨⟩, haccounted.amount⟩

end Closings

/-- The hold behind a fulfillment, as it is stored. -/
def HoldOf (db : Db) (row : Fulfillment) (stored : PaymentAuthorization) : Prop :=
  ∃ hold, row.paymentAuthorizationId = some hold ∧ db.money.getAuthorization hold = some stored

/-- What a fulfillment says about its money is what its hold says. -/
structure SettlementTrue (db : Db) (row : Fulfillment) : Prop where
  released : row.settlementState = .released →
    ∃ stored, HoldOf db row stored ∧ stored.capturedMinor = 0
  captured : row.settlementState = .captured →
    ∃ stored, HoldOf db row stored ∧ stored.capturedMinor = stored.amountMinor
  partially : row.settlementState = .partiallyCaptured →
    ∃ stored, HoldOf db row stored ∧
      0 < stored.capturedMinor ∧ stored.capturedMinor < stored.amountMinor
  published : ∀ event ∈ db.outbox, IsClosureEvent event → event.entityId = row.fulfillmentId →
    ∀ amount, ("captured_minor", .number amount) ∈ event.payload →
      ∃ stored, HoldOf db row stored ∧ stored.capturedMinor = amount

/-- Settlement truth as a law of the database. -/
def settlement : Law where
  inv := Truthful
  guar := fun db db' => (∀ id, ClosedStays id db db') ∧ ClosuresStay db db'
  guar_refl := fun db => ⟨fun id => ClosedStays.refl id db, ClosuresStay.refl db⟩
  guar_trans := fun h h' => ⟨fun id => (h.1 id).trans (h'.1 id), h.2.trans h'.2⟩
  known := fun query answer db =>
    (∀ row ∈ rowsShown ⟨.read query, .ok answer⟩, HoldTold row db) ∧
      closure.known query answer db
  known_stable := by
    rintro query answer db db' ⟨hholds, hclosures⟩ ⟨hrows, hknown⟩
    refine ⟨fun row hrow hclosed => ?_, closure.known_stable hclosures hknown⟩
    obtain ⟨stored, hstored, hstatus, hamount⟩ := hrows row hrow hclosed
    obtain ⟨after, hafter, hsame, hcaptured⟩ :=
      (hholds _).status stored hstored (by rwa [hstatus])
    exact ⟨after, hafter, hsame.trans hstatus, hcaptured.trans hamount⟩

theorem truthful_empty (start : Int) : settlement.inv (Db.empty start) :=
  ⟨by rintro transaction ⟨⟩, by rintro id row ⟨⟩, by rintro event ⟨⟩⟩

/-- A hold is shown only if it is stored, under the identifier it carries. -/
theorem hold_told {db : Db} (h : Stocked db) {row : PaymentAuthorization}
    (hmember : row ∈ db.money.authorizations.values) : HoldTold row db := by
  intro _
  obtain ⟨id, hid⟩ := Table.mem_values.mp hmember
  have hkey : row.authorizationId = id := h.money.keyed id row hid
  exact ⟨row, by rw [hkey]; exact hid, rfl, rfl⟩

/-- A step that leaves holds, rows and outbox alone leaves what they say true. -/
theorem Truthful.carried {db db' : Db} (h : Truthful db) (hmoney : db'.money = db.money)
    (hrows : db'.fulfillments = db.fulfillments) (houtbox : db'.outbox = db.outbox) :
    Truthful db' ∧ settlement.guar db db' := by
  have hstays : ∀ id, ClosedStays id db db' := by
    intro id
    have hrefl := ClosedStays.refl id db
    exact ⟨by rw [hmoney]; exact hrefl.status, by rw [hmoney]; exact hrefl.captures⟩
  refine ⟨⟨by unfold FullCapturesClose; rw [hmoney]; exact h.full, ?_, ?_⟩, hstays,
    by unfold ClosuresStay; rw [hrows]; exact ClosuresStay.refl db⟩
  · intro id row hrow hclosed
    rw [hrows] at hrow
    exact (h.rows id row hrow hclosed).stays hstays
  · intro event hmember hclosure amount hamount
    rw [houtbox] at hmember
    rw [hrows]
    obtain ⟨row, hrow, hclosed, haccounted⟩ := h.events event hmember hclosure amount hamount
    exact ⟨row, hrow, hclosed, haccounted.stays hstays⟩

theorem settlement_holds : settlement.Holds SettledAsRead where
  commit := by
    intro seen operation db db' h hinv htold hasRead
    have hholds : ∀ row ∈ rowsRead seen, HoldTold row db :=
      htold.shown (fun _ _ hknown => hknown.1) (fun _ hother => (shown_nothing hother).1)
    have hrows : ClosuresTold seen db :=
      htold.shown (fun _ _ hknown => hknown.2) (fun _ hother => (shown_nothing hother).2.1)
    exact ⟨truthful_commit h hasRead hholds hrows hinv,
      Money.closedStays_commit h hasRead.status, closuresStay_commit h hrows⟩
  record := fun _ hinv => hinv.carried rfl rfl rfl
  tick := fun _ _ hinv => hinv.carried rfl rfl rfl
  read := fun _ hstocked _ =>
    ⟨fun _ hrow => hold_told hstocked (shown_stored rfl hrow), closure_read hstocked rfl⟩

/-- In every run whose commits find every hold in the status their call read, a
closed fulfillment's settlement and the amount in its closure event are what the
hold says, at the closing and ever after. -/
theorem run_settlement {start : Int} {world : World Db Action Action.Answer Thrown Unit}
    (hrun : Run core requests SettledAsRead (World.initial (Db.empty start)) world)
    {id : String} {row : Fulfillment} (hrow : world.store.fulfillments.get id = some row)
    (hclosed : isClosed row.status = true) : SettlementTrue world.store row := by
  obtain ⟨-, ⟨hstocked, htruth⟩, -⟩ := settlement_holds.run (truthful_empty start) hrun
  have hstatus := (htruth.rows id row hrow hclosed).status
  constructor
  · intro hreleased
    obtain ⟨hold, stored, hhold, hstored, hvoided⟩ := hstatus .voided (by rw [hreleased]; rfl)
    exact ⟨stored, ⟨hold, hhold, hstored⟩, (hstocked.money.shaped _ _ hstored).voided_zero hvoided⟩
  · intro hcaptured
    obtain ⟨hold, stored, hhold, hstored, hfull⟩ := hstatus .captured (by rw [hcaptured]; rfl)
    exact ⟨stored, ⟨hold, hhold, hstored⟩, (hstocked.money.shaped _ _ hstored).captured_eq hfull⟩
  · intro hpartially
    obtain ⟨hold, stored, hhold, hstored, hpartial⟩ :=
      hstatus .partiallyCaptured (by rw [hpartially]; rfl)
    exact ⟨stored, ⟨hold, hhold, hstored⟩,
      (hstocked.money.shaped _ _ hstored).partially_between hpartial⟩
  · intro event hmember hclosure hentity amount hamount
    obtain ⟨found, hfound, -, haccounted⟩ := htruth.events event hmember hclosure amount hamount
    rw [hentity, hstocked.fulfillments id row hrow, hrow] at hfound
    obtain rfl := Option.some.inj hfound
    obtain ⟨hold, stored, hhold, hstored, -, hcaptured⟩ := haccounted.amount amount rfl
    exact ⟨stored, ⟨hold, hhold, hstored⟩, hcaptured⟩

/-- A fulfillment taken up with a hold of 60, and a cancellation decided on it. -/
def cancellationDecided : Schedule :=
  holdPlaced ++
  .start (Request.marketOrder ⟨"order", idOf '1', "delivery", some (idOf '4')⟩).call ::
    acts 3 [.proceed, .proceed, .proceed, .drawn (idOf '5'), .proceed, .proceed] ++
  .start (Request.cancel ⟨idOf '5', "changed"⟩).call ::
    acts 4 [.proceed, .proceed, .proceed, .proceed, .proceed]

set_option maxRecDepth 20000 in
theorem run_settlement_cancelled :
    ∃ world row, play core (fun seen action db => SettledAsRead seen action db)
        (cancellationDecided ++ committed 4) (World.initial (Db.empty 0)) = some world ∧
      world.store.fulfillments.get (idOf '5') = some row ∧ row.settlementState = .released ∧
      SettlementTrue world.store row := by
  have hplays : (play core (fun seen action db => SettledAsRead seen action db)
      (cancellationDecided ++ committed 4) (World.initial (Db.empty 0))).any
        (fun world => (world.store.fulfillments.get (idOf '5')).any
          (fun row => isClosed row.status ∧ row.settlementState = .released)) = true := by
    decide +kernel
  obtain ⟨world, hworld, hany⟩ := (Option.any_eq_true _ _).mp hplays
  obtain ⟨row, hrow, hstatus⟩ := (Option.any_eq_true _ _).mp hany
  obtain ⟨hclosed, hreleased⟩ := of_decide_eq_true hstatus
  refine ⟨world, row, hworld, hrow, hreleased,
    run_settlement (play_run hworld ?_ (fun _ _ _ h => of_decide_eq_true h)) hrow hclosed⟩
  simp [cancellationDecided, holdPlaced, walletOpened, creditPosted, authorizeDecided,
    authorizeCommitted, committed, acts]

/-- A capture of the hold decides before the cancellation commits and commits after. -/
def capturedAfterRelease : Schedule :=
  cancellationDecided ++
  .start (Money.Request.capture ⟨idOf '4', none, none⟩).call ::
    captureDecided 5 (idOf '6') ++ committed 4 ++ committed 5

set_option maxRecDepth 20000 in
/-- Without the condition a fulfillment says `released` of a hold captured in full. -/
theorem settlement_fails : ¬∀ (start : Int) (world : World Db Action Action.Answer Thrown Unit),
    Run core requests anything (World.initial (Db.empty start)) world →
    ∀ id row, world.store.fulfillments.get id = some row → isClosed row.status = true →
      SettlementTrue world.store row := by
  intro htrue
  have hplays : (play core unrestricted capturedAfterRelease (World.initial (Db.empty 0))).any
      (fun world => (world.store.fulfillments.get (idOf '5')).any
        (fun row => (isClosed row.status ∧ row.settlementState = .released ∧
          row.paymentAuthorizationId = some (idOf '4')) ∧
          (world.store.money.getAuthorization (idOf '4')).map
            PaymentAuthorization.capturedMinor = some 60)) = true := by decide +kernel
  obtain ⟨world, hworld, hany⟩ := (Option.any_eq_true _ _).mp hplays
  obtain ⟨row, hrow, hstatus⟩ := (Option.any_eq_true _ _).mp hany
  obtain ⟨⟨hclosed, hreleased, hhold⟩, hcaptured⟩ := of_decide_eq_true hstatus
  have hrun := unrestricted_run hworld (by
    simp [capturedAfterRelease, cancellationDecided, holdPlaced, walletOpened, creditPosted,
      authorizeDecided, authorizeCommitted, captureDecided, committed, acts])
  obtain ⟨stored, ⟨hold, hheld, hstored⟩, hzero⟩ :=
    (htrue 0 world hrun _ row hrow hclosed).released hreleased
  rw [hhold] at hheld
  obtain rfl := Option.some.inj hheld
  rw [hstored, Option.map_some, hzero] at hcaptured
  cases hcaptured

end WaslaCore.Fulfillment
